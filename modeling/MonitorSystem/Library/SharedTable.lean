import MonitorSystem.Library.CachedLoop

/-!
# A table in shared memory

A writer refills a table of a fixed number of rows from the start, and marks the row behind the
last one when there is one left.  A reader goes through the rows up to the mark, and looks each row
up in a cache under its name.

* `Layout`: how a row is written and marked, and how the reader tells a mark;
* `Layout.refill`: the writer; `Layout.live`: the rows up to the mark;
* `scan`: the reader, which is a loop over the live rows (`scan_eq_loop`).

Whatever the table held before, the live rows after a refill are the entries that fit
(`Layout.map_live_refill`).
-/

namespace SharedTable

/-! ### The writer -/

/-- What the writer and the reader agree on: a written row carries no mark, and a marked one
does. -/
structure Layout (E R : Type*) where
  write : E → R → R
  terminate : R → R
  isEnd : R → Bool
  isEnd_write : ∀ e r, isEnd (write e r) = false
  isEnd_terminate : ∀ r, isEnd (terminate r) = true

namespace Layout

variable {E R V : Type*} (layout : Layout E R)

/-- Write the entries over the rows while there are rows, and mark the next row. -/
def refill : List E → List R → List R
  | _, [] => []
  | [], r :: rest => layout.terminate r :: rest
  | e :: es, r :: rest => layout.write e r :: refill es rest

/-- The rows up to the mark. -/
def live (table : List R) : List R := table.takeWhile fun r => !layout.isEnd r

theorem length_refill (es : List E) (table : List R) :
    (layout.refill es table).length = table.length := by
  induction table generalizing es with
  | nil => cases es <;> rfl
  | cons r rest ih =>
    cases es with
    | nil => rfl
    | cons e es => rw [refill, List.length_cons, List.length_cons, ih]

theorem live_cons_of_isEnd {r : R} (h : layout.isEnd r = true) (rest : List R) :
    layout.live (r :: rest) = [] := by
  simp [live, h]

theorem live_cons {r : R} (h : layout.isEnd r = false) (rest : List R) :
    layout.live (r :: rest) = r :: layout.live rest := by
  simp [live, h]

/-- After a refill the live rows are the entries that fit, as far as a view can see that depends on
what was written only. -/
theorem map_live_refill {view : R → V} {image : E → V}
    (hview : ∀ e r, view (layout.write e r) = image e) (es : List E) (table : List R) :
    (layout.live (layout.refill es table)).map view = (es.take table.length).map image := by
  induction table generalizing es with
  | nil => cases es <;> simp [refill, live]
  | cons r rest ih =>
    cases es with
    | nil => simp [refill, layout.live_cons_of_isEnd (layout.isEnd_terminate r)]
    | cons e es =>
      rw [refill, layout.live_cons (layout.isEnd_write e r), List.map_cons, hview, ih]
      rfl

/-- A reader of the first rows only reads the first of the live rows. -/
theorem live_take (n : ℕ) (table : List R) :
    layout.live (table.take n) = (layout.live table).take n :=
  List.take_takeWhile.symm

end Layout

/-! ### The reader -/

section Scan

variable {K R C M : Type*} [DecidableEq K] (isEnd : R → Bool) (nameOf : R → K)
  (emit : R → Option C → Option M) (keep : R → C)

/-- Go through the rows up to the mark, with a cache. -/
def scan : List R → (K → Option C) → List M × (K → Option C)
  | [], cache => ([], cache)
  | r :: rest, cache =>
    if isEnd r then ([], cache)
    else
      let (messages, cache') := scan rest (Function.update cache (nameOf r) (some (keep r)))
      ((emit r (cache (nameOf r))).toList ++ messages, cache')

/-- The scan is a loop over the rows up to the mark. -/
theorem scan_eq_loop (table : List R) (cache : K → Option C) :
    scan isEnd nameOf emit keep table cache =
      CachedLoop.loop nameOf emit keep (table.takeWhile fun r => !isEnd r) cache := by
  induction table generalizing cache with
  | nil => rfl
  | cons r rest ih =>
    cases hend : isEnd r with
    | true => simp [scan, hend, CachedLoop.loop]
    | false => simp [scan, hend, CachedLoop.loop_cons, ih]

end Scan

end SharedTable

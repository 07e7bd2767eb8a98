import MonitorSystem.Library.Paging

/-!
# Pages of a growing table

A table is read page by page, with one selection for each page, while rows are added to it whose
keys stand before all others.  The list that a page is cut from then ends with the list that the
page before was cut from (`Grows`): rows move to later pages, and a reader may see some of them
twice.  None that was there at first is left out, if the reader goes on until the pages could hold
as many rows as there are (`exists_mem_page`).
-/

namespace Paging

variable {α K : Type*} [LinearOrder K] {key : α → K}

/-- Arrangements of rows with distinct keys are the same. -/
theorem Arrangement.eq_of_nodup {rows l l' : List α} (h : Arrangement key rows l)
    (h' : Arrangement key rows l') (hnodup : (rows.map key).Nodup) : l = l' := by
  have hkeys := h.map_key_eq h'
  have hlength : l.length = l'.length := h.perm.length_eq.trans h'.perm.length_eq.symm
  refine List.ext_getElem hlength fun i hi hi' => ?_
  refine List.inj_on_of_nodup_map hnodup (h.perm.mem_iff.1 (List.getElem_mem hi))
    (h'.perm.mem_iff.1 (List.getElem_mem hi')) ?_
  rw [← List.getElem_map key (h := by rwa [List.length_map]),
    ← List.getElem_map key (h := by rwa [List.length_map])]
  simp only [hkeys]

/-- The rows, at the time of page `p`, with those that have been added before page `p + 1`. -/
structure Grows (key : α → K) (rows : ℕ → List α) : Prop where
  added : ∀ p, ∃ new, rows (p + 1) = rows p ++ new ∧ ∀ a ∈ rows p, ∀ b ∈ new, key b < key a
  nodup : ∀ p, ((rows p).map key).Nodup

variable {rows choice : ℕ → List α}

/-- Added rows stand in front. -/
theorem Grows.suffix (hgrows : Grows key rows) (hchoice : ∀ p, Arrangement key (rows p) (choice p))
    (p : ℕ) : choice p <:+ choice (p + 1) := by
  obtain ⟨new, hadded, hlt⟩ := hgrows.added p
  obtain ⟨front, hfront⟩ := exists_arrangement key new
  have harr : Arrangement key (rows (p + 1)) (front ++ choice p) := by
    refine ⟨?_, List.pairwise_append.2 ⟨hfront.sorted, (hchoice p).sorted, fun b hb a ha => ?_⟩⟩
    · rw [hadded]
      exact List.perm_append_comm.trans ((hchoice p).perm.append hfront.perm)
    · exact (hlt a ((hchoice p).perm.mem_iff.1 ha) b (hfront.perm.mem_iff.1 hb)).le
  rw [(hchoice (p + 1)).eq_of_nodup harr (hgrows.nodup (p + 1))]
  exact List.suffix_append _ _

/-- A row is on the page that its place falls on. -/
theorem mem_page_append {size p : ℕ} {front rest : List α} {a : α} (hle : p * size ≤ front.length)
    (hlt : front.length < (p + 1) * size) : a ∈ page size p (front ++ a :: rest) := by
  rw [Nat.add_mul, one_mul] at hlt
  rw [page, List.drop_append_of_le_length hle, List.mem_iff_getElem]
  refine ⟨front.length - p * size, ?_, ?_⟩
  · simp only [List.length_take, List.length_append, List.length_drop, List.length_cons]
    omega
  · rw [List.getElem_take, List.getElem_append_right (by rw [List.length_drop])]
    simp

/-- A page with a row on it is one of the pages that are counted. -/
theorem lt_pageCount_of_mem_page {size p : ℕ} (hsize : 0 < size) {l : List α} {a : α}
    (ha : a ∈ page size p l) : p < pageCount size l.length := by
  refine lt_pageCount hsize (not_le.1 fun hle => ?_)
  rw [page, List.drop_of_length_le hle, List.take_nil] at ha
  cases ha

/-- **No row is left out.**  A row that was there at the time of the first page is on one of the
pages, if these could hold as many rows as there are at the time of the last page. -/
theorem exists_mem_page (hsuffix : ∀ p, choice p <:+ choice (p + 1)) {size n : ℕ}
    (hend : (choice n).length ≤ (n + 1) * size) {a : α} (ha : a ∈ choice 0) :
    ∃ p ≤ n, a ∈ page size p (choice p) := by
  obtain ⟨front₀, rest, hfirst⟩ := List.append_of_mem ha
  have hends : ∀ p, ∃ front, front ++ a :: rest = choice p := by
    intro p
    induction p with
    | zero => exact ⟨front₀, hfirst.symm⟩
    | succ p ih => exact List.IsSuffix.trans ih (hsuffix p)
  choose front hfront using hends
  have hlength (p : ℕ) : (choice p).length = (front p).length + (rest.length + 1) := by
    rw [← hfront, List.length_append, List.length_cons]
  -- the first page that its place, which moves back from page to page, does not lie behind
  have hlast : (front n).length < (n + 1) * size := by
    rw [hlength] at hend
    omega
  have hreached : ∃ p, (front p).length < (p + 1) * size := ⟨n, hlast⟩
  refine ⟨Nat.find hreached, Nat.find_min' hreached hlast, ?_⟩
  rw [← hfront]
  refine mem_page_append ?_ (Nat.find_spec hreached)
  cases hp : Nat.find hreached with
  | zero => simp
  | succ q =>
    have hbehind := not_lt.1 (Nat.find_min hreached (m := q) (by omega))
    have hmoved := (hsuffix q).length_le
    rw [hlength, hlength] at hmoved
    omega

end Paging

import Mathlib.Tactic

/-!
# Pages of an ordered selection

A selection ordered by a key may list rows with equal keys in any order, and in another order each
time that it is asked (`Arrangement`).  When a list is read page by page with one selection for
each page, the pages fit together if they are all cut from the same arrangement; here nothing says
that they are.

`tiles_iff` says when the pages together hold every row once, whatever arrangement each of them is
cut from: no key has rows on both sides of a page boundary, or the rows with such a key all look
the same.
-/

namespace Paging

variable {α β K : Type*} [LinearOrder K] (key : α → K)

/-- A list that a selection of `rows` ordered by `key` may return. -/
structure Arrangement (rows l : List α) : Prop where
  perm : l.Perm rows
  sorted : l.Pairwise fun a b => key a ≤ key b

/-- Page `p` of a list, from page 0 on. -/
def page (size p : ℕ) (l : List α) : List α := (l.drop (p * size)).take size

/-- The number of pages for `n` rows. -/
def pageCount (size n : ℕ) : ℕ := (n + size - 1) / size

/-- The pages, each cut from a list of its own. -/
def pages (size n : ℕ) (choice : ℕ → List α) : List α :=
  (List.range n).flatMap fun p => page size p (choice p)

/-- The number of rows before the key `t`. -/
def before (t : K) (rows : List α) : ℕ := rows.countP fun a => key a < t

/-- The number of rows up to the key `t`. -/
def upTo (t : K) (rows : List α) : ℕ := rows.countP fun a => key a ≤ t

/-- The rows with key `t` lie on both sides of the boundary before some page. -/
def Straddles (size : ℕ) (t : K) (rows : List α) : Prop :=
  ∃ p, before key t rows < p * size ∧ p * size < upTo key t rows

/-- The pages show every row once, whatever arrangements they are cut from. -/
def Tiles (f : α → β) (size : ℕ) (rows : List α) : Prop :=
  ∀ choice : ℕ → List α, (∀ p < pageCount size rows.length, Arrangement key rows (choice p)) →
    ((pages size (pageCount size rows.length) choice).map f).Perm (rows.map f)

theorem le_pageCount_mul {size : ℕ} (hsize : 0 < size) (n : ℕ) : n ≤ pageCount size n * size := by
  have hdiv := Nat.div_add_mod (n + size - 1) size
  have hmod := Nat.mod_lt (n + size - 1) hsize
  rw [pageCount, mul_comm]
  omega

theorem lt_pageCount {size p n : ℕ} (hsize : 0 < size) (h : p * size < n) :
    p < pageCount size n :=
  lt_of_mul_lt_mul_right (h.trans_le (le_pageCount_mul hsize n)) size.zero_le

theorem mul_lt_of_lt_pageCount {size p n : ℕ} (hsize : 0 < size) (h : p < pageCount size n) :
    p * size < n := by
  have hle : (p + 1) * size ≤ n + size - 1 := (Nat.le_div_iff_mul_le hsize).1 h
  rw [Nat.add_mul, one_mul] at hle
  omega

/-! ### Arrangements -/

section Arrangement

variable {key} {rows l l' : List α}

theorem exists_arrangement (key : α → K) (rows : List α) : ∃ l, Arrangement key rows l := by
  refine ⟨rows.mergeSort fun a b => key a ≤ key b, List.mergeSort_perm _ _, ?_⟩
  have hsorted : (rows.mergeSort fun a b => key a ≤ key b).Pairwise fun a b =>
      decide (key a ≤ key b) = true := List.pairwise_mergeSort
    (fun a b c hab hbc => by simpa using le_trans (of_decide_eq_true hab) (of_decide_eq_true hbc))
    (fun a b => by simpa using le_total (key a) (key b)) rows
  exact hsorted.imp fun h => of_decide_eq_true h

/-- All arrangements have the same keys in the same places. -/
theorem Arrangement.map_key_eq (h : Arrangement key rows l) (h' : Arrangement key rows l') :
    l.map key = l'.map key :=
  List.Perm.eq_of_pairwise' (r := (· ≤ ·)) (List.pairwise_map.2 h.sorted)
    (List.pairwise_map.2 h'.sorted) ((h.perm.trans h'.perm.symm).map key)

/-- A sorted list consists of the rows before a key, with it and after it. -/
theorem eq_filter_append (hsorted : l.Pairwise fun a b => key a ≤ key b) (t : K) :
    l = l.filter (key · < t) ++ (l.filter (key · = t) ++ l.filter (t < key ·)) := by
  induction l with
  | nil => rfl
  | cons a l ih =>
    obtain ⟨hle, hrest⟩ := List.pairwise_cons.1 hsorted
    have hlt : t ≤ key a → l.filter (key · < t) = [] := fun ht =>
      List.filter_eq_nil_iff.2 fun b hb => by simpa using ht.trans (hle b hb)
    rcases lt_trichotomy (key a) t with h | h | h
    · simpa [h, h.ne, h.not_gt] using ih hrest
    · have hih := ih hrest
      rw [hlt h.ge] at hih
      simpa [h, hlt h.ge] using hih
    · have heq : l.filter (key · = t) = [] :=
        List.filter_eq_nil_iff.2 fun b hb => by simpa using (h.trans_le (hle b hb)).ne'
      have hgt : l.filter (t < key ·) = l :=
        List.filter_eq_self.2 fun b hb => by simpa using h.trans_le (hle b hb)
      simp [h, h.ne', h.not_gt, hlt h.le, heq, hgt]

theorem length_filter_lt (h : Arrangement key rows l) (t : K) :
    (l.filter (key · < t)).length = before key t rows := by
  rw [← List.countP_eq_length_filter, before, h.perm.countP_eq]

theorem length_filter_eq (h : Arrangement key rows l) (t : K) :
    before key t rows + (l.filter (key · = t)).length = upTo key t rows := by
  rw [before, upTo, ← h.perm.countP_eq, ← h.perm.countP_eq, ← List.countP_eq_length_filter]
  clear h
  induction l with
  | nil => rfl
  | cons a l ih =>
    rcases lt_trichotomy (key a) t with ht | ht | ht
    · simp [ht, ht.le, ht.ne]
      omega
    · simp [ht]
      omega
    · simpa [ht.ne', ht.not_gt, ht.not_ge] using ih

/-- The rows before a key come first. -/
theorem Arrangement.key_lt_of_mem_take (h : Arrangement key rows l) {t : K} {m : ℕ}
    (hm : m ≤ before key t rows) {a : α} (ha : a ∈ l.take m) : key a < t := by
  rw [eq_filter_append h.sorted t, List.take_append_of_le_length
    (by rwa [length_filter_lt h])] at ha
  simpa using List.of_mem_filter (List.mem_of_mem_take ha)

/-- The rows after a key come last. -/
theorem Arrangement.lt_key_of_mem_drop (h : Arrangement key rows l) {t : K} {m : ℕ}
    (hm : upTo key t rows ≤ m) {a : α} (ha : a ∈ l.drop m) : t < key a := by
  have hlength : (l.filter (key · < t) ++ l.filter (key · = t)).length = upTo key t rows := by
    rw [List.length_append, length_filter_lt h, length_filter_eq h]
  rw [eq_filter_append h.sorted t, ← List.append_assoc, List.drop_append,
    List.drop_eq_nil_of_le (hlength.trans_le hm), List.nil_append] at ha
  simpa using List.of_mem_filter (List.mem_of_mem_drop ha)

/-- The rows with one key can be listed in any order. -/
theorem Arrangement.regroup (h : Arrangement key rows l) (t : K) {group : List α}
    (hgroup : group.Perm (l.filter (key · = t))) :
    Arrangement key rows (l.filter (key · < t) ++ (group ++ l.filter (t < key ·))) where
  perm := by
    refine List.Perm.trans ?_ h.perm
    conv_rhs => rw [eq_filter_append h.sorted t]
    exact (hgroup.append_right _).append_left _
  sorted := by
    have hkey : ∀ a ∈ group, key a = t := fun a ha => by
      simpa using List.of_mem_filter (hgroup.subset ha)
    refine List.pairwise_append.2 ⟨h.sorted.filter _, List.pairwise_append.2
      ⟨?_, h.sorted.filter _, fun a ha b hb => ?_⟩, fun a ha b hb => ?_⟩
    · exact List.pairwise_of_forall_mem_list fun a ha b hb => (hkey a ha).trans_le (hkey b hb).ge
    · have hb : t < key b := by simpa using List.of_mem_filter hb
      exact (hkey a ha).trans_le hb.le
    · have ha : key a < t := by simpa using List.of_mem_filter ha
      rcases List.mem_append.1 hb with hb | hb
      · exact ha.le.trans (hkey b hb).ge
      · have hb : t < key b := by simpa using List.of_mem_filter hb
        exact (ha.trans hb).le

end Arrangement

/-! ### Cutting pages -/

theorem mem_of_mem_page {size p : ℕ} {l : List α} {a : α} (ha : a ∈ page size p l) : a ∈ l :=
  List.mem_of_mem_drop (List.mem_of_mem_take ha)

theorem exists_mem_of_mem_pages {size n : ℕ} {choice : ℕ → List α} {a : α}
    (ha : a ∈ pages size n choice) : ∃ p < n, a ∈ choice p := by
  obtain ⟨p, hp, ha⟩ := List.mem_flatMap.1 ha
  exact ⟨p, List.mem_range.1 hp, mem_of_mem_page ha⟩

theorem take_succ_mul (size p : ℕ) (l : List α) :
    l.take ((p + 1) * size) = l.take (p * size) ++ page size p l := by
  rw [page, Nat.add_mul, one_mul, List.take_add]

theorem pages_succ (size n : ℕ) (choice : ℕ → List α) :
    pages size (n + 1) choice = pages size n choice ++ page size n (choice n) := by
  simp [pages, List.range_succ]

/-- The pages of one list are the list. -/
theorem pages_const {size : ℕ} (hsize : 0 < size) (l : List α) :
    pages size (pageCount size l.length) (fun _ => l) = l := by
  have htake : ∀ n, pages size n (fun _ => l) = l.take (n * size) := by
    intro n
    induction n with
    | zero => simp [pages]
    | succ n ih => rw [pages_succ, ih, take_succ_mul]
  rw [htake, List.take_of_length_le (le_pageCount_mul hsize _)]

/-- Wherever the pages are cut from, they have as many rows as there are. -/
theorem length_pages {size n : ℕ} (hsize : 0 < size) {choice : ℕ → List α}
    (hchoice : ∀ p < pageCount size n, (choice p).length = n) :
    (pages size (pageCount size n) choice).length = n := by
  have hmin : ∀ k ≤ pageCount size n, (pages size k choice).length = min (k * size) n := by
    intro k hk
    induction k with
    | zero => simp [pages]
    | succ k ih =>
      rw [pages_succ, List.length_append, ih (Nat.le_of_succ_le hk), page, List.length_take,
        List.length_drop, hchoice k hk, Nat.add_mul]
      omega
  rw [hmin _ le_rfl, min_eq_right (le_pageCount_mul hsize n)]

/-- Two choices that differ at one page only give lists that differ there only. -/
theorem pages_update (size : ℕ) {n p : ℕ} (hp : p < n) (choice : ℕ → List α) :
    ∃ before behind : List α, ∀ l, pages size n (Function.update choice p l) =
      before ++ (page size p l ++ behind) := by
  obtain ⟨s, t, hrange⟩ := List.append_of_mem (List.mem_range.2 hp)
  have hnodup : (s ++ p :: t).Nodup := hrange ▸ List.nodup_range
  obtain ⟨hnotMem, -⟩ := List.nodup_middle.1 hnodup |> List.nodup_cons.1
  refine ⟨s.flatMap fun q => page size q (choice q), t.flatMap fun q => page size q (choice q),
    fun l => ?_⟩
  have hother : ∀ q ∈ s ++ t, page size q (Function.update choice p l q) =
      page size q (choice q) := fun q hq => by
    have hne : q ≠ p := fun h => hnotMem (h ▸ hq)
    rw [Function.update_of_ne hne]
  rw [pages, hrange, List.flatMap_append, List.flatMap_cons, Function.update_self,
    List.flatMap_congr fun q hq => hother q (List.mem_append_left t hq),
    List.flatMap_congr fun q hq => hother q (List.mem_append_right s hq)]

/-! ### Rows that yield several records -/

section Yield

variable {f : α → List β} {l : List α}

theorem length_flatMap_of_one (hone : ∀ a ∈ l, (f a).length = 1) :
    (l.flatMap f).length = l.length := by
  rw [List.length_flatMap, List.map_congr_left hone, List.map_const', List.sum_replicate,
    smul_eq_mul, mul_one]

/-- If every row yields at most one record, or every row at least one, and there are as many records
as rows, then every row yields one. -/
theorem one_of_length_flatMap (hlength : (l.flatMap f).length = l.length)
    (hside : (∀ a ∈ l, (f a).length ≤ 1) ∨ ∀ a ∈ l, 1 ≤ (f a).length) :
    ∀ a ∈ l, (f a).length = 1 := by
  have hones : (l.map fun _ => 1).sum = l.length := by
    rw [List.map_const', List.sum_replicate, smul_eq_mul, mul_one]
  rw [List.length_flatMap, ← hones] at hlength
  intro a ha
  by_contra hne
  rcases hside with hle | hge
  · exact (List.sum_lt_sum _ _ hle ⟨a, ha, lt_of_le_of_ne (hle a ha) hne⟩).ne hlength
  · exact (List.sum_lt_sum _ _ hge ⟨a, ha, lt_of_le_of_ne (hge a ha) (Ne.symm hne)⟩).ne hlength.symm

end Yield

/-! ### Counting rows before a cut -/

section Count

variable [DecidableEq β] {key} {f : α → β} {rows l l' : List α} {m : ℕ}

variable (key f) in
/-- The number of rows with key `t` that look like `x`. -/
def countOf (t : K) (x : β) (l : List α) : ℕ := l.countP fun a => key a = t ∧ f a = x

variable (key) in
theorem map_perm_of_countOf (h : ∀ t x, countOf key f t x l = countOf key f t x l') :
    (l.map f).Perm (l'.map f) := by
  have hcount (l : List α) (t : K) (x : β) :
      (l.map fun a => (key a, f a)).count (t, x) = countOf key f t x l := by
    rw [List.count_eq_countP, List.countP_map]
    exact List.countP_congr fun a _ => by simp
  have hpairs : (l.map fun a => (key a, f a)).Perm (l'.map fun a => (key a, f a)) :=
    List.perm_iff_count.2 fun ⟨t, x⟩ => by rw [hcount, hcount, h]
  simpa [List.map_map, Function.comp_def] using hpairs.map Prod.snd

variable {t : K} (x : β)

/-- No row of a group that begins behind the cut. -/
theorem Arrangement.countOf_take_of_le_before (h : Arrangement key rows l)
    (hm : m ≤ before key t rows) : countOf key f t x (l.take m) = 0 :=
  List.countP_eq_zero.2 fun a ha => by simp [(h.key_lt_of_mem_take hm ha).ne]

/-- All rows of a group that ends before the cut. -/
theorem Arrangement.countOf_take_of_upTo_le (h : Arrangement key rows l)
    (hm : upTo key t rows ≤ m) : countOf key f t x (l.take m) = countOf key f t x rows := by
  have hdrop : countOf key f t x (l.drop m) = 0 :=
    List.countP_eq_zero.2 fun a ha => by simp [(h.lt_key_of_mem_drop hm ha).ne']
  calc countOf key f t x (l.take m)
      = countOf key f t x (l.take m) + countOf key f t x (l.drop m) := by rw [hdrop, add_zero]
    _ = countOf key f t x l := by
        rw [countOf, countOf, ← List.countP_append, List.take_append_drop, countOf]
    _ = countOf key f t x rows := h.perm.countP_eq _

/-- Of a group that looks all the same, as many rows as have the key. -/
theorem Arrangement.countOf_take_of_same (h : Arrangement key rows l)
    (hsame : ∀ a ∈ rows, ∀ b ∈ rows, key a = t → key b = t → f a = f b) :
    countOf key f t x (l.take m) =
      if ∃ b ∈ rows, key b = t ∧ f b = x then ((l.map key).take m).count t else 0 := by
  have hmem : ∀ a ∈ l.take m, a ∈ rows := fun a ha => h.perm.subset (List.mem_of_mem_take ha)
  split_ifs with hx
  · obtain ⟨b, hb, hbt, rfl⟩ := hx
    rw [← List.map_take, List.count, List.countP_map]
    refine List.countP_congr fun a ha => ?_
    simpa using fun hat => hsame a (hmem a ha) b hb hat hbt
  · refine List.countP_eq_zero.2 fun a ha => ?_
    simpa using fun hat hax => hx ⟨a, hmem a ha, hat, hax⟩

end Count

/-! ### When the pages fit together -/

section Tiles

variable {key} {f : α → β} {rows l l' : List α} {size : ℕ}

/-- Where rows with equal keys on both sides of a cut look the same, all arrangements show the same
before the cut. -/
theorem Arrangement.take_perm (h : Arrangement key rows l) (h' : Arrangement key rows l') {m : ℕ}
    (hm : ∀ t, before key t rows < m → m < upTo key t rows →
      ∀ a ∈ rows, ∀ b ∈ rows, key a = t → key b = t → f a = f b) :
    ((l.take m).map f).Perm ((l'.take m).map f) := by
  classical
  refine map_perm_of_countOf key fun t x => ?_
  by_cases hbefore : m ≤ before key t rows
  · rw [h.countOf_take_of_le_before x hbefore, h'.countOf_take_of_le_before x hbefore]
  by_cases hupTo : upTo key t rows ≤ m
  · rw [h.countOf_take_of_upTo_le x hupTo, h'.countOf_take_of_upTo_le x hupTo]
  have hsame := hm t (not_le.1 hbefore) (not_le.1 hupTo)
  rw [h.countOf_take_of_same x hsame, h'.countOf_take_of_same x hsame, h.map_key_eq h']

theorem tiles_of_forall (hsize : 0 < size) (hsame : ∀ t, Straddles key size t rows →
    ∀ a ∈ rows, ∀ b ∈ rows, key a = t → key b = t → f a = f b) : Tiles key f size rows := by
  intro choice hchoice
  obtain ⟨l, hl⟩ := exists_arrangement key rows
  have hcut (p : ℕ) {l l' : List α} (h : Arrangement key rows l) (h' : Arrangement key rows l') :
      ((l.take (p * size)).map f).Perm ((l'.take (p * size)).map f) :=
    h.take_perm h' fun t hbefore hupTo => hsame t ⟨p, hbefore, hupTo⟩
  have hpages : ∀ n ≤ pageCount size rows.length,
      ((pages size n choice).map f).Perm ((l.take (n * size)).map f) := by
    intro n hn
    induction n with
    | zero => simp [pages]
    | succ n ih =>
      have harr := hchoice n hn
      calc (pages size (n + 1) choice).map f
          = (pages size n choice).map f ++ (page size n (choice n)).map f := by
            rw [pages_succ, List.map_append]
        List.Perm _ (((choice n).take (n * size)).map f ++ (page size n (choice n)).map f) :=
            ((ih (Nat.le_of_succ_le hn)).trans (hcut n hl harr)).append_right _
        _ = ((choice n).take ((n + 1) * size)).map f := by
            rw [take_succ_mul, List.map_append]
        List.Perm _ ((l.take ((n + 1) * size)).map f) := hcut (n + 1) harr hl
  refine (hpages _ le_rfl).trans ?_
  rw [List.take_of_length_le (hl.perm.length_eq.trans_le (le_pageCount_mul hsize _))]
  exact hl.perm.map f

/-- Two rows with one key can be listed on the two sides of a cut, either of them first. -/
theorem exists_swapped {t : K} {m : ℕ} (hbefore : before key t rows < m)
    (hupTo : m < upTo key t rows) {a b : α} (ha : a ∈ rows) (hb : b ∈ rows) (hat : key a = t)
    (hbt : key b = t) (hne : a ≠ b) : ∃ first rest : List α, first.length + 1 = m ∧
      Arrangement key rows (first ++ a :: b :: rest) ∧
      Arrangement key rows (first ++ b :: a :: rest) := by
  classical
  obtain ⟨l, h⟩ := exists_arrangement key rows
  have hmem : ∀ c, c ∈ l.filter (key · = t) ↔ c ∈ rows ∧ key c = t := fun c => by
    rw [List.mem_filter, h.perm.mem_iff, decide_eq_true_eq]
  obtain ⟨group, hgroup⟩ : ∃ group, (l.filter (key · = t)).Perm (a :: b :: group) := by
    refine ⟨((l.filter (key · = t)).erase a).erase b, ?_⟩
    refine (List.perm_cons_erase ((hmem a).2 ⟨ha, hat⟩)).trans (.cons a (List.perm_cons_erase ?_))
    exact (List.mem_erase_of_ne hne.symm).2 ((hmem b).2 ⟨hb, hbt⟩)
  have hlength : before key t rows + (group.length + 2) = upTo key t rows := by
    rw [← length_filter_eq h t, hgroup.length_eq, List.length_cons, List.length_cons]
  -- the part of the group before the two rows
  let k := m - before key t rows - 1
  have hplace : ∀ c d, (c :: d :: group).Perm (l.filter (key · = t)) →
      Arrangement key rows ((l.filter (key · < t) ++ group.take k) ++
        c :: d :: (group.drop k ++ l.filter (t < key ·))) := by
    intro c d hcd
    have hmiddle : (group.take k ++ c :: d :: group.drop k).Perm (l.filter (key · = t)) := by
      refine List.Perm.trans ?_ hcd
      refine List.perm_middle.trans (.cons c (List.perm_middle.trans (.cons d ?_)))
      rw [List.take_append_drop]
    simpa using h.regroup t hmiddle
  refine ⟨_, _, ?_, hplace a b hgroup.symm,
    hplace b a ((List.Perm.swap a b group).trans hgroup.symm)⟩
  rw [List.length_append, length_filter_lt h, List.length_take]
  omega

theorem eq_of_tiles (hsize : 0 < size) (htiles : Tiles key f size rows) {t : K}
    (hstraddles : Straddles key size t rows) {a b : α} (ha : a ∈ rows) (hb : b ∈ rows)
    (hat : key a = t) (hbt : key b = t) : f a = f b := by
  obtain ⟨p, hbefore, hupTo⟩ := hstraddles
  by_contra hne
  obtain ⟨first, rest, hlength, harr, harr'⟩ :=
    exists_swapped hbefore hupTo ha hb hat hbt fun h => hne (h ▸ rfl)
  have hp : p < pageCount size rows.length :=
    lt_pageCount hsize (hupTo.trans_le List.countP_le_length)
  -- the two lists differ in the first row of page `p`
  have hpage (c d : α) : page size p (first ++ c :: d :: rest) = d :: rest.take (size - 1) := by
    obtain ⟨n, rfl⟩ : ∃ n, size = n + 1 := ⟨size - 1, by omega⟩
    have hdrop : (first ++ c :: d :: rest).drop (p * (n + 1)) = d :: rest := by
      rw [← hlength, List.drop_append]
      simp
    rw [page, hdrop, List.take_succ_cons, Nat.add_sub_cancel]
  obtain ⟨front, behind, hpages⟩ := pages_update size hp fun _ => first ++ a :: b :: rest
  have hperm (l : List α) (hl : Arrangement key rows l) :
      ((front ++ (page size p l ++ behind)).map f).Perm (rows.map f) := by
    rw [← hpages l]
    refine htiles _ fun q _ => ?_
    by_cases hq : q = p
    · rwa [hq, Function.update_self]
    · rwa [Function.update_of_ne hq]
  have hboth := (hperm _ harr).trans (hperm _ harr').symm
  simp only [hpage, List.map_append, List.map_cons, List.cons_append,
    List.perm_append_left_iff] at hboth
  have hsingle : ([f b] ++ (rest.take (size - 1)).map f ++ behind.map f).Perm
      ([f a] ++ (rest.take (size - 1)).map f ++ behind.map f) := hboth
  rw [List.perm_append_right_iff, List.perm_append_right_iff, List.singleton_perm_singleton]
    at hsingle
  exact hne hsingle.symm

/-- **When pages fit together.**  The pages show every row once, whatever arrangements they are cut
from, if and only if rows with equal keys on both sides of a page boundary look the same. -/
theorem tiles_iff (hsize : 0 < size) : Tiles key f size rows ↔ ∀ t, Straddles key size t rows →
    ∀ a ∈ rows, ∀ b ∈ rows, key a = t → key b = t → f a = f b :=
  ⟨fun htiles _ hstraddles _ ha _ hb hat hbt => eq_of_tiles hsize htiles hstraddles ha hb hat hbt,
    tiles_of_forall hsize⟩

/-- When no two rows look the same, no key may have rows on both sides of a page boundary. -/
theorem tiles_iff_of_nodup (hsize : 0 < size) (hnodup : (rows.map f).Nodup) :
    Tiles key f size rows ↔ ∀ t, ¬ Straddles key size t rows := by
  rw [tiles_iff hsize]
  refine forall_congr' fun t => ⟨fun h hstraddles => ?_, fun h hstraddles => absurd hstraddles h⟩
  have hsame := h hstraddles
  obtain ⟨p, hbefore, hupTo⟩ := hstraddles
  obtain ⟨l, hl⟩ := exists_arrangement key rows
  have hlength := length_filter_eq hl t
  have hlnodup : ((l.filter (key · = t)).map f).Nodup :=
    ((hl.perm.map f).nodup_iff.2 hnodup).sublist (List.filter_sublist.map f)
  match hgroup : l.filter (key · = t) with
  | [] => simp [hgroup] at hlength; omega
  | [a] => simp [hgroup] at hlength; omega
  | a :: b :: group =>
    have hmem : ∀ c ∈ a :: b :: group, c ∈ rows ∧ key c = t := fun c hc => by
      rw [← hgroup, List.mem_filter, hl.perm.mem_iff, decide_eq_true_eq] at hc
      exact hc
    obtain ⟨ha, hat⟩ := hmem a (by simp)
    obtain ⟨hb, hbt⟩ := hmem b (by simp)
    rw [hgroup, List.map_cons, List.map_cons, List.nodup_cons] at hlnodup
    exact hlnodup.1 (hsame a ha b hb hat hbt ▸ List.mem_cons_self)

end Tiles

end Paging

import Mathlib.Tactic
import Mathlib.Data.Rat.Floor
import Mathlib.Data.Int.Log

/-!
# Numbers written by a C++ output stream

`ostream <<` with its default format: integers in decimal, floating-point numbers with six
significant digits (the `%g` conversion), in fixed notation while the decimal exponent lies in
`[-4, 6)` and in scientific notation outside, trailing zeros removed.

A value is taken exactly, as a rational, and rounded half to even to six significant digits.
All that the users of this file need of the output is which characters can occur in it
(`isNumeric_printG`, `isNumeric_natText`).
-/

namespace DecimalText

/-- The characters of a printed finite number. -/
def IsNumeric (c : Char) : Prop :=
  c.isDigit = true ∨ c = '-' ∨ c = '+' ∨ c = '.' ∨ c = 'e'

/-- Every character of a text is numeric. -/
def AllNumeric (l : List Char) : Prop := ∀ c ∈ l, IsNumeric c

theorem allNumeric_nil : AllNumeric [] := by simp [AllNumeric]

theorem allNumeric_cons {c : Char} {l : List Char} :
    AllNumeric (c :: l) ↔ IsNumeric c ∧ AllNumeric l := by simp [AllNumeric]

theorem allNumeric_append {l m : List Char} :
    AllNumeric (l ++ m) ↔ AllNumeric l ∧ AllNumeric m := by
  simp [AllNumeric, or_imp, forall_and]

theorem AllNumeric.sublist {l m : List Char} (h : AllNumeric m) (hs : l.Sublist m) :
    AllNumeric l := fun c hc => h c (hs.subset hc)

/-- A natural number in decimal. -/
def natText (n : ℕ) : List Char := Nat.toDigits 10 n

theorem isNumeric_natText (n : ℕ) : AllNumeric (natText n) := fun _ hc =>
  Or.inl (Nat.isDigit_of_mem_toDigits (by decide) (by decide) hc)

/-- An integer in decimal. -/
def intText (z : ℤ) : List Char :=
  if z < 0 then '-' :: natText z.natAbs else natText z.natAbs

theorem isNumeric_intText (z : ℤ) : AllNumeric (intText z) := by
  unfold intText
  split_ifs
  · exact allNumeric_cons.2 ⟨by simp [IsNumeric], isNumeric_natText _⟩
  · exact isNumeric_natText _

theorem natText_injective : Function.Injective natText := fun n n' h => by
  have hvalue := congrArg (fun l => Nat.ofDigitChars 10 l 0) h
  simpa only [natText, Nat.ofDigitChars_ten_toDigits] using hvalue

theorem minus_not_mem_natText (n : ℕ) : '-' ∉ natText n := fun hmem => by
  have hdigit : Char.isDigit '-' = true :=
    Nat.isDigit_of_mem_toDigits (by decide) (by decide) hmem
  exact absurd hdigit (by decide)

/-- Different integers are written differently. -/
theorem intText_injective : Function.Injective intText := by
  intro z z' h
  unfold intText at h
  split_ifs at h
  · have := natText_injective (List.cons.inj h).2
    omega
  · exact absurd (h ▸ List.mem_cons_self) (minus_not_mem_natText z'.natAbs)
  · exact absurd (h ▸ List.mem_cons_self) (minus_not_mem_natText z.natAbs)
  · have := natText_injective h
    omega

/-- Round to the nearest integer, ties to even. -/
def roundHalfEven (x : ℚ) : ℤ :=
  let f := ⌊x⌋
  let d := x - f
  if d < 1 / 2 then f else if 1 / 2 < d then f + 1 else if f % 2 = 0 then f else f + 1

/-- Drop the trailing zeros of a list of digits. -/
def stripZeros (ds : List Char) : List Char := (ds.reverse.dropWhile (· == '0')).reverse

theorem stripZeros_sublist (ds : List Char) : (stripZeros ds).Sublist ds := by
  have h := (List.dropWhile_sublist (l := ds.reverse) (· == '0')).reverse
  rwa [List.reverse_reverse] at h

/-- A fractional part, with its point; nothing when it is zero. -/
def fraction (ds : List Char) : List Char :=
  if stripZeros ds = [] then [] else '.' :: stripZeros ds

/-- Six significant digits `ds` with decimal exponent `e`, in fixed notation. -/
def fixedText (ds : List Char) (e : ℤ) : List Char :=
  if 0 ≤ e then ds.take (e.toNat + 1) ++ fraction (ds.drop (e.toNat + 1))
  else '0' :: fraction (List.replicate (-e - 1).toNat '0' ++ ds)

/-- Six significant digits `ds` with decimal exponent `e`, in scientific notation; the
exponent has at least two digits. -/
def scientificText (ds : List Char) (e : ℤ) : List Char :=
  ds.take 1 ++ fraction (ds.drop 1) ++ ['e', if e < 0 then '-' else '+'] ++
    (if e.natAbs < 10 then ['0'] else []) ++ natText e.natAbs

/-- The number that an unsigned text in fixed notation denotes. -/
def fixedValue (l : List Char) : ℚ :=
  let decimals := (l.dropWhile (· != '.')).drop 1
  Nat.ofDigitChars 10 (l.takeWhile (· != '.')) 0 +
    Nat.ofDigitChars 10 decimals 0 / 10 ^ decimals.length

/-- The `%g` conversion with its default precision. -/
def printG (q : ℚ) : List Char :=
  if q = 0 then ['0'] else
  let a := |q|
  let e₀ := Int.log 10 a
  let m₀ := (roundHalfEven (a * 10 ^ (5 - e₀))).toNat
  let carried := m₀ = 1000000
  let e := if carried then e₀ + 1 else e₀
  let ds := natText (if carried then 100000 else m₀)
  (if q < 0 then ['-'] else []) ++
    if -4 ≤ e ∧ e < 6 then fixedText ds e else scientificText ds e

theorem isNumeric_fraction {ds : List Char} (h : AllNumeric ds) : AllNumeric (fraction ds) := by
  unfold fraction
  split_ifs
  · exact allNumeric_nil
  · exact allNumeric_cons.2 ⟨by simp [IsNumeric], h.sublist (stripZeros_sublist ds)⟩

theorem isNumeric_fixedText {ds : List Char} (h : AllNumeric ds) (e : ℤ) :
    AllNumeric (fixedText ds e) := by
  unfold fixedText
  split_ifs
  · exact allNumeric_append.2 ⟨h.sublist (List.take_sublist _ _),
      isNumeric_fraction (h.sublist (List.drop_sublist _ _))⟩
  · refine allNumeric_cons.2 ⟨by simp [IsNumeric], isNumeric_fraction (allNumeric_append.2 ⟨?_, h⟩)⟩
    intro c hc
    rw [List.eq_of_mem_replicate hc]
    simp [IsNumeric]

theorem isNumeric_scientificText {ds : List Char} (h : AllNumeric ds) (e : ℤ) :
    AllNumeric (scientificText ds e) := by
  have hexp : AllNumeric ['e', if e < 0 then '-' else '+'] := by
    split_ifs <;> simp [AllNumeric, IsNumeric]
  have hpad : AllNumeric (if e.natAbs < 10 then ['0'] else []) := by
    split_ifs <;> simp [AllNumeric, IsNumeric]
  simp only [scientificText, allNumeric_append]
  exact ⟨⟨⟨⟨h.sublist (List.take_sublist _ _),
    isNumeric_fraction (h.sublist (List.drop_sublist _ _))⟩, hexp⟩, hpad⟩, isNumeric_natText _⟩

theorem isNumeric_printG (q : ℚ) : AllNumeric (printG q) := by
  by_cases hq : q = 0
  · simp [printG, hq, AllNumeric, IsNumeric]
  · simp only [printG, if_neg hq]
    refine allNumeric_append.2 ⟨by split_ifs <;> simp [AllNumeric, IsNumeric], ?_⟩
    split_ifs
    all_goals first
      | exact isNumeric_fixedText (isNumeric_natText _) _
      | exact isNumeric_scientificText (isNumeric_natText _) _

end DecimalText

import MonitorSystem.Library.DecimalText

/-!
# Character arrays of a C program

`char name[size]`, with the operations that make a C string of it.  The array keeps what stands
behind the terminator, which nobody who reads it as a string can see.
-/

/-- `char[size]`. -/
structure CharBuffer (size : ℕ) where
  chars : List Char
  length_eq : chars.length = size

namespace CharBuffer

/-- The terminator. -/
abbrev nul : Char := Char.ofNat 0

variable {size : ℕ}

/-- An array of zeros. -/
def zero : CharBuffer size := ⟨List.replicate size nul, List.length_replicate⟩

/-- `snprintf(name, sizeof(name), ...)` with the output `text`, which is cut so that the terminator
fits. -/
def snprintf (text : List Char) (name : CharBuffer size) : CharBuffer size where
  chars := (text.take (size - 1) ++ [nul]).take size ++
    name.chars.drop ((text.take (size - 1) ++ [nul]).take size).length
  length_eq := by
    have h := name.length_eq
    simp
    omega

/-- `name[0] = '\0'`. -/
def terminate (name : CharBuffer size) : CharBuffer size where
  chars := name.chars.set 0 nul
  length_eq := by rw [List.length_set, name.length_eq]

/-- The array as a C string. -/
def cString (name : CharBuffer size) : List Char := name.chars.takeWhile (· != nul)

/-- `name[0] == '\0'`. -/
def isEmpty (name : CharBuffer size) : Bool := name.chars.head? == some nul

/-- A text that fits is read back. -/
theorem cString_snprintf {text : List Char} (hfits : text.length < size) (hnul : nul ∉ text)
    (name : CharBuffer size) : (name.snprintf text).cString = text := by
  have hwritten : (text.take (size - 1) ++ [nul]).take size = text ++ [nul] := by
    rw [List.take_of_length_le (show text.length ≤ size - 1 by omega),
      List.take_of_length_le (by rw [List.length_append, List.length_singleton]; omega)]
  have hall : ∀ c ∈ text, (c != nul) = true := by
    intro c hc
    rw [bne_iff_ne]
    rintro rfl
    exact hnul hc
  show (((text.take (size - 1) ++ [nul]).take size ++ _).takeWhile (· != nul)) = text
  rw [hwritten, List.append_assoc, List.takeWhile_append_of_pos hall, List.singleton_append,
    List.takeWhile_cons_of_neg (by simp), List.append_nil]

theorem isEmpty_iff_cString {name : CharBuffer size} (hsize : 0 < size) :
    name.isEmpty = true ↔ name.cString = [] := by
  obtain ⟨chars, rfl⟩ := name
  cases chars with
  | nil => exact absurd hsize (lt_irrefl 0)
  | cons c rest => by_cases hc : c = nul <;> simp [isEmpty, cString, hc]

theorem isEmpty_snprintf {text : List Char} (hfits : text.length < size) (hnul : nul ∉ text)
    (hne : text ≠ []) (name : CharBuffer size) : (name.snprintf text).isEmpty = false := by
  rw [Bool.eq_false_iff, ne_eq, isEmpty_iff_cString (Nat.zero_lt_of_lt hfits),
    cString_snprintf hfits hnul]
  exact hne

theorem isEmpty_terminate (hsize : 0 < size) (name : CharBuffer size) :
    name.terminate.isEmpty = true := by
  obtain ⟨chars, rfl⟩ := name
  cases chars with
  | nil => exact absurd hsize (lt_irrefl 0)
  | cons c rest => simp [isEmpty, terminate]

theorem isEmpty_zero (hsize : 0 < size) : (zero : CharBuffer size).isEmpty = true := by
  rw [isEmpty_iff_cString hsize, cString, zero, List.takeWhile_replicate_eq_filter]
  simp

end CharBuffer

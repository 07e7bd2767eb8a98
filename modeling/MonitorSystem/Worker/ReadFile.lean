import MonitorSystem.Library.TextWords

/-!
# `ReadFile`

`ReadLine` reads a line with `getline`, gives up at the end of the file or at an empty line, and
otherwise extracts words until the line is at its end.  All three tests come after what they are
about: a last line without a newline raises the flag of the end of the file while it is read, and is
thrown away; an empty line ends the file for the caller; and behind trailing spaces an empty word
is extracted.  `file_read_iff` says which files are delivered all the same.
-/

namespace MonitorSystem

namespace ReadFile

open InputStream (isSpace)
open TextWords

/-! ### The program -/

/-- `std::getline`: the line, what is left to read, and whether the end of the file is reached. -/
def getline (text : List Char) : List Char × List Char × Bool :=
  match text.dropWhile (· != '\n') with
  | [] => (text, [], true)
  | _ :: rest => (text.takeWhile (· != '\n'), rest, false)

/-- `ReadLine` on a cleared vector: the words and what is left to read; `none` stands for
`false`. -/
def readLine (text : List Char) : Option (List (List Char) × List Char) :=
  let (line, rest, eof) := getline text
  if eof || line.isEmpty then none else some (extracted line, rest)

theorem length_rest_readLine_lt {text rest : List Char} {args : List (List Char)}
    (h : readLine text = some (args, rest)) : rest.length < text.length := by
  unfold readLine getline at h
  cases hdrop : text.dropWhile (· != '\n') with
  | nil => simp [hdrop] at h
  | cons c rest' =>
    have hlength := (List.dropWhile_sublist (l := text) (· != '\n')).length_le
    rw [hdrop, List.length_cons] at hlength
    simp only [hdrop, Bool.false_or, Option.ite_none_left_eq_some, Option.some.injEq,
      Prod.mk.injEq] at h
    obtain ⟨-, -, rfl⟩ := h
    exact hlength

/-- `ReadLine`, called on a cleared vector until it returns `false`. -/
def readAll (text : List Char) : List (List (List Char)) :=
  match _h : readLine text with
  | none => []
  | some (args, rest) => args :: readAll rest
termination_by text.length
decreasing_by exact length_rest_readLine_lt _h

/-! ### The lines of a file -/

/-- The words of the lines that are not blank, whether or not the last one ends in a newline. -/
def fileWords (text : List Char) : List (List (List Char)) :=
  ((text.splitOn '\n').filter fun line => ¬ Blank line).map words

/-- The lines that end in a newline. -/
def ended (text : List Char) : List (List Char) := (text.splitOn '\n').dropLast

/-- What stands behind the last newline. -/
def unended (text : List Char) : List Char := (text.splitOn '\n').getLast (List.splitOn_ne_nil _ _)

/-- Up to the first empty line or the last newline every line ends in a word, and all characters
behind are white space. -/
structure Tidy (text : List Char) : Prop where
  before : ∀ line ∈ (ended text).takeWhile (· ≠ []), EndsInWord line
  behind : ∀ line ∈ (ended text).dropWhile (· ≠ []) ++ [unended text], Blank line

/-! ### What is delivered -/

/-- A file without a newline is one line that is thrown away. -/
theorem readLine_of_notMem {text : List Char} (h : '\n' ∉ text) :
    readLine text = none ∧ ended text = [] := by
  have hdrop : text.dropWhile (· != '\n') = [] := by
    rw [List.dropWhile_eq_nil_iff]
    intro c hc
    simpa using ne_of_mem_of_not_mem hc h
  constructor
  · simp [readLine, getline, hdrop]
  · simp [ended, List.splitOn_eq_singleton h]

theorem readLine_append {line : List Char} (h : '\n' ∉ line) (rest : List Char) :
    readLine (line ++ '\n' :: rest) = (if line = [] then none else some (extracted line, rest)) ∧
      ended (line ++ '\n' :: rest) = line :: ended rest := by
  have hline : ∀ c ∈ line, (c != '\n') = true := fun c hc => by
    simpa using ne_of_mem_of_not_mem hc h
  constructor
  · simp [readLine, getline, List.takeWhile_append_of_pos hline, List.dropWhile_append_of_pos hline]
  · rw [ended, List.splitOn_append_cons_self, List.splitOn_eq_singleton h, List.singleton_append,
      List.dropLast_cons_of_ne_nil (List.splitOn_ne_nil _ _), ended]

theorem readAll_of_none {text : List Char} (h : readLine text = none) : readAll text = [] := by
  rw [readAll]
  split
  next => rfl
  next hread => simp [h] at hread

theorem readAll_of_some {text rest : List Char} {args : List (List Char)}
    (h : readLine text = some (args, rest)) : readAll text = args :: readAll rest := by
  rw [readAll]
  split
  next hread => simp [h] at hread
  next hread =>
    rw [h] at hread
    cases hread
    rfl

/-- The lines before the first empty one are delivered, as far as they end in a newline. -/
theorem readAll_eq (text : List Char) :
    readAll text = ((ended text).takeWhile (· ≠ [])).map extracted := by
  induction hlength : text.length using Nat.strong_induction_on generalizing text with
  | _ n ih =>
    by_cases hmem : '\n' ∈ text
    · obtain ⟨line, rest, rfl, hline⟩ := List.eq_append_cons_of_mem hmem
      obtain ⟨hread, hended⟩ := readLine_append hline rest
      by_cases hnil : line = []
      · rw [if_pos hnil] at hread
        simp only [readAll_of_none hread, hended]
        simp [hnil]
      · rw [if_neg hnil] at hread
        rw [readAll_of_some hread, ih rest.length (by simp [← hlength]; omega) rest rfl, hended]
        simp [hnil]
    · obtain ⟨hread, hended⟩ := readLine_of_notMem hmem
      simp [readAll_of_none hread, hended]

theorem not_blank_of_endsInWord {line : List Char} (h : EndsInWord line) : ¬ Blank line :=
  fun hblank => not_endsInWord_of_blank hblank h

/-- Words are never empty, and a line that does not end in one yields an empty word. -/
theorem map_extracted_eq_iff {read left : List (List Char)} :
    read.map extracted = ((read ++ left).filter fun line => ¬ Blank line).map words ↔
      (∀ line ∈ read, EndsInWord line) ∧ ∀ line ∈ left, Blank line := by
  have hwords : (∀ line ∈ read, EndsInWord line) →
      ((read.filter fun line => ¬ Blank line).map words = read.map extracted) := by
    intro hends
    rw [List.filter_eq_self.2 fun line hline => by
      simpa using not_blank_of_endsInWord (hends line hline)]
    refine List.map_congr_left fun line hline => ?_
    rw [extracted_eq, if_pos (hends line hline), List.append_nil]
  rw [List.filter_append, List.map_append]
  constructor
  · intro heq
    have hends : ∀ line ∈ read, EndsInWord line := by
      intro line hline
      have hmem : extracted line ∈ read.map extracted := List.mem_map_of_mem hline
      rw [heq, ← List.map_append] at hmem
      obtain ⟨other, -, hother⟩ := List.mem_map.1 hmem
      by_contra hnot
      have hempty : [] ∈ words other := by
        rw [hother, extracted_eq, if_neg hnot]
        simp
      exact ne_nil_of_mem_words hempty rfl
    rw [hwords hends, List.self_eq_append_right, List.map_eq_nil_iff, List.filter_eq_nil_iff] at heq
    exact ⟨hends, by simpa using heq⟩
  · rintro ⟨hends, hblank⟩
    have hleft : (left.filter fun line => ¬ Blank line) = [] :=
      List.filter_eq_nil_iff.2 fun line hline => by simpa using hblank line hline
    rw [hwords hends, hleft, List.map_nil, List.append_nil]

theorem splitOn_eq (text : List Char) : text.splitOn '\n' =
    (ended text).takeWhile (· ≠ []) ++ ((ended text).dropWhile (· ≠ []) ++ [unended text]) := by
  rw [← List.append_assoc, List.takeWhile_append_dropWhile, ended, unended,
    List.dropLast_append_getLast]

/-- **When a file is delivered.**  For every content of a file: the calls of `ReadLine` yield the
words of each line that is not blank, in order, if and only if all lines up to the first empty one
end in a word and in a newline, and whatever comes behind is white space. -/
theorem file_read_iff (text : List Char) : readAll text = fileWords text ↔ Tidy text := by
  rw [readAll_eq, fileWords, splitOn_eq, map_extracted_eq_iff]
  exact ⟨fun h => ⟨h.1, h.2⟩, fun h => ⟨h.before, h.behind⟩⟩

/-- One word without a newline is lost. -/
theorem last_line_lost : ¬ ∀ text, readAll text = fileWords text := by
  intro hclaim
  have hnone : readAll "MemTotal:".toList = [] :=
    readAll_of_none (readLine_of_notMem (by decide)).1
  have hword : fileWords "MemTotal:".toList = [["MemTotal:".toList]] := by
    decide +kernel
  rw [hclaim, hword] at hnone
  cases hnone

end ReadFile

end MonitorSystem

import Mathlib.Data.List.TakeWhile
import MonitorSystem.Library.InputStream

/-!
# The words of a line

The words of a line are its maximal runs of characters that are not white space (`words`).  A loop
that extracts words until the stream is at its end, as in
`while (!stream.eof()) { stream >> word; ... }`, finds them all, and then one empty word more if the
line ends in white space (`extracted_eq`).
-/

namespace TextWords

open InputStream

/-- The maximal runs of characters that are not white space. -/
def words (line : List Char) : List (List Char) := (line.splitOnP isSpace).filter (· ≠ [])

/-- All characters are white space. -/
def Blank (line : List Char) : Prop := ∀ c ∈ line, isSpace c = true

instance (line : List Char) : Decidable (Blank line) := List.decidableBAll _ line

/-- The line ends in a character that is not white space. -/
def EndsInWord (line : List Char) : Prop := line.getLast?.any (!isSpace ·) = true

instance (line : List Char) : Decidable (EndsInWord line) := inferInstanceAs (Decidable (_ = true))

theorem words_cons_space {c : Char} (hc : isSpace c = true) (line : List Char) :
    words (c :: line) = words line := by
  simp [words, List.splitOnP_cons_eq_if_modifyHead, hc]

theorem words_append {word rest : List Char} (hne : word ≠ [])
    (hword : ∀ c ∈ word, isSpace c = false) (hrest : Stops (!isSpace ·) rest) :
    words (word ++ rest) = word :: words rest := by
  cases rest with
  | nil => simp [words, List.splitOnP_eq_singleton hword, hne]
  | cons c rest =>
    have hc : isSpace c = true := by simpa using hrest c rfl
    rw [words_cons_space hc, words, List.splitOnP_append_cons_of_forall_mem hword c hc]
    simp [words, hne]

theorem words_dropWhile (line : List Char) : words (line.dropWhile isSpace) = words line := by
  induction line with
  | nil => rfl
  | cons c line ih =>
    cases hc : isSpace c with
    | true => rw [List.dropWhile_cons_of_pos hc, ih, words_cons_space hc]
    | false => rw [List.dropWhile_cons_of_neg (by simp [hc])]

theorem dropWhile_eq_nil_iff_blank {line : List Char} :
    line.dropWhile isSpace = [] ↔ Blank line := by
  rw [List.dropWhile_eq_nil_iff, Blank]

theorem words_of_blank {line : List Char} (h : Blank line) : words line = [] := by
  rw [← words_dropWhile, dropWhile_eq_nil_iff_blank.2 h]
  rfl

theorem ne_nil_of_mem_words {line word : List Char} (h : word ∈ words line) : word ≠ [] := by
  simpa using (List.mem_filter.1 h).2

/-! ### Extracting word by word -/

theorem readWord_of_blank {line : List Char} (h : Blank line) :
    readWord { rest := line } [] = ([], { rest := [], fail := true }) := by
  simp [readWord, dropWhile_eq_nil_iff_blank.2 h]

theorem stops_dropWhile (p : Char → Bool) (text : List Char) : Stops p (text.dropWhile p) := by
  intro c hc
  have hnot := List.head?_dropWhile_not p text
  rw [hc] at hnot
  simpa using hnot

/-- Of a line that is not blank the first word is extracted. -/
theorem exists_readWord {line : List Char} (h : ¬ Blank line) :
    ∃ word rest, line.dropWhile isSpace = word ++ rest ∧ word ≠ [] ∧
      (∀ c ∈ word, isSpace c = false) ∧ Stops (!isSpace ·) rest ∧
      readWord { rest := line } [] = (word, { rest := rest }) := by
  have hne : line.dropWhile isSpace ≠ [] := fun hnil => h (dropWhile_eq_nil_iff_blank.1 hnil)
  have hstart := stops_dropWhile isSpace line
  generalize htext : line.dropWhile isSpace = text at hne hstart
  refine ⟨text.takeWhile (!isSpace ·), text.dropWhile (!isSpace ·),
    List.takeWhile_append_dropWhile.symm, ?_, fun c hc => ?_, stops_dropWhile _ _, ?_⟩
  · obtain ⟨c, rest, rfl⟩ := List.exists_cons_of_ne_nil hne
    simp [hstart c rfl]
  · simpa using List.mem_takeWhile_imp hc
  · simp [readWord, htext, hne]

/-- What is left behind the first word is shorter than the line. -/
theorem length_rest_readWord_lt {line : List Char}
    (h : (readWord { rest := line } []).2.rest ≠ []) :
    (readWord { rest := line } []).2.rest.length < line.length := by
  by_cases hblank : Blank line
  · rw [readWord_of_blank hblank] at h
    exact absurd rfl h
  · obtain ⟨word, rest, hsplit, hne, -, -, hread⟩ := exists_readWord hblank
    have hlength := (List.dropWhile_sublist (l := line) isSpace).length_le
    have hword := List.length_pos_iff.2 hne
    rw [hsplit, List.length_append] at hlength
    rw [hread]
    show rest.length < line.length
    omega

/-- The words that `while (!stream.eof()) { stream >> word; ... }` finds.  After an extraction the
stream is at its end when nothing is left to read. -/
def extracted (line : List Char) : List (List Char) :=
  let result := readWord { rest := line } []
  result.1 :: if _h : result.2.rest = [] then [] else extracted result.2.rest
termination_by line.length
decreasing_by exact length_rest_readWord_lt _h

theorem endsInWord_append {front rest : List Char} (hne : rest ≠ []) :
    EndsInWord (front ++ rest) ↔ EndsInWord rest := by
  rw [EndsInWord, EndsInWord, List.getLast?_append_of_ne_nil _ hne]

theorem not_endsInWord_of_blank {line : List Char} (h : Blank line) : ¬ EndsInWord line := by
  unfold EndsInWord
  cases hlast : line.getLast? with
  | none => simp
  | some c => simp [h c (List.mem_of_getLast? hlast)]

/-- **The words that are found.**  They are the words of the line, and an empty one if the line does
not end in a word. -/
theorem extracted_eq (line : List Char) :
    extracted line = words line ++ if EndsInWord line then [] else [[]] := by
  induction line using extracted.induct with
  | case1 line result ih =>
    rw [extracted]
    by_cases hblank : Blank line
    · simp [readWord_of_blank hblank, words_of_blank hblank, not_endsInWord_of_blank hblank]
    obtain ⟨word, rest, hsplit, hne, hword, hstops, hread⟩ := exists_readWord hblank
    have hwords : words line = word :: words rest := by
      rw [← words_dropWhile, hsplit, words_append hne hword hstops]
    have hline : line = line.takeWhile isSpace ++ word ++ rest := by
      rw [List.append_assoc, ← hsplit, List.takeWhile_append_dropWhile]
    simp only [result, hread] at ih ⊢
    rw [hwords]
    by_cases hrest : rest = []
    · have hends : EndsInWord line := by
        rw [hline, hrest, List.append_nil, endsInWord_append hne, EndsInWord,
          List.getLast?_eq_some_getLast hne]
        simp [hword _ (List.getLast_mem hne)]
      simp [hrest, hends, words]
    · have hends : EndsInWord line ↔ EndsInWord rest := by
        rw [hline, endsInWord_append hrest]
      simp [hrest, hends, ih hrest]

end TextWords

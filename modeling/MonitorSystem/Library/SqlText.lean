import Mathlib.Tactic

/-!
# String literals in SQL statements

The rule of MySQL for literals between single quotes: a doubled quote denotes a quote, a backslash
escapes the next character, and any other quote ends the literal.  `lex` splits a text into its
literals and the characters around them; this is all that the words of a statement depend on as
long as there are neither comments nor other quotation marks outside the literals.

A statement is put together from segments, some of which are to be literals with given values.
`readAsMeant_iff` says for which values the text of a statement is read as it was meant: exactly for
those that denote themselves when they are spliced between quotes.
-/

namespace SqlText

/-! ### The lexer -/

/-- A literal, by the string that it denotes, or a character outside the literals. -/
inductive Token
  | code (c : Char)
  | literal (value : List Char)
  | unterminated (value : List Char)
  deriving DecidableEq

/-- What a character denotes after a backslash.  Before the two wildcards of `LIKE` the backslash
stays. -/
def unescape (c : Char) : List Char :=
  match c with
  | '0' => ['\x00']
  | 'b' => ['\x08']
  | 'n' => ['\n']
  | 'r' => ['\r']
  | 't' => ['\t']
  | 'Z' => ['\x1a']
  | '%' => ['\\', '%']
  | '_' => ['\\', '_']
  | c => [c]

/-- Where the lexer is; inside a literal, with the value so far. -/
inductive Mode
  | code
  | literal (value : List Char)
  /-- after a backslash -/
  | escape (value : List Char)
  /-- after a quote, which ends the literal unless another one follows -/
  | quote (value : List Char)

/-- Read a text from a given mode on. -/
def lexFrom : Mode → List Char → List Token
  | .code, [] => []
  | .code, c :: text =>
    if c = '\'' then lexFrom (.literal []) text else .code c :: lexFrom .code text
  | .literal v, [] => [.unterminated v]
  | .literal v, c :: text =>
    if c = '\'' then lexFrom (.quote v) text
    else if c = '\\' then lexFrom (.escape v) text
    else lexFrom (.literal (v ++ [c])) text
  | .escape v, [] => [.unterminated v]
  | .escape v, c :: text => lexFrom (.literal (v ++ unescape c)) text
  | .quote v, [] => [.literal v]
  | .quote v, c :: text =>
    if c = '\'' then lexFrom (.literal (v ++ [c])) text
    else .literal v :: .code c :: lexFrom .code text

/-- The tokens of a text. -/
def lex (text : List Char) : List Token := lexFrom .code text

/-- What a C function sees of a text. -/
def cString (text : List Char) : List Char := text.takeWhile (· ≠ '\x00')

/-! ### The inside of a literal -/

/-- `Reads u v`: between quotes, `u` denotes `v`. -/
inductive Reads : List Char → List Char → Prop
  | nil : Reads [] []
  | char {c : Char} {u v : List Char} (hquote : c ≠ '\'') (hbackslash : c ≠ '\\') (h : Reads u v) :
      Reads (c :: u) (c :: v)
  | doubled {u v : List Char} (h : Reads u v) : Reads ('\'' :: '\'' :: u) ('\'' :: v)
  | escaped (c : Char) {u v : List Char} (h : Reads u v) :
      Reads ('\\' :: c :: u) (unescape c ++ v)

/-- The lexer reads a literal and goes on behind it. -/
theorem Reads.lexFrom {u w : List Char} (h : Reads u w) {rest : List Char}
    (hrest : rest.head? ≠ some '\'') (v : List Char) :
    lexFrom (.literal v) (u ++ '\'' :: rest) = .literal (v ++ w) :: lexFrom .code rest := by
  induction h generalizing v with
  | nil =>
    cases rest with
    | nil => simp [SqlText.lexFrom]
    | cons c rest =>
      have hc : c ≠ '\'' := fun hc => hrest (by rw [hc, List.head?_cons])
      simp [SqlText.lexFrom, hc]
  | char hquote hbackslash _ ih =>
    rw [List.cons_append, SqlText.lexFrom, if_neg hquote, if_neg hbackslash, ih, List.append_assoc,
      List.singleton_append]
  | doubled _ ih =>
    rw [List.cons_append, List.cons_append, SqlText.lexFrom, if_pos rfl, SqlText.lexFrom,
      if_pos rfl, ih, List.append_assoc, List.singleton_append]
  | escaped c _ ih =>
    rw [List.cons_append, List.cons_append, SqlText.lexFrom, if_neg (by decide), if_pos rfl,
      SqlText.lexFrom, ih, List.append_assoc]

/-- A literal that the lexer has found stands in the text. -/
theorem exists_reads_of_lexFrom {w : List Char} {ts : List Token} (text v : List Char)
    (h : lexFrom (.literal v) text = .literal w :: ts) :
    ∃ u w' rest, Reads u w' ∧ w = v ++ w' ∧ text = u ++ '\'' :: rest := by
  induction hn : text.length using Nat.strong_induction_on generalizing text v with
  | _ n ih =>
    subst hn
    match text, h with
    | [], h => simp [lexFrom] at h
    | c :: text, h =>
      by_cases hquote : c = '\''
      · subst hquote
        rw [lexFrom, if_pos rfl] at h
        match text, h with
        | [], h =>
          simp only [lexFrom, List.cons.injEq, Token.literal.injEq] at h
          exact ⟨[], [], [], .nil, by rw [List.append_nil, h.1], rfl⟩
        | d :: text, h =>
          rw [lexFrom] at h
          split_ifs at h with hd
          · -- a doubled quote
            subst hd
            obtain ⟨u, w', rest, hreads, rfl, rfl⟩ := ih text.length (by simp) text _ h rfl
            exact ⟨_, _, rest, hreads.doubled, by simp, rfl⟩
          · simp only [List.cons.injEq, Token.literal.injEq] at h
            exact ⟨[], [], d :: text, .nil, by rw [List.append_nil, h.1], rfl⟩
      by_cases hbackslash : c = '\\'
      · subst hbackslash
        rw [lexFrom, if_neg hquote, if_pos rfl] at h
        match text, h with
        | [], h => simp [lexFrom] at h
        | d :: text, h =>
          rw [lexFrom] at h
          obtain ⟨u, w', rest, hreads, rfl, rfl⟩ := ih text.length (by simp) text _ h rfl
          exact ⟨_, _, rest, hreads.escaped d, by simp, rfl⟩
      · rw [lexFrom, if_neg hquote, if_neg hbackslash] at h
        obtain ⟨u, w', rest, hreads, rfl, rfl⟩ := ih text.length (by simp) text _ h rfl
        exact ⟨_, _, rest, hreads.char hquote hbackslash, by simp, rfl⟩

/-! ### Counting -/

/-- The characters that stay when a literal is read. -/
def isPlain (c : Char) : Bool := c ≠ '\'' && c ≠ '\\'

theorem length_unescape (c : Char) :
    (unescape c).length = if c = '%' ∨ c = '_' then 2 else 1 := by
  unfold unescape
  split <;> simp_all

theorem countP_unescape (c : Char) :
    (unescape c).countP isPlain = [c].countP isPlain := by
  unfold unescape
  split <;> rfl

theorem Reads.countP_eq {u w : List Char} (h : Reads u w) :
    w.countP isPlain = u.countP isPlain := by
  induction h with
  | nil => rfl
  | char _ _ _ ih => rw [List.countP_cons, List.countP_cons, ih]
  | doubled _ ih => simpa [isPlain] using ih
  | @escaped c u v _ ih =>
    have hcount : ('\\' :: c :: u).countP isPlain = [c].countP isPlain + u.countP isPlain := by
      rw [← List.countP_append]
      rfl
    rw [List.countP_append, countP_unescape, ih, hcount]

theorem Reads.length_le {u w : List Char} (h : Reads u w) : w.length ≤ u.length := by
  induction h with
  | nil => rfl
  | char _ _ _ ih => simpa using ih
  | doubled _ ih => simp only [List.length_cons]; omega
  | escaped c _ ih =>
    have hc := length_unescape c
    simp only [List.length_append, List.length_cons]
    split_ifs at hc <;> omega

/-! ### Strings that denote themselves -/

/-- Between quotes, the string denotes itself: it has neither a quote nor a null character, and
every backslash stands before a wildcard. -/
def verbatim : List Char → Bool
  | [] => true
  | c :: s =>
    (if c = '\\' then s.head? = some '%' || s.head? = some '_'
      else c ≠ '\'' && c ≠ '\x00') && verbatim s

theorem verbatim_cons {c : Char} {s : List Char} (hbackslash : c ≠ '\\') :
    verbatim (c :: s) = true ↔ (c ≠ '\'' ∧ c ≠ '\x00') ∧ verbatim s = true := by
  simp [verbatim, hbackslash]

theorem verbatim_backslash {s : List Char} :
    verbatim ('\\' :: s) = true ↔
      (s.head? = some '%' ∨ s.head? = some '_') ∧ verbatim s = true := by
  simp [verbatim]

theorem verbatim_wildcard {c : Char} {s : List Char} (hc : c = '%' ∨ c = '_') :
    verbatim ('\\' :: c :: s) = true ↔ verbatim s = true := by
  rcases hc with rfl | rfl <;> simp [verbatim]

theorem nul_notMem_of_verbatim {s : List Char} (h : verbatim s = true) : '\x00' ∉ s := by
  induction s with
  | nil => exact List.not_mem_nil
  | cons c s ih =>
    by_cases hbackslash : c = '\\'
    · subst hbackslash
      have hs := ih (verbatim_backslash.1 h).2
      simpa using hs
    · obtain ⟨⟨-, hnul⟩, hs⟩ := (verbatim_cons hbackslash).1 h
      exact List.not_mem_cons_of_ne_of_not_mem hnul.symm (ih hs)

theorem reads_of_verbatim {s : List Char} (h : verbatim s = true) : Reads s s := by
  induction hn : s.length using Nat.strong_induction_on generalizing s with
  | _ n ih =>
    subst hn
    match s, h with
    | [], _ => exact .nil
    | c :: s, h =>
      by_cases hbackslash : c = '\\'
      · subst hbackslash
        match s, h with
        | [], h => simp [verbatim] at h
        | d :: s, h =>
          have hd : d = '%' ∨ d = '_' := by simpa using (verbatim_backslash.1 h).1
          have hreads := (ih s.length (by simp) ((verbatim_wildcard hd).1 h) rfl).escaped d
          rcases hd with rfl | rfl <;> exact hreads
      · obtain ⟨⟨hquote, -⟩, hs⟩ := (verbatim_cons hbackslash).1 h
        exact (ih s.length (by simp) hs rfl).char hquote hbackslash

/-- Reading makes a string shorter unless the string denotes itself. -/
theorem Reads.verbatim_of_length {u w : List Char} (h : Reads u w) (hlen : u.length ≤ w.length)
    (hnul : '\x00' ∉ u) : verbatim u = true := by
  induction h with
  | nil => rfl
  | char hquote hbackslash h ih =>
    simp only [List.length_cons, add_le_add_iff_right] at hlen
    have hc := List.ne_of_not_mem_cons hnul
    exact (verbatim_cons hbackslash).2
      ⟨⟨hquote, hc.symm⟩, ih hlen (List.not_mem_of_not_mem_cons hnul)⟩
  | doubled h =>
    have hle := h.length_le
    simp only [List.length_cons] at hlen
    omega
  | escaped c h ih =>
    have hle := h.length_le
    have hc := length_unescape c
    simp only [List.length_append, List.length_cons] at hlen
    split_ifs at hc with hwild
    · refine (verbatim_wildcard hwild).2 (ih (by omega) fun hmem => hnul ?_)
      exact List.mem_cons_of_mem _ (List.mem_cons_of_mem _ hmem)
    · omega

/-- A character with which a text may go on after a literal. -/
def isCodeChar (c : Char) : Bool := isPlain c && c ≠ '\x00'

/-- A string spliced between quotes is read as itself if and only if it denotes itself. -/
theorem lexFrom_literal_iff {s rest : List Char} (hnul : '\x00' ∉ s)
    (hrest : ∀ c, rest.head? = some c → isPlain c = true) :
    (∃ ts, lexFrom (.literal []) (s ++ '\'' :: rest) = .literal s :: ts) ↔
      verbatim s = true := by
  have hquote : rest.head? ≠ some '\'' := fun h => absurd (hrest _ h) (by decide)
  constructor
  · rintro ⟨ts, h⟩
    obtain ⟨u, w, rest', hreads, hw, htext⟩ := exists_reads_of_lexFrom _ _ h
    rw [List.nil_append] at hw
    subst hw
    have hle := hreads.length_le
    rcases List.append_eq_append_iff.1 htext with ⟨m, rfl, hm⟩ | ⟨m, rfl, hm⟩
    · -- the literal goes on after the string
      match m, hm with
      | [], _ => simpa using hreads.verbatim_of_length (by simp) (by simpa using hnul)
      | c :: m, hm =>
        have hcount := hreads.countP_eq
        simp only [List.cons_append, List.cons.injEq] at hm
        obtain ⟨rfl, rfl⟩ := hm
        simp only [List.countP_append, List.countP_cons] at hcount
        match m, hrest with
        | [], hrest => exact absurd rfl hquote
        | d :: m, hrest =>
          have hd := hrest d rfl
          rw [List.countP_cons, if_pos hd] at hcount
          omega
    · -- the literal ends within the string
      match m, hm with
      | [], _ => simpa using hreads.verbatim_of_length (by simp) (by simpa using hnul)
      | c :: m, _ =>
        simp only [List.length_append, List.length_cons] at hle
        omega
  · intro h
    exact ⟨_, (reads_of_verbatim h).lexFrom hquote []⟩

/-! ### Statements -/

/-- A piece of a statement. -/
inductive Segment
  | code (text : List Char)
  /-- a literal, spliced between quotes -/
  | literal (value : List Char)

/-- The text of a segment. -/
def Segment.text : Segment → List Char
  | .code t => t
  | .literal v => '\'' :: v ++ ['\'']

/-- What a segment is meant to be. -/
def Segment.tokens : Segment → List Token
  | .code t => t.map .code
  | .literal v => [.literal v]

/-- The text of a statement. -/
def text (statement : List Segment) : List Char := statement.flatMap Segment.text

/-- What a statement is meant to be. -/
def tokens (statement : List Segment) : List Token := statement.flatMap Segment.tokens

/-- Text that can stand outside the literals. -/
def CodeText (t : List Char) : Prop := ∀ c ∈ t, isCodeChar c = true

instance (t : List Char) : Decidable (CodeText t) :=
  List.decidableBAll (isCodeChar · = true) t

/-- The code has neither quotes nor backslashes, and no two literals touch. -/
def WellFormed : List Segment → Prop
  | [] => True
  | .code t :: statement => CodeText t ∧ WellFormed statement
  | .literal _ :: statement =>
    (∀ c, (text statement).head? = some c → isCodeChar c = true) ∧ WellFormed statement

/-- A statement is read as it was meant. -/
def ReadAsMeant (statement : List Segment) : Prop :=
  lex (cString (text statement)) = tokens statement

theorem codeText_append {s t : List Char} : CodeText (s ++ t) ↔ CodeText s ∧ CodeText t := by
  simp [CodeText, or_imp, forall_and]

/-- A string literal of the program is checked character by character. -/
theorem codeText_ofList {l : List Char} (h : l.all isCodeChar = true) :
    CodeText (String.ofList l).toList := by
  rw [String.toList_ofList]
  exact fun c hc => List.all_eq_true.1 h c hc

theorem verbatim_of_codeText {s : List Char} (h : CodeText s) : verbatim s = true := by
  induction s with
  | nil => rfl
  | cons c s ih =>
    have hc := h c List.mem_cons_self
    simp only [isCodeChar, isPlain, Bool.and_eq_true, decide_eq_true_eq] at hc
    obtain ⟨⟨hquote, hbackslash⟩, hnul⟩ := hc
    exact (verbatim_cons hbackslash).2
      ⟨⟨hquote, hnul⟩, ih fun d hd => h d (List.mem_cons_of_mem c hd)⟩

theorem wellFormed_nil : WellFormed [] := trivial

theorem wellFormed_literal_nil (v : List Char) : WellFormed [.literal v] :=
  ⟨fun _ hc => absurd hc nofun, trivial⟩

theorem wellFormed_literal_code {t : List Char} {statement : List Segment} (ht : CodeText t)
    (hne : t ≠ []) (h : WellFormed statement) (v : List Char) :
    WellFormed (.literal v :: .code t :: statement) := by
  refine ⟨fun c hc => ?_, ht, h⟩
  obtain ⟨d, t, rfl⟩ := List.exists_cons_of_ne_nil hne
  cases hc
  exact ht c List.mem_cons_self

theorem cString_append {s rest : List Char} (h : '\x00' ∉ s) :
    cString (s ++ rest) = s ++ cString rest := by
  refine List.takeWhile_append_of_pos fun c hc => ?_
  exact decide_eq_true fun hnul => h (hnul ▸ hc)

theorem nul_notMem_of_isCodeChar {t : List Char} (h : CodeText t) :
    '\x00' ∉ t := fun hnul => absurd (h _ hnul) (by decide)

theorem lexFrom_code {t : List Char} (h : CodeText t) (rest : List Char) :
    lexFrom .code (t ++ rest) = t.map .code ++ lexFrom .code rest := by
  induction t with
  | nil => rfl
  | cons c t ih =>
    have hc : c ≠ '\'' := fun hc => absurd (h c List.mem_cons_self) (by rw [hc]; decide)
    rw [List.cons_append, lexFrom, if_neg hc, ih fun d hd => h d (List.mem_cons_of_mem c hd)]
    rfl

theorem head?_cString {rest : List Char} {c : Char} (h : (cString rest).head? = some c) :
    rest.head? = some c := by
  cases rest with
  | nil => exact h
  | cons d rest =>
    rw [cString, List.takeWhile_cons] at h
    split at h
    · exact h
    · cases h

/-- A null character in a literal cuts the statement off. -/
theorem lexFrom_cut {s : List Char} (hnul : '\x00' ∈ s) (rest : List Char) (ts : List Token) :
    lexFrom (.literal []) (cString (s ++ rest)) ≠ .literal s :: ts := by
  intro h
  obtain ⟨a, b, rfl, ha⟩ := List.eq_append_cons_of_mem hnul
  have hcut : cString (a ++ '\x00' :: b ++ rest) = a := by
    rw [List.append_assoc, List.cons_append, cString_append ha, cString,
      List.takeWhile_cons_of_neg (by decide), List.append_nil]
  rw [hcut] at h
  obtain ⟨u, w, rest', hreads, hw, htext⟩ := exists_reads_of_lexFrom _ _ h
  have hle := hreads.length_le
  have hlen := congrArg List.length htext
  rw [List.nil_append] at hw
  simp only [← hw, List.length_append, List.length_cons] at hle hlen
  omega

theorem readAsMeant_code {t : List Char} (h : CodeText t)
    (statement : List Segment) :
    ReadAsMeant (.code t :: statement) ↔ ReadAsMeant statement := by
  show lex (cString (t ++ text statement)) = t.map .code ++ tokens statement ↔ _
  rw [cString_append (nul_notMem_of_isCodeChar h), lex, lexFrom_code h,
    List.append_cancel_left_eq]
  rfl

/-- The lexer is inside the literal after the first quote. -/
theorem lex_literal (s : List Char) (statement : List Segment) :
    lex (cString (text (.literal s :: statement))) =
      lexFrom (.literal []) (cString (s ++ '\'' :: text statement)) := by
  have htext : text (.literal s :: statement) = '\'' :: (s ++ '\'' :: text statement) := by
    simp [text, Segment.text]
  rw [htext, cString, List.takeWhile_cons_of_pos (by decide), lex, lexFrom, if_pos rfl]
  rfl

theorem readAsMeant_literal {statement : List Segment}
    (h : ∀ c, (text statement).head? = some c → isCodeChar c = true) (s : List Char) :
    ReadAsMeant (.literal s :: statement) ↔ verbatim s = true ∧ ReadAsMeant statement := by
  show lex (cString (text (.literal s :: statement))) = .literal s :: tokens statement ↔ _
  rw [lex_literal]
  by_cases hnul : '\x00' ∈ s
  · exact iff_of_false (lexFrom_cut hnul _ _) fun hs => nul_notMem_of_verbatim hs.1 hnul
  have hclose : cString ('\'' :: text statement) = '\'' :: cString (text statement) :=
    List.takeWhile_cons_of_pos (by decide)
  have hrest : ∀ c, (cString (text statement)).head? = some c → isPlain c = true :=
    fun c hc => (Bool.and_eq_true_iff.1 (h c (head?_cString hc))).1
  have hquote : (cString (text statement)).head? ≠ some '\'' :=
    fun hc => absurd (hrest _ hc) (by decide)
  rw [cString_append hnul, hclose]
  constructor
  · intro hlexed
    have hs := (lexFrom_literal_iff hnul hrest).1 ⟨_, hlexed⟩
    rw [(reads_of_verbatim hs).lexFrom hquote, List.nil_append] at hlexed
    exact ⟨hs, (List.cons.inj hlexed).2⟩
  · rintro ⟨hs, hlexed⟩
    rw [(reads_of_verbatim hs).lexFrom hquote, List.nil_append]
    exact congrArg _ hlexed

/-- **Spliced literals.**  A statement is read as it was meant if and only if all its literals
denote themselves. -/
theorem readAsMeant_iff {statement : List Segment} (h : WellFormed statement) :
    ReadAsMeant statement ↔ ∀ s, .literal s ∈ statement → verbatim s = true := by
  induction statement with
  | nil => simp [ReadAsMeant, text, tokens, lex, lexFrom, cString]
  | cons segment statement ih =>
    cases segment with
    | code t => simpa using (readAsMeant_code h.1 statement).trans (ih h.2)
    | literal s =>
      rw [readAsMeant_literal h.1, ih h.2]
      simp

end SqlText

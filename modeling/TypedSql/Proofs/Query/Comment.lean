import TypedSql.Query.File

/-!
# Comment lines, written and read

A query file says in comment lines what a query is called, what it is for and which types its
parameters and columns have.  The readers of these lines overlap: an annotation may be documentation
as well, and documentation may look like a header.  Each line that is written here is read as what
it was written for, and as nothing else.

Main definitions: `headerLine`, `Note`, `Note.Fits`.  Main statements: `parse?_headerLine`,
`Note.ofLine_eq`.
-/

namespace TypedSql.Query

open Text

/-! ## Words -/

/-- The text is not empty, and there are no blanks in it. -/
def IsWord (text : String) : Prop := text ≠ "" ∧ ∀ c ∈ text.toList, isBlank c = false

-- The characters of the text are looked at, and not all characters there are.
instance (text : String) : Decidable (IsWord text) :=
  @instDecidableAnd _ _ _ (List.decidableBAll _ _)

/-- The text does not end with a blank. -/
def Trimmed (cs : List Char) : Prop := ∀ c ∈ cs.getLast?, isBlank c = false

instance (cs : List Char) : Decidable (Trimmed cs) :=
  decidable_of_iff ((cs.getLast?.all fun c => !isBlank c) = true) (by
    unfold Trimmed
    cases cs.getLast? <;> simp)

theorem IsWord.ne_nil {text : String} (h : IsWord text) : text.toList ≠ [] :=
  fun hnil => h.1 (String.toList_eq_nil_iff.mp hnil)

theorem IsWord.trimmed {text : String} (h : IsWord text) : Trimmed text.toList :=
  fun c hc => h.2 c (List.mem_of_getLast? hc)

theorem IsWord.newline_not_mem {text : String} (h : IsWord text) : '\n' ∉ text.toList :=
  fun hmem => absurd (h.2 '\n' hmem) (by decide)

theorem IsWord.display (command : Command) : IsWord command.display := by
  cases command <;> decide

theorem Trimmed.of_suffix {xs ys : List Char} (h : Trimmed ys) (hne : ys ≠ [])
    (hsuffix : ys <:+ xs) : Trimmed xs := by
  obtain ⟨before, rfl⟩ := hsuffix
  intro c hc
  rw [List.getLast?_append, List.getLast?_eq_some_getLast hne] at hc
  exact h c (by rwa [List.getLast?_eq_some_getLast hne])

theorem trimEndWhile_eq_self {p : Char → Bool} {cs : List Char}
    (h : ∀ c ∈ cs.getLast?, p c = false) : trimEndWhile p cs = cs := by
  unfold trimEndWhile
  rw [← List.head?_reverse] at h
  rw [List.reverse_eq_iff]
  generalize cs.reverse = rs at h
  cases rs with
  | nil => rfl
  | cons c rs => exact List.dropWhile_cons_of_neg (by simp [h c rfl])

theorem trimEndWhile_concat {p : Char → Bool} {c : Char} (h : p c = true) (cs : List Char) :
    trimEndWhile p (cs ++ [c]) = trimEndWhile p cs := by
  unfold trimEndWhile
  rw [List.reverse_append, List.reverse_singleton, List.singleton_append,
    List.dropWhile_cons_of_pos h]

theorem trimStart_space (cs : List Char) : trimStart (' ' :: cs) = trimStart cs :=
  List.dropWhile_cons_of_pos (by decide)

theorem trimStart_cons {c : Char} (h : isBlank c = false) (cs : List Char) :
    trimStart (c :: cs) = c :: cs := List.dropWhile_cons_of_neg (by simp [h])

theorem words_nil : words [] = [] := by
  rw [words]
  rfl

/-- A word behind a blank, with anything behind it that begins with a blank. -/
theorem words_word {word : String} (h : IsWord word) {rest : List Char}
    (hrest : ∀ c ∈ rest.head?, isBlank c = true) :
    words (' ' :: (word.toList ++ rest)) = word :: words rest := by
  have hof : String.ofList word.toList = word := String.ofList_toList
  obtain ⟨c, cs, hword⟩ := List.exists_cons_of_ne_nil h.ne_nil
  have hblank := h.2
  rw [hword] at hblank
  have hcs : ∀ d ∈ cs, (!isBlank d) = true := fun d hd => by
    rw [hblank d (List.mem_cons_of_mem _ hd)]
    rfl
  have hstop : rest.takeWhile (fun d => !isBlank d) = [] ∧
      rest.dropWhile (fun d => !isBlank d) = rest := by
    cases rest with
    | nil => exact ⟨rfl, rfl⟩
    | cons d ds => simp [hrest d rfl]
  have htrim : trimStart (' ' :: (word.toList ++ rest)) = c :: (cs ++ rest) := by
    rw [hword, trimStart_space, List.cons_append, trimStart_cons (hblank c List.mem_cons_self)]
  have hfirst : firstWord (cs ++ rest) = cs := by
    rw [firstWord, List.takeWhile_append_of_pos hcs, hstop.1, List.append_nil]
  have hafter : afterWord (cs ++ rest) = rest := by
    rw [afterWord, List.dropWhile_append_of_pos hcs, hstop.2]
  rw [words]
  split
  · next hnil =>
      rw [htrim] at hnil
      cases hnil
  · next d ds hcons =>
      rw [htrim] at hcons
      cases hcons
      rw [hfirst, hafter, ← hword, hof]

/-- The last word. -/
theorem words_last {word : String} (h : IsWord word) : words (' ' :: word.toList) = [word] := by
  have hthis := @words_word word h [] (by simp)
  rwa [List.append_nil, words_nil] at hthis

/-! ## What is written -/

/-- The word that an annotation begins with. -/
def Subject.word : Subject → String
  | param => "param"
  | column => "column"

/-- The line that a query begins with. -/
def headerLine (name : String) (command : Command) : String :=
  "-- name: " ++ name ++ " " ++ command.display

/-- What a comment line behind the header is for. -/
inductive Note
  | doc (text : String)
  | hint (subject : Subject) (name typeName : String) (nullable : Bool)
deriving DecidableEq, Repr

namespace Note

/-- The comment line. -/
def line : Note → String
  | doc text => "-- " ++ text
  | hint subject name typeName nullable =>
      "-- @" ++ subject.word ++ " " ++ name ++ " " ++ typeName ++ if nullable then " null" else ""

/-- The comment line can be read as what it is for: names and types are words, and documentation
says something and looks neither like a header nor like an annotation. -/
def Fits : Note → Prop
  | doc text => text ≠ "" ∧ Trimmed text.toList ∧ '\n' ∉ text.toList ∧
      Header.parse? (doc text).line.toList = none ∧ hintSubject? (doc text).line.toList = none
  | hint _ name typeName _ => IsWord name ∧ IsWord typeName

instance (n : Note) : Decidable n.Fits := by
  unfold Fits
  split <;> infer_instance

/-- What is read from the comment line where it is line `number` of the file. -/
def remark (number : Nat) : Note → Remark
  | doc text => .doc text
  | hint subject name typeName nullable => .hint subject ⟨name, typeName, nullable, ⟨number, 1⟩⟩

end Note

/-! ## What is read -/

theorem afterDashes?_dashes (cs : List Char) : afterDashes? ('-' :: '-' :: cs) = some cs := by
  have hstart : trimStart ('-' :: '-' :: cs) = '-' :: '-' :: cs := trimStart_cons (by decide) _
  simp [afterDashes?, hstart]

theorem afterPhrase?_append (word : String) (rest : List Char) :
    afterPhrase? word (word.toList ++ rest) = some rest := by
  rw [afterPhrase?, if_pos (by simp), ← String.length_toList, List.drop_left]

theorem afterPhraseAnyCase?_append (word : String) (rest : List Char) :
    afterPhraseAnyCase? word (word.toList ++ rest) = some rest := by
  rw [afterPhraseAnyCase?, ← String.length_toList, List.take_left, List.drop_left,
    String.ofList_toList, if_pos (eqIgnoreCase_iff.mpr rfl)]

theorem isCommentOrBlank_dashes (cs : List Char) : isCommentOrBlank ('-' :: '-' :: cs) = true := by
  rw [isCommentOrBlank, afterDashes?_dashes]
  exact Bool.or_true _

/-- A header line is read as the header. -/
theorem parse?_headerLine {name : String} (h : IsWord name) (command : Command) :
    Header.parse? (headerLine name command).toList = some ⟨name, some command.display⟩ := by
  have hline : (headerLine name command).toList = '-' :: '-' :: ' ' ::
      ("name:".toList ++ ' ' :: (name.toList ++ ' ' :: command.display.toList)) := by
    simp [headerLine, String.toList_append]
  have hstart (rest : List Char) :
      trimStart (' ' :: ("name:".toList ++ rest)) = "name:".toList ++ rest := rfl
  have hwords : words (' ' :: (name.toList ++ ' ' :: command.display.toList)) =
      [name, command.display] := by
    rw [words_word h (by simp; decide), words_last (.display command)]
  unfold Header.parse?
  simp only [hline, afterDashes?_dashes, Option.bind_eq_bind, Option.bind_some, hstart,
    afterPhrase?_append, hwords]

theorem trimmed_headerLine (name : String) (command : Command) :
    Trimmed (headerLine name command).toList :=
  (IsWord.display command).trimmed.of_suffix (IsWord.display command).ne_nil
    ⟨("-- name: " ++ name ++ " ").toList, by simp [headerLine]⟩

theorem newline_not_mem_headerLine {name : String} (h : IsWord name) (command : Command) :
    '\n' ∉ (headerLine name command).toList := by
  simp [headerLine, h.newline_not_mem, (IsWord.display command).newline_not_mem]

namespace Note

/-- What stands behind the subject of an annotation. -/
def hintTail (name typeName : String) (nullable : Bool) : List Char :=
  ' ' :: (name.toList ++ ' ' :: (typeName.toList ++ if nullable then " null".toList else []))

theorem line_hint (subject : Subject) (name typeName : String) (nullable : Bool) :
    (hint subject name typeName nullable).line.toList =
      '-' :: '-' :: ' ' :: '@' :: (subject.word.toList ++ hintTail name typeName nullable) := by
  cases nullable <;> simp [line, hintTail, String.toList_append]

theorem line_doc (text : String) :
    (doc text).line.toList = '-' :: '-' :: ' ' :: text.toList := by
  simp [line, String.toList_append]

/-- The subject ends where the blank behind it stands. -/
theorem hintSubject?_line (subject : Subject) (name typeName : String) (nullable : Bool) :
    hintSubject? (hint subject name typeName nullable).line.toList =
      some (subject, hintTail name typeName nullable) := by
  rw [line_hint]
  have hends : endsWord (hintTail name typeName nullable) = true := by
    have hspace : isWordChar ' ' = false := by decide +kernel
    simp [endsWord, hintTail, hspace]
  have hstart (rest : List Char) : trimStart (' ' :: '@' :: rest) = "@".toList ++ rest := rfl
  have hother (rest : List Char) :
      afterPhraseAnyCase? "param" ("column".toList ++ rest) = none := by
    have hlength : "param".length = 5 := by decide
    have htake : ("column".toList ++ rest).take 5 = "colum".toList := by simp
    rw [afterPhraseAnyCase?, hlength, htake, if_neg (by decide)]
  unfold hintSubject?
  simp only [afterDashes?_dashes, Option.bind_eq_bind, Option.bind_some, hstart,
    afterPhrase?_append]
  cases subject with
  | param => simp only [Subject.word, afterPhraseAnyCase?_append, hends, if_true]
  | column =>
      simp only [Subject.word, hother, afterPhraseAnyCase?_append, Option.map_some,
        Option.bind_some, hends, if_true]

theorem hintParts?_hintTail {name typeName : String} (hname : IsWord name)
    (htype : IsWord typeName) (nullable : Bool) :
    hintParts? (hintTail name typeName nullable) = some (name, typeName, nullable) := by
  have hblank : (hintTail name typeName nullable).head?.any isBlank = true := by
    simp only [hintTail, List.head?_cons, Option.any_some]
    decide
  cases nullable with
  | false =>
      have hwords : words (hintTail name typeName false) = [name, typeName] := by
        simp only [hintTail, Bool.false_eq_true, if_false, List.append_nil]
        rw [words_word hname (by simp; decide), words_last htype]
      rw [hintParts?, if_pos hblank, hwords]
  | true =>
      have hwords : words (hintTail name typeName true) = [name, typeName, "null"] := by
        have hnull : IsWord "null" := by decide
        have hlast : " null".toList = ' ' :: "null".toList := rfl
        simp only [hintTail, if_true]
        rw [words_word hname (by simp; decide), hlast, words_word htype (by simp; decide),
          words_last hnull]
      rw [hintParts?, if_pos hblank, hwords]
      exact if_pos (by decide)

variable {n : Note}

theorem isCommentOrBlank_line (n : Note) : isCommentOrBlank n.line.toList = true := by
  cases n with
  | doc text =>
      rw [line_doc]
      exact isCommentOrBlank_dashes _
  | hint =>
      rw [line_hint]
      exact isCommentOrBlank_dashes _

theorem parse?_line (h : n.Fits) : Header.parse? n.line.toList = none := by
  cases n with
  | doc text => exact h.2.2.2.1
  | hint subject name typeName nullable =>
      rw [line_hint]
      have hnone (rest : List Char) :
          afterPhrase? "name:" (trimStart (' ' :: '@' :: rest)) = none := rfl
      simp only [Header.parse?, afterDashes?_dashes, Option.bind_eq_bind, Option.bind_some, hnone,
        Option.bind_none]

/-- A comment line is read as what it is for. -/
theorem ofLine_eq (h : n.Fits) {l : Line} (hl : l.text = n.line.toList) :
    Remark.ofLine l = n.remark l.number := by
  rw [Remark.ofLine, hl]
  cases n with
  | doc text =>
      obtain ⟨hne, htrimmed, -, -, hhint⟩ := h
      have htext : text.toList ≠ [] := fun hnil => hne (String.toList_eq_nil_iff.mp hnil)
      have hdoc : docText? (doc text).line.toList = some text := by
        have htrim : trimEnd text.toList = text.toList := trimEndWhile_eq_self htrimmed
        rw [line_doc]
        simp [docText?, afterDashes?_dashes, htrim, htext]
      rw [hhint, hdoc]
      rfl
  | hint subject name typeName nullable =>
      simp only [hintSubject?_line, hintParts?_hintTail h.1 h.2]
      rfl

theorem trimmed_line (h : n.Fits) : Trimmed n.line.toList := by
  cases n with
  | doc text =>
      have htext : text.toList ≠ [] := fun hnil => h.1 (String.toList_eq_nil_iff.mp hnil)
      exact h.2.1.of_suffix htext ⟨"-- ".toList, by simp [line]⟩
  | hint subject name typeName nullable =>
      cases nullable with
      | false =>
          exact h.2.trimmed.of_suffix h.2.ne_nil
            ⟨("-- @" ++ subject.word ++ " " ++ name ++ " ").toList, by simp [line]⟩
      | true =>
          have hnull : Trimmed " null".toList := by decide
          exact hnull.of_suffix (by decide)
            ⟨("-- @" ++ subject.word ++ " " ++ name ++ " " ++ typeName).toList, by simp [line]⟩

theorem newline_not_mem_line (h : n.Fits) : '\n' ∉ n.line.toList := by
  cases n with
  | doc text =>
      rw [line_doc]
      simp [h.2.2.1]
  | hint subject name typeName nullable =>
      have hname := h.1.newline_not_mem
      have htype := h.2.newline_not_mem
      rw [line_hint]
      cases subject <;> cases nullable <;> simp [hintTail, Subject.word, hname, htype]

end Note

end TypedSql.Query

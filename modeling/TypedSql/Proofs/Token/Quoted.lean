import TypedSql.Proofs.Token.Quotes
import TypedSql.Proofs.Token.Seam

/-!
# Names in double quotes

Every name can be written in double quotes.  Such a name is one token wherever it stands, with the
name as its value, and what stands behind it is read by itself.

Main definitions: `quoteName`, `ReadsAs`.  Main statements: `value_quoted`, `Reads.quoted`.
-/

namespace TypedSql.Token

open Text

/-- The characters of a name in double quotes, the quotes in it doubled. -/
def quoted (name : String) : List Char := '"' :: (double '"' name.toList ++ ['"'])

/-- The name in double quotes. -/
def quoteName (name : String) : String := String.ofList (quoted name)

/-- A token with the name in quotes has the name as its value. -/
theorem value_quoted {t : Token} {name : String} (hkind : t.kind = .quotedIdentifier)
    (htext : t.text = quoteName name) : t.value = name :=
  Quotes.value_write (s := .double) hkind htext

/-- A token with the kind and the text of a name in quotes is one, with the name as its value. -/
theorem quoted_of_word {t : Token} {name : String}
    (h : (t.kind, t.text) = (Kind.quotedIdentifier, quoteName name)) :
    t.kind = .quotedIdentifier ∧ t.value = name :=
  ⟨congrArg Prod.fst h, value_quoted (congrArg Prod.fst h) (congrArg Prod.snd h)⟩

/-- No comment begins with another character. -/
theorem notOpen_cons {c : Char} (hc : c ≠ '/') (cs : List Char) : ¬ ['/', '*'] <+: c :: cs := by
  rintro ⟨tail, htail⟩
  exact hc (List.cons.inj htail).1.symm

theorem firstForm?_quoted (name : String) {more : List Char} (hmore : more.head? ≠ some '"') :
    firstForm? (quoted name ++ more) = some (.doubleQuoted, (quoted name).length) := by
  have hwrite : (Quotes.double.write name).toList = quoted name := Quotes.toList_write .double name
  have hbegins : Quotes.double.Begins (quoted name ++ more) name more :=
    ⟨.inl rfl, by rw [hwrite], fun _ => hmore⟩
  have hfirst := Quotes.firstForm?_of_begins hbegins
  rwa [hwrite] at hfirst

/-- A piece at the beginning of a text is its first token. -/
theorem Reads.bare {piece more : List Char} {o : Nat} {p : Position} {form : Form}
    {ts : List Token} (htrivia : triviaPiece? (piece ++ more) = none)
    (hopen : ¬ ['/', '*'] <+: piece ++ more)
    (hform : firstForm? (piece ++ more) = some (form, piece.length))
    (h : PlainReads more (o + byteLength piece) (p.after piece) ts) :
    PlainReads (piece ++ more) o p
      (⟨form.kind (String.ofList piece), String.ofList piece, ⟨o, o + byteLength piece⟩, p⟩ ::
        ts) := by
  have hsplit : piece ++ more = [] ++ (piece ++ more) := rfl
  exact .token hsplit (triviaLength_of_none htrivia) trivial hopen hform h

/-- A piece with white space behind it is the first token of a text that begins with it. -/
theorem Reads.piece {piece cs : List Char} {c : Char} {o : Nat} {p : Position} {form : Form}
    {ts : List Token} (htrivia : triviaPiece? (piece ++ c :: cs) = none)
    (hopen : ¬ ['/', '*'] <+: piece ++ c :: cs)
    (hform : firstForm? (piece ++ c :: cs) = some (form, piece.length)) (hc : isSpace c = true)
    (h : PlainReads cs (o + byteLength piece + c.utf8Size) ((p.after piece).after [c]) ts) :
    PlainReads (piece ++ c :: cs) o p
      (⟨form.kind (String.ofList piece), String.ofList piece, ⟨o, o + byteLength piece⟩, p⟩ ::
        ts) :=
  .bare htrivia hopen hform (.space hc h)

/-- A name in quotes is the first token of a text that begins with it, unless a quote stands right
behind it. -/
theorem Reads.quoted (name : String) {more : List Char} {o : Nat} {p : Position}
    {ts : List Token} (hmore : more.head? ≠ some '"')
    (h : PlainReads more (o + byteLength (Token.quoted name)) (p.after (Token.quoted name)) ts) :
    PlainReads (Token.quoted name ++ more) o p
      (⟨.quotedIdentifier, quoteName name, ⟨o, o + byteLength (Token.quoted name)⟩, p⟩ ::
        ts) := by
  have htrivia : triviaPiece? (Token.quoted name ++ more) = none := rfl
  have hopen : ¬ ['/', '*'] <+: Token.quoted name ++ more := notOpen_cons (by decide) _
  exact .bare htrivia hopen (firstForm?_quoted name hmore) h

/-- A text that is a name in quotes is one token. -/
theorem Reads.onlyQuoted (name : String) (o : Nat) (p : Position) :
    PlainReads (Token.quoted name) o p
      [⟨.quotedIdentifier, quoteName name, ⟨o, o + byteLength (Token.quoted name)⟩, p⟩] := by
  have hdone : PlainReads [] (o + byteLength (Token.quoted name))
      (p.after (Token.quoted name)) [] :=
    .done (Nat.zero_le _)
  have hreads := Reads.quoted name (by simp) hdone
  rwa [List.append_nil] at hreads

/-! ## Texts by their words -/

/-- Wherever the text stands, it is read as tokens of these kinds and texts. -/
def ReadsAs (cs : List Char) (words : List (Kind × String)) : Prop :=
  ∀ o p, ∃ ts, PlainReads cs o p ts ∧ ts.map (fun t => (t.kind, t.text)) = words

namespace ReadsAs

variable {cs more : List Char} {words : List (Kind × String)}

theorem nil : ReadsAs [] [] := fun _ _ => ⟨[], .done (Nat.zero_le _), rfl⟩

theorem space {c : Char} (hc : isSpace c = true) (h : ReadsAs cs words) :
    ReadsAs (c :: cs) words := by
  intro o p
  obtain ⟨ts, hreads, hwords⟩ := h (o + c.utf8Size) (p.after [c])
  exact ⟨ts, .space hc hreads, hwords⟩

/-- A piece at the beginning is the first word. -/
theorem bare {piece : List Char} {form : Form} (htrivia : triviaPiece? (piece ++ more) = none)
    (hopen : ¬ ['/', '*'] <+: piece ++ more)
    (hform : firstForm? (piece ++ more) = some (form, piece.length)) (h : ReadsAs more words) :
    ReadsAs (piece ++ more)
      ((form.kind (String.ofList piece), String.ofList piece) :: words) := by
  intro o p
  obtain ⟨ts, hreads, hwords⟩ := h (o + byteLength piece) (p.after piece)
  exact ⟨_, .bare htrivia hopen hform hreads, congrArg (List.cons _) hwords⟩

/-- A word with a blank behind it is the first word, unless it begins a comment. -/
theorem spaced (word : String) {form : Form} (hfirst : word.toList.head? ≠ some '/')
    (htrivia : triviaPiece? (word.toList ++ ' ' :: more) = none)
    (hform : firstForm? (word.toList ++ ' ' :: more) = some (form, word.toList.length))
    (h : ReadsAs more words) :
    ReadsAs (word.toList ++ ' ' :: more) ((form.kind word, word) :: words) := by
  have hopen : ¬ ['/', '*'] <+: word.toList ++ ' ' :: more := by
    cases hword : word.toList with
    | nil => exact notOpen_cons (by decide) more
    | cons c cs =>
        rw [hword] at hfirst
        exact notOpen_cons (fun hc => hfirst (congrArg some hc)) _
  have hreads := bare htrivia hopen hform (.space rfl h)
  rwa [String.ofList_toList] at hreads

/-- A name in quotes at the beginning is the first word, unless a quote stands right behind it. -/
theorem quoted (name : String) (hmore : more.head? ≠ some '"') (h : ReadsAs more words) :
    ReadsAs (Token.quoted name ++ more) ((.quotedIdentifier, quoteName name) :: words) := by
  intro o p
  obtain ⟨ts, hreads, hwords⟩ := h (o + byteLength (Token.quoted name))
    (p.after (Token.quoted name))
  exact ⟨_, .quoted name hmore hreads, congrArg (List.cons _) hwords⟩

end ReadsAs

end TypedSql.Token

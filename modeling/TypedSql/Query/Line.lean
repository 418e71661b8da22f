import TypedSql.Text.Basic
import TypedSql.Text.CharClass

/-!
# The lines of a query file

A query file is read line by line.  A header line names a query, annotation lines give types, and
other comment lines are its documentation.  In these lines any blank separates words.
-/

namespace TypedSql.Query

open Text

/-- A line with its number and its line end. -/
structure Line where
  number : Nat
  raw : List Char
deriving DecidableEq, Repr

namespace Line

/-- The text without the line end. -/
def text (l : Line) : List Char := trimEndWhile (fun c => c == '\n' || c == '\r') l.raw

/-- The text cut behind every line feed. -/
def split : List Char → List (List Char)
  | [] => []
  | c :: cs =>
      if c = '\n' then [c] :: split cs
      else
        match split cs with
        | [] => [[c]]
        | l :: ls => (c :: l) :: ls

/-- The lines numbered from `n`. -/
def numberFrom (n : Nat) : List (List Char) → List Line
  | [] => []
  | raw :: rest => ⟨n, raw⟩ :: numberFrom (n + 1) rest

/-- The lines of a file. -/
def ofText (source : String) : List Line := numberFrom 1 (split source.toList)

/-- The text of consecutive lines. -/
def join (lines : List Line) : List Char := lines.flatMap raw

theorem flatten_split (cs : List Char) : (split cs).flatten = cs := by
  induction cs with
  | nil => rfl
  | cons c cs ih =>
      unfold split
      split
      · next h => simp [ih, h]
      · split
        · next h => rw [h] at ih; simpa using ih
        · next l ls h => rw [h] at ih; simpa using ih

end Line

/-- What stands behind `--` at the beginning of the text, if it begins so. -/
def afterDashes? (text : List Char) : Option (List Char) :=
  match trimStart text with
  | '-' :: '-' :: rest => some rest
  | _ => none

/-- The line holds nothing but blanks, or is a comment. -/
def isCommentOrBlank (text : List Char) : Bool :=
  (trimStart text).isEmpty || (afterDashes? text).isSome

/-- The word that the text begins with, up to a blank. -/
def firstWord (cs : List Char) : List Char := cs.takeWhile fun c => !isBlank c

/-- What stands behind the first word. -/
def afterWord (cs : List Char) : List Char := cs.dropWhile fun c => !isBlank c

theorem length_afterWord_le (cs : List Char) : (afterWord cs).length ≤ cs.length :=
  (List.dropWhile_sublist _).length_le

/-- The words of the text, separated by blanks. -/
def words (cs : List Char) : List String :=
  match _h : trimStart cs with
  | [] => []
  | c :: rest => String.ofList (c :: firstWord rest) :: words (afterWord rest)
termination_by cs.length
decreasing_by
  have h1 : (trimStart cs).length ≤ cs.length := (List.dropWhile_sublist _).length_le
  have h2 := length_afterWord_le rest
  simp [_h] at h1
  omega

/-- What stands behind `word` at the beginning of the text, if it begins so. -/
def afterPhrase? (word : String) (text : List Char) : Option (List Char) :=
  if word.toList.isPrefixOf text then some (text.drop word.length) else none

/-- As `afterPhrase?`, in any case. -/
def afterPhraseAnyCase? (word : String) (text : List Char) : Option (List Char) :=
  if eqIgnoreCase word (String.ofList (text.take word.length)) then some (text.drop word.length)
  else none

/-- The name in a query header, and its command where there is one. -/
structure Header where
  name : String
  command : Option String
deriving DecidableEq, Repr

/-- The header that a line writes: `-- name:` and one or two words. -/
def Header.parse? (text : List Char) : Option Header := do
  let comment ← afterDashes? text
  let rest ← afterPhrase? "name:" (trimStart comment)
  match words rest with
  | [name] => some ⟨name, none⟩
  | [name, command] => some ⟨name, some command⟩
  | _ => none

/-- What an annotation is about. -/
inductive Subject
  | param
  | column
deriving DecidableEq, Repr

/-- The subject of an annotation, and what stands behind it; the word ends there. -/
def hintSubject? (text : List Char) : Option (Subject × List Char) := do
  let comment ← afterDashes? text
  let rest ← afterPhrase? "@" (trimStart comment)
  let found ←
    match afterPhraseAnyCase? "param" rest with
    | some behind => some (Subject.param, behind)
    | none => (afterPhraseAnyCase? "column" rest).map fun behind => (Subject.column, behind)
  if endsWord found.2 then some found else none

/-- Name, type and nullability in the text behind an annotation's subject. -/
def hintParts? (behind : List Char) : Option (String × String × Bool) :=
  if (behind.head?.any isBlank) then
    match words behind with
    | [name, typeName] => some (name, typeName, false)
    | [name, typeName, third] =>
        if eqIgnoreCase third "null" then some (name, typeName, true) else none
    | _ => none
  else none

/-- The documentation in a comment line, if it says something. -/
def docText? (text : List Char) : Option String := do
  let comment ← afterDashes? text
  let words := trimEnd (if comment.head? = some ' ' then comment.drop 1 else comment)
  if words.isEmpty then none else some (String.ofList words)

end TypedSql.Query

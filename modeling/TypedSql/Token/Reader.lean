import TypedSql.Diagnostic.Failure
import TypedSql.Token.Form

/-!
# Reading tokens

Reading goes from the beginning to the end: trivia is skipped, then the first form that accepts
gives the next token.  Where no form accepts, the text cannot be read from there on, and the fault
says why.  Token positions are file positions, so a text that was cut out of a file and read at
its own position gives the tokens that the file gives.
-/

namespace TypedSql.Token

open Text Diagnostic

/-- Why no token can be read. -/
inductive Fault
  | unterminatedString
  | unterminatedName
  | unterminatedComment
  | unexpected (c : Char)
deriving DecidableEq, Repr

namespace Fault

def code : Fault → Code
  | unterminatedString => .unterminatedString
  | unterminatedName => .unterminatedName
  | unterminatedComment => .unterminatedComment
  | unexpected _ => .invalidCharacter

def message : Fault → String
  | unterminatedString => "unterminated string literal"
  | unterminatedName => "unterminated quoted identifier"
  | unterminatedComment => "unterminated block comment"
  | unexpected c => "unexpected character '" ++ String.ofList [c] ++ "'"

/-- The fault of a text that begins with `c` and that no form accepts. -/
def ofText (c : Char) (rest : List Char) : Fault :=
  if c = '\'' then unterminatedString
  else if (c = 'x' ∨ c = 'X') ∧ rest.head? = some '\'' then unterminatedString
  else if c = '"' ∨ c = '\x60' ∨ c = '[' then unterminatedName
  else unexpected c

end Fault

/-- Where and why reading ended before the text did. -/
structure ReadError where
  fault : Fault
  position : Position
deriving DecidableEq, Repr

namespace ReadError

def code (e : ReadError) : Code := e.fault.code

def message (e : ReadError) : String := e.fault.message

/-- The message and the position. -/
def display (e : ReadError) : String := e.message ++ " at " ++ e.position.display

/-- The error as a diagnostic of the file `path`. -/
def toDiagnostic (path : String) (e : ReadError) : Diagnostic :=
  .error e.code e.message path e.position none

/-- The error as a failure with a place. -/
def toFailure (e : ReadError) : Failure :=
  .located .parse e.code e.message (some ⟨e.position, 0, 0⟩)

end ReadError

/-- The tokens of `cs`, which stands at byte `offset` of the text and at `p` in the file. -/
def readFrom (cs : List Char) (offset : Nat) (p : Position) : Except ReadError (List Token) :=
  let gap := triviaLength cs
  let offset := offset + byteLength (cs.take gap)
  let p := p.after (cs.take gap)
  let rest := cs.drop gap
  match rest with
  | [] => .ok []
  | '/' :: '*' :: _ => .error ⟨.unterminatedComment, p⟩
  | c :: more =>
      match _h : firstForm? rest with
      | none => .error ⟨.ofText c more, p⟩
      | some (form, n) =>
          let piece := rest.take n
          let text := String.ofList piece
          let stop := offset + byteLength piece
          let token : Token := ⟨form.kind text, text, ⟨offset, stop⟩, p⟩
          (readFrom (rest.drop n) stop (p.after piece)).map (token :: ·)
termination_by cs.length
decreasing_by
  have := firstForm?_bounds _h
  have : rest.length ≤ cs.length := by simp [rest]
  simp
  omega

/-- The tokens of a text whose first character stands at `origin` in its file. -/
def tokenizeAt (sql : String) (origin : Position) : Except ReadError (List Token) :=
  readFrom sql.toList 0 origin

/-- The tokens of a whole file. -/
def tokenize (sql : String) : Except ReadError (List Token) := tokenizeAt sql .first

/-! A literal is by definition the text of its characters, so with these equations the tokens of a
literal are computed from characters, and the bytes of the literal are never decoded. -/

theorem tokenizeAt_ofList (cs : List Char) (origin : Position) :
    tokenizeAt (String.ofList cs) origin = readFrom cs 0 origin := by
  rw [tokenizeAt, String.toList_ofList]

theorem tokenize_ofList (cs : List Char) : tokenize (String.ofList cs) = readFrom cs 0 .first :=
  tokenizeAt_ofList cs .first

end TypedSql.Token

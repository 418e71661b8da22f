import TypedSql.Text.Basic

/-!
# Positions

A position is a line and a column, both counted from 1.  Columns count characters, and only a
line feed ends a line.  Positions in a text that was cut out of a file are positions in the file:
reading on from `p` over the text gives the position after it.
-/

namespace TypedSql

open Text

/-- A place in a file. -/
structure Position where
  line : Nat
  column : Nat
deriving DecidableEq, Repr

/-- A half-open range of byte offsets. -/
structure Span where
  start : Nat
  stop : Nat
deriving DecidableEq, Repr

namespace Position

/-- The first character of a file. -/
def first : Position := ⟨1, 1⟩

instance : Inhabited Position := ⟨first⟩

/-- The position after one more character. -/
def step (p : Position) (c : Char) : Position :=
  if c = '\n' then ⟨p.line + 1, 1⟩ else ⟨p.line, p.column + 1⟩

/-- The position after a run of characters. -/
def after (p : Position) (cs : List Char) : Position := cs.foldl step p

/-- The position of byte `offset` in a text whose first character stands at `p`. -/
def advance (p : Position) (text : String) (offset : Nat) : Position :=
  p.after (takeBytes offset text.toList)

/-- The position stands before the other one, or is the same. -/
def notAfter (p q : Position) : Bool :=
  decide (p.line < q.line) || (p.line == q.line && decide (p.column ≤ q.column))

/-- The line, a colon and the column. -/
def display (p : Position) : String := toString p.line ++ ":" ++ toString p.column

@[simp] theorem after_nil (p : Position) : p.after [] = p := rfl

@[simp] theorem after_append (p : Position) (xs ys : List Char) :
    p.after (xs ++ ys) = (p.after xs).after ys := by
  simp [after, List.foldl_append]

end Position

end TypedSql

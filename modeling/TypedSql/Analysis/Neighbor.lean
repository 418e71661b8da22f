import TypedSql.Token.Nesting

/-!
# The neighborhood of a parameter

The tokens next to a parameter say with which column it is compared.  Those before it are given
nearest first, those behind it in their order.
-/

namespace TypedSql.Neighbor

open Token

/-- A column with or without a qualifier. -/
structure ColumnName where
  qualifier : Option String
  name : String
deriving DecidableEq, Repr

/-- The token compares two values. -/
def isComparison (t : Token) : Bool :=
  (t.kind == .operator && ["=", "==", "!=", "<>", "<", "<=", ">", ">="].contains t.text) ||
    t.isAnyWord ["LIKE", "GLOB", "IS"]

/-- The column that ends right before the place. -/
def columnBefore? (before : List Token) : Option ColumnName :=
  match before with
  | [] => none
  | name :: rest =>
      if name.isName then
        match rest with
        | dot :: table :: _ =>
            some ⟨if dot.kind == .dot && table.isName then some table.value else none, name.value⟩
        | _ => some ⟨none, name.value⟩
      else none

/-- The column that begins right behind the place, with the name in front of it.  A function call
is no column. -/
def columnFrom? (qualifier : Option String) : List Token → Option ColumnName
  | [] => none
  | name :: rest =>
      if name.isName then
        match rest with
        | [] => some ⟨qualifier, name.value⟩
        | next :: more =>
            if next.kind = .dot then columnFrom? (some name.value) more
            else if next.kind = .leftParen then none
            else some ⟨qualifier, name.value⟩
      else none

/-- The column that a comparison has on its left: `c op`, `c NOT LIKE`, `c IS NOT`. -/
def comparedBefore? (before : List Token) : Option ColumnName :=
  let before :=
    if startsWith "NOT" before && startsWith "IS" (before.drop 1) then before.drop 1 else before
  match before with
  | op :: rest => if isComparison op then columnBefore? (skip "NOT" rest) else none
  | [] => none

/-- The column that a comparison has on its right. -/
def comparedBehind? (behind : List Token) : Option ColumnName :=
  match skip "NOT" behind with
  | op :: rest => if isComparison op then columnFrom? none (skip "NOT" rest) else none
  | [] => none

/-- The index of the parenthesis of the `IN` list that holds the token at index `i` as the first
token of an item. -/
def inListOpen? (tokens : List Token) (i : Nat) : Option Nat :=
  let before := (tokens.take i).reverse
  if startsWithKind .leftParen before || startsWithKind .comma before then
    (opening? 0 before).bind fun openParen =>
      if startsWith "IN" (tokens.take openParen).reverse then some openParen else none
  else none

/-- The column in front of the `IN` list that holds the token at index `i`. -/
def inListColumn? (tokens : List Token) (i : Nat) : Option ColumnName :=
  (inListOpen? tokens i).bind fun openParen =>
    columnBefore? (skip "NOT" ((tokens.take openParen).reverse.drop 1))

/-- The number of items of the `IN` list that holds the token at index `i`. -/
def inListLength? (tokens : List Token) (i : Nat) : Option Nat :=
  (inListOpen? tokens i).bind fun openParen =>
    (group? (tokens.drop openParen)).map fun g => (splitTopLevelCommas g.inner).length

end TypedSql.Neighbor

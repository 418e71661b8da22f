import TypedSql.Catalog.Basic
import TypedSql.Token.Nesting

/-!
# The targets of inserted values

In `INSERT INTO t (c, …) VALUES (…), (…)` every value goes into a column.  Without a column list
the columns of the table are meant, in their order.
-/

namespace TypedSql

open Token

/-- The column that the token at an index goes into. -/
structure InsertTarget where
  index : Nat
  table : String
  column : String
deriving DecidableEq, Repr

namespace InsertTarget

/-- The last part of a name with dots, and what follows it.  A part that is no name is skipped. -/
def readTable (table : String) : List Place → String × List Place
  | dot :: part :: rest =>
      if dot.token.kind = .dot then
        readTable (if part.token.isName then part.token.value else table) rest
      else (table, dot :: part :: rest)
  | [dot] => if dot.token.kind = .dot then (table, []) else (table, [dot])
  | [] => (table, [])

/-- The item is a parameter: one token, or a macro of six. -/
def isParam (item : List Place) : Bool :=
  (item.length == 1 && nextIsKind .parameter item) || (item.length == 6 && nextIsWord "sqlc" item)

/-- The targets of the parameters among the items of a row. -/
def ofRow (table : String) (columns : List String) (items : List (List Place)) :
    List InsertTarget :=
  (items.zip columns).filterMap fun (item, column) =>
    match item with
    | first :: _ => if isParam item then some ⟨first.index, table, column⟩ else none
    | [] => none

/-- The targets of the parameters in the rows at the beginning of the list. -/
def ofRows (table : String) (columns : List String) (places : List Place) : List InsertTarget :=
  match _h : groupPlaces? places with
  | none => []
  | some (row, rest) =>
      ofRow table columns (placePieces row) ++
        ofRows table columns (if nextIsKind .comma rest then rest.drop 1 else rest)
termination_by places.length
decreasing_by
  have := length_rest_of_groupPlaces? _h
  split
  · simp; omega
  · omega

/-- The targets of the first row, and then those of the rows behind it. -/
theorem ofRows_eq (table : String) (columns : List String) (places : List Place) :
    ofRows table columns places =
      match groupPlaces? places with
      | none => []
      | some (row, rest) =>
          ofRow table columns (placePieces row) ++
            ofRows table columns (if nextIsKind .comma rest then rest.drop 1 else rest) := by
  rw [ofRows]
  split
  · next h => rw [h]
  · next h => rw [h]

/-- The names in the column list that the list begins with, and what follows it; without one the
columns of the table. -/
def readColumns? (c : Catalog) (table : String) (places : List Place) :
    Option (List String × List Place) :=
  if nextIsKind .leftParen places then
    (groupPlaces? places).map fun group =>
      ((placePieces group.1).filterMap fun piece => piece.head?.map (·.token.value), group.2)
  else (c.table? table).map fun t => (t.columns.map (·.name), places)

/-- The targets of an insertion, from behind `INTO`. -/
def ofInsertion (c : Catalog) (places : List Place) : List InsertTarget :=
  match places with
  | [] => []
  | name :: rest =>
      if name.token.isName then
        let (table, rest) := readTable name.token.value rest
        let rest := if nextIsWord "AS" rest then rest.drop 2 else rest
        match readColumns? c table rest with
        | some (columns, rest) =>
            if nextIsWord "VALUES" rest then ofRows table columns (rest.drop 1) else []
        | none => []
      else []

/-- The targets of the parameters of a statement. -/
def ofTokens (c : Catalog) (tokens : List Token) : List InsertTarget :=
  let statement := (places tokens).drop (statementStart tokens)
  if nextIs (fun t => t.isAnyWord ["INSERT", "REPLACE"]) statement then
    ofInsertion c ((statement.dropWhile fun p => !p.isTopWord ["INTO"]).drop 1)
  else []

end InsertTarget

end TypedSql

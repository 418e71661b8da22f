import TypedSql.Analysis.Projection
import TypedSql.Query.Statement
import TypedSql.Scope.Narrow

/-!
# Common table expressions

A common table expression gets its columns from the part before the first `UNION`, and is then a
relation like any other, for later definitions and for the main statement.  The second part of a
recursive one must have as many columns.
-/

namespace TypedSql

open Diagnostic Query Token

/-- The part before a top-level `UNION`, and the part behind it. -/
def splitUnion (tokens : List Token) : List Token × Option (List Token) :=
  match findTopLevel? tokens fun t => t.isWord "UNION" with
  | some u => (tokens.take u, some (skip "ALL" (tokens.drop (u + 1))))
  | none => (tokens, none)

/-- The items of the row that the list begins with. -/
def firstRow (sql : String) (tokens : List Token) : List Item :=
  match group? tokens with
  | some g => readProjection sql g.inner
  | none => []

namespace Query.Cte

/-- The items that the first part of the body projects. -/
def anchorItems (cte : Cte) (anchor : List Token) : List Item :=
  let statement := anchor.drop (statementStart anchor)
  if startsWith "SELECT" statement then (Query.ofTokens cte.body anchor).items
  else if startsWith "VALUES" statement then firstRow cte.body (statement.drop 1)
  else []

/-- Notes the relations that a scope misses. -/
def noteMissing (s : Scope) : Noted Unit :=
  Noted.forEach (fun m =>
    .warning .unknownRelation m.position ("unknown table '" ++ m.name ++ "'")) s.missing

/-- Names the columns without a name by their number, where the first column is number
`number`. -/
def nameColumns (cte : Cte) (number : Nat) : List ResultColumn → Noted (List ResultColumn)
  | [] => Pure.pure []
  | column :: rest => do
      let column ←
        if column.name.isEmpty then do
          .error .unnamedColumn cte.position
            ("cannot determine the name of column " ++ toString number ++ " of CTE '" ++ cte.name ++
              "'; add an alias or a column list")
          Pure.pure { column with name := "column_" ++ toString number }
        else Pure.pure column
      let rest ← nameColumns cte (number + 1) rest
      return column :: rest

/-- The columns under the names of the column list, if there is one of their length. -/
def applyNames (cte : Cte) (columns : List ResultColumn) : Noted (List ResultColumn) :=
  match cte.columns with
  | none => nameColumns cte 1 columns
  | some names =>
      if names.length = columns.length then Pure.pure (ResultColumn.rename columns names)
      else do
        .error .cteColumnMismatch cte.position
          ("CTE '" ++ cte.name ++ "' declares " ++ toString names.length ++
            " columns but its query produces " ++ toString columns.length)
        nameColumns cte 1 columns

/-- The columns of the first part of the body, or none where it projects nothing. -/
def resolveAnchor (base : Scope) (cte : Cte) (anchor : List Token) :
    Noted (Option (List ResultColumn)) :=
  let items := cte.anchorItems anchor
  if items.isEmpty then do
    .error .invalidCte cte.position
      ("CTE '" ++ cte.name ++
        "' must be a SELECT or VALUES that projects at least one column")
    return none
  else do
    let scope := base.narrow (anchor.drop (statementStart anchor))
    noteMissing scope
    let columns ← resolveProjection .cte scope items
    return some (← cte.applyNames columns)

/-- The sum of numbers of columns. -/
def total (counts : List Nat) : Nat := counts.foldl (· + ·) 0

/-- The number of columns of an item, or none for a star over unknown columns. -/
def itemWidth? (s : Scope) (item : Item) : Option Nat :=
  match item.shape with
  | .star (some table) => (s.entry? table).map (·.columns.length)
  | .star none => if s.hasOpaque then none else some (total (s.entries.map (·.columns.length)))
  | _ => some 1

/-- The number of columns of items, or none where one has a star over unknown columns. -/
def width? (s : Scope) (items : List Item) : Option Nat := (items.mapM (itemWidth? s)).map total

/-- Notes that the second part of a recursive body has another number of columns than the first
one. -/
def checkRecursion (base : Scope) (cte : Cte) (expected : Nat) (term : List Token) :
    Noted Unit :=
  let statement := term.drop (statementStart term)
  if startsWith "SELECT" statement then
    match width? (base.narrow statement) (Query.ofTokens cte.body term).items with
    | none => Pure.pure ()
    | some projected =>
        if projected = expected then Pure.pure ()
        else
          .error .recursiveCountMismatch cte.position
            ("recursive term of CTE '" ++ cte.name ++ "' projects " ++ toString projected ++
              " columns; expected " ++ toString expected)
  else Pure.pure ()

/-- The scope with the relation that a definition makes, if it makes one. -/
def resolve (recursive : Bool) (base : Scope) (cte : Cte) : Noted Scope := do
  let tokens := (tokenizeAt cte.body cte.bodyPosition).toOption.getD []
  let (anchor, term) := splitUnion tokens
  match ← cte.resolveAnchor base anchor with
  | none => return base
  | some columns =>
      let entry := (Scope.Entry.bare cte.name).pushAll (columns.map fun c => (c.name, c.type))
      let base := base.addEntry entry
      match recursive, term with
      | true, some term => cte.checkRecursion base columns.length term
      | _, _ => Pure.pure ()
      return base

end Query.Cte

/-- The scope with the relations that the definitions make, each seeing those before it. -/
def resolveCtes (recursive : Bool) (base : Scope) : List Cte → Noted Scope
  | [] => Pure.pure base
  | cte :: rest => do
      let base ← cte.resolve recursive base
      resolveCtes recursive base rest

end TypedSql

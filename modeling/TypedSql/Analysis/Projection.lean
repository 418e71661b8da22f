import TypedSql.Analysis.Infer
import TypedSql.Query.Basic
import TypedSql.Token.Reader

/-!
# Output columns

Every projected item gives output columns with names and types: a star the columns of its
relations, any other item one column.
-/

namespace TypedSql

open Diagnostic Query

/-- An output column. -/
structure ResultColumn where
  name : String
  /-- The relation that the value comes from, or nothing. -/
  relation : String
  type : TypeInfo
deriving DecidableEq, Repr

namespace ResultColumn

/-- The column that a column of a relation gives. -/
def ofScope (c : Scope.Column) : ResultColumn := ⟨c.name, c.relation, c.type⟩

/-- The columns with other names. -/
def rename (columns : List ResultColumn) (names : List String) : List ResultColumn :=
  (columns.zip names).map fun (column, name) => { column with name := name }

/-- The column as a JSON object, without a member for a missing relation. -/
def toJson (c : ResultColumn) : Json :=
  .object ([("name", .string c.name)] ++
    (if c.relation.isEmpty then [] else [("relation", .string c.relation)]) ++
    c.type.jsonMembers)

end ResultColumn

/-- The columns of a star without a qualifier. -/
def expandAll (s : Scope) (position : Position) : Noted (List ResultColumn) := do
  if s.isEmpty || s.hasOpaque then
    .warning .starNotExpanded position
      "cannot fully expand '*': some relations have no known columns"
  return s.entries.flatMap fun e => e.columns.map .ofScope

/-- The columns of a star behind a qualifier. -/
def expandQualified (mode : Mode) (s : Scope) (qualifier : String) (position : Position) :
    Noted (List ResultColumn) :=
  match s.entry? qualifier with
  | some e => return e.columns.map .ofScope
  | none => do
      if s.isOpaque qualifier then
        .warning .starNotExpanded position
          ("cannot expand '" ++ qualifier ++ ".*': relation has no known columns")
      else mode.noteLookup (.unknownRelation qualifier) position
      return []

/-- The name of an expression that has no alias, as output column number `number`. -/
def defaultName (mode : Mode) (item : Item) (tokens : List Token) (inferred : Inferred)
    (number : Nat) : Noted String :=
  let byLastName : Noted String :=
    match tokens.getLast? with
    | some last =>
        if last.isIdentifier then Pure.pure last.value else unnamed
    | none => unnamed
  match mode, inferred.aggregateName with
  | .query, some name => do
      .warning .missingAggregateAlias item.position
        ("aggregate " ++ item.text ++ " has no alias; using '" ++ name ++ "'")
      return name
  | _, _ => byLastName
where
  /-- The name of an expression that names nothing itself; in a common table expression none. -/
  unnamed : Noted String :=
    match mode with
    | .cte => Pure.pure ""
    | .query => do
        let name := "column_" ++ toString number
        .warning .unnamedColumn item.position
          ("cannot determine a name for '" ++ item.text ++ "'; using '" ++ name ++ "'")
        return name

/-- The output columns of an item, the first of which is number `number`. -/
def resolveItem (mode : Mode) (s : Scope) (number : Nat) (item : Item) :
    Noted (List ResultColumn) :=
  match item.shape with
  | .star none => expandAll s item.position
  | .star (some qualifier) => expandQualified mode s qualifier item.position
  | .column table name => do
      let inferred ← inferColumn mode s table name item.position
      return [⟨(item.asName.or inferred.column).getD name, inferred.relation, inferred.type⟩]
  | .expression text => do
      let tokens := (Token.tokenizeAt text item.position).toOption.getD []
      let inferred ← (Expr.ofTokens tokens).infer mode s
      let name ← match item.asName with
        | some name => Pure.pure name
        | none => defaultName mode item tokens inferred number
      return [⟨name, inferred.relation, inferred.type⟩]

/-- The output columns of items behind `count` other ones. -/
def resolveItems (mode : Mode) (s : Scope) (count : Nat) :
    List Item → Noted (List ResultColumn)
  | [] => Pure.pure []
  | item :: rest => do
      let columns ← resolveItem mode s (count + 1) item
      let more ← resolveItems mode s (count + columns.length) rest
      return columns ++ more

/-- The output columns of a list of items. -/
def resolveProjection (mode : Mode) (s : Scope) (items : List Item) :
    Noted (List ResultColumn) :=
  resolveItems mode s 0 items

end TypedSql

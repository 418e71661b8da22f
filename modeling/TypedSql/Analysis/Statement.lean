import TypedSql.Analysis.Cte
import TypedSql.Analysis.Identifier
import TypedSql.Analysis.Param
import TypedSql.Diagnostic.Collector

/-!
# The analysis of a query

A query is analyzed in passes: common table expressions, segments, output columns, parameters,
identifiers, annotations.  Each pass notes what it finds, and the same issue counts once.  Without
a catalog every type is unresolved but for what annotations say.
-/

namespace TypedSql

open Diagnostic Query Token

/-- What the analysis of a query finds. -/
structure Analysis where
  columns : List ResultColumn
  params : List ResultParam
  diagnostics : List Diagnostic
deriving DecidableEq, Repr

/-- One of the diagnostics is an error. -/
def Analysis.hasErrors (a : Analysis) : Bool := a.diagnostics.any isError

/-- What an analysis has to go on besides the query. -/
structure Analyzer where
  catalog : Option Catalog
  overrides : ColumnOverrides

namespace Analyzer

/-- The items of the `RETURNING` clause of a statement that changes a table. -/
def returningItems (b : Block) (tokens : List Token) : List Item :=
  if b.query.verb.isMutation then
    let main := tokens.drop (statementStart tokens)
    match findTopLevel? main fun t => t.isWord "RETURNING" with
    | some i =>
        readProjection b.sql ((main.drop (i + 1)).takeWhile fun t => t.kind != .semicolon)
    | none => []
  else []

/-- Notes the relations that the segments miss. -/
def noteMissing (segments : List Segment) : Noted Unit :=
  Noted.forEach (fun s =>
    Noted.forEach (fun m =>
      .error .unknownRelation m.position ("unknown table '" ++ m.name ++ "'")) s.scope.missing)
    (segments.filter fun s => !s.ordering)

/-- Checks the identifiers of a segment.  What orders a compound `SELECT` can use the names of
the output columns. -/
def checkSegment (b : Block) (tokens : List Token) (returning : List Item)
    (columns : List ResultColumn) (s : Segment) : Noted Unit :=
  let outputs := if s.ordering then columns.map fun c => Text.lowerCase c.name else []
  let known := Identifier.knownNames b.query returning ++ outputs
  Noted.forEach (fun r => Identifier.validate s.scope known (r.tokens tokens)) s.ranges

/-- Columns and parameters against a catalog. -/
def resolveWith (overrides : ColumnOverrides) (catalog : Catalog) (b : Block)
    (tokens : List Token) (returning : List Item) :
    Noted (List ResultColumn × List ResultParam) := do
  let base ← resolveCtes b.query.recursive (.ofCatalog overrides catalog) b.query.ctes
  let segments := Segment.split base tokens
  noteMissing segments
  let scope := ((segments.head?).map (·.scope)).getD base
  let projected ← resolveProjection .query scope b.query.items
  let returned ← resolveProjection .query scope returning
  let columns := projected ++ returned
  let context : ParamContext := ⟨tokens, segments, base, catalog⟩
  let params ← finishParams b tokens (paramHints context b.query.params)
  if b.query.verb != .other then
    Noted.forEach (checkSegment b tokens returning columns) segments
  return (columns, params)

/-- The column that an item gives when nothing is known of any relation. -/
def untypedColumn (number : Nat) (item : Item) : ResultColumn :=
  ⟨(item.asName.or item.name?).getD ("column_" ++ toString number), item.table?.getD "",
    .unresolved⟩

/-- The columns of items, where the first one is number `number`. -/
def untypedColumns (number : Nat) : List Item → List ResultColumn
  | [] => []
  | item :: rest => untypedColumn number item :: untypedColumns (number + 1) rest

/-- Columns and parameters without a catalog. -/
def resolveWithout (b : Block) (tokens : List Token) (returning : List Item) :
    Noted (List ResultColumn × List ResultParam) := do
  .warning .catalogUnavailable b.position "no schema catalog available; types are unresolved"
  let columns := untypedColumns 1 ((b.query.items ++ returning).filter fun i => !i.isStar)
  let params ← finishParams b tokens (b.query.params.map fun _ => none)
  return (columns, params)

/-- The columns with the type of an annotation on the first one of its name. -/
def annotateColumn (columns : List ResultColumn) (a : TypeHint) : Noted (List ResultColumn) :=
  match columns.findIdx? fun c => Text.eqIgnoreCase c.name a.name with
  | none => do
      .warning .invalidHint a.position
        ("annotation names unknown output column '" ++ a.name ++ "'")
      return columns
  | some i =>
      match Affinity.named? a.typeName with
      | some type =>
          return columns.modify i fun c => { c with type := .resolved type a.nullable }
      | none => do
          .warning .untypedExpression a.position
            ("unknown type '" ++ a.typeName ++ "' for column '" ++ a.name ++ "'")
          return columns

/-- The columns with the types of annotations, in order. -/
def annotateColumns (columns : List ResultColumn) : List TypeHint → Noted (List ResultColumn)
  | [] => Pure.pure columns
  | a :: rest => do
      let columns ← annotateColumn columns a
      annotateColumns columns rest

/-- Columns and parameters of a block with these tokens. -/
def resolve (a : Analyzer) (b : Block) (tokens : List Token) :
    Noted (List ResultColumn × List ResultParam) := do
  let returning := returningItems b tokens
  let (columns, params) ← match a.catalog with
    | some catalog => resolveWith a.overrides catalog b tokens returning
    | none => resolveWithout b tokens returning
  let columns ← annotateColumns columns b.columnHints
  return (columns, params)

/-- The analysis of a query.  A statement that cannot be read has no columns and no
parameters. -/
def analyze (a : Analyzer) (b : Block) : Analysis :=
  match tokenizeAt b.sql b.position with
  | .error e => ⟨[], [], distinct b.path [e.toDiagnostic b.path]⟩
  | .ok tokens =>
      let found := a.resolve b tokens
      ⟨found.value.1, found.value.2, distinct b.path found.notes⟩

end Analyzer

/-! ## Views

A view is analyzed like a query, in the order of declaration, and is then a table of its catalog
with the types that were found.  So a view can select from tables and from earlier views. -/

namespace View

/-- The query that a view is. -/
def toBlock (v : View) (query : Query) : Block :=
  { name := v.name
    command := .many
    path := v.path
    position := v.position
    sql := v.sql
    doc := none
    query := query
    paramHints := []
    columnHints := [] }

/-- The columns under the names of the view's column list, if there is one of their length. -/
def applyNames (v : View) (columns : List ResultColumn) : List ResultColumn × List Diagnostic :=
  match v.columns with
  | none => (columns, [])
  | some names =>
      if names.length = columns.length then (ResultColumn.rename columns names, [])
      else
        (columns, [.error .invalidView ("view '" ++ v.name ++ "' declares " ++
          toString names.length ++ " columns but its query produces " ++
          toString columns.length) v.path v.position none])

/-- The column of a table that has the type of an output column. -/
def tableColumn (c : ResultColumn) : Column :=
  { Column.plain c.name ((c.type.type?.map ValueType.declaration).getD "") with
    notNull := !c.type.isNullable }

/-- The table that a view with these columns is. -/
def toTable (v : View) (columns : List ResultColumn) : Table :=
  { Table.bare v.name with columns := columns.map tableColumn, isView := true }

/-- The catalog with a view as a table, and the problems in the view.  A view that cannot be read
becomes no table. -/
def resolve (c : Catalog) (v : View) : Catalog × List Diagnostic :=
  match Query.parse v.sql v.position with
  | .error e => (c, [e.toDiagnostic v.path])
  | .ok query =>
      let found := Analyzer.analyze ⟨some c, .empty⟩ (v.toBlock query)
      let (columns, mismatch) := v.applyNames found.columns
      (c.addTable (v.toTable columns), found.diagnostics ++ mismatch)

end View

/-- The catalog with all its views as tables, and the problems in them. -/
def resolveViews (c : Catalog) : Catalog × List Diagnostic :=
  c.views.values.foldl (fun (c, problems) v =>
    let (c, more) := v.resolve c
    (c, problems ++ more)) (c, [])

end TypedSql

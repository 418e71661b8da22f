import TypedSql.Diagnostic.Failure
import TypedSql.Files.Basic
import TypedSql.Json.Parser
import TypedSql.Scope.Basic

/-!
# Configurations

A configuration names the schema files and the query files of a project, and gives types to
columns.
-/

namespace TypedSql

open Diagnostic

/-- A type that is given to a column from outside. -/
structure ColumnOverride where
  /-- The table's name, a dot and the column's name. -/
  column : String
  typeName : String
  nullable : Bool
deriving DecidableEq, Repr

/-- The settings of a project. -/
structure Config where
  /-- Schema files and directories, in order. -/
  schema : List String
  /-- Query files and directories, in order. -/
  queries : List String
  overrides : List ColumnOverride
  /-- Warnings are as bad as errors. -/
  strict : Bool
deriving DecidableEq, Repr

namespace ColumnOverride

/-- What stands before the first dot and what stands behind it. -/
def splitDot : List Char → Option (List Char × List Char)
  | [] => none
  | '.' :: rest => some ([], rest)
  | c :: rest => (splitDot rest).map fun (before, behind) => (c :: before, behind)

/-- The key and the type of the column. -/
def entry (o : ColumnOverride) : Except Failure (String × TypeInfo) :=
  match splitDot o.column.toList with
  | none =>
      .error (.system .configuration
        ("override column '" ++ o.column ++ "' must be written as table.column") none)
  | some (table, column) =>
      match ValueType.parse o.typeName with
      | .error name =>
          .error (.system .configuration
            ("override for '" ++ o.column ++ "': " ++ ValueType.unknownMessage name) none)
      | .ok type =>
          .ok (ColumnOverrides.key (String.ofList table) (String.ofList column),
            .resolved type o.nullable)

end ColumnOverride

namespace Config

/-- The configuration that names nothing. -/
def empty : Config := ⟨[], [], [], false⟩

instance : Inhabited Config := ⟨empty⟩

/-- The given types by column.  A later one takes the place of an earlier one. -/
def columnOverrides (c : Config) : Except Failure ColumnOverrides := do
  let entries ← c.overrides.mapM ColumnOverride.entry
  return .ofList entries

end Config

/-! ## Reading configurations

A configuration is written as a JSON object, every member of which is known and comes once, or as
the array of the members' values in order, where trailing ones can be left out.  Missing members
have the values of the empty configuration. -/

/-- The values of the members `names`, with nothing for a missing one.  There are none if a value
has no name or a name comes twice. -/
def Json.fields? (names : List String) : Json → Option (List (Option Json))
  | .object members =>
      let keys := members.map Prod.fst
      if keys.all names.contains && decide keys.Nodup then
        some (names.map fun name => members.lookup name)
      else none
  | .array items =>
      if items.length ≤ names.length then
        some (items.map some ++ List.replicate (names.length - items.length) none)
      else none
  | _ => none

/-- The value read, or the default where there is no value. -/
def Json.readOr {α : Type} (default : α) (read : Json → Option α) : Option Json → Option α
  | some value => read value
  | none => some default

/-- The list of the values read. -/
def Json.readList {α : Type} (read : Json → Option α) (value : Json) : Option (List α) :=
  value.asArray?.bind fun items => items.mapM read

namespace ColumnOverride

/-- The given type that a JSON value describes. -/
def ofJson? (value : Json) : Option ColumnOverride :=
  match value.fields? ["column", "type", "nullable"] with
  | some [some column, some typeName, nullable] => do
      return ⟨← column.asString?, ← typeName.asString?, ← Json.readOr false Json.asBool? nullable⟩
  | _ => none

end ColumnOverride

namespace Config

/-- The configuration that a JSON value describes. -/
def ofJson? (value : Json) : Option Config :=
  match value.fields? ["schema", "queries", "overrides", "strict"] with
  | some [schema, queries, overrides, strict] => do
      let schema ← Json.readOr [] (Json.readList Json.asString?) schema
      let queries ← Json.readOr [] (Json.readList Json.asString?) queries
      let overrides ← Json.readOr [] (Json.readList ColumnOverride.ofJson?) overrides
      let strict ← Json.readOr false Json.asBool? strict
      return ⟨schema, queries, overrides, strict⟩
  | _ => none

/-- The configuration with its paths seen from the directory `base`. -/
def relativeTo (base : String) (c : Config) : Config :=
  { c with schema := c.schema.map (Path.join base), queries := c.queries.map (Path.join base) }

/-- The configuration that a text in the directory `base` describes. -/
def ofText (text base : String) : Except Failure Config :=
  match (Json.parse? text).bind ofJson? with
  | some c => .ok (c.relativeTo base)
  | none => .error (.system .configuration "invalid configuration" none)

end Config

end TypedSql

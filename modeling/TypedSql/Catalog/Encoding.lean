import TypedSql.Catalog.Basic
import TypedSql.Json.Basic

/-!
# Catalogs as JSON

A catalog is written as one object of tables and one of views, each relation under its lower-case
name and in catalog order.  A missing default and a missing column list leave no member behind.
-/

namespace TypedSql

open Json

namespace Column

def toJson (c : Column) : Json :=
  .object ([("name", .string c.name), ("decl_type", .string c.declaration),
    ("not_null", .bool c.notNull), ("primary_key", .bool c.primaryKey)] ++
    optionalMember "default" .string c.defaultText)

end Column

/-- The texts of an array, if it holds nothing else. -/
def textsOfJson? (j : Json) : Option (List String) := do (← j.asArray?).mapM asString?

/-- The reading of a member that may be missing or null. -/
def memberOrNone? {α : Type} (name : String) (read : Json → Option α) (j : Json) :
    Option (Option α) :=
  match j.member? name with
  | none | some .null => some none
  | some value => (read value).map some

namespace Column

def ofJson? (j : Json) : Option Column := do
  return {
    name := ← (← j.member? "name").asString?
    declaration := ← (← j.member? "decl_type").asString?
    notNull := ← (← j.member? "not_null").asBool?
    primaryKey := ← (← j.member? "primary_key").asBool?
    defaultText := ← memberOrNone? "default" asString? j }

end Column

namespace Index

def toJson (i : Index) : Json :=
  .object [("name", .string i.name), ("columns", ofList .string i.columns),
    ("unique", .bool i.unique)]

def ofJson? (j : Json) : Option Index := do
  return {
    name := ← (← j.member? "name").asString?
    columns := ← textsOfJson? (← j.member? "columns")
    unique := ← (← j.member? "unique").asBool? }

end Index

namespace Table

def toJson (t : Table) : Json :=
  .object [("name", .string t.name), ("columns", ofList Column.toJson t.columns),
    ("primary_key", ofList .string t.primaryKey), ("indexes", ofList Index.toJson t.indexes),
    ("is_view", .bool t.isView)]

def ofJson? (j : Json) : Option Table := do
  return {
    name := ← (← j.member? "name").asString?
    columns := ← (← (← j.member? "columns").asArray?).mapM Column.ofJson?
    primaryKey := ← textsOfJson? (← j.member? "primary_key")
    indexes := ← (← (← j.member? "indexes").asArray?).mapM Index.ofJson?
    isView := ← (← j.member? "is_view").asBool? }

end Table

namespace Position

def toJson (p : Position) : Json := .object [("line", .nat p.line), ("column", .nat p.column)]

def ofJson? (j : Json) : Option Position := do
  return ⟨← (← j.member? "line").asNat?, ← (← j.member? "column").asNat?⟩

end Position

namespace View

def toJson (v : View) : Json :=
  .object ([("name", .string v.name)] ++ optionalMember "columns" (ofList .string) v.columns ++
    [("sql", .string v.sql), ("path", .string v.path), ("position", v.position.toJson)])

def ofJson? (j : Json) : Option View := do
  return {
    name := ← (← j.member? "name").asString?
    columns := ← memberOrNone? "columns" textsOfJson? j
    sql := ← (← j.member? "sql").asString?
    path := ← (← j.member? "path").asString?
    position := ← Position.ofJson? (← j.member? "position") }

end View

namespace OrderedMap

/-- One member for each key. -/
def toJson {α : Type} (f : α → Json) (m : OrderedMap α) : Json :=
  .object (m.entries.map fun e => (e.1, f e.2))

/-- The map of the members of an object. -/
def ofJson? {α : Type} (read : Json → Option α) : Json → Option (OrderedMap α)
  | .object members =>
      (members.mapM fun e => (read e.2).map fun v => (e.1, v)).map ofList
  | _ => none

end OrderedMap

namespace Catalog

def toJson (c : Catalog) : Json :=
  .object [("tables", c.tables.toJson Table.toJson), ("views", c.views.toJson View.toJson)]

def ofJson? (j : Json) : Option Catalog := do
  return ⟨← OrderedMap.ofJson? Table.ofJson? (← j.member? "tables"),
    ← OrderedMap.ofJson? View.ofJson? (← j.member? "views")⟩

end Catalog

end TypedSql

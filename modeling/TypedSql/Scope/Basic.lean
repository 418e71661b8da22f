import TypedSql.Catalog.Basic
import TypedSql.Types.Affinity

/-!
# Scopes

A scope holds the relations whose columns an expression can name.  Relations are kept in the order
in which they came, and names lead to them: the name of a relation, and any alias, is a key for its
slot.  Of an opaque name it is known that it is a relation, but not which columns it has.
-/

namespace TypedSql

open Text

/-- The types of columns that are given from outside, by the lower-case form of
`table.column`. -/
abbrev ColumnOverrides := OrderedMap TypeInfo

/-- The key of a column among the overrides. -/
def ColumnOverrides.key (table column : String) : String :=
  lowerCase table ++ "." ++ lowerCase column

namespace Scope

/-- A column that can be named. -/
structure Column where
  name : String
  /-- The relation that it belongs to. -/
  relation : String
  type : TypeInfo
deriving DecidableEq, Repr

/-- A relation with its columns in the order of their declaration, each name once, and an index of
them. -/
structure Entry where
  name : String
  columns : List Column
  /-- The place of every column, under the lower-case form of its name. -/
  index : OrderedMap Nat
  indexed : index.entries = columns.zipIdx.map fun c => (lowerCase c.1.name, c.2)
deriving DecidableEq

namespace Entry

/-- A relation without columns. -/
def bare (name : String) : Entry := ⟨name, [], .empty, rfl⟩

/-- The column of that name, in any case. -/
def column? (e : Entry) (name : String) : Option Column :=
  (e.index.get? (lowerCase name)).bind fun place => e.columns[place]?

/-- Adds a column, unless there is one of that name. -/
def push (e : Entry) (name : String) (type : TypeInfo) : Entry :=
  if h : lowerCase name ∈ e.index.keys then e
  else
    { e with
      columns := e.columns ++ [⟨name, e.name, type⟩]
      index := e.index.insert (lowerCase name) e.columns.length
      indexed := by
        rw [OrderedMap.entries_insert_of_notMem h, e.indexed, List.zipIdx_append,
          List.map_append, Nat.zero_add]
        rfl }

/-- Adds columns in order. -/
def pushAll (e : Entry) (columns : List (String × TypeInfo)) : Entry :=
  columns.foldl (fun e c => e.push c.1 c.2) e

end Entry

/-- A relation that a statement names and that is not there. -/
structure Missing where
  name : String
  position : Position
deriving DecidableEq, Repr

/-- Why a column is not found. -/
inductive LookupError
  | unknownRelation (name : String)
  | unknownColumn (relation column : String)
  | noSuchColumn (column : String)
  | ambiguous (column : String)
  /-- The column may belong to a relation whose columns are not known. -/
  | unmapped (column : String)
deriving DecidableEq, Repr

/-- The error in words. -/
def LookupError.message : LookupError → String
  | unknownRelation name => "unknown table or alias '" ++ name ++ "'"
  | unknownColumn relation column => "unknown column '" ++ column ++ "' in '" ++ relation ++ "'"
  | noSuchColumn column => "unknown column '" ++ column ++ "'"
  | ambiguous column => "column '" ++ column ++ "' is ambiguous; qualify with a table alias"
  | unmapped column =>
      "column '" ++ column ++ "' derives from expression without schema mapping"

end Scope

/-- The relations that can be named. -/
structure Scope where
  entries : List Scope.Entry
  /-- The slot of every name and alias, in lower case. -/
  names : OrderedMap Nat
  /-- The names of relations whose columns are not known, in lower case. -/
  opaqueNames : List String
  /-- The relations that were named and are not there. -/
  missing : List Scope.Missing
deriving DecidableEq

namespace Scope

/-- The scope without relations. -/
def empty : Scope := ⟨[], .empty, [], []⟩

instance : Inhabited Scope := ⟨empty⟩

/-- The slot of a name or an alias, in any case. -/
def slot? (s : Scope) (name : String) : Option Nat := s.names.get? (lowerCase name)

/-- The relation of that name or alias, in any case. -/
def entry? (s : Scope) (name : String) : Option Entry :=
  (s.slot? name).bind fun slot => s.entries[slot]?

/-- The name stands for a relation whose columns are not known. -/
def isOpaque (s : Scope) (name : String) : Bool := s.opaqueNames.contains (lowerCase name)

/-- There is a relation whose columns are not known. -/
def hasOpaque (s : Scope) : Bool := !s.opaqueNames.isEmpty

/-- The name stands for a relation. -/
def isRelation (s : Scope) (name : String) : Bool := (s.slot? name).isSome || s.isOpaque name

/-- No relation with known columns is there. -/
def isEmpty (s : Scope) : Bool := s.entries.isEmpty

/-- Adds a relation under its name, in the place of the one that has the name already. -/
def addEntry (s : Scope) (e : Entry) : Scope :=
  match s.slot? e.name with
  | some slot => { s with entries := s.entries.set slot e }
  | none =>
      { s with
        entries := s.entries ++ [e]
        names := s.names.insert (lowerCase e.name) s.entries.length }

/-- The slot at which `addEntry` puts a relation. -/
def slotFor (s : Scope) (e : Entry) : Nat := (s.slot? e.name).getD s.entries.length

/-- Makes a name lead to a slot. -/
def addAlias (s : Scope) (name : String) (slot : Nat) : Scope :=
  { s with names := s.names.insert (lowerCase name) slot }

/-- Adds a name of which no columns are known. -/
def addOpaque (s : Scope) (name : String) : Scope :=
  if s.isOpaque name then s else { s with opaqueNames := s.opaqueNames ++ [lowerCase name] }

/-- The relation that a table is: its columns with their types, or the types that `overrides` has
for them. -/
def Entry.ofTable (overrides : ColumnOverrides) (t : Table) : Entry :=
  (Entry.bare t.name).pushAll (t.columns.map fun c =>
    (c.name, (overrides.get? (ColumnOverrides.key t.name c.name)).getD
      (Affinity.columnType c.declaration c.notNull)))

/-- The scope of all tables of a catalog. -/
def ofCatalog (overrides : ColumnOverrides) (c : Catalog) : Scope :=
  c.tables.values.foldl (fun s t => s.addEntry (.ofTable overrides t)) empty

/-- The column of that name in the relation of that name or alias. -/
def lookupIn (s : Scope) (qualifier column : String) : Except LookupError Column :=
  match s.entry? qualifier with
  | some e =>
      match e.column? column with
      | some c => .ok c
      | none => .error (.unknownColumn qualifier column)
  | none =>
      if s.isOpaque qualifier then .error (.unmapped column)
      else .error (.unknownRelation qualifier)

/-- The column of that name in the only relation that has one. -/
def lookupAny (s : Scope) (column : String) : Except LookupError Column :=
  match s.entries.filterMap fun e => e.column? column with
  | [c] => .ok c
  | _ :: _ :: _ => .error (.ambiguous column)
  | [] => if s.hasOpaque then .error (.unmapped column) else .error (.noSuchColumn column)

/-- The column that a name with or without a qualifier stands for. -/
def lookup (s : Scope) (qualifier : Option String) (column : String) :
    Except LookupError Column :=
  match qualifier with
  | some q => s.lookupIn q column
  | none => s.lookupAny column

end Scope

end TypedSql

import TypedSql.OrderedMap
import TypedSql.Position
import TypedSql.Text.Basic

/-!
# Catalogs

A catalog holds the tables and views of a schema in the order of their declaration.  Names are
looked up without regard to the case of ASCII letters.
-/

namespace TypedSql

open Text

/-- A column of a table. -/
structure Column where
  name : String
  /-- The declared type as written. -/
  declaration : String
  notNull : Bool
  primaryKey : Bool
  /-- The text behind `DEFAULT`. -/
  defaultText : Option String
deriving DecidableEq, Repr

namespace Column

/-- A column with a name and a declared type, and nothing else. -/
def plain (name declaration : String) : Column := ⟨name, declaration, false, false, none⟩

/-- The column that cannot be NULL. -/
def withNotNull (c : Column) : Column := { c with notNull := true }

/-- The column as part of the primary key, which cannot be NULL. -/
def withPrimaryKey (c : Column) : Column := { c with primaryKey := true, notNull := true }

/-- The column has that name, in any case. -/
def isNamed (name : String) (c : Column) : Bool := eqIgnoreCase c.name name

end Column

/-- An index over columns of a table. -/
structure Index where
  name : String
  columns : List String
  unique : Bool
deriving DecidableEq, Repr

/-- A table, or a view whose columns are known. -/
structure Table where
  name : String
  columns : List Column
  primaryKey : List String
  indexes : List Index
  isView : Bool
deriving DecidableEq, Repr

namespace Table

/-- A table with a name and nothing else. -/
def bare (name : String) : Table := ⟨name, [], [], [], false⟩

/-- The first column of that name, in any case. -/
def column? (t : Table) (name : String) : Option Column := t.columns.find? (Column.isNamed name)

def hasColumn (t : Table) (name : String) : Bool := (t.column? name).isSome

/-- Changes the first column of that name, if there is one. -/
def modifyColumn (t : Table) (name : String) (f : Column → Column) : Table :=
  match t.columns.findIdx? (Column.isNamed name) with
  | some i => { t with columns := t.columns.modify i f }
  | none => t

end Table

/-- A view whose columns are not known yet. -/
structure View where
  name : String
  /-- The names in parentheses behind the name. -/
  columns : Option (List String)
  /-- The text behind `AS`. -/
  sql : String
  path : String
  /-- Where `sql` begins. -/
  position : Position
deriving DecidableEq, Repr

/-- Tables and views, each under the lower-case form of its name. -/
structure Catalog where
  tables : OrderedMap Table
  views : OrderedMap View
deriving DecidableEq

namespace Catalog

/-- The catalog without relations. -/
def empty : Catalog := ⟨.empty, .empty⟩

instance : Inhabited Catalog := ⟨empty⟩

def isEmpty (c : Catalog) : Bool := c.tables.isEmpty && c.views.isEmpty

/-- The number of tables. -/
def size (c : Catalog) : Nat := c.tables.size

/-- The table of that name, in any case. -/
def table? (c : Catalog) (name : String) : Option Table := c.tables.get? (lowerCase name)

/-- The view of that name, in any case. -/
def view? (c : Catalog) (name : String) : Option View := c.views.get? (lowerCase name)

/-- The column of that table. -/
def column? (c : Catalog) (table column : String) : Option Column :=
  (c.table? table).bind fun t => t.column? column

/-- Adds a table, in the place of one with the same name if there is one. -/
def addTable (c : Catalog) (t : Table) : Catalog :=
  { c with tables := c.tables.insert (lowerCase t.name) t }

/-- Adds a view, in the place of one with the same name if there is one. -/
def addView (c : Catalog) (v : View) : Catalog :=
  { c with views := c.views.insert (lowerCase v.name) v }

/-- Removes a table and keeps the order of the others. -/
def removeTable (c : Catalog) (name : String) : Catalog :=
  { c with tables := c.tables.erase (lowerCase name) }

/-- Removes a view and keeps the order of the others. -/
def removeView (c : Catalog) (name : String) : Catalog :=
  { c with views := c.views.erase (lowerCase name) }

/-- Changes the table of that name, if there is one. -/
def modifyTable (c : Catalog) (name : String) (f : Table → Table) : Catalog :=
  { c with tables := c.tables.modify (lowerCase name) f }

end Catalog

end TypedSql

import TypedSql.Position
import TypedSql.Text.Basic

/-!
# Queries

A query is read coarsely: what its statement projects, which values it takes, which common table
expressions it defines.  Expressions stay text, with the position where they begin.
-/

namespace TypedSql

open Text

namespace Query

/-- What the main statement does. -/
inductive Verb
  | select
  | insert
  | update
  | delete
  | other
deriving DecidableEq, Repr

namespace Verb

/-- The verb that a statement with this first word has. -/
def ofWord (word : String) : Verb :=
  match lowerCase word with
  | "select" | "values" => select
  | "insert" | "replace" => insert
  | "update" => update
  | "delete" => delete
  | _ => other

/-- The verb in upper case. -/
def display : Verb → String
  | select => "SELECT"
  | insert => "INSERT"
  | update => "UPDATE"
  | delete => "DELETE"
  | other => "OTHER"

/-- The verb in lower case. -/
def name (v : Verb) : String := lowerCase v.display

/-- The statement changes a table and may return the changed rows. -/
def isMutation (v : Verb) : Bool := v == insert || v == update || v == delete

end Verb

/-- How many rows the caller of a query expects. -/
inductive Command
  | one
  | many
  | exec
  | execRows
  | execResult
deriving DecidableEq, Repr

namespace Command

/-- The command in lower case. -/
def name : Command → String
  | one => "one"
  | many => "many"
  | exec => "exec"
  | execRows => "execrows"
  | execResult => "execresult"

/-- The command as a query header spells it. -/
def display (c : Command) : String := ":" ++ c.name

def all : List Command := [one, many, exec, execRows, execResult]

/-- The text without its leading colons, in lower case. -/
def bare (text : String) : String :=
  lowerCase (String.ofList (text.toList.dropWhile (· == ':')))

/-- The command of that name, with any number of colons before it. -/
def parse? (text : String) : Option Command := all.find? fun c => c.name == bare text

/-- What is wrong with a text that is no command. -/
def unknownMessage (text : String) : String := "unknown query command ':" ++ bare text ++ "'"

end Command

/-- How a parameter says which value it takes. -/
inductive Binding
  /-- The next value. -/
  | positional
  /-- The value of that name. -/
  | named (name : String)
  /-- The value of that number. -/
  | numbered (number : Nat)
deriving DecidableEq, Repr

namespace Binding

/-- The way of saying it. -/
def style : Binding → String
  | positional => "positional"
  | named _ => "named"
  | numbered _ => "numbered"

def name? : Binding → Option String
  | named name => some name
  | _ => none

def number? : Binding → Option Nat
  | numbered number => some number
  | _ => none

/-- Both bindings always take one value: the same number, or the same name in any case. -/
def sameValue : Binding → Binding → Bool
  | named a, named b => eqIgnoreCase a b
  | numbered a, numbered b => a == b
  | _, _ => false

end Binding

/-- A parameter at its first place in a statement. -/
structure Param where
  binding : Binding
  /-- Where its token stands, or the first token of its macro. -/
  position : Position
  /-- It takes a list of values. -/
  variadic : Bool
  /-- It takes NULL whatever its column says. -/
  forceNullable : Bool
deriving DecidableEq, Repr

/-- What a projected item is. -/
inductive Shape
  /-- All columns, or all columns of one relation. -/
  | star (table : Option String)
  /-- A column, perhaps of a named relation. -/
  | column (table : Option String) (name : String)
  /-- Anything else, as written. -/
  | expression (text : String)
deriving DecidableEq, Repr

/-- One item of a `SELECT` list or a `RETURNING` clause. -/
structure Item where
  shape : Shape
  asName : Option String
  /-- Where its first token stands. -/
  position : Position
deriving DecidableEq, Repr

namespace Item

/-- The relation that a column or a star is qualified with. -/
def table? (i : Item) : Option String :=
  match i.shape with
  | .star table => table
  | .column table _ => table
  | .expression _ => none

/-- The name of a column. -/
def name? (i : Item) : Option String :=
  match i.shape with
  | .column _ name => some name
  | _ => none

def isStar (i : Item) : Bool :=
  match i.shape with
  | .star _ => true
  | _ => false

def isColumn (i : Item) : Bool := i.name?.isSome

/-- A name behind its qualifier. -/
def qualify (table : Option String) (name : String) : String :=
  match table with
  | some t => t ++ "." ++ name
  | none => name

/-- The item without its alias.  Names in it have lost their quotes. -/
def text (i : Item) : String :=
  match i.shape with
  | .star table => qualify table "*"
  | .column table name => qualify table name
  | .expression text => text

end Item

/-- A common table expression. -/
structure Cte where
  name : String
  /-- The names in parentheses behind the name. -/
  columns : Option (List String)
  /-- The text between the parentheses. -/
  body : String
  /-- Where the body begins. -/
  bodyPosition : Position
  /-- Where the name stands. -/
  position : Position
deriving DecidableEq, Repr

/-- The type that an annotation gives to a parameter or a column. -/
structure TypeHint where
  name : String
  typeName : String
  nullable : Bool
  position : Position
deriving DecidableEq, Repr

/-- The first annotation of that name, in any case. -/
def TypeHint.find? (name : String) (hints : List TypeHint) : Option TypeHint :=
  hints.find? fun a => eqIgnoreCase a.name name

end Query

/-- A statement, read coarsely. -/
structure Query where
  verb : Query.Verb
  /-- The projected items of a `SELECT`. -/
  items : List Query.Item
  /-- The parameters in the order of their first places. -/
  params : List Query.Param
  ctes : List Query.Cte
  /-- The `WITH` clause says `RECURSIVE`. -/
  recursive : Bool
deriving DecidableEq, Repr

/-- A statement of which nothing is known. -/
def Query.unread : Query := ⟨.other, [], [], [], false⟩

end TypedSql

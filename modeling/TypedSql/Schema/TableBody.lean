import TypedSql.Catalog.Basic
import TypedSql.Diagnostic.Basic
import TypedSql.Token.Nesting

/-!
# Table bodies

The elements between the parentheses of `CREATE TABLE`: column definitions, keys, unique
constraints, and other constraints that the catalog has no use for.
-/

namespace TypedSql.Schema

open Token Diagnostic

/-! ## Reading a schema statement

What the readers of schema statements share: the text that tokens are cut from, how a problem is
noted, and the small steps over a list of tokens.

An attempt either succeeds, or ends with a problem, or ends silently. -/

/-- A schema file. -/
structure Source where
  path : String
  sql : String
deriving DecidableEq, Repr

/-- A result, a problem that was found instead, or neither. -/
abbrev Attempt (α : Type) := Except (Option Diagnostic) α

/-- A problem in the file. -/
def Source.problem (s : Source) (code : Code) (position : Position) (message : String) :
    Diagnostic :=
  .error code message s.path position none

/-- Ends with a problem. -/
def Source.refuse {α : Type} (s : Source) (code : Code) (position : Position)
    (message : String) : Attempt α :=
  .error (some (s.problem code position message))

/-- Ends silently. -/
def ignore {α : Type} : Attempt α := .error none

/-- The list begins with `words` in this order. -/
def startsWithAll : List String → List Token → Bool
  | [], _ => true
  | _ :: _, [] => false
  | w :: ws, t :: ts => t.isWord w && startsWithAll ws ts

/-- The tokens behind `words`, or all of them where the list does not begin so. -/
def skipAll (words : List String) (tokens : List Token) : List Token :=
  if startsWithAll words tokens then tokens.drop words.length else tokens

/-- A token that can be the name of a relation or a column. -/
def canName (t : Token) : Bool := t.isName || t.kind == .string

/-- The last part of a name with dots, and the tokens behind it. -/
def relationName? : List Token → Option (Token × List Token)
  | [] => none
  | [t] => if canName t then some (t, []) else none
  | t :: dot :: rest =>
      if dot.kind = .dot then relationName? rest
      else if canName t then some (t, dot :: rest) else none

/-! ## Column definitions

A column definition is a name, a declared type up to the first constraint word, and constraints.
Only `NOT NULL`, `PRIMARY KEY` and `DEFAULT` matter; groups in other constraints are skipped
whole. -/

/-- The words that end a declared type. -/
def constraintWords : List String :=
  ["CONSTRAINT", "PRIMARY", "NOT", "NULL", "UNIQUE", "CHECK", "DEFAULT", "COLLATE",
   "REFERENCES", "GENERATED", "AS"]

/-- The token is a sign. -/
def isSign (t : Token) : Bool := t.isOperator "-" || t.isOperator "+"

/-- The value behind `DEFAULT`, and the tokens behind it: the text of a group, or a token with a
sign before it.  A group that is never closed gives no value. -/
def defaultValue (sql : String) (tokens : List Token) : Option String × List Token :=
  match tokens with
  | [] => (none, [])
  | t :: ts =>
      if t.kind = .leftParen then
        match group? tokens with
        | some g => (some (sourceText sql g.inner), g.rest)
        | none => (none, tokens)
      else if isSign t then
        match ts with
        | [] => (none, [])
        | u :: us => (some (t.text ++ u.text), us)
      else (some t.text, ts)

theorem length_defaultValue_le (sql : String) (tokens : List Token) :
    (defaultValue sql tokens).2.length ≤ tokens.length := by
  unfold defaultValue
  split
  · simp
  · split
    · split
      · next g h => exact Nat.le_of_lt (length_rest_of_group? h)
      · simp
    · split
      · split
        · simp
        · simp; omega
      · simp

/-- The column with the constraints in the list.  Reading ends at a parenthesis that is never
closed. -/
def readConstraints (sql : String) (column : Column) : List Token → Column
  | [] => column
  | t :: ts =>
      if t.isWord "NOT" && startsWith "NULL" ts then
        readConstraints sql column.withNotNull (ts.drop 1)
      else if t.isWord "PRIMARY" && startsWith "KEY" ts then
        readConstraints sql column.withPrimaryKey (ts.drop 1)
      else if t.isWord "DEFAULT" then
        readConstraints sql { column with defaultText := (defaultValue sql ts).1 }
          (defaultValue sql ts).2
      else if t.kind = .leftParen then
        match _h : group? (t :: ts) with
        | some g => readConstraints sql column g.rest
        | none => column
      else readConstraints sql column ts
termination_by tokens => tokens.length
decreasing_by
  · simp only [List.length_drop, List.length_cons]; omega
  · simp only [List.length_drop, List.length_cons]; omega
  · have := length_defaultValue_le sql ts; simp only [List.length_cons]; omega
  · have := length_rest_of_group? _h; simp at this ⊢; omega
  · simp

/-- The column that a definition declares. -/
def readColumn (source : Source) (definition : List Token) : Attempt Column :=
  match definition with
  | [] => ignore
  | name :: rest =>
      if canName name then
        let isConstraint (t : Token) : Bool := t.isAnyWord constraintWords
        let typeTokens := rest.takeWhile fun t => !isConstraint t
        let column := Column.plain name.value (sourceText source.sql typeTokens)
        .ok (readConstraints source.sql column (rest.dropWhile fun t => !isConstraint t))
      else
        source.refuse .invalidTable name.position
          ("expected a column name, found '" ++ name.text ++ "'")

/-! ## The elements of a body -/

/-- A table in the making, and the problems found so far. -/
structure Draft where
  table : Table
  problems : List Diagnostic
deriving DecidableEq, Repr

/-- Adds a problem to the draft. -/
def Draft.note (d : Draft) (problem : Diagnostic) : Draft :=
  { d with problems := d.problems ++ [problem] }

/-- Adds the columns of a table constraint to the primary key. -/
def Draft.extendKey (d : Draft) (columns : List String) : Draft :=
  { d with table := { d.table with primaryKey := d.table.primaryKey ++ columns } }

/-- Adds the index of a unique constraint, which is named after the table and its number. -/
def Draft.addUnique (d : Draft) (columns : List String) : Draft :=
  let name := d.table.name ++ "_unique_" ++ toString (d.table.indexes.length + 1)
  { d with table := { d.table with indexes := d.table.indexes ++ [⟨name, columns, true⟩] } }

/-- Adds a column; one that is part of the primary key also joins the table's key. -/
def Draft.addColumn (d : Draft) (column : Column) : Draft :=
  let key := if column.primaryKey then [column.name] else []
  { d with table := { d.table with
      primaryKey := d.table.primaryKey ++ key
      columns := d.table.columns ++ [column] } }

/-- Adds the column that an element defines, whose first token behind its constraint name is
`first`. -/
def Draft.addDefinition (source : Source) (d : Draft) (definition : List Token)
    (first : Token) : Draft :=
  match readColumn source definition with
  | .error none => d
  | .error (some problem) => d.note problem
  | .ok column =>
      if d.table.hasColumn column.name then
        d.note (source.problem .duplicateColumn first.position
          ("duplicate column '" ++ column.name ++ "' in table '" ++ d.table.name ++ "'"))
      else d.addColumn column

/-- Adds the element that the tokens write. -/
def Draft.addElement (source : Source) (d : Draft) (element : List Token) : Draft :=
  let rest := if startsWith "CONSTRAINT" element then element.drop 2 else element
  match rest with
  | [] => d
  | first :: behind =>
      if first.isWord "UNIQUE" then
        match group? behind with
        | some g => d.addUnique (leadingValues g.inner)
        | none => d
      else if first.isWord "PRIMARY" then
        if startsWith "KEY" behind then
          match group? (behind.drop 1) with
          | some g => d.extendKey (leadingValues g.inner)
          | none => d
        else d
      else if first.isAnyWord ["CHECK", "FOREIGN"] then d
      else d.addDefinition source element first

/-- Marks the column of a key, or notes that the table has no such column. -/
def Draft.markKey (source : Source) (position : Position) (d : Draft) (key : String) : Draft :=
  if d.table.hasColumn key then
    { d with table := d.table.modifyColumn key Column.withPrimaryKey }
  else
    d.note (source.problem .unknownSchemaColumn position
      ("primary key column '" ++ key ++ "' does not exist in table '" ++ d.table.name ++ "'"))

/-- The table of that name with the elements of a body. -/
def readTable (source : Source) (name : String) (position : Position) (body : List Token) :
    Draft :=
  let draft := (commaPieces body).foldl (Draft.addElement source) ⟨.bare name, []⟩
  draft.table.primaryKey.foldl (Draft.markKey source position) draft

end TypedSql.Schema

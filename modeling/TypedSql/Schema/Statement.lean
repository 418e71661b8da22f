import TypedSql.Schema.TableBody

/-!
# Schema statements

What `CREATE`, `ALTER` and `DROP` statements do to a catalog.  Every other statement is skipped.
A statement that alters or drops something, or creates an index or a view, either does its work or
leaves the catalog alone with at most one problem; only the body of a new table can have several.
-/

namespace TypedSql.Schema

open Token Text

/-- A name between quotes in a message. -/
def inQuotes (name : String) : String := "'" ++ name ++ "'"

/-- The name in a statement, which must be there. -/
def requireName (source : Source) (code : Diagnostic.Code) (position : Position)
    (message : String) (tokens : List Token) : Attempt (Token × List Token) :=
  match relationName? tokens with
  | some found => .ok found
  | none => source.refuse code position message

/-- Adds a view whose body is the rest of the statement. -/
def registerView (source : Source) (c : Catalog) (name : String) (columns : Option (List String))
    (body : List Token) (position : Position) : Attempt Catalog :=
  match body with
  | [] => source.refuse .invalidView position ("view " ++ inQuotes name ++ " has no body")
  | first :: _ =>
      .ok (c.addView ⟨name, columns, sourceText source.sql body, source.path, first.position⟩)

/-- Adds the table that is defined by the group that the list begins with. -/
def defineTable (source : Source) (c : Catalog) (name : Token) (tokens : List Token) :
    Attempt (Catalog × List Diagnostic) :=
  if startsWithKind .leftParen tokens then
    match group? tokens with
    | some g =>
        let draft := readTable source name.value name.position g.inner
        .ok (c.addTable draft.table, draft.problems)
    | none =>
        source.refuse .unbalancedParens name.position
          ("unbalanced parentheses in table " ++ inQuotes name.value)
  else
    source.refuse .invalidTable name.position
      ("expected column definitions for table " ++ inQuotes name.value)

/-- `CREATE TABLE`, from behind these words.  A table defined by a `SELECT` is typed like a
view. -/
def createTable (source : Source) (position : Position) (c : Catalog) (tokens : List Token) :
    Attempt (Catalog × List Diagnostic) := do
  let ifNotExists := startsWithAll ["IF", "NOT", "EXISTS"] tokens
  let (name, rest) ← requireName source .invalidTable position "expected a table name"
    (skipAll ["IF", "NOT", "EXISTS"] tokens)
  if (c.table? name.value).isSome then
    if ifNotExists then ignore
    else
      source.refuse .duplicateTable name.position
        ("table " ++ inQuotes name.value ++ " already exists")
  else if startsWith "AS" rest then
    let c ← registerView source c name.value none (rest.drop 1) name.position
    return (c, [])
  else defineTable source c name rest

/-- `CREATE INDEX`, from behind these words. -/
def createIndex (source : Source) (position : Position) (unique : Bool) (c : Catalog)
    (tokens : List Token) : Attempt Catalog := do
  let (nameToken, rest) ← requireName source .invalidTable position "expected an index name"
    (skipAll ["IF", "NOT", "EXISTS"] tokens)
  let name := nameToken.value
  if !startsWith "ON" rest then
    source.refuse .invalidTable position ("expected ON in index " ++ inQuotes name)
  else
    let (table, rest) ← requireName source .invalidTable position
      ("expected a table name in index " ++ inQuotes name) (rest.drop 1)
    let columns := match group? rest with
      | some g => leadingValues g.inner
      | none => []
    if (c.table? table.value).isSome then
      return c.modifyTable table.value fun t =>
        { t with indexes := t.indexes ++ [⟨name, columns, unique⟩] }
    else
      source.refuse .unknownTable table.position
        ("index " ++ inQuotes name ++ " refers to unknown table " ++ inQuotes table.value)

/-- `CREATE VIEW`, from behind these words. -/
def createView (source : Source) (position : Position) (c : Catalog) (tokens : List Token) :
    Attempt Catalog := do
  let ifNotExists := startsWithAll ["IF", "NOT", "EXISTS"] tokens
  let (nameToken, rest) ← requireName source .invalidView position "expected a view name"
    (skipAll ["IF", "NOT", "EXISTS"] tokens)
  let name := nameToken.value
  if (c.table? name).isSome || c.views.values.any fun v => eqIgnoreCase v.name name then
    if ifNotExists then ignore
    else
      source.refuse .duplicateTable nameToken.position
        ("relation " ++ inQuotes name ++ " already exists")
  else
    let (columns, rest) := match group? rest with
      | some g => (some (leadingValues g.inner), g.rest)
      | none => (none, rest)
    if startsWith "AS" rest then
      registerView source c name columns (rest.drop 1) nameToken.position
    else
      source.refuse .invalidView nameToken.position ("expected AS in view " ++ inQuotes name)

/-- `ADD` in `ALTER TABLE`, from behind `ADD COLUMN`. -/
def addColumn (source : Source) (position : Position) (c : Catalog) (table : String)
    (tokens : List Token) : Attempt Catalog := do
  let column ← readColumn source tokens
  if (c.column? table column.name).isSome then
    source.refuse .duplicateColumn ((tokens.head?.map (·.position)).getD position)
      ("duplicate column " ++ inQuotes column.name ++ " in table " ++ inQuotes table)
  else
    return c.modifyTable table fun t => { t with columns := t.columns ++ [column] }

/-- `RENAME TO` in `ALTER TABLE`: the table moves to the end of the catalog, or takes the place of
the one that has the new name. -/
def renameTable (c : Catalog) (table : String) (tokens : List Token) : Attempt Catalog :=
  match relationName? tokens, c.table? table with
  | some (name, _), some t => .ok ((c.removeTable table).addTable { t with name := name.value })
  | _, _ => ignore

/-- `RENAME` of a column in `ALTER TABLE`, from behind `RENAME COLUMN`. -/
def renameColumn (source : Source) (position : Position) (c : Catalog) (table : String)
    (tokens : List Token) : Attempt Catalog :=
  match tokens with
  | old :: word :: new :: _ =>
      if word.isWord "TO" then
        if (c.column? table old.value).isSome then
          .ok (c.modifyTable table fun t =>
            t.modifyColumn old.value fun column => { column with name := new.value })
        else
          source.refuse .unknownSchemaColumn old.position
            ("unknown column " ++ inQuotes old.value ++ " in table " ++ inQuotes table)
      else malformed
  | _ => malformed
where
  malformed : Attempt Catalog :=
    source.refuse .invalidTable position ("malformed RENAME COLUMN on " ++ inQuotes table)

/-- `DROP` of a column in `ALTER TABLE`, from behind `DROP COLUMN`. -/
def dropColumn (source : Source) (c : Catalog) (table : String) (tokens : List Token) :
    Attempt Catalog :=
  match tokens with
  | [] => ignore
  | column :: _ =>
      if (c.column? table column.value).isSome then
        .ok (c.modifyTable table fun t =>
          { t with columns := t.columns.filter fun d => !d.isNamed column.value })
      else
        source.refuse .unknownSchemaColumn column.position
          ("unknown column " ++ inQuotes column.value ++ " in table " ++ inQuotes table)

/-- `ALTER TABLE`, from behind these words. -/
def alterTable (source : Source) (position : Position) (c : Catalog) (tokens : List Token) :
    Attempt Catalog := do
  let (name, rest) ← requireName source .invalidTable position "expected a table name" tokens
  let table := name.value
  if (c.table? table).isNone then
    source.refuse .unknownTable name.position ("unknown table " ++ inQuotes table)
  else if startsWith "ADD" rest then
    addColumn source position c table (skip "COLUMN" (rest.drop 1))
  else if startsWithAll ["RENAME", "TO"] rest then renameTable c table (rest.drop 2)
  else if startsWith "RENAME" rest then
    renameColumn source position c table (skip "COLUMN" (rest.drop 1))
  else if startsWith "DROP" rest then dropColumn source c table (skip "COLUMN" (rest.drop 1))
  else ignore

/-- What a `DROP` statement removes. -/
inductive Dropped
  | table
  | view
  | index
deriving DecidableEq, Repr

/-- The kind of thing that the word behind `DROP` names. -/
def Dropped.ofToken? (t : Token) : Option Dropped :=
  if t.isWord "TABLE" then some table
  else if t.isWord "VIEW" then some view
  else if t.isWord "INDEX" then some index
  else none

/-- The catalog has such a thing of that name. -/
def Dropped.isIn (kind : Dropped) (name : String) (c : Catalog) : Bool :=
  match kind with
  | table => (c.table? name).isSome
  | view => (c.view? name).isSome
  | index => c.tables.values.any fun t => t.indexes.any fun i => eqIgnoreCase i.name name

/-- The catalog without the thing of that name. -/
def Dropped.remove (kind : Dropped) (name : String) (c : Catalog) : Catalog :=
  match kind with
  | table => c.removeTable name
  | view => c.removeView name
  | index =>
      { c with tables := c.tables.mapValues fun _ t =>
          { t with indexes := t.indexes.filter fun i => !eqIgnoreCase i.name name } }

/-- `DROP`, from behind this word. -/
def dropObject (source : Source) (c : Catalog) (tokens : List Token) : Attempt Catalog :=
  match tokens with
  | [] => ignore
  | word :: rest =>
      match Dropped.ofToken? word, relationName? (skipAll ["IF", "EXISTS"] rest) with
      | some kind, some (name, _) =>
          if kind.isIn name.value c then .ok (kind.remove name.value c)
          else if startsWithAll ["IF", "EXISTS"] rest then ignore
          else
            source.refuse .unknownTable name.position
              ("cannot drop unknown " ++ lowerCase word.text ++ " " ++ inQuotes name.value)
      | _, _ => ignore

/-- `CREATE`, from behind this word. -/
def createObject (source : Source) (position : Position) (c : Catalog) (tokens : List Token) :
    Attempt (Catalog × List Diagnostic) := do
  let unique := startsWith "UNIQUE" tokens
  let rest := skip "UNIQUE" tokens
  let rest := if startsWith "TEMP" rest then rest.drop 1 else skip "TEMPORARY" rest
  match rest with
  | [] => ignore
  | word :: rest =>
      if word.isWord "TABLE" then createTable source position c rest
      else if word.isWord "INDEX" then
        return (← createIndex source position unique c rest, [])
      else if word.isWord "VIEW" then return (← createView source position c rest, [])
      else ignore

/-- One statement, as an attempt. -/
def attempt (source : Source) (c : Catalog) (statement : List Token) :
    Attempt (Catalog × List Diagnostic) := do
  match statement with
  | [] => ignore
  | first :: rest =>
      if first.isWord "CREATE" then createObject source first.position c rest
      else if first.isWord "ALTER" && startsWith "TABLE" rest then
        return (← alterTable source first.position c (rest.drop 1), [])
      else if first.isWord "DROP" then return (← dropObject source c rest, [])
      else ignore

/-- The catalog after a statement, and the problems in it.  A statement that fails leaves the
catalog as it was. -/
def applyStatement (source : Source) (c : Catalog) (statement : List Token) :
    Catalog × List Diagnostic :=
  match attempt source c statement with
  | .ok result => result
  | .error problem => (c, problem.toList)

end TypedSql.Schema

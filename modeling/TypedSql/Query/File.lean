import TypedSql.Query.Line
import TypedSql.Query.Statement

/-!
# Query files

A query file holds any number of named statements.  Each begins with a header line; annotations
and documentation follow in comment lines, then the statement up to the next header:

    -- name: GetUser :one
    -- Fetch one user by id.
    -- @param id int64
    SELECT id, email FROM users WHERE id = ?;

Reading never stops at a problem: it is noted, and the remaining blocks are still read.
-/

namespace TypedSql.Query

open Text Diagnostic

/-- A named statement of a query file. -/
structure Block where
  name : String
  command : Command
  path : String
  /-- Where `sql` begins. -/
  position : Position
  /-- The statement as written. -/
  sql : String
  /-- The documentation lines. -/
  doc : Option String
  query : Query
  paramHints : List TypeHint
  columnHints : List TypeHint
deriving DecidableEq, Repr

/-- The blocks of a file, and the problems that were found on the way. -/
structure File where
  path : String
  blocks : List Block
  diagnostics : List Diagnostic
deriving DecidableEq, Repr

/-- The first block of that name. -/
def File.block? (name : String) (f : File) : Option Block := f.blocks.find? fun b => b.name == name

/-- A header and the lines up to the next one. -/
structure Section where
  header : Header
  number : Nat
  body : List Line
deriving DecidableEq, Repr

/-- The lines before the first header, and the sections. -/
def splitSections : List Line → List Line × List Section
  | [] => ([], [])
  | l :: ls =>
      let (before, sections) := splitSections ls
      match Header.parse? l.text with
      | some header => ([], ⟨header, l.number, before⟩ :: sections)
      | none => (l :: before, sections)

/-- What a comment line says. -/
inductive Remark
  | hint (subject : Subject) (hint : TypeHint)
  | invalidHint
  | doc (text : String)
  | nothing
deriving DecidableEq, Repr

/-- What a comment line or a blank line says. -/
def Remark.ofLine (l : Line) : Remark :=
  match hintSubject? l.text with
  | some (subject, behind) =>
      match hintParts? behind with
      | some (name, typeName, nullable) =>
          hint subject ⟨name, typeName, nullable, ⟨l.number, 1⟩⟩
      | none => invalidHint
  | none =>
      match docText? l.text with
      | some text => doc text
      | none => nothing

/-- The documentation of the remarks. -/
def Remark.docOf (remarks : List Remark) : Option String :=
  match remarks.filterMap fun r => match r with | doc text => some text | _ => none with
  | [] => none
  | first :: rest => some (rest.foldl (fun all text => all ++ "\n" ++ text) first)

/-- The annotations of a subject. -/
def Remark.hintsOf (subject : Subject) (remarks : List Remark) : List TypeHint :=
  remarks.filterMap fun r =>
    match r with
    | hint s a => if s = subject then some a else none
    | _ => none

/-- The help for an annotation that cannot be read. -/
def hintHelp : String :=
  "expected '-- @param <name> <type> [null]' or '-- @column <name> <type> [null]'"

/-- The problem that a line of remarks has. -/
def remarkProblem? (path : String) (l : Line) : Option Diagnostic :=
  match Remark.ofLine l with
  | .invalidHint =>
      some (.error .invalidHint "invalid annotation" path ⟨l.number, 1⟩ hintHelp)
  | _ => none

/-- The block that a section with a command writes. -/
def readBody (path : String) (command : Command) (s : Section) :
    Option Block × List Diagnostic :=
  let remarkLines := s.body.takeWhile fun l => isCommentOrBlank l.text
  let sqlLines := s.body.dropWhile fun l => isCommentOrBlank l.text
  let problems := remarkLines.filterMap (remarkProblem? path)
  match sqlLines with
  | [] =>
      (none, problems ++ [.error .emptyQuery ("query '" ++ s.header.name ++ "' is empty") path
        ⟨s.number, 1⟩ none])
  | first :: _ =>
      let sql := String.ofList (trimEnd (Line.join sqlLines))
      let position : Position := ⟨first.number, 1⟩
      let (query, unreadable) :=
        match Query.parse sql position with
        | .ok query => (query, [])
        | .error e => (Query.unread, [e.toDiagnostic path])
      let remarks := remarkLines.map Remark.ofLine
      let block : Block :=
        { name := s.header.name
          command := command
          path := path
          position := position
          sql := sql
          doc := Remark.docOf remarks
          query := query
          paramHints := Remark.hintsOf .param remarks
          columnHints := Remark.hintsOf .column remarks }
      (some block, problems ++ unreadable)

/-- The block that a section writes, and the problems in it. -/
def readSection (path : String) (s : Section) : Option Block × List Diagnostic :=
  let problem (message : String) (help : Option String) : Diagnostic :=
    .error .invalidHeader ("query '" ++ s.header.name ++ "'" ++ message) path ⟨s.number, 1⟩ help
  match s.header.command with
  | none =>
      (none, [problem " has no command"
        (some "expected one of :one, :many, :exec, :execrows, :execresult")])
  | some text =>
      match Command.parse? text with
      | none => (none, [problem (": " ++ Command.unknownMessage text) none])
      | some command => readBody path command s

/-- The blocks of the sections, without those whose name is among `names` or came before. -/
def readSections (path : String) (names : List String) :
    List Section → List Block × List Diagnostic
  | [] => ([], [])
  | s :: rest =>
      match readSection path s with
      | (none, problems) =>
          let (blocks, more) := readSections path names rest
          (blocks, problems ++ more)
      | (some block, problems) =>
          if names.contains block.name then
            let (blocks, more) := readSections path names rest
            let duplicate : Diagnostic := .error .duplicateQuery
              ("duplicate query name '" ++ block.name ++ "'") path ⟨s.number, 1⟩ none
            (blocks, problems ++ duplicate :: more)
          else
            let (blocks, more) := readSections path (block.name :: names) rest
            (block :: blocks, problems ++ more)

/-- The problem of SQL text before the first header. -/
def strayProblem? (path : String) (before : List Line) : Option Diagnostic :=
  (before.find? fun l => !isCommentOrBlank l.text).map fun l =>
    .error .invalidHeader "SQL text outside of a named query" path ⟨l.number, 1⟩
      (some "start each query with '-- name: <Name> :<command>'")

/-- The blocks of a query file. -/
def File.parse (path source : String) : File :=
  let (before, sections) := splitSections (Line.ofText source)
  let (blocks, problems) := readSections path [] sections
  ⟨path, blocks, (strayProblem? path before).toList ++ problems⟩

end TypedSql.Query

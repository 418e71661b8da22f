import TypedSql.Analysis.Statement
import TypedSql.Config.Reader
import TypedSql.Files.Basic
import TypedSql.Report.Basic
import TypedSql.Schema.File

/-!
# Projects

A project is what query files are analyzed against: the catalog of its schema, with the views as
tables, and the column types that are given from outside.  A project without a schema has no
catalog.
-/

namespace TypedSql

/-- A schema with its settings. -/
structure Project where
  catalog : Option Catalog
  overrides : ColumnOverrides
  /-- The problems in the schema files and in their views. -/
  schemaDiagnostics : List Diagnostic

namespace Project

/-- The project without a schema. -/
def bare (overrides : ColumnOverrides) : Project := ⟨none, overrides, []⟩

/-- The project with the schema of these files, given as paths and texts. -/
def loadSchema (p : Project) (files : List (String × String)) : Project :=
  let (catalog, problems) := Schema.ofFiles files
  let (catalog, more) := resolveViews catalog
  { p with catalog := some catalog, schemaDiagnostics := problems ++ more }

/-- What the queries of the project are analyzed with. -/
def analyzer (p : Project) : Analyzer := ⟨p.catalog, p.overrides⟩

/-- The report on one query. -/
def reportBlock (p : Project) (b : Query.Block) : QueryReport :=
  ⟨b.name, b.command, p.analyzer.analyze b⟩

/-- The report on a query file. -/
def analyzeSource (p : Project) (path source : String) : FileReport :=
  let file := Query.File.parse path source
  ⟨file.path, file.blocks.map p.reportBlock, file.diagnostics⟩

end Project

open Diagnostic

/-! ## Loading projects

Reading configurations, schema files and query files.  A directory stands for the SQL files in it,
by name; directories in it are not looked into. -/

/-- Work that can fail, in a monad. -/
abbrev Attempt (m : Type → Type) (α : Type) := ExceptT Failure m α

namespace Files

variable {m : Type → Type} [Monad m] (files : Files m)

/-- The text of a file. -/
def readSource (path : String) : Attempt m String := do
  match ← files.read path with
  | .ok text => return text
  | .error e => throw (.system .io ("cannot read " ++ path ++ ": " ++ e.message) none)

/-- The SQL files in a directory, by name. -/
def sqlFiles (directory : String) : Attempt m (List String) := do
  match ← files.list directory with
  | .error e => throw (.system .io ("cannot list " ++ directory ++ ": " ++ e.message) none)
  | .ok names =>
      let names := (names.filter Path.isSqlFile).mergeSort fun a b => decide (a ≤ b)
      (names.map (Path.join directory)).filterM fun path => files.isFile path

/-- The files that a path stands for. -/
def expandPath (path : String) : Attempt m (List String) := do
  if ← files.isDirectory path then files.sqlFiles path
  else if ← files.isFile path then return [path]
  else throw (.system .fileNotFound ("no such file or directory: " ++ path) none)

/-- The files that paths stand for, in order. -/
def expand (paths : List String) : Attempt m (List String) := do
  return (← paths.mapM files.expandPath).flatten

end Files

namespace Config

variable {m : Type → Type} [Monad m] (files : Files m)

/-- The configuration in a file, with its paths seen from the file's directory. -/
def load (path : String) : Attempt m Config := do
  match ← files.read path with
  | .error e =>
      let code := if e = .notFound then Code.fileNotFound else Code.io
      throw (.system code ("cannot read " ++ path ++ ": " ++ e.message) none)
  | .ok text =>
      match ofText text (Path.parent path) with
      | .ok c => return c
      | .error f => throw (.system .configuration (path ++ ": " ++ f.message) none)

/-- The name of the configuration file of a directory. -/
def fileName : String := "sqlty.json"

/-- The configuration in a directory, if there is one. -/
def discover (directory : String) : Attempt m (Option Config) := do
  let path := Path.join directory fileName
  if ← files.isFile path then
    return some (← load files path)
  else return none

/-- The schema files of a configuration. -/
def schemaFiles (c : Config) : Attempt m (List String) := files.expand c.schema

/-- The query files of a configuration. -/
def queryFiles (c : Config) : Attempt m (List String) := files.expand c.queries

end Config

namespace Project

variable {m : Type → Type} [Monad m] (files : Files m)

/-- The project of a configuration.  Without schema files it has no catalog. -/
def ofConfig (c : Config) : Attempt m Project := do
  let overrides ← c.columnOverrides
  let paths ← c.schemaFiles files
  if paths.isEmpty then return bare overrides
  let sources ← paths.mapM fun path => return (path, ← files.readSource path)
  return (bare overrides).loadSchema sources

/-- The report on the query file at a path. -/
def analyzeFile (p : Project) (path : String) : Attempt m FileReport := do
  return p.analyzeSource path (← files.readSource path)

end Project

end TypedSql

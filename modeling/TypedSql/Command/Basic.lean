import TypedSql.Project.Basic

/-!
# Commands

A command works on the files that a configuration names.  What is given on the command line comes
before what the configuration says.
-/

namespace TypedSql

open Diagnostic

/-- Why a command cannot do its work. -/
inductive CommandError
  /-- The configuration, at a given path or in the working directory, cannot be used. -/
  | configuration (path : Option String) (cause : Failure)
  /-- No query files are named. -/
  | noQueries
  | schema (cause : Failure)
  | queryFiles (cause : Failure)
  /-- What is named as query files has none. -/
  | noQueryFiles
  | analysis (path : String) (cause : Failure)
  | output (path : String) (cause : FileError)
deriving DecidableEq, Repr

/-- The error in words: what was done, and then the cause. -/
def CommandError.message : CommandError → String
  | configuration (some path) cause =>
      "Failed to load configuration: " ++ path ++ ": " ++ cause.display
  | configuration none cause => "Failed to load configuration: " ++ cause.display
  | noQueries =>
      "No query files specified (pass FILES or set \"queries\" in " ++ Config.fileName ++ ")"
  | schema cause => "Failed to load schema: " ++ cause.display
  | queryFiles cause => "Failed to collect query files: " ++ cause.display
  | noQueryFiles => "No .sql query files found"
  | analysis path cause => "Failed to analyze " ++ path ++ ": " ++ cause.display
  | output path cause => "Failed to create output file: " ++ path ++ ": " ++ cause.message

/-- A command's work, in a monad. -/
abbrev CommandT (m : Type → Type) (α : Type) := ExceptT CommandError m α

/-- Work whose failure is the cause of a command's error. -/
def Attempt.orElseError {m : Type → Type} [Monad m] {α : Type} (work : Attempt m α)
    (error : Failure → CommandError) : CommandT m α :=
  ExceptT.mk do
    match ← work.run with
    | .ok a => return .ok a
    | .error cause => return .error (error cause)

/-- What the command line says about files. -/
structure Inputs where
  /-- The path of the configuration. -/
  config : Option String
  /-- Query files and directories. -/
  queries : List String
  /-- Schema files and directories. -/
  schema : List String
  strict : Bool
deriving DecidableEq, Repr

namespace Inputs

variable {m : Type → Type} [Monad m] (files : Files m)

/-- The configuration with what the command line says in the place of what it says. -/
def applyTo (i : Inputs) (c : Config) : Config :=
  { c with
    queries := if i.queries.isEmpty then c.queries else i.queries
    schema := if i.schema.isEmpty then c.schema else i.schema
    strict := c.strict || i.strict }

/-- The configuration that a command in a directory works with: the one that is named, or the
one of the directory, or an empty one. -/
def resolve (i : Inputs) (directory : String) : CommandT m Config := do
  let c ← match i.config with
    | some path => (Config.load files path).orElseError (.configuration (some path))
    | none => do
        let found ← (Config.discover files directory).orElseError (.configuration none)
        pure (found.getD .empty)
  let c := i.applyTo c
  if c.queries.isEmpty then throw .noQueries
  return c

end Inputs

/-- The report on a query file. -/
def Project.report {m : Type → Type} [Monad m] (files : Files m) (p : Project) (path : String) :
    CommandT m FileReport :=
  (p.analyzeFile files path).orElseError (.analysis path)

namespace Config

variable {m : Type → Type} [Monad m] (files : Files m)

/-- The project of a configuration and its query files. -/
def prepare (c : Config) : CommandT m (Project × List String) := do
  let project ← (Project.ofConfig files c).orElseError .schema
  let paths ← (c.queryFiles files).orElseError .queryFiles
  return (project, paths)

/-- The reports on the query files of a configuration. -/
def reports (c : Config) : CommandT m (List FileReport) := do
  let (project, paths) ← c.prepare files
  paths.mapM (project.report files)

end Config

end TypedSql

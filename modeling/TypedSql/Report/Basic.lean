import TypedSql.Analysis.Statement

/-!
# Reports

A report holds the analysis of every query of one file, and the problems that were found when the
file was split into queries.
-/

namespace TypedSql

open Query

/-- The analysis of a named query. -/
structure QueryReport where
  name : String
  command : Command
  analysis : Analysis
deriving DecidableEq, Repr

/-- The analyses of the queries of a file. -/
structure FileReport where
  path : String
  queries : List QueryReport
  /-- The problems of the file outside its queries. -/
  diagnostics : List Diagnostic
deriving DecidableEq, Repr

namespace QueryReport

/-- The report as a JSON object. -/
def toJson (q : QueryReport) : Json :=
  .object [("name", .string q.name), ("command", .string q.command.name),
    ("columns", .ofList ResultColumn.toJson q.analysis.columns),
    ("params", .ofList ResultParam.toJson q.analysis.params),
    ("diagnostics", .ofList Diagnostic.toJson q.analysis.diagnostics)]

end QueryReport

namespace FileReport

/-- The report as a JSON object, without a member for the problems of a file that has none. -/
def toJson (r : FileReport) : Json :=
  .object ([("path", .string r.path), ("queries", .ofList QueryReport.toJson r.queries)] ++
    if r.diagnostics.isEmpty then []
    else [("diagnostics", .ofList Diagnostic.toJson r.diagnostics)])

/-- The first query of that name. -/
def query? (r : FileReport) (name : String) : Option QueryReport :=
  r.queries.find? fun q => q.name == name

/-- The problems of the file and then those of its queries, as they were found. -/
def foundDiagnostics (r : FileReport) : List Diagnostic :=
  r.diagnostics ++ r.queries.flatMap fun q => q.analysis.diagnostics

/-- The problems of the file and of its queries by position, each issue once. -/
def allDiagnostics (r : FileReport) : List Diagnostic :=
  (Diagnostic.distinct r.path r.foundDiagnostics).mergeSort fun a b =>
    a.position.notAfter b.position

end FileReport

end TypedSql

import TypedSql.Command.Basic
import TypedSql.Command.Line
import TypedSql.Report.Output

/-!
# Running commands

A run of a command leaves lines for the output and for messages, and a status: 0 where all is well,
1 where errors were found or the work cannot be done, 2 where the command line cannot be used.
-/

namespace TypedSql

open Diagnostic

/-! ## Checking

A check collects the diagnostics of the schema and of every query file.  It passes without errors,
and in strict mode without warnings too. -/

/-- What a check finds. -/
structure CheckResult where
  /-- The number of query files. -/
  files : Nat
  strict : Bool
  /-- The diagnostics in the order in which they are printed. -/
  diagnostics : List Diagnostic
deriving DecidableEq, Repr

namespace CheckResult

/-- The numbers of errors and warnings. -/
def tally (r : CheckResult) : Tally := .ofDiagnostics r.diagnostics

/-- There are no errors, and in strict mode no warnings. -/
def passed (r : CheckResult) : Bool :=
  r.tally.errors == 0 && !(r.strict && decide (r.tally.warnings > 0))

end CheckResult

/-- Checks the schema and the query files of a configuration. -/
def Config.check {m : Type → Type} [Monad m] (files : Files m) (c : Config) :
    CommandT m CheckResult := do
  let (project, paths) ← c.prepare files
  if paths.isEmpty then throw .noQueryFiles
  let reports ← paths.mapM (project.report files)
  return ⟨paths.length, c.strict,
    project.schemaDiagnostics ++ reports.flatMap FileReport.allDiagnostics⟩

/-! ## Runs -/

/-- What a run leaves. -/
structure Outcome where
  status : Nat
  /-- The lines of the output. -/
  output : List String
  /-- The lines of the messages. -/
  messages : List String
deriving DecidableEq, Repr

/-- A text behind a label in a style. -/
def labeled (colors : Bool) (style : Style) (label text : String) : String :=
  style.applyIf colors label ++ " " ++ text

namespace CheckResult

/-- The label of the summary of a check that found something. -/
def summaryLabel (colors : Bool) (r : CheckResult) : String :=
  if r.passed then Style.boldYellow.applyIf colors "Checked:"
  else Style.boldRed.applyIf colors "Check failed:"

/-- The messages of a check that found something. -/
def summary (colors : Bool) (r : CheckResult) : List String :=
  (r.summaryLabel colors ++ " found " ++ r.tally.display colors) ::
    if r.strict && r.tally.errors == 0 && decide (r.tally.warnings > 0) then
      [Style.yellow.applyIf colors "Strict mode: treating warnings as errors"]
    else []

/-- The diagnostics of a check and its summary. -/
def outcome (colors : Bool) (r : CheckResult) : Outcome :=
  let lines := r.diagnostics.map (Diagnostic.render colors)
  if r.tally.isClean then
    ⟨0, lines ++ [labeled colors .boldGreen "Success:"
      ("All " ++ toString r.files ++ " file(s) checked")], []⟩
  else ⟨if r.passed then 0 else 1, lines ++ [""], r.summary colors⟩

end CheckResult

/-- The status and the messages of an analysis: only errors count. -/
def analysisOutcome (colors : Bool) (output messages : List String) (reports : List FileReport) :
    Outcome :=
  let tally := Tally.ofDiagnostics (reports.flatMap FileReport.allDiagnostics)
  if tally.errors = 0 then ⟨0, output, messages⟩
  else ⟨1, output, messages ++ [Tally.display colors { tally with warnings := 0 }]⟩

namespace CommandLine

variable {m : Type → Type} [Monad m] (files : Files m)

/-- Puts the reports out, or into a file. -/
def runAnalysis (colors : Bool) (format : OutputFormat) (path : Option String)
    (reports : List FileReport) : CommandT m Outcome := do
  let content := FileReport.write colors format reports
  match path with
  | none => return analysisOutcome colors [content] [] reports
  | some path =>
      match ← files.write path content with
      | .error e => throw (.output path e)
      | .ok () =>
          return analysisOutcome colors []
            [labeled colors .boldGreen "Success:" ("Output written to " ++ path)] reports

/-- Runs the command in a directory. -/
def runAction (colors : Bool) (directory : String) (line : CommandLine) :
    CommandT m Outcome := do
  let config ← line.inputs.resolve files directory
  match line.action with
  | .check => return (← config.check files).outcome colors
  | .analyze format path => runAnalysis files colors format path (← config.reports files)

/-- Runs a command line in a directory.  The output is shown on a terminal or not. -/
def run (terminal : Bool) (directory : String) (line : CommandLine) : m Outcome := do
  let colors := line.color.isOn terminal
  match ← (runAction files colors directory line).run with
  | .ok outcome => return outcome
  | .error e => return ⟨1, [], [labeled colors .boldRed "Error:" e.message]⟩

end CommandLine

/-- How the program is used. -/
def usage : List String :=
  ["Resolve SQL query result and parameter types against a schema", "",
   "Usage: sqlty [--config PATH] [--color MODE] [--verbose] COMMAND", "",
   "  check [FILES]... [-s|--schema PATH]... [--strict]",
   "      Report diagnostics for query files",
   "  analyze [FILES]... [-s|--schema PATH]... [-f|--format FORMAT] [-o|--output PATH]",
   "      Print the typed columns and parameters of every query"]

/-- What is left where the reading of a command line stops. -/
def LineStop.outcome : LineStop → Outcome
  | .misuse e => ⟨2, [], ["error: " ++ e.message, ""] ++ usage⟩
  | .help => ⟨0, usage, []⟩
  | .version => ⟨0, ["sqlty 0.1.0"], []⟩

/-- Runs the program with arguments in a directory. -/
def runProgram {m : Type → Type} [Monad m] (files : Files m) (terminal : Bool)
    (directory : String) (args : List String) : m Outcome :=
  match CommandLine.parse args with
  | .ok line => line.run files terminal directory
  | .error stop => return stop.outcome

end TypedSql

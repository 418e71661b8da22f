import TypedSql.Json.Printer
import TypedSql.Report.Basic

/-!
# Writing reports

Reports are written as JSON on one line, as JSON over several lines, or as grids for a reader.
-/

namespace TypedSql.Grid

/-! ## Grids

A grid draws rows of cells with lines around every cell.  A column is as wide as its widest line
of text with a blank on both sides, and a row is as high as its highest cell.  Every character
counts as one wide, a tab too. -/

/-- The lines of a cell. -/
def cellLines (cell : String) : List String := cell.splitOn "\n"

/-- The number of characters of the widest line of a cell. -/
def cellWidth (cell : String) : Nat := ((cellLines cell).map String.length).foldl max 0

/-- The widths of the columns. -/
def widths : List (List String) → List Nat
  | [] => []
  | row :: rows =>
      let below := widths rows
      let own := row.map cellWidth
      (List.range (max own.length below.length)).map fun i =>
        max (own[i]?.getD 0) (below[i]?.getD 0)

/-- The text with blanks behind it up to a width. -/
def padded (width : Nat) (text : String) : String :=
  text ++ String.ofList (List.replicate (width - text.length) ' ')

/-- A horizontal line: its left end, its crossings and its right end. -/
def rule (left crossing right : String) (widths : List Nat) : String :=
  left ++ String.intercalate crossing
    (widths.map fun width => String.ofList (List.replicate (width + 2) '─')) ++ right

/-- Line `i` of a row. -/
def rowLine (widths : List Nat) (row : List String) (i : Nat) : String :=
  "│ " ++ String.intercalate " │ " ((row.zip widths).map fun (cell, width) =>
    padded width ((cellLines cell)[i]?.getD "")) ++ " │"

/-- The lines of a row. -/
def rowLines (widths : List Nat) (row : List String) : List String :=
  let height := (row.map fun cell => (cellLines cell).length).foldl max 1
  (List.range height).map (rowLine widths row)

/-- The lines of rows, with a rule before each one but the first. -/
def bodyLines (widths : List Nat) : List (List String) → List String
  | [] => []
  | [row] => rowLines widths row
  | row :: rows => rowLines widths row ++ rule "├" "┼" "┤" widths :: bodyLines widths rows

/-- The grid of rows with the same number of cells. -/
def draw (rows : List (List String)) : String :=
  let w := widths rows
  String.intercalate "\n"
    (rule "┌" "┬" "┐" w :: bodyLines w rows ++ [rule "└" "┴" "┘" w])

end TypedSql.Grid

namespace TypedSql

open Diagnostic

/-! ## Reports -/

/-- The forms in which reports are written. -/
inductive OutputFormat
  | json
  | pretty
  | table
deriving DecidableEq, Repr

/-- The form of that name, in any case.  Any other name stands for the pretty form. -/
def OutputFormat.ofName (name : String) : OutputFormat :=
  if Text.eqIgnoreCase name "json" then json
  else if Text.eqIgnoreCase name "table" then table
  else pretty

namespace QueryReport

/-- The row of an output column. -/
def columnRow (c : ResultColumn) : List String := [c.name, c.type.display, c.relation]

/-- The row of a parameter, with the number that it is written with or its place in the list. -/
def paramRow (p : ResultParam) (place : Nat) : List String :=
  [toString (p.binding.number?.getD place), p.name,
    if p.variadic then p.type.display ++ " (variadic)" else p.type.display, p.binding.style]

/-- The grid under a heading, if it has rows. -/
def grid (heading : List String) (rows : List (List String)) : String :=
  if rows.isEmpty then "" else "\n" ++ Grid.draw (heading :: rows)

/-- The query with the grids of its columns and of its parameters. -/
def tables (colors : Bool) (path : String) (q : QueryReport) : String :=
  Style.bold.applyIf colors q.name ++ " " ++ q.command.display ++ " " ++
    Style.dimmed.applyIf colors ("(" ++ path ++ ")") ++
    grid ["Column", "Type", "Relation"] (q.analysis.columns.map columnRow) ++
    grid ["#", "Parameter", "Type", "Style"]
      (q.analysis.params.zipIdx.map fun (p, i) => paramRow p (i + 1))

end QueryReport

namespace FileReport

/-- The tables of all queries of all reports. -/
def tables (colors : Bool) (reports : List FileReport) : String :=
  match reports.flatMap fun r => r.queries.map (QueryReport.tables colors r.path) with
  | [] => "(no queries)"
  | sections => String.intercalate "\n\n" sections

/-- The reports in a form. -/
def write (colors : Bool) (format : OutputFormat) (reports : List FileReport) : String :=
  match format with
  | .json => (Json.ofList toJson reports).compact
  | .pretty => (Json.ofList toJson reports).pretty
  | .table => tables colors reports

end FileReport

/-- Numbers of errors and warnings. -/
structure Tally where
  errors : Nat
  warnings : Nat
deriving DecidableEq, Repr

namespace Tally

/-- The numbers of errors and warnings in a list. -/
def ofDiagnostics (ds : List Diagnostic) : Tally :=
  ⟨ds.countP isError, ds.countP fun d => !d.isError⟩

/-- There are no errors and no warnings. -/
def isClean (t : Tally) : Bool := t.errors == 0 && t.warnings == 0

/-- The numbers that are not zero, in words. -/
def display (colors : Bool) (t : Tally) : String :=
  String.intercalate ", "
    ((if t.errors > 0 then [Style.red.applyIf colors (toString t.errors ++ " error(s)")] else []) ++
      if t.warnings > 0 then [Style.yellow.applyIf colors (toString t.warnings ++ " warning(s)")]
      else [])

end Tally

end TypedSql

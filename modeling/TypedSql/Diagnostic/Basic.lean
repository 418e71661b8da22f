import TypedSql.Json.Basic
import TypedSql.Position

/-!
# Diagnostics

A diagnostic says what is wrong and where.  An error stops the use of a query; a warning says that
a type is less exact than it could be.
-/

namespace TypedSql

namespace Diagnostic

/-! ## Codes

Every problem has a number.  Numbers below 100 are about reading, the 100s about meaning, the 300s
about schemas and the 400s about files and configuration. -/

/-- The number of a kind of problem. -/
structure Code where
  number : Nat
deriving DecidableEq, Repr

namespace Code

/-- The number with at least four digits, after `SQL`. -/
def display (c : Code) : String :=
  let digits := toString c.number
  "SQL" ++ String.ofList (List.replicate (4 - digits.length) '0') ++ digits

/-- A problem of reading. -/
def isParse (c : Code) : Bool := decide (1 ≤ c.number) && decide (c.number < 100)

/-- A problem of meaning. -/
def isSemantic (c : Code) : Bool := decide (100 ≤ c.number) && decide (c.number < 200)

/-- A problem of a schema. -/
def isSchema (c : Code) : Bool := decide (300 ≤ c.number) && decide (c.number < 400)

/-- A problem of files and configuration. -/
def isSystem (c : Code) : Bool := decide (400 ≤ c.number) && decide (c.number < 500)

def unterminatedString : Code := ⟨3⟩
def unterminatedName : Code := ⟨4⟩
def unterminatedComment : Code := ⟨5⟩
def invalidCharacter : Code := ⟨6⟩
def invalidHeader : Code := ⟨7⟩
def duplicateQuery : Code := ⟨8⟩
def unbalancedParens : Code := ⟨9⟩
def invalidHint : Code := ⟨10⟩
def emptyQuery : Code := ⟨11⟩
def unknownRelation : Code := ⟨100⟩
def unknownColumn : Code := ⟨101⟩
def ambiguousColumn : Code := ⟨102⟩
def missingAggregateAlias : Code := ⟨103⟩
def untypedExpression : Code := ⟨104⟩
def unmappedExpression : Code := ⟨105⟩
def invalidCte : Code := ⟨106⟩
def cteColumnMismatch : Code := ⟨107⟩
def recursiveCountMismatch : Code := ⟨108⟩
def unnamedColumn : Code := ⟨109⟩
def catalogUnavailable : Code := ⟨110⟩
def starNotExpanded : Code := ⟨111⟩
def invalidTable : Code := ⟨300⟩
def duplicateTable : Code := ⟨301⟩
def unknownTable : Code := ⟨302⟩
def duplicateColumn : Code := ⟨303⟩
def unknownSchemaColumn : Code := ⟨304⟩
def invalidView : Code := ⟨305⟩
def io : Code := ⟨401⟩
def configuration : Code := ⟨402⟩
def fileNotFound : Code := ⟨404⟩
def invalidFormat : Code := ⟨406⟩

/-- What a code stands for, and a hint where there is one. -/
structure Entry where
  description : String
  help : Option String
deriving DecidableEq, Repr

/-- The codes in use. -/
def table : List (Nat × Entry) :=
  [(1, ⟨"Unexpected token", none⟩),
   (2, ⟨"Unexpected end of input", none⟩),
   (3, ⟨"Unterminated string literal", none⟩),
   (4, ⟨"Unterminated quoted identifier", none⟩),
   (5, ⟨"Unterminated block comment", none⟩),
   (6, ⟨"Invalid character", none⟩),
   (7, ⟨"Invalid query header", some "Query headers look like \x60-- name: GetUser :one\x60"⟩),
   (8, ⟨"Duplicate query name", none⟩),
   (9, ⟨"Unbalanced parentheses", none⟩),
   (10, ⟨"Invalid annotation", some
      "Annotations look like \x60-- @param id int64\x60 or \x60-- @column total float64 null\x60"⟩),
   (11, ⟨"Empty query", none⟩),
   (100, ⟨"Unknown table or alias", some
      "Check that the table exists in the schema and is listed in FROM/JOIN"⟩),
   (101, ⟨"Unknown column", none⟩),
   (102, ⟨"Ambiguous column", some "Qualify the column with a table alias"⟩),
   (103, ⟨"Missing aggregate alias", none⟩),
   (104, ⟨"Cannot infer type", none⟩),
   (105, ⟨"Expression without schema mapping", none⟩),
   (106, ⟨"Invalid common table expression", none⟩),
   (107, ⟨"CTE column list mismatch", none⟩),
   (108, ⟨"Recursive CTE column count mismatch", none⟩),
   (109, ⟨"Cannot determine column name", some "Add an alias with \x60AS name\x60"⟩),
   (110, ⟨"Schema catalog unavailable", none⟩),
   (111, ⟨"Cannot expand star", none⟩),
   (300, ⟨"Invalid table definition", none⟩),
   (301, ⟨"Duplicate table", none⟩),
   (302, ⟨"Unknown table in schema statement", none⟩),
   (303, ⟨"Duplicate column", none⟩),
   (304, ⟨"Unknown column in schema statement", none⟩),
   (305, ⟨"Invalid view definition", none⟩),
   (400, ⟨"Internal error", none⟩),
   (401, ⟨"I/O error", none⟩),
   (402, ⟨"Configuration error", none⟩),
   (404, ⟨"File not found", none⟩),
   (406, ⟨"Invalid format", none⟩)]

/-- What the code stands for; a code that is not in use is an unknown error. -/
def entry (c : Code) : Entry := (table.lookup c.number).getD ⟨"Unknown error", none⟩

end Code

/-! ## Terminal styles

A style is put around a text by a code before it and a reset after it.  A reset inside the text
would end the style early, so the style is started again behind it. -/

/-- The styles in use. -/
inductive Style
  | bold
  | dimmed
  | red
  | green
  | yellow
  | cyan
  | boldRed
  | boldGreen
  | boldYellow
deriving DecidableEq, Repr

namespace Style

/-- The parameters of the terminal's code. -/
def parameters : Style → String
  | bold => "1"
  | dimmed => "2"
  | red => "31"
  | green => "32"
  | yellow => "33"
  | cyan => "36"
  | boldRed => "1;31"
  | boldGreen => "1;32"
  | boldYellow => "1;33"

/-- The code that starts a style. -/
def start (s : Style) : String := "\x1b[" ++ s.parameters ++ "m"

/-- The code that ends every style. -/
def reset : String := "\x1b[0m"

/-- The text with the style started again behind every reset in it. -/
def restartAfterResets (start : List Char) : List Char → List Char
  | '\x1b' :: '[' :: '0' :: 'm' :: rest =>
      '\x1b' :: '[' :: '0' :: 'm' :: (start ++ restartAfterResets start rest)
  | c :: rest => c :: restartAfterResets start rest
  | [] => []

/-- The text in this style. -/
def apply (s : Style) (text : String) : String :=
  s.start ++ String.ofList (restartAfterResets s.start.toList text.toList) ++ reset

/-- The text in this style where colors are on, and as it is where they are off. -/
def applyIf (colors : Bool) (s : Style) (text : String) : String :=
  if colors then s.apply text else text

end Style

/-! ## Diagnostics -/

/-- How bad a problem is. -/
inductive Severity
  | error
  | warning
deriving DecidableEq, Repr

/-- The severity in words. -/
def Severity.display : Severity → String
  | .error => "error"
  | .warning => "warning"

end Diagnostic

/-- A problem at a place of a file. -/
structure Diagnostic where
  severity : Diagnostic.Severity
  code : Diagnostic.Code
  message : String
  path : String
  position : Position
  help : Option String
deriving DecidableEq, Repr

namespace Diagnostic

/-- An error in the file `path`. -/
def error (code : Code) (message : String) (path : String) (position : Position)
    (help : Option String) : Diagnostic :=
  ⟨.error, code, message, path, position, help⟩

/-- The diagnostic is an error. -/
def isError (d : Diagnostic) : Bool := d.severity == .error

/-- Path, line and column. -/
def location (d : Diagnostic) : String := d.path ++ ":" ++ d.position.display

/-- Severity and code. -/
def label (d : Diagnostic) : String := d.severity.display ++ "[" ++ d.code.display ++ "]"

/-- The diagnostic on one line, without its help. -/
def display (d : Diagnostic) : String := d.location ++ ": " ++ d.label ++ ": " ++ d.message

/-- The style of a severity. -/
def Severity.style : Severity → Style
  | .error => .boldRed
  | .warning => .boldYellow

/-- The diagnostic with its help on a second line, in colors where they are on. -/
def render (colors : Bool) (d : Diagnostic) : String :=
  let line := Style.cyan.applyIf colors d.location ++ ": " ++
    d.severity.style.applyIf colors d.label ++ ": " ++ d.message
  match d.help with
  | none => line
  | some help => line ++ "\n  " ++ Style.green.applyIf colors "help:" ++ " " ++ help

/-- The diagnostic as a JSON object, without a member for a missing help. -/
def toJson (d : Diagnostic) : Json :=
  .object ([("severity", .string d.severity.display), ("code", .nat d.code.number),
    ("message", .string d.message), ("path", .string d.path),
    ("line", .nat d.position.line), ("column", .nat d.position.column)] ++
    Json.optionalMember "help" .string d.help)

end Diagnostic

end TypedSql

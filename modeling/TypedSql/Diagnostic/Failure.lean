import TypedSql.Diagnostic.Basic

/-!
# Failures

A failure ends the work on something, a file or a configuration.  Failures of reading, meaning and
schemas may have a place in a text; failures of the system may have a context.
-/

namespace TypedSql.Diagnostic

/-- A run of text: its first character's position, its first byte and its bytes. -/
structure Location where
  position : Position
  offset : Nat
  length : Nat
deriving DecidableEq, Repr

/-- The areas whose failures have a place. -/
inductive Area
  | parse
  | semantic
  | schema
deriving DecidableEq, Repr

/-- Why the work ended. -/
inductive Failure
  | located (area : Area) (code : Code) (message : String) (location : Option Location)
  | system (code : Code) (message : String) (context : Option String)
deriving DecidableEq, Repr

namespace Failure

def code : Failure → Code
  | located _ code _ _ => code
  | system code _ _ => code

def message : Failure → String
  | located _ _ message _ => message
  | system _ message _ => message

def location : Failure → Option Location
  | located _ _ _ location => location
  | system _ _ _ => none

/-- Code and message. -/
def display (f : Failure) : String := f.code.display ++ ": " ++ f.message

/-- The failure as an error of the file `path`.  A system failure is helped by its context, any
other by the hint of its code. -/
def toDiagnostic (path : String) : Failure → Diagnostic
  | located _ code message location =>
      .error code message path ((location.map (·.position)).getD .first) code.entry.help
  | system code message context => .error code message path .first context

end Failure

end TypedSql.Diagnostic

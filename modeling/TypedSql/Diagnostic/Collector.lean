import TypedSql.Diagnostic.Basic

/-!
# Collecting diagnostics

The passes of an analysis note what they find, and a collector gathers the diagnostics of one file.
-/

namespace TypedSql.Diagnostic

/-! ## Results with notes

A pass gives a result and the diagnostics that it found on the way, in order.  The diagnostics have
no path; the one who collects them knows it. -/

/-- A value and what was noted on the way to it. -/
structure Noted (α : Type) where
  value : α
  notes : List Diagnostic

namespace Noted

/-- The value with nothing noted. -/
def pure {α : Type} (a : α) : Noted α := ⟨a, []⟩

/-- Goes on with the value; what is noted later stands behind what was noted before. -/
def bind {α β : Type} (x : Noted α) (f : α → Noted β) : Noted β :=
  ⟨(f x.value).value, x.notes ++ (f x.value).notes⟩

instance : Monad Noted where
  pure := pure
  bind := bind

/-- Notes an error. -/
def error (code : Code) (position : Position) (message : String) : Noted Unit :=
  ⟨(), [⟨.error, code, message, "", position, none⟩]⟩

/-- Notes a warning. -/
def warning (code : Code) (position : Position) (message : String) : Noted Unit :=
  ⟨(), [⟨.warning, code, message, "", position, none⟩]⟩

/-- Does something for every member of a list, in order. -/
def forEach {α : Type} (f : α → Noted Unit) (as : List α) : Noted Unit :=
  ⟨(), as.flatMap fun a => (f a).notes⟩

@[simp] theorem value_pure {α : Type} (a : α) : (Pure.pure a : Noted α).value = a := rfl

@[simp] theorem notes_pure {α : Type} (a : α) : (Pure.pure a : Noted α).notes = [] := rfl

@[simp] theorem value_bind {α β : Type} (x : Noted α) (f : α → Noted β) :
    (x >>= f).value = (f x.value).value := rfl

@[simp] theorem notes_bind {α β : Type} (x : Noted α) (f : α → Noted β) :
    (x >>= f).notes = x.notes ++ (f x.value).notes := rfl

end Noted

/-! ## Collectors

Two diagnostics with the same path, line, column and message are the same issue, and only the
first is kept.  A diagnostic without a path gets the collector's. -/

/-- What makes two diagnostics the same issue. -/
structure Issue where
  path : String
  position : Position
  message : String
deriving DecidableEq, Repr

/-- The issue that a diagnostic is about. -/
def issue (d : Diagnostic) : Issue := ⟨d.path, d.position, d.message⟩

/-- The diagnostic with `path` where it has none of its own. -/
def stamp (path : String) (d : Diagnostic) : Diagnostic :=
  if d.path.isEmpty then { d with path := path } else d

/-- The diagnostics of one file, each issue once. -/
structure Collector where
  path : String
  diagnostics : List Diagnostic
deriving DecidableEq, Repr

namespace Collector

/-- A collector without diagnostics. -/
def empty (path : String) : Collector := ⟨path, []⟩

/-- The issue of the stamped diagnostic is already there. -/
def knows (c : Collector) (d : Diagnostic) : Bool :=
  c.diagnostics.any fun e => e.issue == (d.stamp c.path).issue

/-- Adds a diagnostic, unless its issue is already there. -/
def push (c : Collector) (d : Diagnostic) : Collector :=
  if c.knows d then c else { c with diagnostics := c.diagnostics ++ [d.stamp c.path] }

/-- Adds diagnostics in order. -/
def extend (c : Collector) (ds : List Diagnostic) : Collector := ds.foldl push c

/-- One of the diagnostics is an error. -/
def hasErrors (c : Collector) : Bool := c.diagnostics.any isError

end Collector

/-- The diagnostics that a collector for `path` keeps of a list. -/
def distinct (path : String) (ds : List Diagnostic) : List Diagnostic :=
  ((Collector.empty path).extend ds).diagnostics

end TypedSql.Diagnostic

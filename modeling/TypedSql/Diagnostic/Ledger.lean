import Mathlib.Data.Finset.Insert
import TypedSql.Diagnostic.Collector

/-!
# Ledgers of diagnostics

A ledger is a collector that looks issues up in a set, which it keeps beside the list, and answers
whether what it gets is new.  The set is Mathlib's `Finset`; the collector that runs looks through
its list and needs the core library alone, so the two stand in modules of their own.
-/

namespace TypedSql.Diagnostic

/-- The diagnostics of one file, each issue once, with the set of their issues. -/
structure Ledger where
  path : String
  diagnostics : List Diagnostic
  seen : Finset Issue

namespace Ledger

/-- A ledger without diagnostics. -/
def empty (path : String) : Ledger := ⟨path, [], ∅⟩

/-- Adds a diagnostic, unless its issue was seen, and answers whether it was added. -/
def push (l : Ledger) (d : Diagnostic) : Ledger × Bool :=
  let stamped := d.stamp l.path
  if stamped.issue ∈ l.seen then (l, false)
  else
    ({ l with
        diagnostics := l.diagnostics ++ [stamped]
        seen := insert stamped.issue l.seen }, true)

/-- Adds diagnostics in order, and gives the answers. -/
def pushAll (l : Ledger) (ds : List Diagnostic) : Ledger × List Bool :=
  ds.foldl (fun state d => ((state.1.push d).1, state.2 ++ [(state.1.push d).2])) (l, [])

end Ledger

end TypedSql.Diagnostic

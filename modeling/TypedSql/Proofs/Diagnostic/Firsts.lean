import Mathlib.Data.Finset.Basic
import Mathlib.Data.Finset.Dedup
import Mathlib.Data.List.Induction
import TypedSql.Diagnostic.Ledger
import TypedSql.Proofs.Diagnostic.Distinct

/-!
# First diagnostics of an issue

A collector keeps the first diagnostic of each issue, in the order in which it gets them.  So does
a ledger, whose set of issues and whose list stay in step.

Main definition: `firsts`.  Main statements: `distinct_eq_firsts`, `Ledger.pushAll_empty`.
-/

namespace TypedSql.Diagnostic

/-! ## The first of each issue -/

/-- None of the diagnostics before is about the same issue. -/
def isFirst (before : List Diagnostic) (d : Diagnostic) : Bool :=
  before.all fun e => e.issue != d.issue

/-- For every diagnostic of a list, whether it is the first about its issue. -/
def marks (ds : List Diagnostic) : List Bool :=
  ds.zipIdx.map fun e => isFirst (ds.take e.2) e.1

/-- The first diagnostics of each issue, in their order. -/
def firsts (ds : List Diagnostic) : List Diagnostic :=
  (ds.zipIdx.filter fun e => isFirst (ds.take e.2) e.1).map (·.1)

variable {ds : List Diagnostic} {d : Diagnostic}

theorem isFirst_eq_false_iff : isFirst ds d = false ↔ ∃ e ∈ ds, e.issue = d.issue := by
  simp [isFirst]

/-- What stands before a member is the same in a longer list. -/
theorem take_of_mem_zipIdx {e : Diagnostic × Nat} (h : e ∈ ds.zipIdx) (d : Diagnostic) :
    (ds ++ [d]).take e.2 = ds.take e.2 :=
  List.take_append_of_le_length (Nat.le_of_lt (List.snd_lt_of_mem_zipIdx h))

theorem marks_concat (ds : List Diagnostic) (d : Diagnostic) :
    marks (ds ++ [d]) = marks ds ++ [isFirst ds d] := by
  have hbefore : ds.zipIdx.map (fun e => isFirst ((ds ++ [d]).take e.2) e.1) = marks ds :=
    List.map_congr_left fun e he => by rw [take_of_mem_zipIdx he]
  rw [marks, List.zipIdx_append, List.map_append, hbefore]
  simp

theorem firsts_concat (ds : List Diagnostic) (d : Diagnostic) :
    firsts (ds ++ [d]) = if isFirst ds d then firsts ds ++ [d] else firsts ds := by
  have hbefore : ds.zipIdx.filter (fun e => isFirst ((ds ++ [d]).take e.2) e.1) =
      ds.zipIdx.filter fun e => isFirst (ds.take e.2) e.1 :=
    List.filter_congr fun e he => by rw [take_of_mem_zipIdx he]
  rw [firsts, List.zipIdx_append, List.filter_append, List.map_append, hbefore]
  cases h : isFirst ds d <;> simp [firsts, h]

/-- Of every issue a diagnostic is kept. -/
theorem exists_mem_firsts_iff {issue : Issue} :
    (∃ e ∈ firsts ds, e.issue = issue) ↔ ∃ e ∈ ds, e.issue = issue := by
  induction ds using List.reverseRecOn with
  | nil => simp [firsts]
  | append_singleton ds d ih =>
      have hsplit (xs : List Diagnostic) : (∃ e ∈ xs ++ [d], e.issue = issue) ↔
          (∃ e ∈ xs, e.issue = issue) ∨ d.issue = issue := by simp [or_and_right, exists_or]
      rw [firsts_concat, hsplit]
      split
      · rw [hsplit, ih]
      · next hknown =>
          -- What is left out is about an issue that was there before.
          rw [ih]
          refine ⟨.inl, fun h => h.elim id fun hissue => ?_⟩
          rw [← hissue]
          exact isFirst_eq_false_iff.mp (Bool.eq_false_iff.mpr hknown)

theorem isFirst_firsts (ds : List Diagnostic) (d : Diagnostic) :
    isFirst (firsts ds) d = isFirst ds d := by
  rw [Bool.eq_iff_iff, ← not_iff_not, Bool.not_eq_true, Bool.not_eq_true, isFirst_eq_false_iff,
    isFirst_eq_false_iff, exists_mem_firsts_iff]

/-! ## Collectors -/

theorem Collector.knows_eq (c : Collector) (d : Diagnostic) :
    c.knows d = !isFirst c.diagnostics (d.stamp c.path) := by
  simp [knows, isFirst, List.not_all_eq_any_not, bne]

/-- A collector holds the first of each issue that it got. -/
theorem Collector.extend_empty (path : String) (ds : List Diagnostic) :
    (Collector.empty path).extend ds = ⟨path, firsts (ds.map (stamp path))⟩ := by
  induction ds using List.reverseRecOn with
  | nil => rfl
  | append_singleton ds d ih =>
      have hstep : (Collector.empty path).extend (ds ++ [d]) =
          ((Collector.empty path).extend ds).push d := List.foldl_append
      rw [hstep, ih, push, knows_eq, isFirst_firsts, List.map_append, List.map_singleton,
        firsts_concat]
      cases isFirst (ds.map (stamp path)) (d.stamp path) <;> rfl

theorem distinct_eq_firsts (path : String) (ds : List Diagnostic) :
    distinct path ds = firsts (ds.map (stamp path)) := by
  rw [distinct, Collector.extend_empty]

/-! ## Ledgers -/

namespace Ledger

/-- The ledger behind the diagnostics. -/
def behind (path : String) (ds : List Diagnostic) : Ledger :=
  ⟨path, firsts ds, (ds.map issue).toFinset⟩

/-- The set and the list go on in step. -/
theorem push_behind (path : String) (ds : List Diagnostic) (d : Diagnostic) :
    (behind path ds).push d = (behind path (ds ++ [d.stamp path]), isFirst ds (d.stamp path)) := by
  have hseen : (d.stamp path).issue ∈ (ds.map issue).toFinset ↔
      isFirst ds (d.stamp path) = false := by
    rw [List.mem_toFinset, List.mem_map, isFirst_eq_false_iff]
  have hinsert : ((ds ++ [d.stamp path]).map issue).toFinset =
      insert (d.stamp path).issue (ds.map issue).toFinset := by
    ext i
    simp only [List.map_append, List.map_singleton, List.mem_toFinset, List.mem_append,
      List.mem_singleton, Finset.mem_insert]
    exact or_comm
  cases hfirst : isFirst ds (d.stamp path) with
  | false =>
      have hmem := hseen.mpr hfirst
      refine (if_pos hmem).trans ?_
      unfold behind
      rw [hinsert, Finset.insert_eq_of_mem hmem, firsts_concat, hfirst,
        if_neg Bool.false_ne_true]
  | true =>
      have hmem : (d.stamp path).issue ∉ (ds.map issue).toFinset := by
        rw [hseen, hfirst]
        exact Bool.noConfusion
      refine (if_neg hmem).trans ?_
      unfold behind
      rw [hinsert, firsts_concat, hfirst, if_pos rfl]

/-- Behind any diagnostics the list holds the first of each issue, and those were answered with
`true`. -/
theorem pushAll_empty (path : String) (ds : List Diagnostic) :
    (empty path).pushAll ds =
      (behind path (ds.map (stamp path)), marks (ds.map (stamp path))) := by
  induction ds using List.reverseRecOn with
  | nil => rfl
  | append_singleton ds d ih =>
      have hstep : (empty path).pushAll (ds ++ [d]) =
          ((((empty path).pushAll ds).1.push d).1,
            ((empty path).pushAll ds).2 ++ [(((empty path).pushAll ds).1.push d).2]) :=
        List.foldl_append
      rw [hstep, ih, push_behind, List.map_append, List.map_singleton, marks_concat]

end Ledger

end TypedSql.Diagnostic

import TypedSql.Proofs.Diagnostic.Firsts
import TypedSql.Report.Basic

/-!
# The diagnostics of a report

A report lists the diagnostics of its file and of its queries by position.  Of each issue it lists
the first diagnostic that was found, and at one position the diagnostics stand as they were found.

Main statement: `FileReport.allDiagnostics_sorted_firsts`.
-/

namespace TypedSql

namespace Diagnostic

/-- The diagnostic stands before the other one, or at the same position. -/
def notAfter (d e : Diagnostic) : Bool := d.position.notAfter e.position

theorem notAfter_trans (a b c : Diagnostic) (hab : a.notAfter b = true)
    (hbc : b.notAfter c = true) : a.notAfter c = true := by
  simp [notAfter, Position.notAfter] at *
  omega

theorem notAfter_total (a b : Diagnostic) : (a.notAfter b || b.notAfter a) = true := by
  simp [notAfter, Position.notAfter]
  omega

end Diagnostic

open Diagnostic

namespace FileReport

variable (r : FileReport)

/-- What was found, with the path of the file where there was none. -/
def stamped : List Diagnostic := r.foundDiagnostics.map (stamp r.path)

theorem allDiagnostics_eq :
    r.allDiagnostics = (firsts r.stamped).mergeSort Diagnostic.notAfter := by
  rw [allDiagnostics, distinct_eq_firsts]
  rfl

theorem allDiagnostics_perm : r.allDiagnostics.Perm (firsts r.stamped) := by
  rw [allDiagnostics_eq]
  exact List.mergeSort_perm _ _

theorem pairwise_allDiagnostics :
    r.allDiagnostics.Pairwise fun d e => d.notAfter e = true := by
  rw [allDiagnostics_eq]
  exact List.pairwise_mergeSort notAfter_trans notAfter_total _

/-- Sorting leaves the diagnostics at one position in their order. -/
theorem filter_allDiagnostics (p : Position) :
    r.allDiagnostics.filter (·.position = p) = (firsts r.stamped).filter (·.position = p) := by
  let there := (firsts r.stamped).filter (·.position = p)
  have hposition : ∀ d ∈ there, d.position = p := fun d hd =>
    of_decide_eq_true (List.mem_filter.mp hd).2
  have hequal : there.Pairwise fun d e => d.notAfter e = true := by
    refine List.pairwise_of_forall_mem_list fun d hd e he => ?_
    rw [notAfter, hposition d hd, hposition e he]
    simp [Position.notAfter]
  -- What is in order already comes out of a stable sort in that order.
  have hsublist : there.Sublist r.allDiagnostics := by
    rw [allDiagnostics_eq]
    exact List.sublist_mergeSort notAfter_trans notAfter_total hequal List.filter_sublist
  have hthere : there.filter (·.position = p) = there :=
    List.filter_eq_self.mpr fun d hd => decide_eq_true (hposition d hd)
  have hfiltered := hsublist.filter (·.position = p)
  rw [hthere] at hfiltered
  exact (hfiltered.eq_of_length (r.allDiagnostics_perm.filter _).length_eq.symm).symm

end FileReport

/-- The diagnostics of a report are sorted by line and column; none of their issues comes twice, and
the issue of every diagnostic that was found is there; they are the first diagnostics of each issue
in the order file, first query, second query and so on, and at one position they stand in that
order.  A collector holds the first diagnostics of each issue that it got, in their order, and
adding a diagnostic to it adds just those; and with the set of seen issues beside the list, the
answers tell which diagnostics were added. -/
theorem FileReport.allDiagnostics_sorted_firsts :
    (∀ r : FileReport,
      r.allDiagnostics.Pairwise (fun d e => d.position.notAfter e.position = true) ∧
      (r.allDiagnostics.map issue).Nodup ∧
      (∀ d ∈ r.foundDiagnostics, ∃ e ∈ r.allDiagnostics, e.issue = (d.stamp r.path).issue) ∧
      r.allDiagnostics.Perm (firsts (r.foundDiagnostics.map (stamp r.path))) ∧
      ∀ p, r.allDiagnostics.filter (·.position = p) =
        (firsts (r.foundDiagnostics.map (stamp r.path))).filter (·.position = p)) ∧
    ∀ (path : String) (ds : List Diagnostic),
      ((Collector.empty path).extend ds).diagnostics = firsts (ds.map (stamp path)) ∧
      (∀ d, ((Collector.empty path).extend ds).knows d =
        !isFirst (ds.map (stamp path)) (d.stamp path)) ∧
      (Ledger.empty path).pushAll ds =
        (Ledger.behind path (ds.map (stamp path)), marks (ds.map (stamp path))) := by
  refine ⟨fun r => ⟨r.pairwise_allDiagnostics, ?_, fun d hd => ?_, r.allDiagnostics_perm,
    r.filter_allDiagnostics⟩, fun path ds => ⟨?_, fun d => ?_, Ledger.pushAll_empty path ds⟩⟩
  · have hperm : r.allDiagnostics.Perm (distinct r.path r.foundDiagnostics) :=
      List.mergeSort_perm _ _
    exact (hperm.map issue).nodup_iff.mpr (nodup_issue_distinct r.path r.foundDiagnostics)
  · obtain ⟨e, he, hissue⟩ := exists_mem_distinct r.path hd
    exact ⟨e, List.mem_mergeSort.mpr he, hissue⟩
  · rw [Collector.extend_empty]
  · rw [Collector.extend_empty, Collector.knows_eq, isFirst_firsts]

/-- A diagnostic of the file without a path. -/
def unplacedProblem : Diagnostic := ⟨.warning, .unknownTable, "gone", "", ⟨3, 1⟩, none⟩

/-- The same issue with the path of the file. -/
def repeatedProblem : Diagnostic := ⟨.error, .unknownTable, "gone", "q.sql", ⟨3, 1⟩, none⟩

/-- Another issue at the same position. -/
def otherProblem : Diagnostic := ⟨.error, .unknownTable, "lost", "q.sql", ⟨3, 1⟩, none⟩

/-- An issue in front of the others. -/
def earlierProblem : Diagnostic := ⟨.error, .unknownTable, "away", "", ⟨2, 7⟩, none⟩

/-- A report whose query repeats an issue of the file. -/
def FileReport.repeating : FileReport :=
  ⟨"q.sql", [⟨"q", .many, ⟨[], [], [repeatedProblem, otherProblem, earlierProblem]⟩⟩],
    [unplacedProblem]⟩

/-- The issue is there once, as the warning that was found first, and in front of the other issue at
its position. -/
theorem FileReport.allDiagnostics_sorted_firsts_of_repeating :
    repeatedProblem ∈ repeating.foundDiagnostics ∧
      (∃ e ∈ repeating.allDiagnostics, e.issue = repeatedProblem.issue) ∧
      repeating.allDiagnostics.filter (·.position = ⟨3, 1⟩) =
        [{ unplacedProblem with path := "q.sql" }, otherProblem] ∧
      (Ledger.empty "q.sql").pushAll repeating.foundDiagnostics =
        (Ledger.behind "q.sql" (repeating.foundDiagnostics.map (stamp "q.sql")),
          [true, false, true, true]) := by
  obtain ⟨hreport, hcollector⟩ := FileReport.allDiagnostics_sorted_firsts
  obtain ⟨-, -, hfound, -, hthere⟩ := hreport repeating
  obtain ⟨-, -, hledger⟩ := hcollector "q.sql" repeating.foundDiagnostics
  have hmem : repeatedProblem ∈ repeating.foundDiagnostics := by decide +kernel
  refine ⟨hmem, hfound repeatedProblem hmem, ?_, ?_⟩
  · rw [hthere]
    decide +kernel
  · rw [hledger]
    exact congrArg (Prod.mk _) (by decide +kernel)

end TypedSql

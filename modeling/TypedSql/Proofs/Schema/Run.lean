import Mathlib.Data.List.Induction
import TypedSql.Schema.File

/-!
# Runs of schema statements

The statements of all files, in order, are one run from the empty catalog.  What every statement
keeps holds all along it, and what a statement reports is reported of the files.

Main definitions: `Step`, `script`, `after`.  Main statements: `fst_ofFiles`, `after_induction`,
`forall_after_iff`, `perm_ofFiles`, `mem_problems_along`.
-/

namespace TypedSql.Schema

open Token

/-! ## One list of statements -/

/-- The first statement, and the others on the catalog that it leaves. -/
theorem applyStatements_cons (source : Source) (c : Catalog) (s : List Token)
    (ss : List (List Token)) :
    applyStatements source c (s :: ss) =
      ((applyStatements source (applyStatement source c s).1 ss).1,
        (applyStatement source c s).2 ++
          (applyStatements source (applyStatement source c s).1 ss).2) := by
  let step (r : Catalog × List Diagnostic) (s : List Token) : Catalog × List Diagnostic :=
    ((applyStatement source r.1 s).1, r.2 ++ (applyStatement source r.1 s).2)
  -- The problems found before stand in front of those found in the run.
  have hrun (ss : List (List Token)) (c : Catalog) (problems : List Diagnostic) :
      ss.foldl step (c, problems) =
        ((ss.foldl step (c, [])).1, problems ++ (ss.foldl step (c, [])).2) := by
    induction ss generalizing c problems with
    | nil => simp
    | cons s ss ih =>
        rw [List.foldl_cons, List.foldl_cons, ih, ih (applyStatement source c s).1 (_ ++ _)]
        simp [step]
  exact hrun ss _ _

theorem applyStatements_append (source : Source) (c : Catalog) (xs ys : List (List Token)) :
    applyStatements source c (xs ++ ys) =
      ((applyStatements source (applyStatements source c xs).1 ys).1,
        (applyStatements source c xs).2 ++
          (applyStatements source (applyStatements source c xs).1 ys).2) := by
  induction xs generalizing c with
  | nil => rfl
  | cons x xs ih =>
      rw [List.cons_append, applyStatements_cons, applyStatements_cons, ih]
      simp only [List.append_assoc]

/-! ## All files -/

/-- A statement with the file that it stands in. -/
structure Step where
  source : Source
  statement : List Token

/-- The statements of a file; a file that cannot be read has none. -/
def fileSteps (file : String × String) : List Step :=
  match tokenize file.2 with
  | .error _ => []
  | .ok tokens => (statements tokens).map fun s => ⟨⟨file.1, file.2⟩, s⟩

/-- The statements of all files in order. -/
def script (files : List (String × String)) : List Step := files.flatMap fileSteps

/-- The catalog after a statement. -/
def Step.apply (c : Catalog) (s : Step) : Catalog := (applyStatement s.source c s.statement).1

/-- The catalog after statements, from the empty one. -/
def after (steps : List Step) : Catalog := steps.foldl Step.apply .empty

theorem after_concat (steps : List Step) (s : Step) :
    after (steps ++ [s]) = s.apply (after steps) := by
  simp [after]

theorem fst_applyStatements (source : Source) (c : Catalog) (statements : List (List Token)) :
    (applyStatements source c statements).1 =
      (statements.map (Step.mk source)).foldl Step.apply c := by
  rw [List.foldl_map]
  exact (List.foldl_hom Prod.fst fun _ _ => rfl).symm

theorem fst_applyFile (file : String × String) (c : Catalog) :
    (applyFile file.1 file.2 c).1 = (fileSteps file).foldl Step.apply c := by
  unfold applyFile fileSteps
  cases tokenize file.2 with
  | error e => rfl
  | ok tokens => exact fst_applyStatements _ _ _

/-- The catalog of schema files is the one after their statements. -/
theorem fst_ofFiles (files : List (String × String)) :
    (ofFiles files).1 = after (script files) := by
  rw [after, script, List.foldl_flatMap]
  exact (List.foldl_hom Prod.fst fun found file => (fst_applyFile file found.1).symm).symm

/-- What every statement keeps holds of the catalog after any statements. -/
theorem after_induction {P : Catalog → Prop} (hempty : P .empty)
    (hstep : ∀ (c : Catalog) (s : Step), P c → P (s.apply c)) (steps : List Step) :
    P (after steps) := by
  induction steps using List.reverseRecOn with
  | nil => exact hempty
  | append_singleton steps s ih =>
      rw [after_concat]
      exact hstep _ s ih

/-- A property that each statement of a run keeps exactly where it is not `Bad` holds all along the
run exactly where no statement of the run is bad. -/
theorem forall_after_iff_of_run {P : Catalog → Prop} {Bad : Catalog → List Token → Prop}
    {steps : List Step} (hempty : P .empty)
    (hstep : ∀ (done : List Step) (s : Step), done ++ [s] <+: steps → P (after done) →
      (P (s.apply (after done)) ↔ ¬ Bad (after done) s.statement)) :
    (∀ done, done <+: steps → P (after done)) ↔
      ∀ done s, done ++ [s] <+: steps → ¬ Bad (after done) s.statement := by
  constructor
  · intro h done s hprefix
    have hdone : P (after done) := h done ((List.prefix_append _ _).trans hprefix)
    have hnext : P (s.apply (after done)) := after_concat done s ▸ h _ hprefix
    exact (hstep done s hprefix hdone).mp hnext
  · intro h done hprefix
    -- The induction is on the part of the run that is over.
    induction done using List.reverseRecOn with
    | nil => exact hempty
    | append_singleton done s ih =>
        have hdone : P (after done) := ih ((List.prefix_append _ _).trans hprefix)
        rw [after_concat]
        exact (hstep done s hprefix hdone).mpr (h done s hprefix)

/-- A property that a statement keeps exactly where it is not `Bad` holds all along a run exactly
where no statement of the run is bad. -/
theorem forall_after_iff {P : Catalog → Prop} {Bad : Catalog → List Token → Prop}
    (hempty : P .empty)
    (hstep : ∀ (done : List Step) (s : Step), P (after done) →
      (P (s.apply (after done)) ↔ ¬ Bad (after done) s.statement)) (steps : List Step) :
    (∀ done, done <+: steps → P (after done)) ↔
      ∀ done s, done ++ [s] <+: steps → ¬ Bad (after done) s.statement :=
  forall_after_iff_of_run hempty fun done s _ => hstep done s

/-! ## What is reported -/

/-- What a statement reports. -/
def Step.problems (c : Catalog) (s : Step) : List Diagnostic :=
  (applyStatement s.source c s.statement).2

/-- What statements report, one after the other. -/
def problemsFrom (c : Catalog) : List Step → List Diagnostic
  | [] => []
  | s :: rest => s.problems c ++ problemsFrom (s.apply c) rest

theorem problemsFrom_append (c : Catalog) (steps more : List Step) :
    problemsFrom c (steps ++ more) =
      problemsFrom c steps ++ problemsFrom (steps.foldl Step.apply c) more := by
  induction steps generalizing c with
  | nil => rfl
  | cons s steps ih =>
      rw [List.cons_append, problemsFrom, problemsFrom, ih, List.append_assoc, List.foldl_cons]

theorem snd_applyStatements (source : Source) (c : Catalog) (statements : List (List Token)) :
    (applyStatements source c statements).2 =
      problemsFrom c (statements.map (Step.mk source)) := by
  induction statements generalizing c with
  | nil => rfl
  | cons s statements ih =>
      rw [applyStatements_cons, ih]
      rfl

/-- The problem of a file that cannot be read. -/
def unread (file : String × String) : List Diagnostic :=
  match tokenize file.2 with
  | .error e => [e.toDiagnostic file.1]
  | .ok _ => []

/-- Of a file either the file is reported, or what its statements report. -/
theorem snd_applyFile (file : String × String) (c : Catalog) :
    (applyFile file.1 file.2 c).2 = unread file ++ problemsFrom c (fileSteps file) := by
  unfold fileSteps applyFile unread
  cases tokenize file.2 with
  | error e => rfl
  | ok tokens => exact snd_applyStatements _ _ _

/-- Of all files the files that cannot be read are reported, and what the statements report. -/
theorem perm_ofFiles (files : List (String × String)) :
    (ofFiles files).2.Perm (files.flatMap unread ++ problemsFrom .empty (script files)) := by
  let step (found : Catalog × List Diagnostic) (file : String × String) :=
    ((applyFile file.1 file.2 found.1).1, found.2 ++ (applyFile file.1 file.2 found.1).2)
  have hfold (files : List (String × String)) (found : Catalog × List Diagnostic) :
      (files.foldl step found).2.Perm
        (found.2 ++ (files.flatMap unread ++ problemsFrom found.1 (script files))) := by
    induction files generalizing found with
    | nil => exact .of_eq (List.append_nil _).symm
    | cons file files ih =>
        refine (ih (step found file)).trans ?_
        have hstep : (step found file).2 =
            found.2 ++ (unread file ++ problemsFrom found.1 (fileSteps file)) := by
          rw [← snd_applyFile]
        rw [show script (file :: files) = fileSteps file ++ script files from rfl,
          problemsFrom_append, ← fst_applyFile, List.flatMap_cons, hstep]
        simp only [List.append_assoc]
        refine .append_left _ (.append_left _ ?_)
        rw [← List.append_assoc, ← List.append_assoc]
        exact List.perm_append_comm.append_right _
  exact hfold files (.empty, [])

/-- What a statement of the run reports is reported of the files. -/
theorem mem_problems_along {files : List (String × String)} {done : List Step} {s : Step}
    (h : done ++ [s] <+: script files) {d : Diagnostic} (hd : d ∈ s.problems (after done)) :
    d ∈ (ofFiles files).2 := by
  obtain ⟨more, hmore⟩ := h
  refine (perm_ofFiles files).mem_iff.mpr (List.mem_append_right _ ?_)
  rw [← hmore, problemsFrom_append, problemsFrom_append]
  refine List.mem_append_left _ (List.mem_append_right _ ?_)
  show d ∈ s.problems (done.foldl Step.apply .empty) ++ []
  rw [List.append_nil]
  exact hd

end TypedSql.Schema

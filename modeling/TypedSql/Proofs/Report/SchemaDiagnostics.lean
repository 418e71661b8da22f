import Mathlib.Data.List.Infix
import TypedSql.Project.Basic
import TypedSql.Proofs.Report.ViewProblems
import TypedSql.Proofs.Report.Views
import TypedSql.Proofs.Schema.ScriptSpots

/-!
# The diagnostics of a schema

A view is cut out of a statement that reports nothing itself, and its problems stand at tokens of
the cut.  So the problems of the views, of the statements and of the files that cannot be read stand
at different places, and the only issue that a schema reports twice is a missing column that the
primary key of a new table names twice.

Main definition: `ViewsApart`.  Main statement: `Project.repeats_schemaDiagnostics_iff`.
-/

namespace TypedSql

open Diagnostic Query Schema Text Token

/-! ## Where views come from -/

namespace Schema

variable {source : Source} {statement tokens : List Token} {v : View} {c : Catalog}

/-- The query of a view is read again from the tokens that it was cut from, or from the first ones
of them. -/
theorem CutFrom.spots_subset (h : CutFrom source statement v)
    (htokens : tokenize source.sql = .ok tokens) (hpart : statement <:+: tokens) :
    (∃ again, tokenizeAt v.sql v.position = .ok again) ∧
      v.spots ⊆ statement.map source.spot := by
  obtain ⟨first, rest, hbody, hsql, hpath, hposition⟩ := h
  obtain ⟨before, after, hsplit⟩ := hbody.isInfix.trans hpart
  have hreads := tokenizeAt_eq_ok_iff.mp htokens
  rw [← hsplit, List.append_assoc] at hreads
  obtain ⟨again, hagain, hread⟩ := hreads.prefix_of_sourceText
  rw [← hsql, ← hposition] at hread
  refine ⟨⟨_, hread⟩, fun p hp => ?_⟩
  obtain ⟨q, hq, rfl⟩ := List.mem_map.mp hp
  -- The query begins at its first token, so that its beginning is no other place.
  have hthis : q ∈ (first :: rest).map Token.position := by
    rw [tokensOf_eq hread, hposition] at hq
    rcases List.mem_cons.mp hq with rfl | hq
    · exact List.mem_cons_self
    · rw [List.map_map] at hq
      exact (hagain.map Token.position).subset hq
  obtain ⟨t, ht, rfl⟩ := List.mem_map.mp hthis
  rw [hpath]
  exact List.mem_map_of_mem (f := source.spot) (hbody.subset ht)

/-- A step of a script is a part of a file that can be read. -/
theorem exists_tokens_of_mem_script {files : List (String × String)} {s : Step}
    (h : s ∈ script files) : ∃ tokens, tokenize s.source.sql = .ok tokens ∧
      s.statement <:+: tokens := by
  obtain ⟨file, -, hs⟩ := List.mem_flatMap.mp h
  unfold fileSteps at hs
  cases htokens : tokenize file.2 with
  | error e => rw [htokens] at hs; cases hs
  | ok tokens =>
      rw [htokens] at hs
      obtain ⟨statement, hstatement, rfl⟩ := List.mem_map.mp hs
      exact ⟨tokens, htokens, infix_of_mem_statements hstatement⟩

/-- A statement makes one new view at most.  It is cut out of the statement, which then reports
nothing, and the other views were there before. -/
theorem Step.exists_newView (c : Catalog) (s : Step) : ∃ new : Option (String × View),
    (∀ key v, (s.apply c).views.get? key = some v →
      new = some (key, v) ∨ c.views.get? key = some v) ∧
    ∀ key v, new = some (key, v) → CutFrom s.source s.statement v ∧ s.problems c = [] := by
  unfold Step.problems Step.apply applyStatement
  cases hattempt : attempt s.source c s.statement with
  | error problem => exact ⟨none, fun _ _ h => .inr h, nofun⟩
  | ok result =>
      cases outcome_of_attempt hattempt with
      | define => exact ⟨none, fun _ _ h => .inr h, nofun⟩
      | @view v hcut =>
          refine ⟨some (lowerCase v.name, v), fun key w hw => ?_, fun key w hw => ?_⟩
          · change (c.views.insert (lowerCase v.name) v).get? key = some w at hw
            rw [OrderedMap.get?_insert] at hw
            split at hw
            · next hkey => exact .inl (by rw [hkey, Option.some.inj hw])
            · exact .inr hw
          · cases hw
            exact ⟨hcut, rfl⟩
      | other h => exact ⟨none, fun key v hv => .inr (h key v hv), nofun⟩

/-- The views that are there behind a run can be read, have their places in its statements, but none
where something is reported, and share none. -/
structure ViewsApart (steps : List Step) : Prop where
  readable : ∀ key v, (after steps).views.get? key = some v →
    ∃ tokens, tokenizeAt v.sql v.position = .ok tokens
  within : ∀ key v, (after steps).views.get? key = some v → v.spots ⊆ steps.flatMap Step.spots
  quiet : ∀ key v, (after steps).views.get? key = some v →
    ∀ d ∈ problemsFrom .empty steps, d.spot ∉ v.spots
  apart : ∀ key key' v w, (after steps).views.get? key = some v →
    (after steps).views.get? key' = some w → key ≠ key' → v.spots.Disjoint w.spots

theorem viewsApart_nil : ViewsApart [] := ⟨nofun, nofun, nofun, nofun⟩

theorem problemsFrom_concat (steps : List Step) (s : Step) :
    problemsFrom .empty (steps ++ [s]) =
      problemsFrom .empty steps ++ s.problems (after steps) := by
  rw [problemsFrom_append]
  exact congrArg _ (List.append_nil _)

/-- What a statement does keeps the views apart, as it stands elsewhere than those before it. -/
theorem ViewsApart.concat {steps : List Step} {s : Step} (h : ViewsApart steps)
    (hwritten : ∃ tokens, tokenize s.source.sql = .ok tokens ∧ s.statement <:+: tokens)
    (hspots : (steps.flatMap Step.spots).Disjoint s.spots) : ViewsApart (steps ++ [s]) := by
  obtain ⟨tokens, htokens, hpart⟩ := hwritten
  obtain ⟨new, hviews, hnew⟩ := s.exists_newView (after steps)
  rw [← after_concat] at hviews
  have hall : (steps ++ [s]).flatMap Step.spots = steps.flatMap Step.spots ++ s.spots := by
    rw [List.flatMap_append, List.flatMap_singleton]
  have hthis {key : String} {v : View} (hv : new = some (key, v)) : v.spots ⊆ s.spots :=
    ((hnew key v hv).1.spots_subset htokens hpart).2
  -- The new view stands in this statement, the others in those before it.
  have hapart {key key' : String} {v w : View} (hv : new = some (key, v))
      (hw : (after steps).views.get? key' = some w) : v.spots.Disjoint w.spots :=
    fun p hp hp' => hspots (h.within key' w hw hp') (hthis hv hp)
  constructor
  · intro key v hv
    rcases hviews key v hv with hv | hv
    · exact ((hnew key v hv).1.spots_subset htokens hpart).1
    · exact h.readable key v hv
  · intro key v hv p hp
    rw [hall]
    rcases hviews key v hv with hv | hv
    · exact List.mem_append_right _ (hthis hv hp)
    · exact List.mem_append_left _ (h.within key v hv hp)
  · intro key v hv d hd hp
    rw [problemsFrom_concat] at hd
    rcases List.mem_append.mp hd with hd | hd <;> rcases hviews key v hv with hv | hv
    · exact hspots (spot_mem_of_mem_problemsFrom hd) (hthis hv hp)
    · exact h.quiet key v hv d hd hp
    · -- A statement that makes a view reports nothing at its own tokens.
      rw [(hnew key v hv).2] at hd
      cases hd
    · exact hspots (h.within key v hv hp) (Step.spot_mem_of_mem_problems hd)
  · intro key key' v w hv hw hne
    rcases hviews key v hv with hv | hv <;> rcases hviews key' w hw with hw | hw
    · rw [hv] at hw
      cases hw
      exact absurd rfl hne
    · exact hapart hv hw
    · exact List.disjoint_comm.mp (hapart hw hv)
    · exact h.apart key key' v w hv hw hne

theorem viewsApart_script {files : List (String × String)}
    (hpaths : (files.map Prod.fst).Nodup) : ViewsApart (script files) := by
  obtain ⟨-, hspots, -⟩ := List.nodup_append.mp (nodup_spots hpaths)
  -- The induction is on the part of the script that is over.
  have hprefix (steps : List Step) (h : steps <+: script files) : ViewsApart steps := by
    induction steps using List.reverseRecOn with
    | nil => exact viewsApart_nil
    | append_singleton steps s ih =>
        have hthis := hspots.sublist (h.flatMap Step.spots).sublist
        rw [List.flatMap_append, List.flatMap_singleton] at hthis
        exact (ih ((List.prefix_append steps [s]).trans h)).concat
          (exists_tokens_of_mem_script (h.subset (List.mem_append_right _ List.mem_cons_self)))
          (List.disjoint_of_nodup_append hthis)
  exact hprefix _ List.prefix_rfl

end Schema

/-! ## What views report -/

namespace Catalog

/-- What views report, one after the other. -/
def viewProblems (c : Catalog) : List View → List Diagnostic
  | [] => []
  | v :: views => (v.resolve c).2 ++ viewProblems (v.resolve c).1 views

theorem snd_resolveViews (c : Catalog) : (resolveViews c).2 = viewProblems c c.views.values := by
  -- The problems found before stand in front of those found in the run.
  have hrun (views : List View) (c : Catalog) (problems : List Diagnostic) :
      (views.foldl (fun (r : Catalog × List Diagnostic) v =>
        ((v.resolve r.1).1, r.2 ++ (v.resolve r.1).2)) (c, problems)).2 =
        problems ++ viewProblems c views := by
    induction views generalizing c problems with
    | nil => exact (List.append_nil _).symm
    | cons v views ih => rw [List.foldl_cons, ih, viewProblems, List.append_assoc]
  exact hrun _ c []

/-- Views that share no place report nothing twice, and report at their places. -/
theorem nodup_issue_viewProblems (c : Catalog) (views : List View)
    (hread : ∀ v ∈ views, ∃ tokens, tokenizeAt v.sql v.position = .ok tokens)
    (hapart : views.Pairwise fun v w => v.spots.Disjoint w.spots) :
    ((c.viewProblems views).map issue).Nodup ∧
      ∀ d ∈ c.viewProblems views, ∃ v ∈ views, d.spot ∈ v.spots := by
  induction views generalizing c with
  | nil => exact ⟨List.nodup_nil, nofun⟩
  | cons v views ih =>
      obtain ⟨⟨tokens, htokens⟩, hread⟩ := List.forall_mem_cons.mp hread
      obtain ⟨hthis, hapart⟩ := List.pairwise_cons.mp hapart
      obtain ⟨hnodup, hplaces⟩ := ih (v.resolve c).1 hread hapart
      have hplace : ∀ d ∈ (v.resolve c).2, d.spot ∈ v.spots :=
        fun d hd => View.spot_mem_of_mem_resolve htokens hd
      constructor
      · rw [viewProblems, List.map_append, List.nodup_append]
        refine ⟨View.nodup_issue_resolve htokens c, hnodup, ?_⟩
        rintro i hi j hj rfl
        obtain ⟨d, hd, rfl⟩ := List.mem_map.mp hi
        obtain ⟨e, he, hissue⟩ := List.mem_map.mp hj
        obtain ⟨w, hw, hspot⟩ := hplaces e he
        rw [show e.spot = d.spot from congrArg Issue.spot hissue] at hspot
        exact hthis w hw (hplace d hd) hspot
      · intro d hd
        rcases List.mem_append.mp hd with hd | hd
        · exact ⟨v, List.mem_cons_self, hplace d hd⟩
        · obtain ⟨w, hw, hspot⟩ := hplaces d hd
          exact ⟨w, List.mem_cons_of_mem v hw, hspot⟩

end Catalog

/-! ## What a schema reports -/

namespace Schema

variable {files : List (String × String)}

/-- Everything that is reported of the files stands where no view stands. -/
theorem spot_not_mem_view {key : String} {v : View} (hpaths : (files.map Prod.fst).Nodup)
    (hv : (after (script files)).views.get? key = some v) {d : Diagnostic}
    (hd : d ∈ (ofFiles files).2) : d.spot ∉ v.spots := by
  have hviews := viewsApart_script hpaths
  obtain ⟨-, -, hapart⟩ := List.nodup_append.mp (nodup_spots hpaths)
  rcases List.mem_append.mp ((perm_ofFiles files).mem_iff.mp hd) with hd | hd
  · exact fun hp => hapart _ (List.mem_map_of_mem hd) _ (hviews.within key v hv hp) rfl
  · exact hviews.quiet key v hv d hd

theorem pairwise_spots_values (hpaths : (files.map Prod.fst).Nodup) :
    (after (script files)).views.values.Pairwise fun v w => v.spots.Disjoint w.spots := by
  have hviews := viewsApart_script hpaths
  have hkeys := List.pairwise_map.mp (after (script files)).views.nodup
  exact List.pairwise_map.mpr (hkeys.imp_of_mem fun he hf hne =>
    hviews.apart _ _ _ _ (OrderedMap.get?_of_mem he) (OrderedMap.get?_of_mem hf) hne)

end Schema

/-- The diagnostics of schema files with different paths do not repeat, except that the primary key
of a new table is reported once for each time that it names a column which the table does not
have. -/
theorem Project.repeats_schemaDiagnostics_iff (p : Project) {files : List (String × String)}
    (hpaths : (files.map Prod.fst).Nodup) :
    (((p.loadSchema files).schemaDiagnostics.map issue).Nodup ↔
      ∀ done s, done ++ [s] <+: script files → ∀ i, ¬ s.RepeatsKey (after done) i) ∧
    ∀ i, Repeats i (p.loadSchema files).schemaDiagnostics ↔
      ∃ done s, done ++ [s] <+: script files ∧ s.RepeatsKey (after done) i := by
  let c := after (script files)
  have hreport : (p.loadSchema files).schemaDiagnostics =
      (ofFiles files).2 ++ c.viewProblems c.views.values := by
    show (ofFiles files).2 ++ (resolveViews (ofFiles files).1).2 = _
    rw [fst_ofFiles, Catalog.snd_resolveViews]
  obtain ⟨honce, hplaces⟩ := c.nodup_issue_viewProblems c.views.values
    (fun v hv => by
      obtain ⟨key, hkey⟩ := OrderedMap.mem_values_iff.mp hv
      exact (viewsApart_script hpaths).readable key v hkey)
    (pairwise_spots_values hpaths)
  have hrepeats (i : Issue) : Repeats i (p.loadSchema files).schemaDiagnostics ↔
      ∃ done s, done ++ [s] <+: script files ∧ s.RepeatsKey (after done) i := by
    rw [hreport, repeats_append_iff, or_iff_left (nodup_issue_iff.mp honce i),
      repeats_ofFiles_iff hpaths]
    intro d hd e he hsame
    obtain ⟨v, hv, hspot⟩ := hplaces e he
    obtain ⟨key, hkey⟩ := OrderedMap.mem_values_iff.mp hv
    exact spot_not_mem_view hpaths hkey hd (hsame ▸ hspot)
  refine ⟨?_, hrepeats⟩
  rw [nodup_issue_iff]
  constructor
  · exact fun h done s hprefix i hkey => h i ((hrepeats i).mpr ⟨done, s, hprefix, hkey⟩)
  · intro h i hi
    obtain ⟨done, s, hprefix, hkey⟩ := (hrepeats i).mp hi
    exact h done s hprefix i hkey

/-- A key that names one missing column twice and another one once, and a second file with a problem
of its own. -/
theorem Project.repeats_schemaDiagnostics_iff_of_two_files :
    let files := [("a.sql", "CREATE TABLE t(a,PRIMARY KEY(x,y,x))"), ("b.sql", "DROP TABLE u")]
    let i : Issue := ⟨"a.sql", ⟨1, 14⟩, "primary key column 'x' does not exist in table 't'"⟩
    (files.map Prod.fst).Nodup ∧ ∃ done s, done ++ [s] <+: script files ∧
      s.RepeatsKey (after done) i := by
  intro files i
  have hpaths : (files.map Prod.fst).Nodup := by decide
  exact ⟨hpaths, ((Project.repeats_schemaDiagnostics_iff (.bare .empty) hpaths).2 i).mp
    (show 2 ≤ _ by decide +kernel)⟩

/-- A key that names one missing column twice is reported twice. -/
theorem Project.not_nodup_schemaDiagnostics :
    ¬ ∀ files : List (String × String), (files.map Prod.fst).Nodup →
      (((Project.bare .empty).loadSchema files).schemaDiagnostics.map issue).Nodup := by
  intro h
  have honce := h [("s.sql", "CREATE TABLE t(a,PRIMARY KEY(x,x))")] (by decide)
  revert honce
  decide +kernel

end TypedSql

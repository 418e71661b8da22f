import Mathlib.Data.List.Perm.Basic
import TypedSql.Proofs.Schema.RepeatedKeys
import TypedSql.Proofs.Token.Reads

/-!
# The spots of a script

No token belongs to two statements, and no two tokens of a file have the same position.  So the
statements of files with different paths report at different places, and an issue that is repeated
is repeated by one of them.

Main statements: `nodup_spots`, `repeats_problemsFrom_iff`, `repeats_ofFiles_iff`.
-/

namespace TypedSql.Schema

open Diagnostic Token

variable {files : List (String × String)} {i : Issue}

/-- The places of a file at which something can be reported: where it cannot be read, or the tokens
of its statements. -/
def fileSpots (file : String × String) : List Spot :=
  (unread file).map spot ++ (fileSteps file).flatMap Step.spots

theorem path_of_mem_fileSpots {file : String × String} {p : Spot} (h : p ∈ fileSpots file) :
    p.1 = file.1 := by
  unfold fileSpots unread fileSteps at h
  cases htokens : tokenize file.2 with
  | error e =>
      rw [htokens] at h
      cases List.mem_singleton.mp h
      rfl
  | ok tokens =>
      rw [htokens] at h
      obtain ⟨s, hs, hp⟩ := List.mem_flatMap.mp h
      obtain ⟨statement, -, rfl⟩ := List.mem_map.mp hs
      obtain ⟨t, -, rfl⟩ := List.mem_map.mp hp
      rfl

/-- Tokens of a text have different positions. -/
theorem nodup_positions {sql : String} {tokens : List Token} (h : tokenize sql = .ok tokens) :
    (tokens.map Token.position).Nodup :=
  List.pairwise_map.mpr ((tokenizeAt_eq_ok_iff.mp h).positions_increase.imp Position.Before.ne)

theorem nodup_fileSpots (file : String × String) : (fileSpots file).Nodup := by
  unfold fileSpots unread fileSteps
  cases htokens : tokenize file.2 with
  | error e => exact List.nodup_singleton _
  | ok tokens =>
      have hpart : ((statements tokens).flatten.map Token.position).Nodup :=
        (nodup_positions htokens).sublist ((flatten_statements_sublist tokens).map _)
      have hspots : ((statements tokens).map (Step.mk ⟨file.1, file.2⟩)).flatMap Step.spots =
          ((statements tokens).flatten.map Token.position).map fun p => (file.1, p) := by
        rw [List.map_map, List.map_flatten, ← List.flatMap_def, List.flatMap_map]
        rfl
      show ([] ++ _ : List Spot).Nodup
      rw [List.nil_append, hspots]
      exact hpart.map fun p q h => (Prod.mk.inj h).2

/-- Files with different paths report at different places, and so do their statements. -/
theorem nodup_spots (hpaths : (files.map Prod.fst).Nodup) :
    ((files.flatMap unread).map spot ++ (script files).flatMap Step.spots).Nodup := by
  have hfiles : (files.flatMap fileSpots).Nodup := by
    refine List.nodup_flatMap.mpr ⟨fun file _ => nodup_fileSpots file, ?_⟩
    refine (List.pairwise_map.mp hpaths).imp fun hne p hp hp' => hne ?_
    exact (path_of_mem_fileSpots hp).symm.trans (path_of_mem_fileSpots hp')
  have hperm := List.flatMap_append_perm files (fun file => (unread file).map spot)
    fun file => (fileSteps file).flatMap Step.spots
  rw [List.map_flatMap, script, List.flatMap_assoc]
  exact hperm.nodup_iff.mpr hfiles

/-- What a run reports it reports at the tokens of its statements. -/
theorem spot_mem_of_mem_problemsFrom {steps : List Step} {c : Catalog} {d : Diagnostic}
    (h : d ∈ problemsFrom c steps) : d.spot ∈ steps.flatMap Step.spots := by
  induction steps generalizing c with
  | nil => cases h
  | cons s steps ih =>
      rw [List.flatMap_cons]
      rcases List.mem_append.mp h with h | h
      · exact List.mem_append_left _ (Step.spot_mem_of_mem_problems h)
      · exact List.mem_append_right _ (ih h)

/-- An issue that a run repeats is repeated by one of its statements. -/
theorem repeats_problemsFrom_iff {steps : List Step}
    (hspots : (steps.flatMap Step.spots).Nodup) (c : Catalog) :
    Repeats i (problemsFrom c steps) ↔
      ∃ done s, done ++ [s] <+: steps ∧ s.RepeatsKey (done.foldl Step.apply c) i := by
  induction steps generalizing c with
  | nil =>
      refine iff_of_false (fun h => by cases h) ?_
      rintro ⟨done, s, hprefix, -⟩
      exact List.append_ne_nil_of_right_ne_nil done (List.cons_ne_nil s [])
        (List.prefix_nil.mp hprefix)
  | cons s steps ih =>
      rw [List.flatMap_cons, List.nodup_append] at hspots
      obtain ⟨hthis, hothers, hapart⟩ := hspots
      -- The first statement reports at its own tokens, the others at theirs.
      rw [problemsFrom, repeats_append_iff fun d hd e he =>
        hapart _ (Step.spot_mem_of_mem_problems hd) _ (spot_mem_of_mem_problemsFrom he),
        s.repeats_problems_iff hthis, ih hothers]
      constructor
      · rintro (h | ⟨done, s', hprefix, h⟩)
        · exact ⟨[], s, List.prefix_append [s] steps, h⟩
        · exact ⟨s :: done, s', List.cons_prefix_cons.mpr ⟨rfl, hprefix⟩, h⟩
      · rintro ⟨done, s', hprefix, h⟩
        cases done with
        | nil =>
            obtain ⟨rfl, -⟩ := List.cons_prefix_cons.mp hprefix
            exact .inl h
        | cons first done =>
            obtain ⟨rfl, hbehind⟩ := List.cons_prefix_cons.mp hprefix
            exact .inr ⟨done, s', hbehind, h⟩

/-- Files with different paths repeat an issue exactly where one of their statements does. -/
theorem repeats_ofFiles_iff (hpaths : (files.map Prod.fst).Nodup) :
    Repeats i (ofFiles files).2 ↔
      ∃ done s, done ++ [s] <+: script files ∧ s.RepeatsKey (after done) i := by
  obtain ⟨hunread, hsteps, hapart⟩ := List.nodup_append.mp (nodup_spots hpaths)
  rw [repeats_congr (perm_ofFiles files), repeats_append_iff fun d hd e he =>
    hapart _ (List.mem_map_of_mem hd) _ (spot_mem_of_mem_problemsFrom he),
    or_iff_right (nodup_issue_iff.mp (nodup_issue_of_spot hunread) i)]
  exact repeats_problemsFrom_iff hsteps .empty

end TypedSql.Schema

import TypedSql.Proofs.Schema.TableProblems
import TypedSql.Proofs.Token.Groups

/-!
# What a statement reports

Only a new table can have several problems.  Any other statement reports one problem or none, and
one that changes the views of a catalog reports nothing.  So a statement repeats an issue only where
it creates a table whose primary key repeats a name that no column has.

Main definitions: `Outcome`, `Step.RepeatsKey`.  Main statements: `outcome_of_attempt`,
`Step.spot_mem_of_mem_problems`, `Step.repeats_problems_iff`.
-/

namespace TypedSql.Schema

open Diagnostic Token

variable {source : Source} {c c' : Catalog} {statement tokens : List Token} {i : Issue}

/-! ## What comes of a statement -/

/-- What a statement that does not fail comes to: a new table with its problems, or a new view, or a
catalog with no new views, without a problem. -/
inductive Outcome (source : Source) (c : Catalog) (statement : List Token) :
    Catalog × List Diagnostic → Prop
  | define {name : Token} {body : List Token} (h : Defines statement name body)
      (hnew : (c.table? name.value).isNone) :
      Outcome source c statement
        (c.addTable (readTable source name.value name.position body).table,
          (readTable source name.value name.position body).problems)
  | view {v : View} (h : CutFrom source statement v) : Outcome source c statement (c.addView v, [])
  | other {c' : Catalog}
      (h : ∀ key v, c'.views.get? key = some v → c.views.get? key = some v) :
      Outcome source c statement (c', [])

theorem views_alterTable {position : Position}
    (h : alterTable source position c tokens = .ok c') : c'.views = c.views := by
  unfold alterTable at h
  obtain ⟨found, -, h⟩ := Attempt.bind_eq_ok.mp h
  simp only at h
  split at h
  · cases h
  · split at h
    · obtain ⟨column, -, -, rfl⟩ := addColumn_eq_ok h
      rfl
    · split at h
      · obtain ⟨name, behind, t, -, -, rfl⟩ := renameTable_eq_ok.mp h
        rfl
      · split at h
        · obtain ⟨old, toWord, new, behind, -, -, -, rfl⟩ := renameColumn_eq_ok.mp h
          rfl
        · split at h
          · obtain ⟨column, behind, -, -, rfl⟩ := dropColumn_eq_ok.mp h
            rfl
          · cases h

/-- What drops something makes no view. -/
theorem views_remove (kind : Dropped) (name key : String) {v : View}
    (h : (kind.remove name c).views.get? key = some v) : c.views.get? key = some v := by
  cases kind with
  | table => exact h
  | index => exact h
  | view =>
      change (c.views.erase _).get? key = some v at h
      rw [OrderedMap.get?_erase] at h
      split at h
      · cases h
      · exact h

theorem outcome_of_attempt {result : Catalog × List Diagnostic}
    (h : attempt source c statement = .ok result) : Outcome source c statement result := by
  obtain ⟨c', problems⟩ := result
  have happly : applyStatement source c statement = (c', problems) := by rw [applyStatement, h]
  unfold attempt at h
  split at h
  · cases h
  · next first rest =>
      split at h
      · next hcreate =>
          unfold createObject at h
          simp only at h
          split at h
          · cases h
          · next word behind hbehind =>
              have hmodifiers : word :: behind <:+ rest := by
                have := afterModifiers_suffix rest
                rwa [show afterModifiers rest = word :: behind from hbehind] at this
              have hsuffix : behind <:+ first :: rest := (List.suffix_cons word behind).trans
                (hmodifiers.trans (List.suffix_cons first rest))
              split at h
              · next hword =>
                  -- A table that is made from a query is a view, so only a body can have problems.
                  obtain ⟨name, rest', hname, hnew, ⟨v, -, hcut, rfl, rfl⟩ | ⟨g, hg, -⟩⟩ :=
                    createTable_eq_ok h
                  · exact .view (hcut.mono hsuffix)
                  · have hdefines : Defines (first :: rest) name g.inner :=
                      ⟨_, rest', g.rest, ⟨first, rest, word, behind, rfl, hcreate, hbehind, hword,
                        rfl, hname⟩, hg⟩
                    rw [← happly, applyStatement_of_defines hdefines hnew]
                    exact .define hdefines hnew
              · split at h
                · obtain ⟨c₁, hindex, h⟩ := Attempt.bind_eq_ok.mp h
                  cases h
                  obtain ⟨table, i, rfl⟩ := createIndex_eq_ok hindex
                  exact .other fun _ _ hv => hv
                · split at h
                  · obtain ⟨c₁, hview, h⟩ := Attempt.bind_eq_ok.mp h
                    cases h
                    obtain ⟨v, -, hcut, rfl⟩ := createView_eq_ok hview
                    exact .view (hcut.mono hsuffix)
                  · cases h
      · split at h
        · obtain ⟨c₁, halter, h⟩ := Attempt.bind_eq_ok.mp h
          cases h
          exact .other fun _ _ hv => views_alterTable halter ▸ hv
        · split at h
          · obtain ⟨c₁, hdrop, h⟩ := Attempt.bind_eq_ok.mp h
            cases h
            obtain ⟨kind, word, rest, name, behind, -, -, -, -, rfl⟩ := dropObject_eq_ok.mp hdrop
            exact .other fun key _ hv => views_remove kind name.value key hv
          · cases h

/-! ## Spots -/

/-- The name of a new table stands in front of its body. -/
theorem Defines.sublist {name : Token} {body : List Token} (h : Defines statement name body) :
    (name :: body).Sublist statement := by
  obtain ⟨ifNotExists, rest, behind, ⟨create, tokens, word, tokens', rfl, -, hbehind, -, -, hname⟩,
    hbody⟩ := h
  have hmodifiers := afterModifiers_suffix tokens
  rw [hbehind] at hmodifiers
  have hsuffix : name :: rest <:+ create :: tokens :=
    (suffix_of_relationName? hname).trans ((skipAll_suffix _ _).trans
      ((List.suffix_cons word tokens').trans (hmodifiers.trans (List.suffix_cons create tokens))))
  obtain ⟨openParen, closeParen, hgroup, -⟩ := exists_of_group? hbody
  rw [hgroup] at hsuffix
  refine List.Sublist.trans (List.Sublist.cons_cons name ?_) hsuffix.sublist
  exact (List.sublist_append_left _ _).cons openParen

namespace Step

variable {s : Step}

/-- A new table has its problems, and any other statement has one at most, which stands at a token
of the statement. -/
theorem problems_cases (c : Catalog) (s : Step) :
    (∃ name body, Defines s.statement name body ∧ (c.table? name.value).isNone ∧
      s.problems c = (readTable s.source name.value name.position body).problems) ∨
    ∃ problem : Option Diagnostic, s.problems c = problem.toList ∧
      ∀ d ∈ problem, d.spot ∈ s.spots := by
  unfold problems applyStatement
  cases hattempt : attempt s.source c s.statement with
  | error problem =>
      refine .inr ⟨problem, rfl, fun d hd => ?_⟩
      exact attempt_at s.source c s.statement d (Option.mem_def.mp hd ▸ hattempt)
  | ok result =>
      cases outcome_of_attempt hattempt with
      | define hdefines hnew => exact .inl ⟨_, _, hdefines, hnew, rfl⟩
      | view => exact .inr ⟨none, rfl, nofun⟩
      | other => exact .inr ⟨none, rfl, nofun⟩

/-- The name of a new table and its body are tokens of the statement. -/
theorem spots_of_defines {name : Token} {body : List Token}
    (h : Defines s.statement name body) :
    ((s.source.path, name.position) :: body.map s.source.spot).Sublist s.spots :=
  h.sublist.map s.source.spot

/-- What a statement reports it reports at its tokens. -/
theorem spot_mem_of_mem_problems {d : Diagnostic} (h : d ∈ s.problems c) : d.spot ∈ s.spots := by
  rcases s.problems_cases c with ⟨name, body, hdefines, -, hproblems⟩ | ⟨problem, hproblem, hspot⟩
  · rw [hproblems] at h
    exact (spots_of_defines hdefines).subset (spot_mem_of_mem_readTable h)
  · rw [hproblem] at h
    exact hspot d (Option.mem_toList.mp h)

/-- The statement makes a new table, and the issue is that the primary key names a column which the
table does not have, and names it more than once. -/
def RepeatsKey (c : Catalog) (s : Step) (i : Issue) : Prop :=
  ∃ name body key, Defines s.statement name body ∧ (c.table? name.value).isNone ∧
    let t := (readTable s.source name.value name.position body).table
    2 ≤ t.primaryKey.count key ∧ t.hasColumn key = false ∧
      i = (Draft.missingKey s.source name.position name.value key).issue

/-- A statement repeats an issue exactly where the primary key of a new table repeats a name that no
column has. -/
theorem repeats_problems_iff (hspots : s.spots.Nodup) (c : Catalog) (i : Issue) :
    Repeats i (s.problems c) ↔ s.RepeatsKey c i := by
  constructor
  · intro h
    rcases s.problems_cases c with ⟨name, body, hdefines, hnew, hproblems⟩ | ⟨problem, hproblem, -⟩
    · rw [hproblems] at h
      obtain ⟨key, hkey⟩ :=
        (repeats_readTable_iff (hspots.sublist (spots_of_defines hdefines)) i).mp h
      exact ⟨name, body, key, hdefines, hnew, hkey⟩
    · rw [hproblem] at h
      refine absurd h (nodup_issue_iff.mp ?_ i)
      cases problem with
      | none => exact List.nodup_nil
      | some problem => exact List.nodup_singleton _
  · rintro ⟨name, body, key, hdefines, hnew, hkey⟩
    rw [problems, applyStatement_of_defines hdefines hnew]
    exact (repeats_readTable_iff (hspots.sublist (spots_of_defines hdefines)) i).mpr ⟨key, hkey⟩

end Step

end TypedSql.Schema

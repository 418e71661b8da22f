import TypedSql.Analysis.Cte
import TypedSql.Analysis.Segment
import TypedSql.Query.Statement
import TypedSql.Proofs.Token.Balanced
import TypedSql.Proofs.Lists

/-!
# The first arm of a compound SELECT

The output columns of a statement are those of its first arm.  The main statement ends its first
arm at any compound operator, the body of a common table expression only at `UNION`; where the first
operator is `UNION`, or there is none, both mean the same tokens.

Main definitions: `Query.firstArm`, `Query.UnionFirst`.  Main statements: `Segment.head_ofBody`,
`Query.projectionTokens_splitUnion`.
-/

namespace TypedSql

open Text Token

namespace Query

/-- The tokens before the first compound operator outside all parentheses. -/
def firstArm (tokens : List Token) : List Token :=
  match findTopLevel? tokens fun t => t.isAnyWord Segment.compoundWords with
  | some i => tokens.take i
  | none => tokens

/-- No other compound operator outside all parentheses stands before the first `UNION`. -/
def UnionFirst (tokens : List Token) : Prop :=
  (findTopLevel? tokens fun t => t.isAnyWord Segment.compoundWords) =
    findTopLevel? tokens fun t => t.isWord "UNION"

instance (tokens : List Token) : Decidable (UnionFirst tokens) :=
  inferInstanceAs (Decidable (_ = _))

theorem UnionFirst.splitUnion_eq {tokens : List Token} (h : UnionFirst tokens) :
    (splitUnion tokens).1 = firstArm tokens := by
  unfold splitUnion firstArm
  rw [h]
  cases findTopLevel? tokens fun t => t.isWord "UNION" <;> rfl

end Query

/-! ## Segments -/

namespace Segment

/-- The first arm ends at the first compound operator. -/
theorem head_armsFrom (start stop i : Nat) (before : Option Token) (xs : List (Nat × Token)) :
    ∃ rest, armsFrom start stop (placesFrom i before xs) =
      ⟨start, ((xs.findIdx? fun dt => dt.1 == 0 && dt.2.isAnyWord compoundWords).map
        (· + i)).getD stop⟩ :: rest := by
  induction xs generalizing i before with
  | nil => exact ⟨[], armsFrom.eq_1 ..⟩
  | cons x xs ih =>
      obtain ⟨d, t⟩ := x
      rw [placesFrom, armsFrom, List.findIdx?_cons]
      show ∃ rest, (if (d == 0 && t.isAnyWord compoundWords) = true then _ else _) = _
      by_cases hhit : (d == 0 && t.isAnyWord compoundWords) = true
      · rw [if_pos hhit, if_pos hhit]
        show ∃ rest, _ = Range.mk start (0 + i) :: rest
        rw [Nat.zero_add]
        split
        · exact ⟨_, rfl⟩
        · exact ⟨_, rfl⟩
      · obtain ⟨rest, hrest⟩ := ih (i + 1) (some t)
        rw [if_neg hhit, if_neg hhit, hrest, Option.map_map]
        refine ⟨rest, ?_⟩
        have hshift : ((· + i) ∘ fun j => j + 1) = fun j => j + (i + 1) := by
          funext j
          show j + 1 + i = j + (i + 1)
          omega
        rw [hshift]

/-- The arms of a whole statement begin with its first arm. -/
theorem head_arms (tokens : List Token) :
    ∃ first rest, arms (places tokens) ⟨0, tokens.length⟩ = first :: rest ∧
      first.tokens tokens = Query.firstArm tokens := by
  have hlength : (places tokens).length = tokens.length := by
    rw [places, length_placesFrom]
    exact length_withDepthsFrom 0 tokens
  have hall : Range.places ⟨0, tokens.length⟩ (places tokens) = places tokens := by
    rw [Range.places, List.drop_zero, Nat.sub_zero, ← hlength, List.take_length]
  obtain ⟨rest, hrest⟩ := head_armsFrom 0 tokens.length 0 none (withDepths tokens)
  rw [arms, hall]
  refine ⟨_, rest, hrest, ?_⟩
  unfold Query.firstArm findTopLevel?
  cases (withDepths tokens).findIdx? fun dt => dt.1 == 0 && dt.2.isAnyWord compoundWords with
  | none => exact List.take_length
  | some i => rfl

/-- The first segment of a body sees what the first arm names. -/
theorem head_ofBody (base : Scope) (tokens : List Token) :
    ∃ segment rest, ofBody base tokens ⟨0, tokens.length⟩ = segment :: rest ∧
      segment.scope = base.narrow (Query.firstArm tokens) := by
  obtain ⟨first, rest, harms, hfirst⟩ := head_arms tokens
  unfold ofBody
  dsimp only
  rw [harms]
  rcases List.eq_nil_or_concat rest with rfl | ⟨more, last, rfl⟩
  · exact ⟨_, _, rfl, congrArg base.narrow hfirst⟩
  · -- The first arm is not the last one, so what orders the arms takes nothing from it.
    have hreverse : (first :: more.concat last).reverse = last :: (first :: more).reverse := by
      rw [List.concat_eq_append, ← List.cons_append, List.reverse_append]
      rfl
    rw [hreverse]
    have hnot : (first :: more).reverse ≠ [] := by simp
    split
    · next heq => cases heq
    · next heq => exact absurd (List.cons.inj heq).2 hnot
    · next last' before _ heq =>
        obtain ⟨rfl, rfl⟩ := List.cons.inj heq
        rw [List.reverse_reverse]
        split
        · exact ⟨_, _, rfl, congrArg base.narrow hfirst⟩
        · exact ⟨_, _, rfl, congrArg base.narrow hfirst⟩

end Segment

/-! ## The projected items -/

namespace Token

theorem depthsFrom_take (d n : Nat) (ts : List Token) :
    depthsFrom d (ts.take n) = (depthsFrom d ts).take n := by
  induction ts generalizing d n with
  | nil => rw [List.take_nil]; exact List.take_nil.symm
  | cons t ts ih =>
      cases n with
      | zero => rfl
      | succ n =>
          rw [List.take_succ_cons, depthsFrom, depthsFrom]
          split
          all_goals rw [List.take_succ_cons, ih]

/-- A search in the beginning of a list finds what the search in the list finds there. -/
theorem findTopLevel?_take (ts : List Token) (n : Nat) (p : Token → Bool) :
    findTopLevel? (ts.take n) p =
      (findTopLevel? ts p).bind (Option.guard fun i => decide (i < n)) := by
  have htake : withDepths (ts.take n) = (withDepths ts).take n := by
    rw [withDepths, withDepths, depths, depths, depthsFrom_take, List.zip_eq_zipWith,
      List.zip_eq_zipWith, List.take_zipWith]
  rw [findTopLevel?, htake, List.findIdx?_take]
  rfl

end Token

namespace Query

/-- The words between `SELECT` and the items. -/
def quantifiers : List String := ["DISTINCT", "ALL"]

variable {select : Token} {ts : List Token}

/-- The first `UNION` of a statement is the first one behind its quantifiers. -/
theorem findUnion_eq (hselect : select.isWord "SELECT" = true) (ts : List Token) :
    (findTopLevel? (select :: ts) fun t => t.isWord "UNION") =
      (findTopLevel? (ts.dropWhile fun t => t.isAnyWord quantifiers) fun t =>
        t.isWord "UNION").map
          (· + (select :: ts.takeWhile fun t => t.isAnyWord quantifiers).length) := by
  have hword {xs : List Token} {words : List String} (h : ∀ t ∈ xs, t.isAnyWord words = true)
      (hwords : words.any (eqIgnoreCase "UNION") = false) :
      Outside (fun t => t.isWord "UNION" = false) xs := by
    refine .of_forall fun t ht => ⟨isWord_of_ne (h t ht) hwords, ?_, ?_⟩
    all_goals rcases kind_of_isAnyWord (h t ht) with hkind | hkind <;> rw [hkind] <;> decide
  have hquantifiers : Outside (fun t => t.isWord "UNION" = false)
      (ts.takeWhile fun t => t.isAnyWord quantifiers) :=
    hword (fun _ ht => List.mem_takeWhile_imp (p := fun t : Token => t.isAnyWord quantifiers) ht)
      (by decide)
  have hfirst : Outside (fun t => t.isWord "UNION" = false) [select] := by
    have hall : ∀ t ∈ [select], t.isAnyWord ["SELECT"] = true := by
      rw [List.forall_mem_singleton, isAnyWord, List.any_cons, hselect]
      rfl
    exact hword hall (by decide)
  have hfound := (hfirst.append hquantifiers).findTopLevel?_append
    (ts.dropWhile fun t => t.isAnyWord quantifiers)
  rw [List.append_assoc, List.takeWhile_append_dropWhile] at hfound
  exact hfound

/-- A `UNION` ends the items if nothing before it does. -/
theorem projection_le_union {rest : List Token} {v : Nat}
    (hv : (findTopLevel? rest fun t => t.isWord "UNION") = some v) :
    ∃ s ≤ v, (findTopLevel? rest fun t =>
      t.kind == .semicolon || t.isAnyWord projectionTerminators) = some s := by
  refine Lists.findIdx?_le (fun dt hdt => ?_) hv
  rw [Bool.and_eq_true] at hdt ⊢
  refine ⟨hdt.1, ?_⟩
  rw [Bool.or_eq_true]
  exact .inr (List.any_eq_true.mpr ⟨"UNION", by decide, hdt.2⟩)

/-- The part before the first `UNION` begins as the statement does. -/
theorem splitUnion_select (hselect : select.isWord "SELECT" = true) (ts : List Token) :
    (splitUnion (select :: ts)).1 =
      select :: (ts.takeWhile (fun t => t.isAnyWord quantifiers) ++
        (splitUnion (ts.dropWhile fun t => t.isAnyWord quantifiers)).1) := by
  have hunion := findUnion_eq hselect ts
  unfold splitUnion
  rw [hunion]
  cases findTopLevel? (ts.dropWhile fun t => t.isAnyWord quantifiers) fun t =>
      t.isWord "UNION" with
  | none =>
      show select :: ts = _
      rw [List.takeWhile_append_dropWhile]
  | some v =>
      show (select :: ts).take
        (v + (select :: ts.takeWhile fun t => t.isAnyWord quantifiers).length) = _
      rw [List.length_cons, ← Nat.add_assoc, List.take_succ_cons, Nat.add_comm,
        ← List.take_length_add_append, List.takeWhile_append_dropWhile]

/-- The items of a statement stand in its part before the first `UNION`. -/
theorem projectionTokens_splitUnion (hselect : select.isWord "SELECT" = true) (ts : List Token) :
    projectionTokens (splitUnion (select :: ts)).1 = projectionTokens (select :: ts) := by
  rw [splitUnion_select hselect]
  unfold splitUnion
  cases hv : findTopLevel? (ts.dropWhile fun t => t.isAnyWord quantifiers) fun t =>
      t.isWord "UNION" with
  | none =>
      show projectionTokens (select :: (_ ++ ts.dropWhile _)) = _
      rw [List.takeWhile_append_dropWhile]
  | some v =>
      obtain ⟨s, hs, hstop⟩ := projection_le_union hv
      -- The same quantifiers are left out of both, as they stand before the `UNION`.
      have hitems : ((select :: (ts.takeWhile (fun t => t.isAnyWord quantifiers) ++
          (ts.dropWhile fun t => t.isAnyWord quantifiers).take v)).drop 1).dropWhile
            (fun t => t.isAnyWord quantifiers) =
          (ts.dropWhile fun t => t.isAnyWord quantifiers).take v :=
        Lists.dropWhile_takeWhile_append _ _ _
      have hwhole : projectionTokens (select :: ts) =
          (ts.dropWhile fun t => t.isAnyWord quantifiers).take s := by
        show (match findTopLevel? (ts.dropWhile fun t => t.isAnyWord quantifiers) _ with
          | some stop => _
          | none => _) = _
        rw [hstop]
        rfl
      rw [hwhole]
      unfold projectionTokens
      dsimp only
      rw [show ["DISTINCT", "ALL"] = quantifiers from rfl, hitems, findTopLevel?_take, hstop]
      by_cases hlt : s < v
      · have hguard : (Option.guard (fun i => decide (i < v)) s) = some s := by
          rw [Option.guard_eq_some_iff]
          exact ⟨rfl, decide_eq_true hlt⟩
        rw [Option.bind_some, hguard]
        show List.take s (List.take v _) = _
        rw [List.take_take, Nat.min_eq_left hs]
      · have hguard : (Option.guard (fun i => decide (i < v)) s) = none := by
          rw [Option.guard_eq_none_iff]
          exact decide_eq_false hlt
        have hsame : s = v := by omega
        rw [Option.bind_some, hguard, hsame]

/-! ## A statement that begins with SELECT -/

theorem statementStart_of_not_with {first : Token} (h : first.isWord "WITH" = false)
    (ts : List Token) : statementStart (first :: ts) = 0 := by
  rw [statementStart, h]
  rfl

theorem statementStart_select (hselect : select.isWord "SELECT" = true) (ts : List Token) :
    statementStart (select :: ts) = 0 :=
  statementStart_of_not_with (isWord_of_isWord hselect (by decide)) ts

/-- A statement that begins with `SELECT` defines no relations. -/
theorem ofTokens_select (hselect : select.isWord "SELECT" = true) (sql : String)
    (ts : List Token) :
    Query.ofTokens sql (select :: ts) =
      ⟨.select, readProjection sql (projectionTokens (select :: ts)), readParams (select :: ts),
        [], false⟩ := by
  have hwith : startsWith "WITH" (select :: ts) = false :=
    isWord_of_isWord hselect (by decide)
  have hstarts : startsWith "SELECT" (select :: ts) = true := hselect
  have hverb : Verb.ofWord select.text = .select := by
    rw [isWord, Bool.and_eq_true] at hselect
    rw [Verb.ofWord, eqIgnoreCase_iff.mp hselect.2]
    decide
  simp only [Query.ofTokens, readWithClause, hwith, statementStart_select hselect, List.drop_zero,
    hstarts, if_true, List.head?_cons, Option.map_some, Option.getD_some, hverb,
    Bool.false_eq_true, if_false]

end Query

/-- The output columns of a statement that begins with `SELECT` belong to its first arm. -/
theorem Segment.head_split {select : Token} (hselect : select.isWord "SELECT" = true)
    (base : Scope) (ts : List Token) :
    (((split base (select :: ts)).head?).map (·.scope)).getD base =
      base.narrow (Query.firstArm (select :: ts)) := by
  have hinsert : select.isAnyWord ["INSERT", "REPLACE"] = false := by
    rw [isAnyWord, List.any_cons, List.any_cons, isWord_of_isWord hselect (by decide),
      isWord_of_isWord hselect (by decide)]
    rfl
  have hquery : insertedQuery? (places (select :: ts)) 0 = none := by
    have hnext : nextIs (fun t => t.isAnyWord ["INSERT", "REPLACE"]) (places (select :: ts)) =
        select.isAnyWord ["INSERT", "REPLACE"] := by
      unfold places withDepths depths depthsFrom
      split <;> rfl
    rw [insertedQuery?, List.drop_zero]
    rw [hnext, hinsert]
    rfl
  obtain ⟨segment, rest, hbody, hscope⟩ := head_ofBody base (select :: ts)
  rw [split, Query.statementStart_select hselect]
  dsimp only
  rw [hquery]
  show (((ofBody base (select :: ts) _).head?).map (·.scope)).getD base = _
  rw [hbody]
  exact hscope

end TypedSql

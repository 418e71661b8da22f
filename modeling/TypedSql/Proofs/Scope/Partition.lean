import TypedSql.Analysis.Segment
import TypedSql.Token.Reader
import TypedSql.Proofs.Token.Balanced
import TypedSql.Proofs.Lists

/-!
# The segments share out the main statement

The ranges of the segments lie between the beginning of the main statement and its end, no two of
them overlap, and of the body of a compound `SELECT` they leave out the compound operators alone.
An ordering segment is the last one and sees what the first arm sees.

The arms tile the body: a tiling keeps the indices of its ranges, and those between two of its
ranges are gaps.  The search for the next operator prolongs the tiling, and cutting the last range
in two leaves it one.

Main definitions: `Segment.Tiles`, `Segment.IsSeparator`.  Main statement:
`Segment.split_partitions`.
-/

namespace TypedSql

open Text Token

/-! ## Places by their index -/

namespace Token

/-- What stands at an index of a list of places. -/
theorem getElem?_placesFrom {i k : Nat} {before : Option Token} {xs : List (Nat × Token)}
    {p : Place} (h : (placesFrom i before xs)[k]? = some p) :
    p.index = i + k ∧ xs[k]? = some (p.depth, p.token) := by
  induction xs generalizing i k before with
  | nil => cases h
  | cons x xs ih =>
      rw [placesFrom] at h
      cases k with
      | zero =>
          cases h
          exact ⟨rfl, rfl⟩
      | succ k =>
          obtain ⟨hindex, hget⟩ := ih h
          exact ⟨by omega, hget⟩

@[simp] theorem length_places (tokens : List Token) : (places tokens).length = tokens.length := by
  simp [places, length_placesFrom, withDepths, depths]

/-- What stands at an index of the places of a list of tokens. -/
theorem getElem?_places {tokens : List Token} {k : Nat} {p : Place}
    (h : (places tokens)[k]? = some p) :
    p.index = k ∧ (depths tokens)[k]? = some p.depth ∧ tokens[k]? = some p.token := by
  obtain ⟨hindex, hget⟩ := getElem?_placesFrom h
  rw [withDepths, List.getElem?_zip_eq_some] at hget
  exact ⟨by omega, hget.1, hget.2⟩

end Token

namespace Segment

/-! ## Tilings -/

theorem inRange_iff {k : Nat} {r : Range} : inRange k r = true ↔ r.start ≤ k ∧ k < r.stop := by
  simp [inRange]

/-- The ranges lie one behind the other from `start` to `stop` and leave out the gaps. -/
inductive Tiles (gap : Nat → Prop) : Nat → Nat → List Range → Prop where
  | last {start stop : Nat} (hle : start ≤ stop)
      (hkept : ∀ k, start ≤ k → k < stop → ¬ gap k) : Tiles gap start stop [⟨start, stop⟩]
  | cons {start stop next : Nat} {r : Range} {rs : List Range} (hstart : r.start = start)
      (hle : start ≤ r.stop) (hnext : r.stop ≤ next)
      (hkept : ∀ k, start ≤ k → k < r.stop → ¬ gap k) (hgap : ∀ k, r.stop ≤ k → k < next → gap k)
      (hrest : Tiles gap next stop rs) : Tiles gap start stop (r :: rs)

namespace Tiles

variable {gap : Nat → Prop} {start stop : Nat} {rs : List Range}

theorem start_le_stop (h : Tiles gap start stop rs) : start ≤ stop := by
  induction h with
  | last hle => exact hle
  | cons _ hle hnext _ _ _ ih => omega

/-- No range is turned round or reaches out. -/
theorem bounds (h : Tiles gap start stop rs) {r : Range} (hr : r ∈ rs) :
    start ≤ r.start ∧ r.start ≤ r.stop ∧ r.stop ≤ stop := by
  induction h with
  | last hle =>
      cases List.mem_singleton.mp hr
      exact ⟨Nat.le_refl _, hle, Nat.le_refl _⟩
  | cons hstart hle hnext _ _ hrest ih =>
      rcases List.mem_cons.mp hr with rfl | hr
      · have hstop := hrest.start_le_stop
        omega
      · have hbounds := ih hr
        omega

/-- A range ends before the next one begins. -/
theorem apart (h : Tiles gap start stop rs) :
    rs.Pairwise fun r s => r.stop ≤ s.start := by
  induction h with
  | last => exact List.pairwise_singleton _ _
  | cons _ _ hnext _ _ hrest ih =>
      refine List.pairwise_cons.mpr ⟨fun s hs => ?_, ih⟩
      have hbounds := hrest.bounds hs
      omega

/-- What no range holds is a gap. -/
theorem covers (h : Tiles gap start stop rs) {k : Nat} (hfrom : start ≤ k) (hto : k < stop) :
    (∀ r ∈ rs, inRange k r = false) ↔ gap k := by
  induction h with
  | @last start stop _ hkept =>
      have hin : inRange k ⟨start, stop⟩ = true := by simp [inRange, hfrom, hto]
      exact iff_of_false (fun hnone => by simp [hin] at hnone) (hkept k hfrom hto)
  | @cons start stop next r rs hstart hle hnext hkept hgap hrest ih =>
      rw [List.forall_mem_cons]
      have hin : inRange k r = decide (k < r.stop) := by simp [inRange, hstart, hfrom]
      rw [hin, decide_eq_false_iff_not]
      rcases Nat.lt_or_ge k r.stop with hk | hk
      · exact iff_of_false (fun hnone => hnone.1 hk) (hkept k hfrom hk)
      · rcases Nat.lt_or_ge k next with hbefore | hbehind
        · -- Between two ranges no range begins.
          refine iff_of_true ⟨by omega, fun s hs => ?_⟩ (hgap k hk hbefore)
          have hbounds := hrest.bounds hs
          simp only [inRange, Bool.and_eq_false_iff, decide_eq_false_iff_not]
          omega
        · rw [ih hbehind hto]
          exact and_iff_right (by omega)

theorem head (h : Tiles gap start stop rs) : ∃ r rest, rs = r :: rest ∧ r.start = start := by
  cases h with
  | last => exact ⟨_, _, rfl, rfl⟩
  | cons hstart => exact ⟨_, _, rfl, hstart⟩

/-- The last range reaches to the end, and can be cut in two. -/
theorem cut {last : Range} (h : Tiles gap start stop (rs ++ [last])) :
    last.stop = stop ∧ ∀ tail, last.start ≤ tail → tail ≤ stop →
      Tiles gap start stop (rs ++ [⟨last.start, tail⟩, ⟨tail, stop⟩]) := by
  induction rs generalizing start with
  | nil =>
      cases h with
      | last hle hkept =>
          refine ⟨rfl, fun tail hfrom hto => ?_⟩
          refine .cons rfl hfrom (Nat.le_refl _)
            (fun k hk hlt => hkept k hk (Nat.lt_of_lt_of_le hlt hto))
            (fun k hk hlt => absurd hk (Nat.not_le.mpr hlt))
            (.last hto fun k hk => hkept k (Nat.le_trans hfrom hk))
      | cons _ _ _ _ _ hrest => cases hrest
  | cons r rs ih =>
      rw [List.cons_append] at h
      generalize hts : rs ++ [last] = ts at h
      cases h with
      | last => exact absurd hts (by simp)
      | cons hstart hle hnext hkept hgap hrest =>
          subst hts
          obtain ⟨hstop, hcut⟩ := ih hrest
          exact ⟨hstop, fun tail hfrom hto =>
            .cons hstart hle hnext hkept hgap (hcut tail hfrom hto)⟩

end Tiles

/-! ## The arms -/

/-- A compound operator of the body stands at the index, outside all parentheses. -/
def IsOperator (tokens : List Token) (body : Range) (k : Nat) : Prop :=
  inRange k body = true ∧ (depths tokens)[k]? = some 0 ∧
    ∃ t, tokens[k]? = some t ∧ t.isAnyWord compoundWords = true

/-- At the index stands a compound operator of the body, or an `ALL` directly behind one. -/
def IsSeparator (tokens : List Token) (body : Range) (k : Nat) : Prop :=
  IsOperator tokens body k ∨
    ∃ j, k = j + 1 ∧ IsOperator tokens body j ∧ ∃ t, tokens[k]? = some t ∧ t.isWord "ALL" = true

section Arms

variable {tokens : List Token} {body : Range}

theorem isOperator_iff {k : Nat} {p : Place} (hp : (places tokens)[k]? = some p)
    (hk : inRange k body = true) :
    IsOperator tokens body k ↔ p.isTopWord compoundWords = true := by
  obtain ⟨-, hdepth, htoken⟩ := getElem?_places hp
  rw [IsOperator, hdepth, htoken, Place.isTopWord, Bool.and_eq_true, beq_iff_eq]
  simp [hk]

theorem not_isOperator_of_all {k : Nat} {t : Token} (ht : tokens[k]? = some t)
    (hall : t.isWord "ALL" = true) : ¬ IsOperator tokens body k := by
  rintro ⟨-, -, u, hu, hword⟩
  cases ht.symm.trans hu
  have hnone : t.isAnyWord compoundWords = false :=
    isAnyWord_of_ne (isAnyWord_of_isWord hall) (by decide)
  exact absurd (hword.symm.trans hnone) Bool.noConfusion

/-- A separator lies in the body if no `ALL` stands behind the body. -/
theorem IsSeparator.inRange {k : Nat} (h : IsSeparator tokens body k)
    (hbehind : ∀ t, tokens[body.stop]? = some t → t.isWord "ALL" = false) :
    Segment.inRange k body = true := by
  rcases h with h | ⟨j, rfl, ⟨hin, -⟩, t, ht, hall⟩
  · exact h.1
  · rw [inRange_iff] at hin ⊢
    rcases Nat.lt_or_eq_of_le (Nat.succ_le_of_lt hin.2) with hlt | hstop
    · exact ⟨Nat.le_succ_of_le hin.1, hlt⟩
    · exact absurd (hall.symm.trans (hbehind t (hstop ▸ ht))) Bool.noConfusion

/-- From index `i` on, the arms tile the rest of the body.  No separator has been passed since the
current arm began, and none goes on across the index. -/
theorem tiles_armsFrom {first start stop i : Nat} {ps : List Place}
    (hlength : stop ≤ tokens.length)
    (hbehind : ∀ t, tokens[stop]? = some t → t.isWord "ALL" = false)
    (hps : ps = ((places tokens).drop i).take (stop - i)) (hfirst : first ≤ start)
    (hstart : start ≤ i) (hi : i ≤ stop)
    (hkept : ∀ k, start ≤ k → k < i → ¬ IsSeparator tokens ⟨first, stop⟩ k)
    (hfresh : IsSeparator tokens ⟨first, stop⟩ i → IsOperator tokens ⟨first, stop⟩ i) :
    Tiles (IsSeparator tokens ⟨first, stop⟩) start stop (armsFrom start stop ps) := by
  have hoperator_iff {k : Nat} {p : Place} (hp : (places tokens)[k]? = some p)
      (hfrom : first ≤ k) (hto : k < stop) :
      IsOperator tokens ⟨first, stop⟩ k ↔ p.isTopWord compoundWords = true :=
    isOperator_iff hp (by simp [inRange, hfrom, hto])
  fun_induction armsFrom start stop ps generalizing i with
  | case1 start =>
      -- Nothing is left to search, so the last arm reaches to the end.
      have hend := congrArg List.length hps
      simp only [List.length_nil, List.length_take, List.length_drop, length_places] at hend
      obtain rfl : i = stop := by omega
      exact .last hstart hkept
  | case2 start p rest htop hall ih =>
      obtain ⟨hlt, hget, hrest⟩ := Lists.getElem?_of_cons_eq_take hps
      obtain ⟨q, qs, rfl⟩ : ∃ q qs, rest = q :: qs := by
        cases rest with
        | nil => cases hall
        | cons q qs => exact ⟨q, qs, rfl⟩
      obtain ⟨hlt', hget', hrest'⟩ := Lists.getElem?_of_cons_eq_take hrest
      have hindex : p.index = i := (getElem?_places hget).1
      have htoken : tokens[i + 1]? = some q.token := (getElem?_places hget').2.2
      have hoperator := (hoperator_iff hget (by omega) hlt).mpr htop
      have hseparator : IsSeparator tokens ⟨first, stop⟩ (i + 1) :=
        .inr ⟨i, rfl, hoperator, q.token, htoken, hall⟩
      have htail : Tiles (IsSeparator tokens ⟨first, stop⟩) (i + 2) stop
          (armsFrom (i + 2) stop qs) := by
        rw [hindex] at ih
        refine ih hrest' (by omega) (Nat.le_refl _) hlt' (fun k hk hk' => by omega) fun h => ?_
        refine h.resolve_right ?_
        rintro ⟨j, hj, hbefore, -⟩
        obtain rfl : j = i + 1 := by omega
        exact not_isOperator_of_all htoken hall hbefore
      rw [List.drop_one, List.tail_cons, hindex]
      refine .cons rfl hstart (Nat.le_add_right i 2) hkept (fun k hfrom hto => ?_) htail
      rcases Nat.lt_or_eq_of_le (Nat.le_of_lt_succ hto) with hk | rfl
      · obtain rfl : k = i := Nat.le_antisymm (Nat.le_of_lt_succ hk) hfrom
        exact .inl hoperator
      · exact hseparator
  | case3 start p rest htop hall ih =>
      obtain ⟨hlt, hget, hrest⟩ := Lists.getElem?_of_cons_eq_take hps
      have hindex : p.index = i := (getElem?_places hget).1
      have hoperator := (hoperator_iff hget (by omega) hlt).mpr htop
      have htail : Tiles (IsSeparator tokens ⟨first, stop⟩) (i + 1) stop
          (armsFrom (i + 1) stop rest) := by
        rw [hindex] at ih
        refine ih hrest (by omega) (Nat.le_refl _) hlt (fun k hk hk' => by omega) fun h => ?_
        refine h.resolve_right ?_
        rintro ⟨j, hj, -, t, ht, hword⟩
        cases rest with
        | nil =>
            have hend := congrArg List.length hrest
            simp only [List.length_nil, List.length_take, List.length_drop, length_places] at hend
            obtain rfl : stop = i + 1 := by omega
            exact absurd (hword.symm.trans (hbehind t ht)) Bool.noConfusion
        | cons q qs =>
            have htoken := (getElem?_places (Lists.getElem?_of_cons_eq_take hrest).2.1).2.2
            cases htoken.symm.trans ht
            exact hall hword
      rw [hindex]
      refine .cons rfl hstart (Nat.le_succ i) hkept (fun k hfrom hto => ?_) htail
      obtain rfl : k = i := Nat.le_antisymm (Nat.le_of_lt_succ hto) hfrom
      exact .inl hoperator
  | case4 start p rest htop ih =>
      obtain ⟨hlt, hget, hrest⟩ := Lists.getElem?_of_cons_eq_take hps
      have hnone := mt (hoperator_iff hget (by omega) hlt).mp htop
      refine ih hrest hfirst (by omega) hlt (fun k hfrom hto => ?_) fun h => ?_
      · rcases Nat.lt_or_eq_of_le (Nat.le_of_lt_succ hto) with hk | rfl
        · exact hkept k hfrom hk
        · exact mt hfresh hnone
      · refine h.resolve_right ?_
        rintro ⟨j, hj, hbefore, -⟩
        cases hj
        exact hnone hbefore

/-- The arms tile the body. -/
theorem tiles_arms {first stop : Nat} (hfirst : first ≤ stop) (hstop : stop ≤ tokens.length)
    (hbehind : ∀ t, tokens[stop]? = some t → t.isWord "ALL" = false) :
    Tiles (IsSeparator tokens ⟨first, stop⟩) first stop (arms (places tokens) ⟨first, stop⟩) := by
  refine tiles_armsFrom hstop hbehind rfl (Nat.le_refl _) (Nat.le_refl _) hfirst
    (fun k hfrom hto => absurd hfrom (Nat.not_le.mpr hto)) fun h => h.resolve_right ?_
  rintro ⟨j, rfl, ⟨hin, -⟩, -⟩
  exact Nat.not_succ_le_self j (of_decide_eq_true (Bool.and_eq_true_iff.mp hin).1)

end Arms

/-! ## The search for a tail -/

/-- The search ends in its range, and it stops early only where the place has the property. -/
theorem searchFrom_spec (tokens : List Token) (f : Place → List Place → Bool) {stop i : Nat}
    {ps : List Place} (hps : ps = (places tokens).drop i) (hi : i ≤ stop) :
    let k := searchFrom stop f ps
    i ≤ k ∧ k ≤ stop ∧ (k < stop → ∃ p rest, (places tokens)[k]? = some p ∧ f p rest = true) := by
  induction ps generalizing i with
  | nil => exact ⟨hi, Nat.le_refl _, fun h => absurd h (Nat.lt_irrefl _)⟩
  | cons p rest ih =>
      have hget : (places tokens)[i]? = some p := by
        rw [← List.head?_drop, ← hps]
        rfl
      have hrest : rest = (places tokens).drop (i + 1) := by
        rw [← List.tail_drop, ← hps]
        rfl
      have hindex : p.index = i := (getElem?_places hget).1
      rw [searchFrom, hindex]
      split
      · next hlt =>
          split
          · next hfound => exact ⟨Nat.le_refl _, hi, fun _ => ⟨p, rest, hget, hfound⟩⟩
          · obtain ⟨hfrom, hto, hfound⟩ := ih hrest hlt
            exact ⟨Nat.le_of_succ_le hfrom, hto, hfound⟩
      · exact ⟨hi, Nat.le_refl _, fun h => absurd h (Nat.lt_irrefl _)⟩

/-! ## The segments of a body -/

/-- The segment of one arm. -/
def ofArm (base : Scope) (tokens : List Token) (arm : Range) : Segment :=
  ⟨[arm], base.narrow (arm.tokens tokens), false⟩

/-- The segments of a body are its arms and perhaps a part that orders them: ranges that tile the
body, of which the first begins with the body. -/
theorem ofBody_eq {tokens : List Token} {start stop : Nat} (base : Scope) (hstart : start ≤ stop)
    (hstop : stop ≤ tokens.length)
    (hbehind : ∀ t, tokens[stop]? = some t → t.isWord "ALL" = false) :
    ∃ arm others, arm.start = start ∧
      (ofBody base tokens ⟨start, stop⟩ = (arm :: others).map (ofArm base tokens) ∧
          Tiles (IsSeparator tokens ⟨start, stop⟩) start stop (arm :: others) ∨
        ∃ tail, ofBody base tokens ⟨start, stop⟩ = (arm :: others).map (ofArm base tokens) ++
              [⟨[⟨tail, stop⟩], (ofArm base tokens arm).scope, true⟩] ∧
          Tiles (IsSeparator tokens ⟨start, stop⟩) start stop
            (arm :: others ++ [⟨tail, stop⟩])) := by
  have htiles := tiles_arms hstart hstop hbehind
  unfold ofBody
  dsimp only
  split
  · next h =>
      obtain ⟨arm, others, harms, -⟩ := htiles.head
      exact absurd (harms ▸ List.reverse_eq_nil_iff.mp h) (List.cons_ne_nil _ _)
  · next arm h =>
      rw [← List.reverse_reverse (arms _ _), h] at htiles
      obtain ⟨_, _, ⟨⟩, harm⟩ := htiles.head
      exact ⟨arm, [], harm, .inl ⟨rfl, htiles⟩⟩
  · next last before _ h =>
      rw [← List.reverse_reverse (arms _ _), h, List.reverse_cons] at htiles
      obtain ⟨hlast, hcut⟩ := htiles.cut
      have hbounds := htiles.bounds (List.mem_append_right _ (List.mem_singleton_self last))
      obtain ⟨hfrom, hto, -⟩ := searchFrom_spec tokens beginsOrdering rfl hbounds.2.1
      generalize searchFrom last.stop beginsOrdering ((places tokens).drop last.start) = tail
        at hfrom hto
      have hwhole := hcut tail hfrom (hlast ▸ hto)
      rw [List.append_cons] at hwhole
      obtain ⟨arm, others, harms⟩ : ∃ arm others,
          before.reverse ++ [Range.mk last.start tail] = arm :: others :=
        List.exists_cons_of_ne_nil (List.append_ne_nil_of_right_ne_nil _ (List.cons_ne_nil _ _))
      rw [harms] at hwhole ⊢
      obtain ⟨_, _, ⟨⟩, harm⟩ := hwhole.head
      refine ⟨arm, others, harm, ?_⟩
      split
      · rw [hlast]
        exact .inr ⟨tail, rfl, hwhole⟩
      · next hnone =>
          have htail : Range.mk last.start tail = last := by
            rw [Nat.le_antisymm hto (Nat.le_of_not_lt hnone)]
          rw [← htail, harms] at htiles
          exact .inl ⟨rfl, htiles⟩

/-! ## The segments of a statement -/

theorem statementStart_le_length (tokens : List Token) : statementStart tokens ≤ tokens.length := by
  unfold statementStart
  split
  · exact Nat.zero_le _
  · next t ts =>
      split
      · split
        · next i hfound =>
            have hlt := (List.findIdx?_eq_some_iff_getElem.mp hfound).1
            simp only [withDepths, depths, List.length_zip, length_depthsFrom, Nat.min_self] at hlt
            exact Nat.succ_le_succ (Nat.le_of_lt hlt)
        · exact Nat.le_refl _
      · exact Nat.zero_le _

/-- The part of the statement that is split into arms. -/
def bodyRange (tokens : List Token) : Range :=
  match insertedQuery? (places tokens) (statementStart tokens) with
  | none => ⟨statementStart tokens, tokens.length⟩
  | some query =>
      ⟨query, searchFrom tokens.length endsInsertedQuery ((places tokens).drop query)⟩

theorem not_all_of_endsInsertedQuery {p : Place} {rest : List Place}
    (h : endsInsertedQuery p rest = true) : p.token.isWord "ALL" = false := by
  rw [endsInsertedQuery, isPhrase, Bool.or_eq_true, Bool.and_eq_true] at h
  rcases h with h | ⟨h, -⟩
  all_goals
    rw [Place.isTopWord, Bool.and_eq_true] at h
    exact isWord_of_ne h.2 (by decide)

theorem insertedQuery?_bounds {tokens : List Token} {start query : Nat}
    (h : insertedQuery? (places tokens) start = some query) :
    start ≤ query ∧ query < tokens.length := by
  unfold insertedQuery? at h
  dsimp only at h
  split at h
  · obtain ⟨p, hfound, rfl⟩ := Option.map_eq_some_iff.mp h
    obtain ⟨k, hget⟩ := List.mem_iff_getElem?.mp (List.mem_of_find?_eq_some hfound)
    rw [List.getElem?_drop] at hget
    rw [(getElem?_places hget).1]
    have hlt := (List.getElem?_eq_some_iff.mp hget).1
    rw [length_places] at hlt
    exact ⟨Nat.le_add_right _ _, hlt⟩
  · cases h

/-- The body lies in the main statement, and no `ALL` stands behind it. -/
theorem bodyRange_spec (tokens : List Token) :
    statementStart tokens ≤ (bodyRange tokens).start ∧
      (bodyRange tokens).start ≤ (bodyRange tokens).stop ∧
      (bodyRange tokens).stop ≤ tokens.length ∧
      ∀ t, tokens[(bodyRange tokens).stop]? = some t → t.isWord "ALL" = false := by
  have hend : ∀ t, tokens[tokens.length]? = some t → t.isWord "ALL" = false := by simp
  unfold bodyRange
  split
  · exact ⟨Nat.le_refl _, statementStart_le_length tokens, Nat.le_refl _, hend⟩
  · next query hquery =>
      obtain ⟨hfrom, hlt⟩ := insertedQuery?_bounds hquery
      obtain ⟨hle, hto, hfound⟩ :=
        searchFrom_spec tokens endsInsertedQuery rfl (Nat.le_of_lt hlt)
      refine ⟨hfrom, hle, hto, fun t ht => ?_⟩
      obtain ⟨p, rest, hp, hends⟩ := hfound (List.getElem?_eq_some_iff.mp ht).1
      cases (getElem?_places hp).2.2.symm.trans ht
      exact not_all_of_endsInsertedQuery hends

/-- No token lies in both ranges. -/
def Apart (r s : Range) : Prop := ∀ k, ¬ (inRange k r = true ∧ inRange k s = true)

theorem apart_of_le {r s : Range} (h : r.stop ≤ s.start) : Apart r s ∧ Apart s r := by
  constructor <;> rintro k ⟨hr, hs⟩ <;> rw [inRange_iff] at hr hs <;> omega

/-- An ordering segment is the last of the segments, goes on to the end of the body and has the
scope of the first arm, with which the body begins. -/
def OrdersLast (body : Range) (segments : List Segment) : Prop :=
  ∀ i s, segments[i]? = some s → s.ordering = true →
    i + 1 = segments.length ∧ (∃ tail, s.ranges = [⟨tail, body.stop⟩]) ∧
      ∃ arm ∈ segments, arm.ordering = false ∧ (∃ stop, arm.ranges = [⟨body.start, stop⟩]) ∧
        s.scope = arm.scope

theorem OrdersLast.cons {body : Range} {segments : List Segment} (h : OrdersLast body segments)
    {target : Segment} (htarget : target.ordering = false) :
    OrdersLast body (target :: segments) := by
  rintro (_ | i) s hs hordering
  · cases hs
    exact absurd (hordering.symm.trans htarget) Bool.noConfusion
  · obtain ⟨hlast, htail, arm, harm, hscope⟩ := h i s hs hordering
    exact ⟨congrArg Nat.succ hlast, htail, arm, List.mem_cons_of_mem _ harm, hscope⟩

/-- The ranges of the segments of a body tile it, and only the last one can be ordering. -/
theorem tiles_ofBody {tokens : List Token} {body : Range} (base : Scope)
    (hstart : body.start ≤ body.stop) (hstop : body.stop ≤ tokens.length)
    (hbehind : ∀ t, tokens[body.stop]? = some t → t.isWord "ALL" = false) :
    Tiles (IsSeparator tokens body) body.start body.stop
        ((ofBody base tokens body).flatMap (·.ranges)) ∧
      OrdersLast body (ofBody base tokens body) := by
  have hranges (arms : List Range) :
      (arms.map (ofArm base tokens)).flatMap (·.ranges) = arms := by
    rw [List.flatMap_map]
    exact List.flatMap_singleton' arms
  have hplain {arms : List Range} {i : Nat} {s : Segment}
      (h : (arms.map (ofArm base tokens))[i]? = some s) : s.ordering = false := by
    obtain ⟨arm, -, rfl⟩ := List.mem_map.mp (List.mem_of_getElem? h)
    rfl
  obtain ⟨start, stop⟩ := body
  obtain ⟨⟨_, armStop⟩, others, rfl, ⟨hbody, htiles⟩ | ⟨tail, hbody, htiles⟩⟩ :=
    ofBody_eq base hstart hstop hbehind
  · rw [hbody, hranges]
    exact ⟨htiles, fun i s hs hordering =>
      absurd (hordering.symm.trans (hplain hs)) Bool.noConfusion⟩
  · rw [hbody, List.flatMap_append, hranges]
    refine ⟨htiles, fun i s hs hordering => ?_⟩
    rcases Nat.lt_or_ge i (((⟨_, armStop⟩ :: others).map (ofArm base tokens)).length) with hi | hi
    · rw [List.getElem?_append_left hi] at hs
      exact absurd (hordering.symm.trans (hplain hs)) Bool.noConfusion
    · rw [List.getElem?_append_right hi, List.getElem?_singleton] at hs
      split at hs
      · next hlast =>
          cases hs
          refine ⟨?_, ⟨tail, rfl⟩, ofArm base tokens ⟨_, armStop⟩,
            List.mem_append_left _ List.mem_cons_self, rfl, ⟨armStop, rfl⟩, rfl⟩
          rw [List.length_append, List.length_singleton]
          omega
      · cases hs

/-- Without a query that is inserted, the body is the whole main statement. -/
theorem split_eq_ofBody (base : Scope) {tokens : List Token}
    (h : insertedQuery? (places tokens) (statementStart tokens) = none) :
    bodyRange tokens = ⟨statementStart tokens, tokens.length⟩ ∧
      split base tokens = ofBody base tokens (bodyRange tokens) := by
  have hwhole : bodyRange tokens = ⟨statementStart tokens, tokens.length⟩ := by rw [bodyRange, h]
  refine ⟨hwhole, ?_⟩
  rw [hwhole]
  simp only [split, h]

/-- An insertion of a query has one segment around the body: its target stands in front of the
body, and what follows the query behind it. -/
theorem split_eq_target_cons (base : Scope) {tokens : List Token} {query : Nat}
    (h : insertedQuery? (places tokens) (statementStart tokens) = some query) :
    ∃ target, split base tokens =
      ⟨[⟨statementStart tokens, (bodyRange tokens).start⟩,
        ⟨(bodyRange tokens).stop, tokens.length⟩], target, false⟩ ::
      ofBody base tokens (bodyRange tokens) := by
  simp only [split, bodyRange, h]
  exact ⟨_, rfl⟩

section Around

variable {tokens : List Token} {body : Range} {ranges : List Range} {start stop : Nat}

/-- A range in front of the body and one behind it are apart from the ranges that tile the body,
and from each other. -/
theorem Tiles.apart_around {gap : Nat → Prop} (h : Tiles gap body.start body.stop ranges)
    (start stop : Nat) :
    (⟨start, body.start⟩ :: ⟨body.stop, stop⟩ :: ranges).Pairwise Apart := by
  have hinner : ranges.Pairwise Apart := h.apart.imp fun hle => (apart_of_le hle).1
  refine List.pairwise_cons.mpr ⟨List.forall_mem_cons.mpr ⟨?_, fun r hr => ?_⟩,
    List.pairwise_cons.mpr ⟨fun r hr => ?_, hinner⟩⟩
  · exact (apart_of_le h.start_le_stop).1
  · exact (apart_of_le (h.bounds hr).1).1
  · exact (apart_of_le (h.bounds hr).2.2).2

/-- With a range in front of the body and one behind it, what is left out is what the body leaves
out. -/
theorem Tiles.covers_around (h : Tiles (IsSeparator tokens body) body.start body.stop ranges)
    (hbehind : ∀ t, tokens[body.stop]? = some t → t.isWord "ALL" = false) {k : Nat}
    (hk : start ≤ k) (hlt : k < stop) :
    (∀ r ∈ ⟨start, body.start⟩ :: ⟨body.stop, stop⟩ :: ranges, inRange k r = false) ↔
      IsSeparator tokens body k := by
  rw [List.forall_mem_cons, List.forall_mem_cons]
  by_cases hin : inRange k body = true
  · -- In the body neither of the two ranges around it holds the index.
    obtain ⟨hfrom, hto⟩ := inRange_iff.mp hin
    rw [h.covers hfrom hto, ← and_assoc]
    refine and_iff_right ⟨?_, ?_⟩ <;> rw [← Bool.not_eq_true, inRange_iff]
    · exact fun hleft => Nat.not_lt.mpr hfrom hleft.2
    · exact fun hright => Nat.not_le.mpr hto hright.1
  · -- Outside of the body one of them does, and there is no separator.
    refine iff_of_false (fun hnone => hin ?_) fun hseparator => hin (hseparator.inRange hbehind)
    obtain ⟨hleft, hright, -⟩ := hnone
    rw [← Bool.not_eq_true, inRange_iff] at hleft hright
    rw [inRange_iff]
    simp only at hleft hright
    omega

end Around

/-- The segments share out the main statement.  There is at least one.  Their ranges lie in the main
statement, none is turned round, and no token lies in two of them.  What they leave out are the
compound operators of the body outside all parentheses, each with an `ALL` directly behind it.  Only
the last segment can be an ordering one; it then goes on to the end of the body and has the scope of
the first arm. -/
theorem split_partitions (base : Scope) (tokens : List Token) :
    let segments := split base tokens
    let ranges := segments.flatMap (·.ranges)
    segments ≠ [] ∧
      (∀ r ∈ ranges, statementStart tokens ≤ r.start ∧ r.start ≤ r.stop ∧ r.stop ≤ tokens.length) ∧
      ranges.Pairwise Apart ∧
      (∀ k, statementStart tokens ≤ k → k < tokens.length →
        ((∀ r ∈ ranges, inRange k r = false) ↔ IsSeparator tokens (bodyRange tokens) k)) ∧
      OrdersLast (bodyRange tokens) segments := by
  intro segments ranges
  obtain ⟨hfrom, hbody, hto, hbehind⟩ := bodyRange_spec tokens
  obtain ⟨htiles, hordering⟩ := tiles_ofBody base hbody hto hbehind
  cases hquery : insertedQuery? (places tokens) (statementStart tokens) with
  | none =>
      obtain ⟨hwhole, hsegments⟩ : _ ∧ segments = _ := split_eq_ofBody base hquery
      simp only [ranges, hsegments]
      refine ⟨fun hnone => ?_, fun r hr => ?_, htiles.apart.imp fun hle => (apart_of_le hle).1,
        fun k hk hlt => htiles.covers (by rwa [hwhole]) (by rwa [hwhole]), hordering⟩
      · rw [hnone] at htiles
        obtain ⟨_, _, ⟨⟩, -⟩ := htiles.head
      · have hbounds := htiles.bounds hr
        omega
  | some query =>
      obtain ⟨target, hsegments⟩ : ∃ target, segments = _ := split_eq_target_cons base hquery
      generalize bodyRange tokens = body at *
      have hranges : ranges = ⟨statementStart tokens, body.start⟩ :: ⟨body.stop, tokens.length⟩ ::
          (ofBody base tokens body).flatMap (·.ranges) := by
        simp only [ranges, hsegments, List.flatMap_cons]
        rfl
      rw [hranges, hsegments]
      refine ⟨List.cons_ne_nil _ _, ?_, htiles.apart_around _ _,
        fun k hk hlt => htiles.covers_around hbehind hk hlt, hordering.cons rfl⟩
      refine List.forall_mem_cons.mpr ⟨⟨Nat.le_refl _, hfrom, Nat.le_trans hbody hto⟩,
        List.forall_mem_cons.mpr ⟨⟨by simp only; omega, hto, Nat.le_refl _⟩, fun r hr => ?_⟩⟩
      have hbounds := htiles.bounds hr
      omega

/-- The target of an insertion and what follows its query, two arms, and the limit of both; the
operator between the arms is in no range. -/
example :
    (tokenizeAt "INSERT INTO t SELECT 1 UNION ALL SELECT 2 LIMIT 3 RETURNING a" .first).toOption.map
      (fun tokens => (split .empty tokens).map fun s => s.ranges.map fun r => (r.start, r.stop)) =
        some [[(0, 3), (11, 13)], [(3, 5)], [(7, 9)], [(9, 11)]] := by
  rw [tokenizeAt_ofList]
  decide +kernel

end Segment

end TypedSql

import TypedSql.Proofs.Reference.Grammar

/-!
# The scan for identifiers

The identifiers of a statement are checked in one pass over its tokens, which leaves out the
ranges that another pass has marked.  Over the tokens of an expression the two passes together
find exactly its references.  What they do with an expression does not depend on what stands
around it, so they are followed part by part: `Scanned` says what they do with one part, wherever
it stands.

Main statements: `Scanned.append`, `Scanned.group`, `Writes.passes`.
-/

namespace TypedSql.Grammar

open Diagnostic Text Token Identifier

/-- The places of tokens in the middle of a list: the first one has index `i` and stands behind
`before`, with `d` open parentheses around it. -/
def placesAt (i : Nat) (before : Option Token) (d : Nat) (xs : List Token) : List Place :=
  placesFrom i before (withDepthsFrom d xs)

theorem placesFrom_append (i : Nat) (before : Option Token) (xs ys : List (Nat × Token)) :
    placesFrom i before (xs ++ ys) =
      placesFrom i before xs ++
        placesFrom (i + xs.length) ((xs.getLast?.map (·.2)).or before) ys := by
  induction xs generalizing i before with
  | nil => rfl
  | cons x xs ih =>
      obtain ⟨d, t⟩ := x
      rw [List.cons_append, placesFrom, placesFrom, ih, List.length_cons, List.cons_append]
      have hindex : i + 1 + xs.length = i + (xs.length + 1) := by omega
      have hlast : (xs.getLast?.map (·.2)).or (some t) =
          (((d, t) :: xs).getLast?.map (·.2)).or before := by
        rw [List.getLast?_cons]
        cases xs.getLast? <;> rfl
      rw [hindex, hlast]

theorem getLast?_withDepthsFrom (d : Nat) (xs : List Token) :
    (withDepthsFrom d xs).getLast?.map (·.2) = xs.getLast? := by
  rw [← List.getLast?_map, withDepthsFrom,
    List.map_snd_zip (Nat.le_of_eq (length_depthsFrom d xs).symm)]

/-- The places behind a balanced list are places at the same depth. -/
theorem placesAt_append {xs : List Token} (h : Balanced xs) (i : Nat) (before : Option Token)
    (d : Nat) (ys : List Token) :
    placesAt i before d (xs ++ ys) =
      placesAt i before d xs ++ placesAt (i + xs.length) (xs.getLast?.or before) d ys := by
  unfold placesAt
  rw [h.withDepthsFrom_append, placesFrom_append, length_withDepthsFrom, getLast?_withDepthsFrom]

theorem placesAt_cons {t : Token} (hopen : t.kind ≠ .leftParen) (hclose : t.kind ≠ .rightParen)
    (i : Nat) (before : Option Token) (d : Nat) (ys : List Token) :
    placesAt i before d (t :: ys) = ⟨i, d, before, t⟩ :: placesAt (i + 1) (some t) d ys := by
  unfold placesAt
  rw [withDepthsFrom_other hopen hclose]
  rfl

theorem placesAt_group {o c : Token} {xs : List Token} (ho : o.kind = .leftParen)
    (hc : c.kind = .rightParen) (h : Balanced xs) (i : Nat) (before : Option Token) (d : Nat) :
    placesAt i before d (o :: (xs ++ [c])) =
      ⟨i, d, before, o⟩ :: (placesAt (i + 1) (some o) (d + 1) xs ++
        [⟨i + 1 + xs.length, d, xs.getLast?.or (some o), c⟩]) := by
  unfold placesAt
  rw [withDepthsFrom_group ho hc h, placesFrom, placesFrom_append, length_withDepthsFrom,
    getLast?_withDepthsFrom]
  rfl

theorem length_placesAt (i : Nat) (before : Option Token) (d : Nat) (xs : List Token) :
    (placesAt i before d xs).length = xs.length := by
  rw [placesAt, length_placesFrom, length_withDepthsFrom]

theorem map_token_placesAt (i : Nat) (before : Option Token) (d : Nat) (xs : List Token) :
    (placesAt i before d xs).map (·.token) = xs := by
  have hplaces (i : Nat) (before : Option Token) (ys : List (Nat × Token)) :
      (placesFrom i before ys).map (·.token) = ys.map (·.2) := by
    induction ys generalizing i before with
    | nil => rfl
    | cons y ys ih => rw [placesFrom, List.map_cons, List.map_cons, ih]
  rw [placesAt, hplaces, withDepthsFrom,
    List.map_snd_zip (Nat.le_of_eq (length_depthsFrom d xs).symm)]

theorem nextIs_placesAt (p : Token → Bool) (i : Nat) (before : Option Token) (d : Nat)
    (t : Token) (ts : List Token) (rest : List Place) :
    nextIs p (placesAt i before d (t :: ts) ++ rest) = p t := by
  unfold placesAt withDepthsFrom
  rw [depthsFrom]
  split <;> rfl

/-! ## Ranges that are left out -/

theorem isSkipped_append (xs ys : List Range) (j : Nat) :
    isSkipped (xs ++ ys) j = (isSkipped xs j || isSkipped ys j) :=
  List.any_append

theorem isSkipped_of_before {ranges : List Range} {j : Nat} (h : ∀ r ∈ ranges, j < r.start) :
    isSkipped ranges j = false := by
  rw [isSkipped, List.any_eq_false]
  intro r hr
  have := h r hr
  simp only [Bool.and_eq_true, decide_eq_true_eq]
  omega

theorem isSkipped_of_behind {ranges : List Range} {j : Nat} (h : ∀ r ∈ ranges, r.stop ≤ j) :
    isSkipped ranges j = false := by
  rw [isSkipped, List.any_eq_false]
  intro r hr
  have := h r hr
  simp only [Bool.and_eq_true, decide_eq_true_eq]
  omega

/-- The ranges lie between the two indices. -/
def Within (ranges : List Range) (start stop : Nat) : Prop :=
  ∀ r ∈ ranges, start ≤ r.start ∧ r.stop ≤ stop

theorem Within.append {xs ys : List Range} {i j k : Nat} (hx : Within xs i j) (hy : Within ys j k)
    (hij : i ≤ j) (hjk : j ≤ k) : Within (xs ++ ys) i k := by
  intro r hr
  rcases List.mem_append.mp hr with hr | hr
  · have := hx r hr
    omega
  · have := hy r hr
    omega

/-! ## Passing over a part -/

/-- What is noted of a reference. -/
def ColumnRef.notes (s : Scope) (r : ColumnRef) : List Diagnostic :=
  (check s (some r.qualifier.value) r.column.value r.qualifier.position).notes

/-- What both passes do with the places of a part, whatever stands behind it: the first one marks
the ranges `ranges`, and the second one notes what is wrong with the references `rs`. -/
structure Scanned (s : Scope) (places : List Place) (start stop : Nat) (rs : List ColumnRef)
    (ranges : List Range) : Prop where
  marked : ∀ rest, rangesOf (places ++ rest) = ranges ++ rangesOf rest
  within : Within ranges start stop
  notes : ∀ known skipped rest,
    (∀ j, start ≤ j → j < stop → isSkipped skipped j = isSkipped ranges j) →
    nextIsKind .dot rest = false →
    (checkPlaces s known skipped (places ++ rest)).notes =
      rs.flatMap (ColumnRef.notes s) ++ (checkPlaces s known skipped rest).notes

/-- A place whose token begins no name, and of which the ranges around it take no notice. -/
structure Passed (p : Place) : Prop where
  marked : ∀ rest, rangesAt p rest = []
  checked : p.token.isIdentifier = false

variable {s : Scope} {before : Option Token}

/-- The token in front of a part, if there is one, changes nothing about the part. -/
def QuietBefore (before : Option Token) : Prop := ∀ t ∈ before, Quiet t

theorem QuietBefore.introduced {before : Option Token} (h : QuietBefore before) :
    before.any (fun t => t.isAnyWord nameIntroducers || t.isOperator "::") = false := by
  cases before with
  | none => rfl
  | some t =>
      obtain ⟨-, hwords, hcolons⟩ := h t rfl
      show (t.isAnyWord nameIntroducers || t.isOperator "::") = false
      have hnames : t.isAnyWord nameIntroducers = false := by
        rw [isAnyWord, List.any_eq_false] at hwords ⊢
        exact fun w hw => hwords w (List.mem_cons_of_mem _ (List.mem_cons_of_mem _ hw))
      rw [hnames, hcolons]
      rfl

theorem QuietBefore.isWord {before : Option Token} (h : QuietBefore before) {word : String}
    (hword : word ∈ introducingWords) : before.any (·.isWord word) = false := by
  cases before with
  | none => rfl
  | some t => exact isWord_of_isAnyWord (h t rfl).2.1 hword

theorem QuietBefore.dot {before : Option Token} (h : QuietBefore before) :
    before.any (·.kind == .dot) = false := by
  cases before with
  | none => rfl
  | some t => exact beq_eq_false_iff_ne.mpr (h t rfl).1

theorem QuietBefore.some {t : Token} (h : Quiet t) : QuietBefore (some t) := by
  rintro u hu
  cases hu
  exact h

namespace Scanned

theorem nil (i : Nat) : Scanned s [] i i [] [] where
  marked _ := rfl
  within := nofun
  notes _ _ _ _ _ := rfl

/-- A part behind another one, which does not begin with a dot. -/
theorem append {ps qs : List Place} {i j k : Nat} {rs us : List ColumnRef}
    {xs ys : List Range} (hp : Scanned s ps i j rs xs) (hq : Scanned s qs j k us ys)
    (hij : i ≤ j) (hjk : j ≤ k)
    (hdot : ∀ rest, nextIsKind .dot rest = false → nextIsKind .dot (qs ++ rest) = false) :
    Scanned s (ps ++ qs) i k (rs ++ us) (xs ++ ys) where
  marked rest := by rw [List.append_assoc, hp.marked, hq.marked, List.append_assoc]
  within := hp.within.append hq.within hij hjk
  notes known skipped rest hskipped hrest := by
    -- The ranges of one part hold no index of the other one.
    have hleft : ∀ m, i ≤ m → m < j → isSkipped skipped m = isSkipped xs m := by
      intro m hi hj
      have hother : isSkipped ys m = false :=
        isSkipped_of_before fun r hr => by
          have := hq.within r hr
          omega
      rw [hskipped m hi (by omega), isSkipped_append, hother, Bool.or_false]
    have hright : ∀ m, j ≤ m → m < k → isSkipped skipped m = isSkipped ys m := by
      intro m hj hk
      have hother : isSkipped xs m = false :=
        isSkipped_of_behind fun r hr => by
          have := hp.within r hr
          omega
      rw [hskipped m (by omega) hk, isSkipped_append, hother, Bool.false_or]
    rw [List.append_assoc, hp.notes known skipped _ hleft (hdot rest hrest),
      hq.notes known skipped rest hright hrest, List.flatMap_append, List.append_assoc]

/-- A place that is passed over. -/
theorem pass {p : Place} (hp : Passed p) (i : Nat) : Scanned s [p] i (i + 1) [] [] where
  marked rest := by
    show rangesAt p rest ++ rangesOf rest = _
    rw [hp.marked]
  within := nofun
  notes known skipped rest _ _ := by
    have hcandidate : isCandidate skipped p = false := by
      rw [isCandidate, hp.checked, Bool.and_false, Bool.false_and]
    rw [List.singleton_append, checkPlaces, hcandidate]
    rfl

end Scanned

/-- The words that mark the tokens behind them without being keywords. -/
def markingWords : List String := ["INDEXED", "sqlc"]

theorem rangesAt_eq_nil {i d : Nat} {t : Token}
    (hbefore : before.any (fun t => t.isAnyWord nameIntroducers || t.isOperator "::") = false)
    (hwords : t.isAnyWord markingWords = false) (hopen : t.kind ≠ .leftParen)
    (rest : List Place) : rangesAt ⟨i, d, before, t⟩ rest = [] := by
  have hindexed : t.isWord "INDEXED" = false := isWord_of_isAnyWord hwords (by decide)
  have hsqlc : t.isWord "sqlc" = false := isWord_of_isAnyWord hwords (by decide)
  simp only [rangesAt, hbefore, hindexed, hsqlc, if_neg hopen, Bool.false_and,
    Bool.false_eq_true, if_false, List.append_nil]

theorem passed_of_keyword {i d : Nat} {t : Token} {word : String} (h : t.IsKeyword word)
    (hword : markingWords.any (eqIgnoreCase word) = false) (hbefore : QuietBefore before) :
    Passed ⟨i, d, before, t⟩ where
  marked := rangesAt_eq_nil hbefore.introduced (by rw [h.isAnyWord, hword]) (by rw [h.1]; decide)
  checked := by
    show t.isIdentifier = false
    rw [isIdentifier, h.1]
    rfl

theorem passed_of_kind {i d : Nat} {t : Token} {kind : Kind} (h : t.kind = kind)
    (hkind : kind ∈ [Kind.string, .integer, .float, .parameter, .operator, .dot, .comma,
      .rightParen]) (hbefore : QuietBefore before) : Passed ⟨i, d, before, t⟩ := by
  have hnot {other : Kind} (hother : other ∉ [Kind.string, .integer, .float, .parameter,
      .operator, .dot, .comma, .rightParen]) : t.kind ≠ other := fun heq => hother (heq ▸ h ▸ hkind)
  constructor
  · exact rangesAt_eq_nil hbefore.introduced
      (isAnyWord_of_kind (hnot (by decide)) (hnot (by decide)) _) (hnot (by decide))
  · show t.isIdentifier = false
    rw [isIdentifier, beq_eq_false_iff_ne.mpr (hnot (by decide)),
      beq_eq_false_iff_ne.mpr (hnot (by decide))]
    rfl

theorem passed_of_binaryOperator {i d : Nat} {t : Token} (h : t.IsBinaryOperator)
    (hbefore : QuietBefore before) : Passed ⟨i, d, before, t⟩ := by
  rcases h with h | h | h | h
  · exact passed_of_kind h.1 (by decide) hbefore
  all_goals exact passed_of_keyword h (by decide) hbefore

theorem passed_of_literal {i d : Nat} {t : Token} (h : t.IsLiteral) (hbefore : QuietBefore before) :
    Passed ⟨i, d, before, t⟩ := by
  rcases h with h | h | h | h
  · exact passed_of_kind h (by decide) hbefore
  · exact passed_of_kind h (by decide) hbefore
  · exact passed_of_kind h (by decide) hbefore
  · exact passed_of_keyword h (by decide) hbefore

theorem rangesAt_open {o : Token} (ho : o.kind = .leftParen) (i d : Nat)
    (hbefore : before.any (fun t => t.isAnyWord nameIntroducers || t.isOperator "::") = false)
    (rest : List Place) :
    rangesAt ⟨i, d, before, o⟩ rest = groupRanges ⟨i, d, before, o⟩ rest := by
  have hword (word : String) : o.isWord word = false := by
    rw [isWord, ho]
    rfl
  simp only [rangesAt, hbefore, hword, if_pos ho, Bool.false_and, Bool.false_eq_true, if_false,
    List.nil_append]

theorem groupRanges_eq_nil {o : Token} {i d : Nat} {rest : List Place}
    (hquery : nextIs (fun t => t.isAnyWord ["SELECT", "WITH", "VALUES"]) rest = false)
    (husing : before.any (·.isWord "USING") = false)
    (hcast : before.any (·.isWord "CAST") = false) :
    groupRanges ⟨i, d, before, o⟩ rest = [] := by
  unfold groupRanges
  split
  · rfl
  · simp only [hquery, husing, hcast, Bool.or_false, Bool.false_eq_true, if_false,
      List.append_nil]

theorem dottedParts_of_not_dot {rest : List Place} (h : nextIsKind .dot rest = false) :
    dottedParts rest = [] := by
  unfold dottedParts
  split
  · next dot part more =>
      have hdot : (dot.token.kind == .dot) = false := h
      rw [if_neg]
      rw [decide_eq_false (beq_eq_false_iff_ne.mp hdot)]
      exact Bool.false_ne_true
  · rfl

/-! ## References, names and groups -/

section Reference

variable {q dot c : Token} (hq : q.kind = .quotedIdentifier) (hdot : dot.Is .dot ".")
  (hc : c.kind = .quotedIdentifier)

include hq hdot hc

theorem placesAt_reference (i d : Nat) :
    placesAt i before d [q, dot, c] =
      [⟨i, d, before, q⟩, ⟨i + 1, d, some q, dot⟩, ⟨i + 2, d, some dot, c⟩] := by
  rw [placesAt_cons (by rw [hq]; decide) (by rw [hq]; decide),
    placesAt_cons (by rw [hdot.1]; decide) (by rw [hdot.1]; decide),
    placesAt_cons (by rw [hc]; decide) (by rw [hc]; decide)]
  rfl

/-- No token of a reference marks anything. -/
theorem rangesOf_reference (i d : Nat) (hbefore : QuietBefore before) (rest : List Place) :
    rangesOf (placesAt i before d [q, dot, c] ++ rest) = rangesOf rest := by
  have hplain {t : Token} {kind : Kind} (h : t.kind = kind)
      (hkind : kind ≠ .keyword ∧ kind ≠ .identifier) (words : List String) :
      t.isAnyWord words = false :=
    isAnyWord_of_kind (h ▸ hkind.1) (h ▸ hkind.2) words
  have hname : QuietBefore (some q) := .some
    (quiet_of_kind (by rw [hq]; decide) (by rw [hq]; decide) (by rw [hq]; decide)
      (by rw [hq]; decide))
  have hdotted : (some dot).any (fun t => t.isAnyWord nameIntroducers || t.isOperator "::") =
      false := by
    show (dot.isAnyWord nameIntroducers || dot.isOperator "::") = false
    rw [hplain hdot.1 (by decide), isOperator, hdot.1]
    rfl
  rw [placesAt_reference hq hdot hc]
  show rangesAt _ _ ++ (rangesAt _ _ ++ (rangesAt _ _ ++ rangesOf rest)) = rangesOf rest
  rw [rangesAt_eq_nil hbefore.introduced (hplain hq (by decide) _) (by rw [hq]; decide),
    rangesAt_eq_nil hname.introduced (hplain hdot.1 (by decide) _) (by rw [hdot.1]; decide),
    rangesAt_eq_nil hdotted (hplain hc (by decide) _) (by rw [hc]; decide)]
  rfl

omit hdot in
/-- The column behind the point is looked up in the relation in front of it. -/
theorem checkDotted_reference : (checkDotted s q [c]).notes = ColumnRef.notes s ⟨q, c⟩ := by
  have hword : q.isWord "excluded" = false := by
    rw [isWord, hq]
    rfl
  show (if c.kind == .star || q.isWord "excluded" then Pure.pure () else _ : Noted Unit).notes = _
  rw [hword, hc]
  rfl

/-- The name in front of the point is where the reference is looked up; what stands behind it is
passed over. -/
theorem checkPlaces_reference (i d : Nat) (hbefore : QuietBefore before) (known : List String)
    {skipped : List Range} {rest : List Place} (hskipped : isSkipped skipped i = false)
    (hrest : nextIsKind .dot rest = false) :
    (checkPlaces s known skipped (placesAt i before d [q, dot, c] ++ rest)).notes =
      ColumnRef.notes s ⟨q, c⟩ ++ (checkPlaces s known skipped rest).notes := by
  let behind : List Place := ⟨i + 1, d, some q, dot⟩ :: ⟨i + 2, d, some dot, c⟩ :: rest
  have hcandidate : isCandidate skipped ⟨i, d, before, q⟩ = true := by
    simp only [isCandidate, hskipped, hbefore.dot, isIdentifier, hq]
    rfl
  have hparts : dottedParts behind = [c] := by
    rw [dottedParts, dottedParts_of_not_dot hrest, if_pos]
    simp only [hdot.1, isName, isIdentifier, hc]
    rfl
  have hopen : nextIsKind .leftParen behind = false := by
    show (dot.kind == .leftParen) = false
    rw [hdot.1]
    rfl
  have hnext : nextIsKind .dot behind = true := by
    show (dot.kind == .dot) = true
    rw [hdot.1]
    rfl
  rw [placesAt_reference hq hdot hc]
  show (checkPlaces s known skipped (⟨i, d, before, q⟩ :: behind)).notes = _
  rw [checkPlaces, hcandidate, hopen, hnext, hparts]
  show (checkDotted s q [c]).notes ++ _ = _
  rw [checkDotted_reference hq hc]
  rfl

end Reference

namespace Scanned

/-- A reference is the one thing that is looked up. -/
theorem reference {q dot c : Token} (hq : q.kind = .quotedIdentifier) (hdot : dot.Is .dot ".")
    (hc : c.kind = .quotedIdentifier) (i d : Nat) (hbefore : QuietBefore before) :
    Scanned s (placesAt i before d [q, dot, c]) i (i + 3) [⟨q, c⟩] [] where
  marked := rangesOf_reference hq hdot hc i d hbefore
  within := nofun
  notes known skipped rest hskipped hrest := by
    have hi : isSkipped skipped i = false := hskipped i (Nat.le_refl i) (by omega)
    rw [checkPlaces_reference hq hdot hc i d hbefore known hi hrest, List.flatMap_singleton]

/-- A name with a parenthesis behind it is no column. -/
theorem name {f : Token} (hf : f.IsBareName) (d : Nat) (hbefore : QuietBefore before)
    {ps : List Place} {i j : Nat} {rs : List ColumnRef} {ranges : List Range}
    (hps : Scanned s ps (i + 1) j rs ranges)
    (hopen : ∀ rest, nextIsKind .leftParen (ps ++ rest) = true) :
    Scanned s (⟨i, d, before, f⟩ :: ps) i j rs ranges where
  marked rest := by
    obtain ⟨o, more, hmore, ho⟩ : ∃ o more, ps ++ rest = o :: more ∧ o.token.kind = .leftParen := by
      have hnext := hopen rest
      cases hps : ps ++ rest with
      | nil => rw [hps] at hnext; cases hnext
      | cons o more =>
          rw [hps] at hnext
          exact ⟨o, more, rfl, beq_iff_eq.mp hnext⟩
    have hby : nextIsWord "BY" (ps ++ rest) = false := by
      rw [hmore]
      show o.token.isWord "BY" = false
      rw [isWord, ho]
      rfl
    have hdot : nextIsKind .dot (ps ++ rest) = false := by
      rw [hmore]
      show (o.token.kind == .dot) = false
      rw [ho]
      rfl
    have hrange : rangesAt ⟨i, d, before, f⟩ (ps ++ rest) = [] := by
      have hkind : f.kind ≠ .leftParen := by rw [hf.1]; decide
      simp only [rangesAt, hbefore.introduced, hby, hdot, if_neg hkind, Bool.and_false,
        Bool.false_eq_true, if_false, List.append_nil]
    rw [List.cons_append, rangesOf, hrange, hps.marked]
    rfl
  within r hr := by
    have := hps.within r hr
    omega
  notes known skipped rest hskipped hrest := by
    rw [List.cons_append, checkPlaces, hopen rest, Bool.or_true]
    exact hps.notes known skipped rest (fun m hi hj => hskipped m (by omega) hj) hrest

/-- A group that is neither a subquery nor behind `USING` or `CAST`. -/
theorem group {o c : Token} {xs : List Token} {rs : List ColumnRef} {ranges : List Range}
    (ho : o.Is .leftParen "(") (hc : c.Is .rightParen ")") (hxs : Balanced xs) (i d : Nat)
    (hbefore : QuietBefore before) (hlast : QuietBefore (xs.getLast?.or (some o)))
    (hquery : ∀ t ∈ xs.head?, t.isAnyWord ["SELECT", "WITH", "VALUES"] = false)
    (h : Scanned s (placesAt (i + 1) (some o) (d + 1) xs) (i + 1) (i + 1 + xs.length) rs ranges) :
    Scanned s (placesAt i before d (o :: (xs ++ [c]))) i (i + (o :: (xs ++ [c])).length) rs
      ranges := by
  have hlength : i + (o :: (xs ++ [c])).length = i + 1 + xs.length + 1 := by
    simp only [List.length_cons, List.length_append, List.length_nil]
    omega
  have hinner := h.append (pass (passed_of_kind (i := i + 1 + xs.length) (d := d) hc.1 (by decide)
    hlast) _) (by omega) (by omega) fun rest _ => by
      show (c.kind == .dot) = false
      rw [hc.1]
      rfl
  rw [List.append_nil, List.append_nil] at hinner
  rw [placesAt_group ho.1 hc.1 hxs, hlength]
  refine ⟨fun rest => ?_, fun r hr => ?_, fun known skipped rest hskipped hrest => ?_⟩
  · have hfirst : nextIs (fun t => t.isAnyWord ["SELECT", "WITH", "VALUES"])
        (placesAt (i + 1) (some o) (d + 1) xs ++
          [⟨i + 1 + xs.length, d, xs.getLast?.or (some o), c⟩] ++ rest) = false := by
      cases xs with
      | nil => exact isAnyWord_of_kind (by rw [hc.1]; decide) (by rw [hc.1]; decide) _
      | cons t ts =>
          rw [List.append_assoc, nextIs_placesAt]
          exact hquery t rfl
    rw [List.cons_append, rangesOf, rangesAt_open ho.1 i d hbefore.introduced,
      groupRanges_eq_nil hfirst (hbefore.isWord (by decide)) (hbefore.isWord (by decide)),
      hinner.marked]
    rfl
  · have := hinner.within r hr
    omega
  · have hcandidate : isCandidate skipped ⟨i, d, before, o⟩ = false := by
      simp only [isCandidate, isIdentifier, ho.1]
      cases isSkipped skipped i <;> cases before.any (·.kind == .dot) <;> rfl
    rw [List.cons_append, checkPlaces, hcandidate]
    exact hinner.notes known skipped rest (fun m hi hj => hskipped m (by omega) hj) hrest

end Scanned

/-! ## The type of a cast -/

theorem groupPlaces?_eq {p q : Place} {ps : List Place} (hp : p.token.kind = .leftParen)
    (hq : q.token.kind = .rightParen) (hps : Balanced (ps.map (·.token))) (rest : List Place) :
    groupPlaces? (p :: (ps ++ q :: rest)) = some (ps, rest) := by
  have hclose : matchingParen? ((p :: (ps ++ q :: rest)).map (·.token)) 0 =
      some (ps.length + 1) := by
    have hmatch := hps.matchingParen? hp hq (rest.map (·.token))
    rw [List.length_map] at hmatch
    rw [List.map_cons, List.map_append, List.map_cons]
    exact hmatch
  rw [groupPlaces?, hclose, Option.map_some]
  have htake : (p :: (ps ++ q :: rest)).take (ps.length + 1) = p :: ps := by
    rw [List.take_succ_cons, List.take_left]
  have hdrop : (p :: (ps ++ q :: rest)).drop (ps.length + 1 + 1) = rest := by
    rw [List.drop_succ_cons, List.append_cons, ← List.length_singleton (a := q),
      ← List.length_append, List.drop_left]
  rw [htake, hdrop]
  rfl

theorem rangesAt_introduced {i d : Nat} {a t : Token} {rest : List Place} (ha : a.IsKeyword "AS")
    (hopen : t.kind ≠ .leftParen) (hindexed : (t.isWord "INDEXED" && nextIsWord "BY" rest) = false)
    (hsqlc : (t.isWord "sqlc" && nextIsKind .dot rest) = false) :
    rangesAt ⟨i, d, some a, t⟩ rest = [single i] := by
  have hword : (some a).any (fun t => t.isAnyWord nameIntroducers || t.isOperator "::") = true := by
    show (a.isAnyWord nameIntroducers || a.isOperator "::") = true
    rw [ha.isAnyWord]
    rfl
  simp only [rangesAt, hword, hindexed, hsqlc, if_neg hopen, if_true, Bool.false_eq_true,
    if_false, List.append_nil]

theorem isCandidate_of_checked {p : Place} (h : p.token.isIdentifier = false)
    (skipped : List Range) : isCandidate skipped p = false := by
  rw [isCandidate, h, Bool.and_false, Bool.false_and]

theorem isCandidate_of_isSkipped {p : Place} {skipped : List Range}
    (h : isSkipped skipped p.index = true) : isCandidate skipped p = false := by
  rw [isCandidate, h]
  rfl

theorem checkPlaces_cons {known : List String} {skipped : List Range} {p : Place}
    (h : isCandidate skipped p = false) (rest : List Place) :
    checkPlaces s known skipped (p :: rest) = checkPlaces s known skipped rest := by
  rw [checkPlaces, h]
  rfl

/-- The group of a cast marks what stands from its `AS` on. -/
theorem rangesAt_cast {k o a t c : Token} {xs : List Token} (hk : k.IsKeyword "CAST")
    (ho : o.Is .leftParen "(") (ha : a.IsKeyword "AS")
    (ht : t.IsBareName ∨ t.kind = .quotedIdentifier) (hc : c.Is .rightParen ")")
    (hxs : Balanced xs) (hquery : ∀ t ∈ xs.head?, t.isAnyWord ["SELECT", "WITH", "VALUES"] = false)
    {i d : Nat} {p q r : Place} (hp : p.token = a) (hdepth : p.depth = d + 1) (hq : q.token = t)
    (hr : r.token = c) {ps : List Place} (hps : ps.map (·.token) = xs) (rest : List Place) :
    rangesAt ⟨i, d, some k, o⟩ (ps ++ p :: q :: r :: rest) =
      [⟨p.index, i + (ps.length + 2) + 1 + 1⟩] := by
  have hbefore : (some k).any (fun t => t.isAnyWord nameIntroducers || t.isOperator "::") =
      false := by
    show (k.isAnyWord nameIntroducers || k.isOperator "::") = false
    have hcast : nameIntroducers.any (eqIgnoreCase "CAST") = false := by decide
    rw [hk.isAnyWord, hcast, isOperator, hk.1]
    rfl
  have hgroup : groupPlaces? (⟨i, d, some k, o⟩ :: (ps ++ p :: q :: r :: rest)) =
      some (ps ++ [p, q], rest) := by
    have hinner : Balanced ((ps ++ [p, q]).map (·.token)) := by
      rw [List.map_append, hps, List.map_cons, List.map_singleton, hp, hq]
      exact hxs.append (balanced_alias ha ht)
    have heq := groupPlaces?_eq (p := ⟨i, d, some k, o⟩) ho.1 (hr ▸ hc.1) hinner rest
    rwa [List.append_assoc] at heq
  have hfirst : nextIs (fun t => t.isAnyWord ["SELECT", "WITH", "VALUES"])
      (ps ++ p :: q :: r :: rest) = false := by
    cases ps with
    | nil =>
        show p.token.isAnyWord _ = false
        rw [hp, ha.isAnyWord]
        decide
    | cons p' ps =>
        subst hps
        exact hquery p'.token rfl
  have husing : k.isWord "USING" = false := by
    rw [hk.isWord]
    decide
  have hcast : k.isWord "CAST" = true := by
    rw [hk.isWord]
    decide
  have htype : t.isWord "AS" = false := by
    rcases ht with ht | ht
    · have hnone : t.isAnyWord ["AS"] = false := ht.isAnyWord (by decide)
      exact isWord_of_isAnyWord hnone (by decide)
    · rw [isWord, ht]
      rfl
  have hfind : ((ps ++ [p, q]).reverse.find? fun x => x.depth == d + 1 && x.token.isWord "AS") =
      some p := by
    rw [List.reverse_append, List.reverse_cons, List.reverse_singleton, List.singleton_append,
      List.cons_append, List.find?_cons_of_neg, List.cons_append, List.find?_cons_of_pos]
    · have has : eqIgnoreCase "AS" "AS" = true := by decide
      rw [hdepth, hp, ha.isWord, has, beq_self_eq_true]
      rfl
    · rw [hq, htype, Bool.and_false]
      exact Bool.false_ne_true
  rw [rangesAt_open ho.1 i d hbefore, groupRanges, hgroup]
  simp only [hfirst, Option.any_some, husing, hcast, hfind, Bool.or_false, Bool.false_eq_true,
    if_false, if_true, List.nil_append, List.length_append, List.length_cons, List.length_nil]

theorem quiet_of_typeName {t : Token} (ht : t.IsBareName ∨ t.kind = .quotedIdentifier) :
    Quiet t := by
  rcases ht with ht | ht
  · exact quiet_of_bareName ht
  · exact quiet_of_kind (by rw [ht]; decide) (by rw [ht]; decide) (by rw [ht]; decide)
      (by rw [ht]; decide)

theorem placesAt_cast {k o a t c : Token} {xs : List Token} (hk : k.IsKeyword "CAST")
    (ho : o.Is .leftParen "(") (ha : a.IsKeyword "AS")
    (ht : t.IsBareName ∨ t.kind = .quotedIdentifier) (hc : c.Is .rightParen ")")
    (hxs : Balanced xs) (i d : Nat) :
    placesAt i before d (k :: o :: (xs ++ [a, t, c])) =
      ⟨i, d, before, k⟩ :: ⟨i + 1, d, some k, o⟩ :: (placesAt (i + 2) (some o) (d + 1) xs ++
        [⟨i + 2 + xs.length, d + 1, xs.getLast?.or (some o), a⟩,
          ⟨i + 2 + xs.length + 1, d + 1, some a, t⟩,
          ⟨i + 2 + xs.length + 2, d, some t, c⟩]) := by
  have hkind : t.kind = .identifier ∨ t.kind = .quotedIdentifier := ht.imp_left And.left
  have hopen : t.kind ≠ .leftParen := by rcases hkind with h | h <;> rw [h] <;> decide
  have hclose : t.kind ≠ .rightParen := by rcases hkind with h | h <;> rw [h] <;> decide
  have hlist : xs ++ [a, t, c] = (xs ++ [a, t]) ++ [c] := by rw [List.append_assoc]; rfl
  rw [placesAt_cons (by rw [hk.1]; decide) (by rw [hk.1]; decide), hlist,
    placesAt_group ho.1 hc.1 (hxs.append (balanced_alias ha ht)), placesAt_append hxs,
    placesAt_cons (by rw [ha.1]; decide) (by rw [ha.1]; decide), placesAt_cons hopen hclose,
    List.append_assoc]
  have hindex : i + 1 + 1 + (xs ++ [a, t]).length = i + 2 + xs.length + 2 := by
    simp only [List.length_append, List.length_cons, List.length_nil]
    omega
  have hlast : (xs ++ [a, t]).getLast?.or (some o) = some t := by
    rw [List.getLast?_append]
    rfl
  rw [hindex, hlast]
  rfl

/-- The type is marked by itself too, as a name behind `AS`. -/
theorem rangesAt_typeName {a t c : Token} (ha : a.IsKeyword "AS")
    (ht : t.IsBareName ∨ t.kind = .quotedIdentifier) (hc : c.Is .rightParen ")")
    {i d e : Nat} (rest : List Place) :
    rangesAt ⟨i, d, some a, t⟩ (⟨i + 1, e, some t, c⟩ :: rest) = [single i] := by
  have hkind : t.kind = .identifier ∨ t.kind = .quotedIdentifier := ht.imp_left And.left
  have hopen : t.kind ≠ .leftParen := by rcases hkind with h | h <;> rw [h] <;> decide
  have hnext (p : Token → Bool) (hp : p c = false) :
      nextIs p (⟨i + 1, e, some t, c⟩ :: rest) = false := hp
  have hby : c.isWord "BY" = false := by
    rw [isWord, hc.1]
    rfl
  refine rangesAt_introduced ha hopen ?_ ?_
  · rw [nextIsWord, hnext _ hby, Bool.and_false]
  · rw [nextIsKind, hnext _ (by rw [hc.1]; rfl), Bool.and_false]

/-- What is marked in a cast with its `AS` at that index, where the operand marks the ranges: what
stands from the `AS` on, the operand's own ranges, and the type. -/
def castRanges (as : Nat) (ranges : List Range) : List Range :=
  ⟨as, as + 3⟩ :: (ranges ++ [single (as + 1)])

theorem within_castRanges {ranges : List Range} {i as : Nat} (h : Within ranges (i + 2) as)
    (hle : i + 2 ≤ as) : Within (castRanges as ranges) i (as + 3) := by
  intro r hr
  rcases List.mem_cons.mp hr with rfl | hr
  · exact ⟨by simp only; omega, Nat.le_refl _⟩
  · rcases List.mem_append.mp hr with hr | hr
    · have := h r hr
      omega
    · cases List.mem_singleton.mp hr
      simp only [single]
      omega

/-- In front of the `AS` nothing is marked but what the operand marks. -/
theorem isSkipped_castRanges_of_lt {as m : Nat} (hm : m < as) (ranges : List Range) :
    isSkipped (castRanges as ranges) m = isSkipped ranges m := by
  have hgroup : isSkipped [⟨as, as + 3⟩] m = false :=
    isSkipped_of_before fun r hr => by
      cases List.mem_singleton.mp hr
      exact hm
  have htype : isSkipped [single (as + 1)] m = false :=
    isSkipped_of_before fun r hr => by
      cases List.mem_singleton.mp hr
      simp only [single]
      omega
  rw [castRanges, ← List.singleton_append, isSkipped_append, isSkipped_append, hgroup, htype,
    Bool.false_or, Bool.or_false]

theorem isSkipped_castRanges_type (as : Nat) (ranges : List Range) :
    isSkipped (castRanges as ranges) (as + 1) = true := by
  rw [castRanges, isSkipped, List.any_cons, Bool.or_eq_true]
  left
  simp only [Bool.and_eq_true, decide_eq_true_eq]
  omega

/-- The operand of a cast is passed over as by itself, and its type is no column. -/
theorem Scanned.cast {k o a t c : Token} {xs : List Token} {rs : List ColumnRef}
    {ranges : List Range} (hk : k.IsKeyword "CAST") (ho : o.Is .leftParen "(")
    (ha : a.IsKeyword "AS") (ht : t.IsBareName ∨ t.kind = .quotedIdentifier)
    (hc : c.Is .rightParen ")") (hxs : Balanced xs) (i d : Nat) (hbefore : QuietBefore before)
    (hlast : QuietBefore (xs.getLast?.or (some o)))
    (hquery : ∀ t ∈ xs.head?, t.isAnyWord ["SELECT", "WITH", "VALUES"] = false)
    (h : Scanned s (placesAt (i + 2) (some o) (d + 1) xs) (i + 2) (i + 2 + xs.length) rs ranges) :
    Scanned s (placesAt i before d (k :: o :: (xs ++ [a, t, c]))) i (i + 2 + xs.length + 3) rs
      (castRanges (i + 2 + xs.length) ranges) := by
  have hpk : Passed ⟨i, d, before, k⟩ := passed_of_keyword hk (by decide) hbefore
  have hpa : Passed ⟨i + 2 + xs.length, d + 1, xs.getLast?.or (some o), a⟩ :=
    passed_of_keyword ha (by decide) hlast
  have hpc : Passed ⟨i + 2 + xs.length + 2, d, some t, c⟩ :=
    passed_of_kind hc.1 (by decide) (.some (quiet_of_typeName ht))
  rw [placesAt_cast hk ho ha ht hc hxs]
  refine ⟨fun rest => ?marked, within_castRanges h.within (by omega),
    fun known skipped rest hskipped hrest => ?notes⟩
  case marked =>
    have hgroup := rangesAt_cast hk ho ha ht hc hxs hquery (i := i + 1) (d := d)
      (p := ⟨i + 2 + xs.length, d + 1, xs.getLast?.or (some o), a⟩) rfl rfl
      (q := ⟨i + 2 + xs.length + 1, d + 1, some a, t⟩) rfl
      (r := ⟨i + 2 + xs.length + 2, d, some t, c⟩) rfl
      (map_token_placesAt (i + 2) (some o) (d + 1) xs) rest
    have hindex : i + 1 + (xs.length + 2) + 1 + 1 = i + 2 + xs.length + 3 := by omega
    rw [length_placesAt, hindex] at hgroup
    simp only [castRanges, List.cons_append, List.append_assoc, List.nil_append, rangesOf,
      hpk.marked, hgroup, h.marked, hpa.marked, rangesAt_typeName ha ht hc, hpc.marked]
  case notes =>
    have htype : isSkipped skipped (i + 2 + xs.length + 1) = true := by
      rw [hskipped _ (by omega) (by omega), isSkipped_castRanges_type]
    have hinner : ∀ m, i + 2 ≤ m → m < i + 2 + xs.length →
        isSkipped skipped m = isSkipped ranges m := fun m hi hj => by
      rw [hskipped m (by omega) (by omega), isSkipped_castRanges_of_lt hj]
    have hopen : o.isIdentifier = false := by
      rw [isIdentifier, ho.1]
      rfl
    simp only [List.cons_append, List.append_assoc, List.nil_append]
    rw [checkPlaces_cons (isCandidate_of_checked hpk.checked _),
      checkPlaces_cons (isCandidate_of_checked hopen _),
      h.notes known skipped _ hinner, checkPlaces_cons (isCandidate_of_checked hpa.checked _),
      checkPlaces_cons (isCandidate_of_isSkipped htype),
      checkPlaces_cons (isCandidate_of_checked hpc.checked _)]
    show (a.kind == .dot) = false
    rw [ha.1]
    rfl

/-! ## Expressions -/

/-- The tokens are passed over in the middle of a list, and just these references are checked. -/
def Passes (s : Scope) (i : Nat) (before : Option Token) (d : Nat) (xs : List Token)
    (rs : List ColumnRef) : Prop :=
  ∃ ranges, Scanned s (placesAt i before d xs) i (i + xs.length) rs ranges

theorem nextIsKind_placesAt {kind : Kind} {i d : Nat} {xs : List Token}
    (hkind : ∀ t ∈ xs.head?, t.kind ≠ kind) (rest : List Place)
    (hrest : nextIsKind kind rest = false) :
    nextIsKind kind (placesAt i before d xs ++ rest) = false := by
  cases xs with
  | nil => exact hrest
  | cons t ts =>
      rw [nextIsKind, nextIs_placesAt]
      exact beq_eq_false_iff_ne.mpr (hkind t rfl)

namespace Passes

variable {i d : Nat} {xs ys : List Token} {rs us : List ColumnRef}

theorem append (hx : Passes s i before d xs rs) (hxs : Balanced xs)
    (hy : Passes s (i + xs.length) (xs.getLast?.or before) d ys us)
    (hdot : ∀ t ∈ ys.head?, t.kind ≠ .dot) : Passes s i before d (xs ++ ys) (rs ++ us) := by
  obtain ⟨ranges, hx⟩ := hx
  obtain ⟨more, hy⟩ := hy
  refine ⟨ranges ++ more, ?_⟩
  rw [placesAt_append hxs, List.length_append, ← Nat.add_assoc]
  exact hx.append hy (by omega) (by omega) (nextIsKind_placesAt hdot)

/-- A token that is no parenthesis and no name, and what stands behind it. -/
theorem cons {t : Token} (hopen : t.kind ≠ .leftParen) (hclose : t.kind ≠ .rightParen)
    (ht : Passed ⟨i, d, before, t⟩) (hx : Passes s (i + 1) (some t) d xs rs)
    (hdot : ∀ t ∈ xs.head?, t.kind ≠ .dot) : Passes s i before d (t :: xs) rs := by
  obtain ⟨ranges, hx⟩ := hx
  refine ⟨[] ++ ranges, ?_⟩
  rw [placesAt_cons hopen hclose, List.length_cons, Nat.add_comm xs.length, ← Nat.add_assoc]
  exact (Scanned.pass ht i).append hx (by omega) (by omega) (nextIsKind_placesAt hdot)

theorem nil (i d : Nat) : Passes s i before d [] [] := ⟨[], .nil i⟩

theorem keyword {t : Token} {word : String} (ht : t.IsKeyword word)
    (hword : markingWords.any (eqIgnoreCase word) = false) (hbefore : QuietBefore before)
    (hx : Passes s (i + 1) (some t) d xs rs) (hdot : ∀ t ∈ xs.head?, t.kind ≠ .dot) :
    Passes s i before d (t :: xs) rs :=
  .cons (by rw [ht.1]; decide) (by rw [ht.1]; decide) (passed_of_keyword ht hword hbefore) hx hdot

end Passes

theorem head?_append_of_head? {p : Token → Prop} {xs ys : List Token} (hne : xs ≠ [])
    (h : ∀ t ∈ xs.head?, p t) : ∀ t ∈ (xs ++ ys).head?, p t := by
  cases xs with
  | nil => exact absurd rfl hne
  | cons x xs => exact h

theorem Writes.first_ne_dot {part : Part} {xs : List Token} {rs : List ColumnRef}
    (h : Writes part xs rs) : ∀ t ∈ xs.head?, t.kind ≠ .dot := by
  have hkeyword {t : Token} {ts : List Token} {word : String} (ht : t.IsKeyword word) :
      ∀ u ∈ (t :: ts).head?, u.kind ≠ .dot := by
    rintro u hu
    cases hu
    rw [ht.1]
    decide
  induction h with
  | reference hq _ _ =>
      rintro t ⟨⟩
      rw [hq]
      decide
  | literal ht =>
      rintro t ⟨⟩
      rcases ht with ht | ht | ht | ht
      · rw [ht]; decide
      · rw [ht]; decide
      · rw [ht]; decide
      · rw [ht.1]; decide
  | parameter ht =>
      rintro t ⟨⟩
      rw [ht]
      decide
  | group ho _ _ =>
      rintro t ⟨⟩
      rw [ho.1]
      decide
  | emptyCall hf _ _ =>
      rintro t ⟨⟩
      rw [hf.1]
      decide
  | call hf _ _ _ =>
      rintro t ⟨⟩
      rw [hf.1]
      decide
  | choice hk => exact hkeyword hk
  | cast hk => exact hkeyword hk
  | operand _ hx => exact hx
  | negation hk => exact hkeyword hk
  | binary hx _ _ ihx _ => exact head?_append_of_head? hx.ne_nil ihx
  | single _ hx => exact hx
  | more hx _ _ ihx _ => exact head?_append_of_head? hx.ne_nil ihx

theorem Writes.quietBefore {part : Part} {xs : List Token} {rs : List ColumnRef}
    (h : Writes part xs rs) (before : Option Token) :
    QuietBefore (xs.getLast?.or before) := by
  obtain ⟨t, hlast, ht⟩ := h.quiet_last
  rw [hlast]
  exact .some ht

theorem Writes.first_isAnyWord {part : Part} {xs : List Token} {rs : List ColumnRef}
    (h : Writes part xs rs) {words : List String} (hwords : ∀ w ∈ words, w ∈ steeringWords) :
    ∀ t ∈ xs.head?, t.isAnyWord words = false := by
  obtain ⟨t, ts, rfl, ht⟩ := h.calm_first
  rintro u ⟨⟩
  exact isAnyWord_of_subset ht.2 hwords

theorem Writes.noQuery {part : Part} {xs : List Token} {rs : List ColumnRef}
    (h : Writes part xs rs) :
    ∀ t ∈ xs.head?, t.isAnyWord ["SELECT", "WITH", "VALUES"] = false :=
  h.first_isAnyWord (by decide)

theorem quiet_open {o : Token} (ho : o.Is .leftParen "(") : Quiet o :=
  quiet_of_kind (by rw [ho.1]; decide) (by rw [ho.1]; decide) (by rw [ho.1]; decide)
    (by rw [ho.1]; decide)

theorem Passes.group {i d : Nat} {o c : Token} {xs : List Token} {rs : List ColumnRef}
    (ho : o.Is .leftParen "(") (hc : c.Is .rightParen ")") (hxs : Balanced xs)
    (hbefore : QuietBefore before) (hlast : QuietBefore (xs.getLast?.or (some o)))
    (hquery : ∀ t ∈ xs.head?, t.isAnyWord ["SELECT", "WITH", "VALUES"] = false)
    (hx : Passes s (i + 1) (some o) (d + 1) xs rs) :
    Passes s i before d (o :: (xs ++ [c])) rs := by
  obtain ⟨ranges, hx⟩ := hx
  exact ⟨ranges, .group ho hc hxs i d hbefore hlast hquery hx⟩

/-- A name with a group behind it. -/
theorem Passes.call {i d : Nat} {f o : Token} {xs : List Token} {rs : List ColumnRef}
    (hf : f.IsBareName) (ho : o.Is .leftParen "(") (hbefore : QuietBefore before)
    (hx : Passes s (i + 1) (some f) d (o :: xs) rs) :
    Passes s i before d (f :: o :: xs) rs := by
  obtain ⟨ranges, hx⟩ := hx
  refine ⟨ranges, ?_⟩
  have hlength : i + (f :: o :: xs).length = i + 1 + (o :: xs).length := by
    simp only [List.length_cons]
    omega
  rw [placesAt_cons (by rw [hf.1]; decide) (by rw [hf.1]; decide), hlength]
  refine Scanned.name hf d hbefore hx fun rest => ?_
  rw [nextIsKind, nextIs_placesAt, ho.1]
  rfl

/-- Of an expression exactly its references are checked. -/
theorem Writes.passes {part : Part} {xs : List Token} {rs : List ColumnRef}
    (h : Writes part xs rs) (s : Scope) (i d : Nat) {before : Option Token}
    (hbefore : QuietBefore before) : Passes s i before d xs rs := by
  induction h generalizing i d before with
  | reference hq hdot hc => exact ⟨[], .reference hq hdot hc i d hbefore⟩
  | @literal t ht =>
      have hparen : t.kind ≠ .leftParen ∧ t.kind ≠ .rightParen := by
        rcases ht with ht | ht | ht | ht
        · rw [ht]; decide
        · rw [ht]; decide
        · rw [ht]; decide
        · rw [ht.1]; decide
      exact .cons hparen.1 hparen.2 (passed_of_literal ht hbefore) (.nil _ d) nofun
  | parameter ht =>
      exact .cons (by rw [ht]; decide) (by rw [ht]; decide)
        (passed_of_kind ht (by decide) hbefore) (.nil _ d) nofun
  | group ho hc hx ih =>
      exact .group ho hc hx.balanced hbefore (hx.quietBefore _) hx.noQuery
        (ih _ _ (.some (quiet_open ho)))
  | @emptyCall f o c hf ho hc =>
      have hgroup : Passes s (i + 1) (some f) d (o :: ([] ++ [c])) [] :=
        .group ho hc .nil (.some (quiet_of_bareName hf)) (.some (quiet_open ho)) nofun (.nil _ _)
      exact .call hf ho hbefore hgroup
  | call hf ho hc hx ih =>
      exact .call hf ho hbefore (.group ho hc hx.balanced (.some (quiet_of_bareName hf))
        (hx.quietBefore _) hx.noQuery (ih _ _ (.some (quiet_open ho))))
  | @choice k w t e n xs ys zs rs ss us hk hw ht he hn hx hy hz ihx ihy ihz =>
      have quiet {t : Token} {word : String} (h : t.IsKeyword word)
          (hword : introducingWords.any (eqIgnoreCase word) = false) : QuietBefore (some t) :=
        .some (quiet_of_keyword h hword)
      have noDot {t : Token} {ts : List Token} {word : String} (ht : t.IsKeyword word) :
          ∀ u ∈ (t :: ts).head?, u.kind ≠ .dot := by
        rintro u ⟨⟩
        rw [ht.1]
        decide
      have hfirst {xs ys : List Token} {part : Part} {rs : List ColumnRef}
          (h : Writes part xs rs) : ∀ u ∈ (xs ++ ys).head?, u.kind ≠ .dot :=
        head?_append_of_head? h.ne_nil h.first_ne_dot
      -- From `END` backwards, each part is passed over in front of what is already passed over.
      have hend (i : Nat) : Passes s i (zs.getLast?.or (some e)) d [n] [] :=
        .keyword hn (by decide) (hz.quietBefore _) (.nil _ d) nofun
      have helse (i : Nat) : Passes s i (ys.getLast?.or (some t)) d (e :: (zs ++ [n])) us := by
        refine .keyword he (by decide) (hy.quietBefore _) ?_ (hfirst hz)
        have hzs := (ihz (i + 1) d (quiet he (by decide))).append hz.balanced (hend _)
          (noDot hn)
        rwa [List.append_nil] at hzs
      have hthen (i : Nat) :
          Passes s i (xs.getLast?.or (some w)) d (t :: (ys ++ e :: (zs ++ [n]))) (ss ++ us) :=
        .keyword ht (by decide) (hx.quietBefore _)
          ((ihy (i + 1) d (quiet ht (by decide))).append hy.balanced (helse _) (noDot he))
          (hfirst hy)
      have hwhen (i : Nat) :
          Passes s i (some k) d (w :: (xs ++ t :: (ys ++ e :: (zs ++ [n])))) (rs ++ (ss ++ us)) :=
        .keyword hw (by decide) (quiet hk (by decide))
          ((ihx (i + 1) d (quiet hw (by decide))).append hx.balanced (hthen _) (noDot ht))
          (hfirst hx)
      exact .keyword hk (by decide) hbefore (hwhen _) (noDot hw)
  | @cast k o a t c xs rs hk ho ha ht hc hx ih =>
      obtain ⟨ranges, hscan⟩ := ih (i + 2) (d + 1) (.some (quiet_open ho))
      have hcast := Scanned.cast hk ho ha ht hc hx.balanced i d hbefore (hx.quietBefore _)
        hx.noQuery hscan
      have hlength : i + 2 + xs.length + 3 = i + (k :: o :: (xs ++ [a, t, c])).length := by
        simp only [List.length_cons, List.length_append, List.length_nil]
        omega
      rw [hlength] at hcast
      exact ⟨_, hcast⟩
  | operand _ ih => exact ih i d hbefore
  | negation hk hx ih =>
      exact .keyword hk (by decide) hbefore
        (ih _ d (.some (quiet_of_keyword hk (by decide)))) hx.first_ne_dot
  | @binary op xs ys rs ss hx hop hy ihx ihy =>
      have hkind : op.kind ≠ .leftParen ∧ op.kind ≠ .rightParen ∧ op.kind ≠ .dot := by
        rcases hop.kind with h | h <;> rw [h] <;> decide
      have hmark (i : Nat) : Passes s i (xs.getLast?.or before) d (op :: ys) ss :=
        .cons hkind.1 hkind.2.1 (passed_of_binaryOperator hop (hx.quietBefore _))
          (ihy (i + 1) d (.some (quiet_of_binaryOperator hop))) hy.first_ne_dot
      refine (ihx i d hbefore).append hx.balanced (hmark _) ?_
      rintro u ⟨⟩
      exact hkind.2.2
  | single _ ih => exact ih i d hbefore
  | @more comma xs ys rs ss hx hcomma hy ihx ihy =>
      have hquiet : QuietBefore (some comma) := .some
        (quiet_of_kind (by rw [hcomma.1]; decide) (by rw [hcomma.1]; decide)
          (by rw [hcomma.1]; decide) (by rw [hcomma.1]; decide))
      have hmark (i : Nat) : Passes s i (xs.getLast?.or before) d (comma :: ys) ss :=
        .cons (by rw [hcomma.1]; decide) (by rw [hcomma.1]; decide)
          (passed_of_kind hcomma.1 (by decide) (hx.quietBefore _)) (ihy (i + 1) d hquiet)
          hy.first_ne_dot
      refine (ihx i d hbefore).append hx.balanced (hmark _) ?_
      rintro u ⟨⟩
      rw [hcomma.1]
      decide

end TypedSql.Grammar

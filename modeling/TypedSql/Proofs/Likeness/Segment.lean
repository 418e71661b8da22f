import TypedSql.Analysis.Identifier
import TypedSql.Analysis.Segment
import TypedSql.Proofs.Likeness.Expr
import TypedSql.Proofs.Likeness.Query

/-!
# Segments in both runs

Alike statements fall into the same segments with alike scopes, and the same identifiers are
looked up in them.

Main statements: `SegmentLike.split` and `validate_like`.
-/

namespace TypedSql.Likeness

open Diagnostic Query Token Memberwise

variable {L : Likeness}

/-- Segments in both runs. -/
structure SegmentLike (L : Likeness) (s u : Segment) : Prop where
  ranges : s.ranges = u.ranges
  scope : L.ScopeLike s.scope u.scope
  ordering : s.ordering = u.ordering

/-! ## Splitting -/

variable {ps qs : List Place} {p q : Place}

theorem isPhrase_like (h : L.PlaceLike p q) (hps : L.PlacesLike ps qs) (first second : String) :
    Segment.isPhrase first second p ps = Segment.isPhrase first second q qs := by
  unfold Segment.isPhrase
  rw [h.isTopWord, PlacesLike.nextIsWord hps]

theorem endsInsertedQuery_like (h : L.PlaceLike p q) (hps : L.PlacesLike ps qs) :
    Segment.endsInsertedQuery p ps = Segment.endsInsertedQuery q qs := by
  unfold Segment.endsInsertedQuery
  rw [h.isTopWord, isPhrase_like h hps]

theorem beginsOrdering_like (h : L.PlaceLike p q) (hps : L.PlacesLike ps qs) :
    Segment.beginsOrdering p ps = Segment.beginsOrdering q qs := by
  unfold Segment.beginsOrdering
  rw [h.isTopWord, isPhrase_like h hps]

theorem searchFrom_like {f : Place → List Place → Bool} (h : L.PlacesLike ps qs) (stop : Nat)
    (hf : ∀ {p q ps qs}, L.PlaceLike p q → L.PlacesLike ps qs → f p ps = f q qs) :
    Segment.searchFrom stop f ps = Segment.searchFrom stop f qs := by
  induction h with
  | nil => rfl
  | cons hpq h ih => simp only [Segment.searchFrom, hpq.index, hf hpq h, ih]

theorem armsFrom_like (h : L.PlacesLike ps qs) (start stop : Nat) :
    Segment.armsFrom start stop ps = Segment.armsFrom start stop qs := by
  fun_induction Segment.armsFrom start stop ps generalizing qs with
  | case1 start =>
      cases h
      rw [Segment.armsFrom]
  | case2 start p rest htop hall ih =>
      cases h with
      | cons hpq h =>
          rw [Segment.armsFrom, if_pos (hpq.isTopWord _ ▸ htop),
            if_pos (PlacesLike.nextIsWord h _ ▸ hall), ih (List.forall₂_drop 1 h), hpq.index]
  | case3 start p rest htop hall ih =>
      cases h with
      | cons hpq h =>
          rw [Segment.armsFrom, if_pos (hpq.isTopWord _ ▸ htop),
            if_neg (PlacesLike.nextIsWord h _ ▸ hall), ih h, hpq.index]
  | case4 start p rest htop ih =>
      cases h with
      | cons hpq h => rw [Segment.armsFrom, if_neg (hpq.isTopWord _ ▸ htop), ih h]

theorem arms_like (h : L.PlacesLike ps qs) (body : Range) :
    Segment.arms ps body = Segment.arms qs body :=
  armsFrom_like (PlacesLike.range h body) _ _

section

variable {ts us : List Token} {base base' : Scope}

theorem ofBody_like (hbase : L.ScopeLike base base') (h : L.TokensLike ts us) (body : Range) :
    List.Forall₂ L.SegmentLike (Segment.ofBody base ts body) (Segment.ofBody base' us body) := by
  have hplaces := TokensLike.places h
  have hsegment (arm : Range) : L.SegmentLike ⟨[arm], base.narrow (arm.tokens ts), false⟩
      ⟨[arm], base'.narrow (arm.tokens us), false⟩ :=
    ⟨rfl, hbase.narrow (TokensLike.range h arm), rfl⟩
  unfold Segment.ofBody
  simp only [arms_like hplaces]
  split
  · exact .nil
  · exact .cons (hsegment _) .nil
  · next _ last before _ _ =>
      have htail := searchFrom_like (f := Segment.beginsOrdering)
        (List.forall₂_drop last.start hplaces) last.stop beginsOrdering_like
      have hsegments (arms : List Range) : List.Forall₂ L.SegmentLike
          (arms.map fun arm => ⟨[arm], base.narrow (arm.tokens ts), false⟩)
          (arms.map fun arm => ⟨[arm], base'.narrow (arm.tokens us), false⟩) :=
        List.rel_map (fun _ _ harm => harm ▸ hsegment _) (List.forall₂_same.mpr fun _ _ => rfl)
      simp only [htail]
      split
      · refine List.rel_append (hsegments _) (.cons ⟨rfl, ?_, rfl⟩ .nil)
        exact getD_rel (map_rel (head?_rel (hsegments _)) fun _ _ hsu => hsu.scope) .empty
      · exact hsegments _

theorem insertedQuery?_like (h : L.PlacesLike ps qs) (start : Nat) :
    Segment.insertedQuery? ps start = Segment.insertedQuery? qs start := by
  have hstatement := List.forall₂_drop start h
  have hfound := map_rel (S := Eq) (find?_rel hstatement (p := fun p => p.isTopWord ["SELECT"])
    (q := fun p => p.isTopWord ["SELECT"]) fun _ _ hpq => hpq.isTopWord _)
    fun _ _ hpq => hpq.index
  unfold Segment.insertedQuery?
  simp only [PlacesLike.nextIs hstatement fun _ _ htu => htu.isAnyWord ["INSERT", "REPLACE"]]
  split
  · generalize ((ps.drop start).find? _).map _ = m at hfound ⊢
    generalize ((qs.drop start).find? _).map _ = n at hfound ⊢
    cases hfound with
    | none => rfl
    | some hmn => rw [hmn]
  · rfl

/-- Alike statements fall into alike segments. -/
theorem SegmentLike.split (hbase : L.ScopeLike base base') (h : L.TokensLike ts us) :
    List.Forall₂ L.SegmentLike (Segment.split base ts) (Segment.split base' us) := by
  have hplaces := TokensLike.places h
  unfold Segment.split
  simp only [TokensLike.statementStart h, insertedQuery?_like hplaces, h.length_eq]
  split
  · exact ofBody_like hbase h _
  · next query _ =>
      have htail := searchFrom_like (f := Segment.endsInsertedQuery)
        (List.forall₂_drop query hplaces) us.length endsInsertedQuery_like
      simp only [htail]
      exact .cons ⟨rfl, hbase.narrow (TokensLike.range h _), rfl⟩ (ofBody_like hbase h _)

end

/-! ## Identifiers -/

theorem groupRanges_like (h : L.PlaceLike p q) (hps : L.PlacesLike ps qs) :
    Identifier.groupRanges p ps = Identifier.groupRanges q qs := by
  have hgroup := PlacesLike.groupPlaces? (.cons h hps)
  unfold Identifier.groupRanges
  generalize groupPlaces? (p :: ps) = g at hgroup ⊢
  generalize groupPlaces? (q :: qs) = k at hgroup ⊢
  cases hgroup with
  | none => rfl
  | @some g k hgk =>
      obtain ⟨inner, rest⟩ := g
      obtain ⟨inner', rest'⟩ := k
      have hinner : L.PlacesLike inner inner' := hgk.1
      have hlast := find?_rel (List.rel_reverse hinner)
        (p := fun r => r.depth == p.depth + 1 && r.token.isWord "AS")
        (q := fun r => r.depth == q.depth + 1 && r.token.isWord "AS")
        fun a b hab => by rw [hab.depth, h.depth, hab.token.isWord]
      simp only [h.index, hinner.length_eq,
        PlacesLike.nextIs hps fun _ _ htu => htu.isAnyWord ["SELECT", "WITH", "VALUES"],
        any_option_eq h.before fun _ _ htu => htu.isWord "USING",
        any_option_eq h.before fun _ _ htu => htu.isWord "CAST"]
      generalize inner.reverse.find? _ = x at hlast ⊢
      generalize inner'.reverse.find? _ = y at hlast ⊢
      cases hlast with
      | none => rfl
      | some hab => simp only [hab.index]

theorem rangesAt_like (h : L.PlaceLike p q) (hps : L.PlacesLike ps qs) :
    Identifier.rangesAt p ps = Identifier.rangesAt q qs := by
  unfold Identifier.rangesAt
  simp only [groupRanges_like h hps, h.index, h.token.isWord, h.token.kind,
    PlacesLike.nextIsWord hps, PlacesLike.nextIsKind hps,
    any_option_eq h.before (p := fun t => t.isAnyWord Identifier.nameIntroducers ||
      t.isOperator "::") (q := fun t => t.isAnyWord Identifier.nameIntroducers ||
      t.isOperator "::") fun _ _ htu => by rw [htu.isAnyWord, htu.isOperator]]

theorem rangesOf_like (h : L.PlacesLike ps qs) :
    Identifier.rangesOf ps = Identifier.rangesOf qs := by
  induction h with
  | nil => rfl
  | cons hpq h ih => rw [Identifier.rangesOf, Identifier.rangesOf, rangesAt_like hpq h, ih]

theorem skippedRanges_like {ts us : List Token} (h : L.TokensLike ts us) :
    Identifier.skippedRanges ts = Identifier.skippedRanges us := by
  have hrefs : (RelationRef.ofTokens ts).map (·.tokens) =
      (RelationRef.ofTokens us).map (·.tokens) :=
    map_eq (TokensLike.refs h) fun _ _ hrq => hrq.tokens
  have hflat (refs : List RelationRef) :
      (refs.flatMap fun r => r.tokens.map Identifier.single) =
        (refs.map (·.tokens)).flatMap fun indices => indices.map Identifier.single := by
    rw [List.flatMap_map]
  unfold Identifier.skippedRanges
  rw [hflat, hflat (RelationRef.ofTokens us), hrefs, rangesOf_like (TokensLike.places h)]

theorem dottedParts_like (h : L.PlacesLike ps qs) :
    L.TokensLike (Identifier.dottedParts ps) (Identifier.dottedParts qs) := by
  fun_induction Identifier.dottedParts ps generalizing qs with
  | case1 dot part rest hpart ih =>
      cases h with
      | cons hdot h =>
      cases h with
      | cons hpart' h =>
          rw [hdot.token.kind, hpart'.token.isName, hpart'.token.kind] at hpart
          simp only [Identifier.dottedParts, if_pos hpart]
          exact .cons hpart'.token (ih h)
  | case2 dot part rest hpart =>
      cases h with
      | cons hdot h =>
      cases h with
      | cons hpart' h =>
          rw [hdot.token.kind, hpart'.token.isName, hpart'.token.kind] at hpart
          simp only [Identifier.dottedParts, if_neg hpart]
          exact .nil
  | case3 rest hshort =>
      cases h with
      | nil => exact .nil
      | cons hdot h =>
          cases h with
          | nil => exact .nil
          | cons hpart h => exact absurd rfl (hshort _ _ _)

section

variable {s u : Scope}

theorem check_like (hs : L.ScopeLike s u) {a b : Option String} (hab : Option.Rel L.NameLike a b)
    {c d : String} (hcd : L.NameLike c d) {x y : Position} (hxy : L.place x y) :
    L.NotedLike Eq (Identifier.check s a c x) (Identifier.check u b d y) := by
  have hlookup := hs.lookup hab hcd
  unfold Identifier.check
  generalize s.lookup a c = found at hlookup ⊢
  generalize u.lookup b d = found' at hlookup ⊢
  cases hlookup with
  | ok _ => exact .pure rfl
  | @error e f hef =>
      have hmistake : e.isMistake = f.isMistake := by cases hef <;> rfl
      have hcode : e.code = f.code := by cases hef <;> rfl
      simp only [hmistake, hcode]
      split
      · exact .error (fun _ => hxy) fun hexact => by rw [hef.eq hexact]
      · exact .pure rfl

theorem checkDotted_like (hs : L.ScopeLike s u) {t t' : Token} (ht : L.TokenLike t t')
    {ts us : List Token} (h : L.TokensLike ts us) :
    L.NotedLike Eq (Identifier.checkDotted s t ts) (Identifier.checkDotted u t' us) := by
  have hreverse := List.rel_reverse (.cons ht h)
  unfold Identifier.checkDotted
  generalize (t :: ts).reverse = parts at hreverse ⊢
  generalize (t' :: us).reverse = parts' at hreverse ⊢
  cases hreverse with
  | nil => exact .pure rfl
  | cons hcolumn hreverse =>
      cases hreverse with
      | nil => exact .pure rfl
      | cons hqualifier _ =>
          simp only [hcolumn.kind, hqualifier.isWord]
          split
          · exact .pure rfl
          · exact check_like hs (.some hqualifier.value) hcolumn.value ht.position

theorem checkBare_like (hs : L.ScopeLike s u) (known : List String) {t t' : Token}
    (h : L.TokenLike t t') :
    L.NotedLike Eq (Identifier.checkBare s known t) (Identifier.checkBare u known t') := by
  unfold Identifier.checkBare
  rw [h.normalized]
  split
  · exact .pure rfl
  · exact check_like hs .none h.value h.position

theorem isCandidate_like (h : L.PlaceLike p q) (skipped : List Range) :
    Identifier.isCandidate skipped p = Identifier.isCandidate skipped q := by
  unfold Identifier.isCandidate
  rw [h.index, h.token.isIdentifier, h.token.kind, h.token.isAnyWord,
    any_option_eq h.before (q := fun t => t.kind == .dot) fun _ _ htu => by rw [htu.kind]]

theorem checkPlaces_like (hs : L.ScopeLike s u) (known : List String) (skipped : List Range)
    (h : L.PlacesLike ps qs) :
    L.NotedLike Eq (Identifier.checkPlaces s known skipped ps)
      (Identifier.checkPlaces u known skipped qs) := by
  fun_induction Identifier.checkPlaces s known skipped ps generalizing qs with
  | case1 =>
      cases h
      rw [Identifier.checkPlaces]
      exact .pure rfl
  | case2 p rest hskip ih =>
      cases h with
      | cons hpq h =>
          rw [isCandidate_like hpq, PlacesLike.nextIsKind h] at hskip
          rw [Identifier.checkPlaces, if_pos hskip]
          exact ih h
  | case3 p rest hskip hdot parts =>
      rename_i ih
      cases h with
      | @cons _ _ _ rest' hpq h =>
          have hparts : L.TokensLike parts (Identifier.dottedParts rest') := dottedParts_like h
          rw [isCandidate_like hpq, PlacesLike.nextIsKind h] at hskip
          rw [PlacesLike.nextIsKind h] at hdot
          rw [Identifier.checkPlaces, if_neg hskip, if_pos hdot]
          dsimp only
          rw [← hparts.length_eq]
          exact .bind (checkDotted_like hs hpq.token hparts) fun _ _ _ =>
            ih (List.forall₂_drop _ h)
  | case4 p rest hskip hdot ih =>
      cases h with
      | cons hpq h =>
          rw [isCandidate_like hpq, PlacesLike.nextIsKind h] at hskip
          rw [PlacesLike.nextIsKind h] at hdot
          rw [Identifier.checkPlaces, if_neg hskip, if_neg hdot]
          exact .bind (checkBare_like hs known hpq.token) fun _ _ _ => ih h

/-- The same identifiers of alike statements are looked up. -/
theorem validate_like (hs : L.ScopeLike s u) (known : List String) {ts us : List Token}
    (h : L.TokensLike ts us) :
    L.NotedLike Eq (Identifier.validate s known ts) (Identifier.validate u known us) := by
  have hmain := List.forall₂_drop (statementStart us) h
  unfold Identifier.validate
  dsimp only
  rw [TokensLike.statementStart h, skippedRanges_like hmain]
  exact checkPlaces_like hs known _ (TokensLike.places hmain)

end

theorem knownNames_like {query query' : Query} (h : L.QueryLike query query')
    {is js : List Item} (hitems : List.Forall₂ L.ItemLike is js) :
    Identifier.knownNames query is = Identifier.knownNames query' js := by
  have hnames : List.Forall₂ L.NameLike ((query.items ++ is).filterMap (·.asName))
      ((query'.items ++ js).filterMap (·.asName)) :=
    List.rel_filterMap (fun _ _ hij => hij.asName) (List.rel_append h.items hitems)
  unfold Identifier.knownNames
  rw [map_eq hnames fun _ _ hab => hab.lower, map_eq h.ctes fun _ _ hcd => hcd.name.lower]

end TypedSql.Likeness

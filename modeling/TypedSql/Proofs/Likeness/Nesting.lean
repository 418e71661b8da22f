import TypedSql.Proofs.Likeness.Basic
import TypedSql.Token.Nesting

/-!
# Nesting in both runs

Parentheses, commas and clause words are found at the same indices in alike lists of tokens.
-/

namespace TypedSql.Likeness

open Token Memberwise

variable {L : Likeness} {ts us : List Token}

namespace TokensLike

theorem closing? (h : L.TokensLike ts us) (inner i : Nat) :
    Token.closing? inner i ts = Token.closing? inner i us := by
  induction h generalizing inner i with
  | nil => rfl
  | @cons t u ts us htu _ ih =>
      unfold Token.closing?
      rw [htu.kind]
      split
      · exact ih _ _
      · split
        · rfl
        · exact ih _ _
      · exact ih _ _

theorem matchingParen? (h : L.TokensLike ts us) (i : Nat) :
    Token.matchingParen? ts i = Token.matchingParen? us i := by
  have hdrop := List.forall₂_drop i h
  unfold Token.matchingParen?
  cases hts : ts.drop i with
  | nil =>
      rw [hts] at hdrop
      rw [List.forall₂_nil_left_iff.mp hdrop]
  | cons t ts =>
      rw [hts] at hdrop
      obtain ⟨u, us', htu, hrest, hus⟩ := List.forall₂_cons_left_iff.mp hdrop
      rw [hus]
      simp only [htu.kind, closing? hrest]

theorem opening? (h : L.TokensLike ts us) (inner : Nat) :
    Token.opening? inner ts = Token.opening? inner us := by
  induction h generalizing inner with
  | nil => rfl
  | @cons t u ts us htu hrest ih =>
      unfold Token.opening?
      rw [htu.kind, hrest.length_eq]
      split
      · exact ih _
      · split
        · rfl
        · exact ih _
      · exact ih _

theorem depthsFrom (h : L.TokensLike ts us) (depth : Nat) :
    Token.depthsFrom depth ts = Token.depthsFrom depth us := by
  induction h generalizing depth with
  | nil => rfl
  | @cons t u ts us htu _ ih =>
      unfold Token.depthsFrom
      rw [htu.kind]
      split <;> rw [ih]

theorem withDepths (h : L.TokensLike ts us) :
    List.Forall₂ (fun x y => x.1 = y.1 ∧ L.TokenLike x.2 y.2) (Token.withDepths ts)
      (Token.withDepths us) := by
  unfold Token.withDepths Token.depths
  rw [depthsFrom h 0]
  exact zip_rel (List.forall₂_same.mpr fun _ _ => rfl) h

theorem findTopLevel? {p q : Token → Bool} (h : L.TokensLike ts us)
    (hpq : ∀ t u, L.TokenLike t u → p t = q u) :
    Token.findTopLevel? ts p = Token.findTopLevel? us q := by
  refine findIdx?_eq (withDepths h) fun x y hxy => ?_
  rw [hxy.1, hpq _ _ hxy.2]

theorem splitFrom {xs ys : List (Nat × Token)}
    (h : List.Forall₂ (fun x y => x.1 = y.1 ∧ L.TokenLike x.2 y.2) xs ys) (start i : Nat) :
    Token.splitFrom start i xs = Token.splitFrom start i ys := by
  induction h generalizing start i with
  | nil => rfl
  | @cons x y xs ys hxy _ ih =>
      obtain ⟨hdepth, htoken⟩ := hxy
      unfold Token.splitFrom
      simp only [hdepth, htoken.kind, ih]

theorem splitTopLevelCommas (h : L.TokensLike ts us) :
    Token.splitTopLevelCommas ts = Token.splitTopLevelCommas us :=
  splitFrom (withDepths h) 0 0

theorem range (h : L.TokensLike ts us) (r : Range) : L.TokensLike (r.tokens ts) (r.tokens us) :=
  List.forall₂_take _ (List.forall₂_drop _ h)

theorem commaPieces (h : L.TokensLike ts us) :
    List.Forall₂ L.TokensLike (Token.commaPieces ts) (Token.commaPieces us) := by
  unfold Token.commaPieces
  rw [splitTopLevelCommas h]
  exact List.rel_map (fun _ _ hr => hr ▸ range h _) (List.forall₂_same.mpr fun _ _ => rfl)

theorem head? (h : L.TokensLike ts us) : Option.Rel L.TokenLike ts.head? us.head? := head?_rel h

theorem startsWith (h : L.TokensLike ts us) (word : String) :
    Token.startsWith word ts = Token.startsWith word us :=
  any_option_eq (head? h) fun _ _ htu => htu.isWord word

theorem startsWithKind (h : L.TokensLike ts us) (kind : Kind) :
    Token.startsWithKind kind ts = Token.startsWithKind kind us :=
  any_option_eq (head? h) fun _ _ htu => by rw [htu.kind]

theorem skip (h : L.TokensLike ts us) (word : String) :
    L.TokensLike (Token.skip word ts) (Token.skip word us) := by
  unfold Token.skip
  rw [startsWith h]
  split
  · exact List.forall₂_drop 1 h
  · exact h

theorem statementStart (h : L.TokensLike ts us) :
    Token.statementStart ts = Token.statementStart us := by
  cases h with
  | nil => rfl
  | @cons t u ts us htu hrest =>
      unfold Token.statementStart
      simp only
      rw [htu.isWord, findTopLevel? hrest fun t u h => h.isAnyWord statementVerbs,
        List.length_cons, List.length_cons, hrest.length_eq]

theorem group? (h : L.TokensLike ts us) :
    Option.Rel (fun g k => L.TokensLike g.inner k.inner ∧ L.TokensLike g.rest k.rest)
      (Token.group? ts) (Token.group? us) := by
  unfold Token.group?
  rw [matchingParen? h 0]
  cases Token.matchingParen? us 0 with
  | none => exact .none
  | some close =>
      exact .some ⟨List.forall₂_drop 1 (List.forall₂_take close h), List.forall₂_drop _ h⟩

theorem leadingValues (h : L.TokensLike ts us) :
    List.Forall₂ L.NameLike (Token.leadingValues ts) (Token.leadingValues us) :=
  List.rel_filterMap (fun _ _ hpiece => map_rel (head? hpiece) fun _ _ htu => htu.value)
    (commaPieces h)

end TokensLike

/-! ## Places -/

/-- Places in both runs. -/
structure PlaceLike (L : Likeness) (p q : Place) : Prop where
  index : p.index = q.index
  depth : p.depth = q.depth
  before : Option.Rel L.TokenLike p.before q.before
  token : L.TokenLike p.token q.token

/-- Lists of places in both runs. -/
abbrev PlacesLike (L : Likeness) : List Place → List Place → Prop := List.Forall₂ L.PlaceLike

theorem placesFrom_like {xs ys : List (Nat × Token)} {before before' : Option Token}
    (h : List.Forall₂ (fun x y => x.1 = y.1 ∧ L.TokenLike x.2 y.2) xs ys)
    (hbefore : Option.Rel L.TokenLike before before') (i : Nat) :
    L.PlacesLike (placesFrom i before xs) (placesFrom i before' ys) := by
  induction h generalizing before before' i with
  | nil => exact .nil
  | @cons x y xs ys hxy _ ih =>
      exact .cons ⟨rfl, hxy.1, hbefore, hxy.2⟩ (ih (.some hxy.2) (i + 1))

theorem TokensLike.places (h : L.TokensLike ts us) :
    L.PlacesLike (Token.places ts) (Token.places us) :=
  placesFrom_like (TokensLike.withDepths h) .none 0

theorem PlaceLike.isTopWord {p q : Place} (h : L.PlaceLike p q) (words : List String) :
    p.isTopWord words = q.isTopWord words := by
  unfold Place.isTopWord
  rw [h.depth, h.token.isAnyWord]

namespace PlacesLike

variable {ps qs : List Place}

theorem tokens (h : L.PlacesLike ps qs) :
    L.TokensLike (ps.map (·.token)) (qs.map (·.token)) :=
  List.rel_map (fun _ _ hpq => hpq.token) h

theorem range (h : L.PlacesLike ps qs) (r : Range) :
    L.PlacesLike (r.places ps) (r.places qs) :=
  List.forall₂_take _ (List.forall₂_drop _ h)

theorem groupPlaces? (h : L.PlacesLike ps qs) :
    Option.Rel (fun g k => L.PlacesLike g.1 k.1 ∧ L.PlacesLike g.2 k.2) (Token.groupPlaces? ps)
      (Token.groupPlaces? qs) := by
  unfold Token.groupPlaces?
  rw [TokensLike.matchingParen? (tokens h) 0]
  cases Token.matchingParen? (qs.map (·.token)) 0 with
  | none => exact .none
  | some close =>
      exact .some ⟨List.forall₂_drop 1 (List.forall₂_take close h), List.forall₂_drop _ h⟩

theorem placePieces (h : L.PlacesLike ps qs) :
    List.Forall₂ L.PlacesLike (Token.placePieces ps) (Token.placePieces qs) := by
  unfold Token.placePieces
  rw [TokensLike.splitTopLevelCommas (tokens h)]
  exact List.rel_map (fun _ _ hr => hr ▸ range h _) (List.forall₂_same.mpr fun _ _ => rfl)

theorem nextIs {p q : Token → Bool} (h : L.PlacesLike ps qs)
    (hpq : ∀ t u, L.TokenLike t u → p t = q u) : Token.nextIs p ps = Token.nextIs q qs :=
  any_option_eq (head?_rel h) fun _ _ hplace => hpq _ _ hplace.token

theorem nextIsKind (h : L.PlacesLike ps qs) (kind : Kind) :
    Token.nextIsKind kind ps = Token.nextIsKind kind qs :=
  nextIs h fun _ _ htu => by rw [htu.kind]

theorem nextIsWord (h : L.PlacesLike ps qs) (word : String) :
    Token.nextIsWord word ps = Token.nextIsWord word qs :=
  nextIs h fun _ _ htu => htu.isWord word

end PlacesLike

end TypedSql.Likeness

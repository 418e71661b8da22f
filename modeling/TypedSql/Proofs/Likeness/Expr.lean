import TypedSql.Analysis.Infer
import TypedSql.Proofs.Expr.Shape
import TypedSql.Proofs.Likeness.Scope
import TypedSql.Proofs.Text.Case

/-!
# Expressions in both runs

Alike tokens write alike expressions, of which the same is known in alike scopes.

Main statements: `ExprLike.ofTokens` and `ExprLike.infer`.
-/

namespace TypedSql.Likeness

open Diagnostic Text Token Memberwise

variable {L : Likeness}

mutual

/-- Expressions in both runs. -/
inductive ExprLike (L : Likeness) : Expr → Expr → Prop
  | column {q r : Option String} {a b : String} {p p' : Position} (hq : Option.Rel L.NameLike q r)
      (hab : L.NameLike a b) (hp : L.place p p') : ExprLike L (.column q a p) (.column r b p')
  | literal (type : TypeInfo) : ExprLike L (.literal type) (.literal type)
  | cast {e f : Expr} {a b : String} (h : ExprLike L e f) (hab : L.NameLike a b) :
      ExprLike L (.cast e a) (.cast f b)
  | aggregate (function : Aggregate) {p p' : Position} {es fs : List Expr} (hp : L.place p p')
      (h : ExprsLike L es fs) : ExprLike L (.aggregate function p es) (.aggregate function p' fs)
  | other : ExprLike L .other .other

/-- Lists of expressions in both runs. -/
inductive ExprsLike (L : Likeness) : List Expr → List Expr → Prop
  | nil : ExprsLike L [] []
  | cons {e f : Expr} {es fs : List Expr} (h : ExprLike L e f) (hs : ExprsLike L es fs) :
      ExprsLike L (e :: es) (f :: fs)

end

/-! ## Reading -/

theorem columnParts?_like {ts us : List Token} (h : L.TokensLike ts us) :
    Option.Rel (fun a b => Option.Rel L.NameLike a.1 b.1 ∧ L.NameLike a.2 b.2)
      (Expr.columnParts? ts) (Expr.columnParts? us) := by
  cases h with
  | nil => exact .none
  | cons h1 h =>
  cases h with
  | nil =>
      simp only [Expr.columnParts?, h1.isName]
      split
      · exact .some ⟨.none, h1.value⟩
      · exact .none
  | cons h2 h =>
  cases h with
  | nil => exact .none
  | cons h3 h =>
  cases h with
  | nil =>
      simp only [Expr.columnParts?, h1.isName, h2.kind, h3.isName]
      split
      · exact .some ⟨.some h1.value, h3.value⟩
      · exact .none
  | cons h4 h =>
  cases h with
  | nil => exact .none
  | cons h5 h =>
  cases h with
  | nil =>
      simp only [Expr.columnParts?, h1.isName, h2.kind, h3.isName, h4.kind, h5.isName]
      split
      · exact .some ⟨.some h3.value, h5.value⟩
      · exact .none
  | cons h6 h => exact .none

theorem numberType?_like {t u : Token} (h : L.TokenLike t u) :
    Expr.numberType? t = Expr.numberType? u := by
  unfold Expr.numberType?
  rw [h.kind]

theorem literalType?_like {ts us : List Token} (h : L.TokensLike ts us) :
    Expr.literalType? ts = Expr.literalType? us := by
  cases h with
  | nil => rfl
  | cons h1 h =>
  cases h with
  | nil =>
      simp only [Expr.literalType?, h1.kind, numberType?_like h1, h1.isAnyWord, h1.isWord]
  | cons h2 h =>
  cases h with
  | nil => simp only [Expr.literalType?, h1.isOperator, numberType?_like h2]
  | cons h3 h => rfl

theorem wholeGroup?_like {ts us : List Token} (h : L.TokensLike ts us) :
    Option.Rel L.TokensLike (Expr.wholeGroup? ts) (Expr.wholeGroup? us) := by
  unfold Expr.wholeGroup?
  rw [TokensLike.matchingParen? h, h.length_eq]
  split
  · exact .some (dropLast_rel (List.forall₂_drop 1 h))
  · exact .none

theorem spaced_like {as bs : List String} (h : List.Forall₂ L.NameLike as bs) :
    L.NameLike (Expr.spaced as) (Expr.spaced bs) := by
  induction h with
  | nil => exact .refl _
  | cons hab h ih =>
      cases h with
      | nil => exact hab
      | cons h' h => exact (hab.append (.refl " ")).append ih

theorem castParts?_like {ts us : List Token} (h : L.TokensLike ts us) :
    Option.Rel (fun a b => L.TokensLike a.1 b.1 ∧ L.NameLike a.2 b.2) (Expr.castParts? ts)
      (Expr.castParts? us) := by
  cases h with
  | nil => exact .none
  | @cons head head' rest rest' hhead h =>
      simp only [Expr.castParts?, hhead.isWord]
      split
      · refine bind_rel (wholeGroup?_like h) fun inner inner' hinner => ?_
        have hbefore := dropWhile_rel (List.rel_reverse (TokensLike.withDepths hinner))
          (p := fun dt => !(dt.1 == 0 && dt.2.isWord "AS"))
          (q := fun dt => !(dt.1 == 0 && dt.2.isWord "AS"))
          fun x y hxy => by rw [hxy.1, hxy.2.isWord]
        have hlength := hbefore.length_eq
        generalize (withDepths inner).reverse.dropWhile _ = before at hbefore hlength ⊢
        generalize (withDepths inner').reverse.dropWhile _ = before' at hbefore hlength ⊢
        cases hbefore with
        | nil => exact .none
        | cons _ hoperand =>
            refine .some ⟨List.rel_map (fun _ _ hxy => hxy.2) (List.rel_reverse hoperand), ?_⟩
            simp only [hlength]
            exact spaced_like (List.rel_map (fun _ _ htu => htu.name) (List.forall₂_drop _ hinner))
      · exact .none

theorem aggregateParts?_like {ts us : List Token} (h : L.TokensLike ts us) :
    Option.Rel (fun a b => a.1 = b.1 ∧ L.place a.2.1 b.2.1 ∧
      List.Forall₂ L.TokensLike a.2.2 b.2.2)
      (Expr.aggregateParts? ts) (Expr.aggregateParts? us) := by
  cases h with
  | nil => exact .none
  | @cons head head' rest rest' hhead h =>
      have hword : Aggregate.ofWord? head.text = Aggregate.ofWord? head'.text := by
        unfold Aggregate.ofWord?
        rw [hhead.name.lower]
      simp only [Expr.aggregateParts?, hword, TokensLike.matchingParen? h]
      cases Aggregate.ofWord? head'.text with
      | none => exact .none
      | some function =>
      cases matchingParen? rest' 0 with
      | none => exact .none
      | some close =>
          have hbehind := all_option_eq (head?_rel (List.forall₂_drop (close + 1) h))
            fun _ _ htu => htu.isAnyWord ["FILTER", "OVER"]
          simp only [Option.bind_some, hbehind]
          split
          · exact .some ⟨rfl, hhead.position, TokensLike.commaPieces
              (dropWhile_rel (List.forall₂_drop 1 (List.forall₂_take close h))
                fun _ _ htu => htu.isAnyWord _)⟩
          · exact .none

theorem parenthesized?_like {ts us : List Token} (h : L.TokensLike ts us) :
    Option.Rel L.TokensLike (Expr.parenthesized? ts) (Expr.parenthesized? us) := by
  refine bind_rel (wholeGroup?_like h) fun inner inner' hinner => ?_
  rw [any_option_eq (head?_rel (List.forall₂_drop 1 h))
    fun _ _ htu => htu.isAnyWord ["SELECT", "WITH", "VALUES"]]
  split
  · exact .none
  · exact .some hinner

theorem ExprsLike.of_forall {pieces pieces' : List (List Token)}
    (h : List.Forall₂ (fun ts us => L.ExprLike (Expr.ofTokens ts) (Expr.ofTokens us)) pieces
      pieces') : L.ExprsLike (pieces.map Expr.ofTokens) (pieces'.map Expr.ofTokens) := by
  induction h with
  | nil => exact .nil
  | cons h _ ih => exact .cons h ih

/-- Alike tokens write alike expressions. -/
theorem ExprLike.ofTokens {ts us : List Token} (h : L.TokensLike ts us) :
    L.ExprLike (Expr.ofTokens ts) (Expr.ofTokens us) := by
  induction hn : ts.length using Nat.strongRecOn generalizing ts us with
  | ind n ih =>
      subst hn
      have hcast := and_rel (castParts?_like h) fun parts hparts =>
        @Expr.length_of_castParts? _ parts.1 parts.2 hparts
      have haggregate := and_rel (P := fun parts => ∀ piece ∈ parts.2.2, piece.length < ts.length)
        (aggregateParts?_like h) fun parts hparts piece hpiece =>
          @Expr.length_of_aggregateParts? _ piece parts.1 parts.2.1 parts.2.2 hparts hpiece
      have hgroup := and_rel (parenthesized?_like h) fun _ => Expr.length_of_parenthesized?
      rw [Expr.ofTokens_eq, Expr.ofTokens_eq us, literalType?_like h]
      refine getD_rel (or_rel ?column (or_rel ?literal (or_rel ?cast (or_rel ?aggregate ?group))))
        .other
      case column =>
        exact bind_rel (columnParts?_like h) fun _ _ hparts =>
          map_rel (head?_rel h) fun _ _ hfirst => .column hparts.1 hparts.2 hfirst.position
      case literal =>
        cases Expr.literalType? us with
        | none => exact .none
        | some type => exact .some (.literal type)
      case cast =>
        exact map_rel hcast fun _ _ hparts => .cast (ih _ hparts.2 hparts.1.1 rfl) hparts.1.2
      case aggregate =>
        refine map_rel haggregate fun x y hparts => ?_
        obtain ⟨function, p, operands⟩ := x
        obtain ⟨function', p', operands'⟩ := y
        obtain ⟨⟨rfl, hp, hoperands⟩, hlt⟩ := hparts
        refine .aggregate function hp (ExprsLike.of_forall ?_)
        change List.Forall₂ L.TokensLike operands operands' at hoperands
        clear hp
        induction hoperands with
        | nil => exact .nil
        | cons hpiece _ ihs =>
            exact .cons (ih _ (hlt _ List.mem_cons_self) hpiece rfl)
              (ihs fun piece hmem => hlt piece (List.mem_cons_of_mem _ hmem))
      case group => exact map_rel hgroup fun _ _ hinner => ih _ hinner.2 hinner.1 rfl

/-! ## Inference -/

/-- What is known of an expression, in both runs. -/
structure InferredLike (L : Likeness) (i j : Inferred) : Prop where
  type : i.type = j.type
  relation : L.NameLike i.relation j.relation
  column : Option.Rel L.NameLike i.column j.column
  aggregateName : Option.Rel L.NameLike i.aggregateName j.aggregateName

theorem InferredLike.typed (type : TypeInfo) :
    L.InferredLike (.typed type) (.typed type) := ⟨rfl, .refl _, .none, .none⟩

theorem noteLookup_like {e f : Scope.LookupError} (h : L.LookupErrorLike e f) {p p' : Position}
    (hp : L.exact → L.place p p') (mode : Mode) :
    L.NotedLike Eq (mode.noteLookup e p) (mode.noteLookup f p') := by
  have hmistake : e.isMistake = f.isMistake := by cases h <;> rfl
  have hcode : e.code = f.code := by cases h <;> rfl
  have hmessage (hexact : L.exact) : e.message = f.message := by rw [h.eq hexact]
  unfold Mode.noteLookup
  rw [hmistake, hcode]
  split
  · exact .error hp hmessage
  · exact .warning hp hmessage
  · exact .warning hp hmessage
  · exact .pure rfl

theorem inferColumn_like {s u : Scope} (h : L.ScopeLike s u) {q r : Option String}
    (hqr : Option.Rel L.NameLike q r) {a b : String} (hab : L.NameLike a b) {p p' : Position}
    (hp : L.place p p') (mode : Mode) :
    L.NotedLike L.InferredLike (inferColumn mode s q a p) (inferColumn mode u r b p') := by
  have hlookup := h.lookup hqr hab
  unfold inferColumn
  generalize s.lookup q a = x at hlookup ⊢
  generalize u.lookup r b = y at hlookup ⊢
  cases hlookup with
  | ok hcd => exact .pure ⟨hcd.type, hcd.relation, .some hcd.name, .none⟩
  | error hef =>
      exact .bind (noteLookup_like hef (fun _ => hp) mode) fun _ _ _ =>
        .pure ⟨rfl, .refl _, .some hab, .none⟩

theorem castType_like {a b : String} (hab : L.NameLike a b) {i j : Inferred}
    (h : L.InferredLike i j) : castType a i = castType b j := by
  unfold castType Inferred.isNullable
  rw [Affinity.named?_of_lower_eq hab.lower, h.type]

theorem totalType_like (function : Aggregate) {p p' : Position} (hp : L.place p p')
    {i j : Inferred} (h : L.InferredLike i j) :
    L.NotedLike Eq (totalType function p i) (totalType function p' j) := by
  unfold totalType
  rw [h.type]
  split
  · exact .pure rfl
  · split
    · exact .pure rfl
    · refine .bind (.warning (fun _ => hp) fun hexact => ?_) fun _ _ _ => .pure rfl
      rw [(getD_rel h.column (NameLike.refl "expression")).exactly hexact]

theorem combine_like {is js : List Inferred} (h : List.Forall₂ L.InferredLike is js)
    (nullable : Bool) : Inferred.combine is nullable = Inferred.combine js nullable := by
  unfold Inferred.combine
  have hfound := findSome?_rel (S := Eq) h (f := fun o => o.type.type?)
    (g := fun o => o.type.type?) fun i j hij => by
      rw [hij.type]
      cases j.type.type? <;> constructor
      rfl
  generalize (is.findSome? fun o => o.type.type?) = x at hfound ⊢
  generalize (js.findSome? fun o => o.type.type?) = y at hfound ⊢
  cases hfound with
  | none => rfl
  | some h => rw [h]

theorem aggregateType_like (function : Aggregate) {p p' : Position} (hp : L.place p p')
    {i j : Inferred} (h : L.InferredLike i j) {is js : List Inferred}
    (hs : List.Forall₂ L.InferredLike is js) :
    L.NotedLike Eq (aggregateType function p i is) (aggregateType function p' j js) := by
  have hnullable (i j : Inferred) (hij : L.InferredLike i j) : i.isNullable = j.isNullable := by
    unfold Inferred.isNullable
    rw [hij.type]
  unfold aggregateType
  split
  · exact .pure rfl
  · exact totalType_like _ hp h
  · exact totalType_like _ hp h
  · rw [all_eq hs hnullable, combine_like hs]
    exact .pure rfl
  · rw [any_eq hs hnullable, combine_like hs]
    exact .pure rfl
  · rw [any_eq hs hnullable, combine_like hs]
    exact .pure rfl

theorem inferAggregate_like (function : Aggregate) {p p' : Position} (hp : L.place p p')
    {is js : List Inferred} (hs : List.Forall₂ L.InferredLike is js) :
    L.NotedLike L.InferredLike (inferAggregate function p is) (inferAggregate function p' js) := by
  have hall := hs
  cases hs with
  | nil => exact .pure (.typed _)
  | cons h hrest =>
      refine .bind (aggregateType_like function hp h hall) fun type type' htype => .pure ?_
      refine ⟨htype, ?_, .none, .some ?_⟩
      · cases hrest with
        | nil => exact h.relation
        | cons _ _ => exact .refl _
      · have hcolumn := h.column
        generalize Inferred.column _ = a at hcolumn ⊢
        generalize Inferred.column _ = b at hcolumn ⊢
        cases hcolumn with
        | none => exact .refl _
        | some hab => exact (NameLike.refl (function.name ++ "_")).append hab

mutual

/-- Of alike expressions the same is known. -/
theorem ExprLike.infer {e f : Expr} (h : L.ExprLike e f) {s u : Scope} (hs : L.ScopeLike s u)
    (mode : Mode) : L.NotedLike L.InferredLike (e.infer mode s) (f.infer mode u) := by
  cases h with
  | column hq hab hp => exact inferColumn_like hs hq hab hp mode
  | literal type => exact .pure (.typed type)
  | cast h hab =>
      exact .bind (h.infer hs mode) fun i j hij =>
        .pure ⟨castType_like hab hij, hij.relation, hij.column, .none⟩
  | aggregate function hp h =>
      cases function with
      | count => exact .pure ⟨rfl, .refl _, .none, .some (.refl _)⟩
      | _ => exact .bind (h.infer hs mode) fun _ _ his => inferAggregate_like _ hp his
  | other => exact .pure (.typed _)

theorem ExprsLike.infer {es fs : List Expr} (h : L.ExprsLike es fs) {s u : Scope}
    (hs : L.ScopeLike s u) (mode : Mode) :
    L.NotedLike (List.Forall₂ L.InferredLike) (Expr.inferAll mode s es)
      (Expr.inferAll mode u fs) := by
  cases h with
  | nil => exact .pure .nil
  | cons h hrest =>
      exact .bind (h.infer hs mode) fun i j hij =>
        .bind (hrest.infer hs mode) fun is js hijs => .pure (.cons hij hijs)

end

end TypedSql.Likeness

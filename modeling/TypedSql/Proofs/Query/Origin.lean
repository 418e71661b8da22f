import Mathlib.Data.List.Basic
import TypedSql.Proofs.Text.Boundary
import TypedSql.Proofs.Token.CommaPieces
import TypedSql.Query.Statement

/-!
# What a query is read from

Every parameter, item and common table expression of a query is written somewhere in its tokens,
and its position is the position of the first of them.  A parameter that comes more than once is
the one at its first place.

Main statements: `mem_paramPlaces`, `firstPlaces_readParams`, `mem_items`, `mem_ctes`.
-/

namespace TypedSql.Query

open Token

/-! ## Parameters -/

/-- The tokens begin with a place of the parameter. -/
def Param.WrittenAt (p : Param) (tokens : List Token) : Prop :=
  macroParam? tokens = some p ∨ ∃ t rest, tokens = t :: rest ∧ t.kind = .parameter ∧ p = .ofToken t

theorem position_of_macroParam? {t : Token} {ts : List Token} {p : Param}
    (h : macroParam? (t :: ts) = some p) : p.position = t.position := by
  unfold macroParam? at h
  split at h
  · next head dot function openParen argument closeParen rest heq =>
      split at h
      · obtain ⟨flags, -, rfl⟩ := Option.map_eq_some_iff.mp h
        cases heq
        rfl
      · cases h
  · cases h

/-- A parameter stands where its first token stands. -/
theorem Param.WrittenAt.position {p : Param} {t : Token} {ts : List Token}
    (h : p.WrittenAt (t :: ts)) : p.position = t.position := by
  rcases h with h | ⟨u, rest, heq, -, rfl⟩
  · exact position_of_macroParam? h
  · cases heq
    rfl

/-- Every place of a parameter is written in the tokens. -/
theorem mem_paramPlaces {tokens : List Token} {p : Param} (h : p ∈ paramPlaces tokens) :
    ∃ before t after, tokens = before ++ t :: after ∧ p.WrittenAt (t :: after) := by
  fun_induction paramPlaces tokens with
  | case1 => cases h
  | case2 t ts q hq ih =>
      rcases List.mem_cons.mp h with rfl | h
      · exact ⟨[], t, ts, rfl, .inl hq⟩
      · obtain ⟨before, u, after, hdrop, hp⟩ := ih h
        refine ⟨t :: ts.take (macroSize - 1) ++ before, u, after, ?_, hp⟩
        rw [List.append_assoc, ← hdrop, List.cons_append, List.take_append_drop]
  | case3 t ts _ hkind ih =>
      rcases List.mem_cons.mp h with rfl | h
      · exact ⟨[], t, ts, rfl, .inr ⟨t, ts, rfl, hkind, rfl⟩⟩
      · obtain ⟨before, u, after, rfl, hp⟩ := ih h
        exact ⟨t :: before, u, after, rfl, hp⟩
  | case4 t ts _ _ ih =>
      obtain ⟨before, u, after, rfl, hp⟩ := ih h
      exact ⟨t :: before, u, after, rfl, hp⟩

/-- The places of parameters stand in the order of their tokens. -/
theorem positions_paramPlaces (tokens : List Token) :
    ((paramPlaces tokens).map (·.position)).Sublist (tokens.map (·.position)) := by
  fun_induction paramPlaces tokens with
  | case1 => exact .slnil
  | case2 t ts p hp ih =>
      rw [List.map_cons, List.map_cons, position_of_macroParam? hp]
      exact (ih.trans ((List.drop_sublist _ _).map _)).cons_cons _
  | case3 t ts _ _ ih => exact ih.cons_cons t.position
  | case4 t ts _ _ ih => exact ih.cons t.position

theorem Binding.sameValue_trans {a b c : Binding} (hab : a.sameValue b = true)
    (hbc : b.sameValue c = true) : a.sameValue c = true := by
  cases a <;> cases b <;> cases c <;> simp_all [Binding.sameValue, Text.eqIgnoreCase]

/-- The parameters that are read from places in this order: each is one of the places, no place of
the same value stands before it, and every place has its parameter. -/
structure FirstPlaces (places params : List Param) : Prop where
  mem : ∀ p ∈ params, p ∈ places
  first : ∀ p ∈ params, ∀ q ∈ places, q.binding.sameValue p.binding = true →
    ¬ q.position.Before p.position
  found : ∀ q ∈ places, ∃ p ∈ params, p = q ∨ p.binding.sameValue q.binding = true

theorem FirstPlaces.addParam {places params : List Param} (h : FirstPlaces places params)
    {p : Param} (hbefore : ∀ q ∈ places, q.position.Before p.position) :
    FirstPlaces (places ++ [p]) (addParam params p) := by
  have hirrefl : ¬ p.position.Before p.position := fun hp => hp.ne rfl
  have hold : ∀ q ∈ params, ¬ p.position.Before q.position := fun q hq hp =>
    hirrefl (hp.trans (hbefore q (h.mem q hq)))
  unfold Query.addParam
  split
  · next hany =>
      obtain ⟨r, hr, hrp⟩ := List.any_eq_true.mp hany
      refine ⟨fun q hq => List.mem_append_left _ (h.mem q hq), fun q hq q' hq' hsame => ?_,
        fun q hq => ?_⟩
      · rcases List.mem_append.mp hq' with hq' | hq'
        · exact h.first q hq q' hq' hsame
        · cases List.mem_singleton.mp hq'
          exact hold q hq
      · rcases List.mem_append.mp hq with hq | hq
        · exact h.found q hq
        · cases List.mem_singleton.mp hq
          exact ⟨r, hr, .inr hrp⟩
  · next hany =>
      refine ⟨fun q hq => ?_, fun q hq q' hq' hsame => ?_, fun q hq => ?_⟩
      · rcases List.mem_append.mp hq with hq | hq
        · exact List.mem_append_left _ (h.mem q hq)
        · exact List.mem_append_right _ hq
      · rcases List.mem_append.mp hq with hq | hq <;> rcases List.mem_append.mp hq' with hq' | hq'
        · exact h.first q hq q' hq' hsame
        · cases List.mem_singleton.mp hq'
          exact hold q hq
        · -- A place of the same value would have its parameter, and nothing would be added.
          cases List.mem_singleton.mp hq
          obtain ⟨r, hr, hrq⟩ := h.found q' hq'
          refine absurd (List.any_eq_true.mpr ⟨r, hr, ?_⟩) hany
          rcases hrq with rfl | hrq
          · exact hsame
          · exact Binding.sameValue_trans hrq hsame
        · cases List.mem_singleton.mp hq
          cases List.mem_singleton.mp hq'
          exact hirrefl
      · rcases List.mem_append.mp hq with hq | hq
        · obtain ⟨r, hr, hrq⟩ := h.found q hq
          exact ⟨r, List.mem_append_left _ hr, hrq⟩
        · exact ⟨q, List.mem_append_right _ hq, .inl (List.mem_singleton.mp hq ▸ rfl)⟩

theorem firstPlaces_foldl {places params more : List Param} (h : FirstPlaces places params)
    (hmore : (places ++ more).Pairwise fun p q => p.position.Before q.position) :
    FirstPlaces (places ++ more) (more.foldl Query.addParam params) := by
  induction more generalizing places params with
  | nil => rwa [List.append_nil]
  | cons p more ih =>
      have hbefore : ∀ q ∈ places, q.position.Before p.position := fun q hq =>
        (List.pairwise_append.mp hmore).2.2 q hq p List.mem_cons_self
      rw [List.append_cons] at hmore ⊢
      exact ih (h.addParam hbefore) hmore

/-- Each parameter of a statement is written in its tokens, and comes first there. -/
theorem firstPlaces_readParams {tokens : List Token}
    (h : tokens.Pairwise fun t u => t.position.Before u.position) :
    FirstPlaces (paramPlaces tokens) (readParams tokens) := by
  have hplaces : (paramPlaces tokens).Pairwise fun p q => p.position.Before q.position := by
    rw [← List.pairwise_map (f := Param.position) (R := Position.Before)]
    exact (List.pairwise_map.mpr h).sublist (positions_paramPlaces tokens)
  have hnone : FirstPlaces [] [] := ⟨nofun, nofun, nofun⟩
  exact firstPlaces_foldl hnone hplaces

/-! ## Items -/

theorem head?_splitAlias (t : Token) (ts : List Token) :
    (splitAlias (t :: ts)).1.head? = some t := by
  unfold splitAlias
  split
  · next last before first rest hreverse =>
      have hlist : t :: ts = (first :: rest).reverse ++ [before, last] := by
        rw [← List.reverse_reverse (t :: ts), hreverse]
        simp
      have hhead : (first :: rest).reverse.head? = some t := by
        have := congrArg List.head? hlist
        rw [List.head?_append_of_ne_nil _ (by simp)] at this
        exact this.symm
      split
      · exact hhead
      · split
        · rw [List.reverse_cons, List.head?_append_of_ne_nil _ (by simp)]
          exact hhead
        · rfl
  · next last before hreverse =>
      have hlist : t :: ts = [before, last] := by
        rw [← List.reverse_reverse (t :: ts), hreverse]
        rfl
      cases hlist
      split <;> rfl
  · rfl

/-- An item stands where its first token stands. -/
theorem Item.position_ofTokens (sql : String) (t : Token) (ts : List Token) :
    (Item.ofTokens sql (t :: ts)).position = t.position := by
  change (((splitAlias (t :: ts)).1.head?.map (·.position)).getD .first) = t.position
  rw [head?_splitAlias]
  rfl

theorem infix_of_mem_commaPieces {tokens piece : List Token} (h : piece ∈ commaPieces tokens) :
    piece <:+: tokens := by
  obtain ⟨r, -, rfl⟩ := List.mem_map.mp h
  exact (List.take_prefix _ _).isInfix.trans (List.drop_suffix _ _).isInfix

theorem projectionTokens_part (statement : List Token) :
    projectionTokens statement <:+: statement := by
  have hrest : ((statement.drop 1).dropWhile fun t => t.isAnyWord ["DISTINCT", "ALL"]) <:+:
      statement := ((List.dropWhile_suffix _).trans (List.drop_suffix _ _)).isInfix
  unfold projectionTokens
  simp only
  split
  · exact (List.take_prefix _ _).isInfix.trans hrest
  · exact hrest

/-- Every item of a query is read from a part of its tokens. -/
theorem mem_items {sql : String} {tokens : List Token} {i : Item}
    (h : i ∈ (Query.ofTokens sql tokens).items) :
    ∃ t ts, (t :: ts) <:+: tokens ∧ i = Item.ofTokens sql (t :: ts) := by
  simp only [Query.ofTokens] at h
  split at h
  · obtain ⟨piece, hpiece, rfl⟩ := List.mem_map.mp h
    obtain ⟨t, ts, rfl⟩ := List.exists_cons_of_ne_nil (ne_nil_of_mem_commaPieces hpiece)
    refine ⟨t, ts, ?_, rfl⟩
    exact ((infix_of_mem_commaPieces hpiece).trans (projectionTokens_part _)).trans
      (List.drop_suffix _ _).isInfix
  · cases h

/-! ## Common table expressions -/

/-- The definition is read from its name, which stands among the tokens, and the group of its
body behind the name. -/
def Cte.WrittenIn (c : Cte) (sql : String) (tokens : List Token) (name : Token) (body : Group) :
    Prop :=
  ∃ rest columns bodyTokens, (name :: rest) <:+ tokens ∧
    cteHead? rest = some (columns, bodyTokens) ∧ group? bodyTokens = some body ∧
    c = Cte.ofParts sql name columns body bodyTokens

theorem group?_parts {tokens : List Token} {g : Group} (h : group? tokens = some g) :
    g.inner <:+: tokens ∧ g.rest <:+ tokens := by
  obtain ⟨close, -, rfl⟩ := Option.map_eq_some_iff.mp h
  exact ⟨(List.drop_suffix _ _).isInfix.trans (List.take_prefix _ _).isInfix,
    List.drop_suffix _ _⟩

theorem cteHead?_suffix {tokens : List Token} {head : Option (List String) × List Token}
    (h : cteHead? tokens = some head) : head.2 <:+ tokens := by
  have hbody (rest : List Token) :
      ((skip "AS" rest).dropWhile fun t => t.isAnyWord ["NOT", "MATERIALIZED"]) <:+ rest :=
    (List.dropWhile_suffix _).trans (skip_suffix _ _)
  unfold cteHead? at h
  split at h
  · obtain ⟨g, hg, rfl⟩ := Option.map_eq_some_iff.mp h
    exact (hbody g.rest).trans (group?_parts hg).2
  · cases h
    exact hbody tokens

theorem mem_readCtes {sql : String} {tokens : List Token} {c : Cte} (h : c ∈ readCtes sql tokens) :
    ∃ name body, c.WrittenIn sql tokens name body := by
  fun_induction readCtes sql tokens with
  | case1 => cases h
  | case2 => cases h
  | case3 => cases h
  | case4 => cases h
  | case5 name rest _ columns bodyTokens hhead body hgroup cte _ ih =>
      rcases List.mem_cons.mp h with rfl | h
      · exact ⟨name, body, rest, columns, bodyTokens, List.suffix_refl _, hhead, hgroup, rfl⟩
      · obtain ⟨name', body', rest', columns', bodyTokens', hsuffix, hmore⟩ := ih h
        refine ⟨name', body', rest', columns', bodyTokens', hsuffix.trans ?_, hmore⟩
        exact ((List.drop_suffix _ _).trans (group?_parts hgroup).2).trans
          ((cteHead?_suffix hhead).trans (List.suffix_cons _ _))
  | case6 name rest _ columns bodyTokens hhead body hgroup cte _ =>
      obtain rfl := List.mem_singleton.mp h
      exact ⟨name, body, rest, columns, bodyTokens, List.suffix_refl _, hhead, hgroup, rfl⟩

/-- Every common table expression of a query is written among its tokens. -/
theorem mem_ctes {sql : String} {tokens : List Token} {c : Cte}
    (h : c ∈ (Query.ofTokens sql tokens).ctes) :
    ∃ name body, c.WrittenIn sql tokens name body := by
  change c ∈ (readWithClause sql tokens).1 at h
  unfold readWithClause at h
  split at h
  · obtain ⟨name, body, rest, columns, bodyTokens, hsuffix, hmore⟩ := mem_readCtes h
    exact ⟨name, body, rest, columns, bodyTokens,
      hsuffix.trans ((skip_suffix _ _).trans (List.drop_suffix _ _)), hmore⟩
  · cases h

namespace Cte.WrittenIn

variable {c : Cte} {sql : String} {tokens : List Token} {name : Token} {body : Group}

theorem name_mem (h : c.WrittenIn sql tokens name body) : name ∈ tokens := by
  obtain ⟨rest, columns, bodyTokens, hsuffix, -⟩ := h
  exact hsuffix.subset List.mem_cons_self

theorem position (h : c.WrittenIn sql tokens name body) : c.position = name.position := by
  obtain ⟨rest, columns, bodyTokens, -, -, -, rfl⟩ := h
  rfl

theorem inner_part (h : c.WrittenIn sql tokens name body) : body.inner <:+: tokens := by
  obtain ⟨rest, columns, bodyTokens, hsuffix, hhead, hgroup, -⟩ := h
  exact (group?_parts hgroup).1.trans
    ((cteHead?_suffix hhead).trans ((List.suffix_cons _ _).trans hsuffix)).isInfix

/-- A body with tokens begins where the first of them stands. -/
theorem body_eq (h : c.WrittenIn sql tokens name body) (hbody : c.body ≠ "") :
    ∃ t ts, body.inner = t :: ts ∧ c.body = sourceText sql (t :: ts) ∧
      c.bodyPosition = t.position := by
  obtain ⟨rest, columns, bodyTokens, -, -, -, rfl⟩ := h
  obtain ⟨inner, behind⟩ := body
  cases inner with
  | nil => exact absurd rfl hbody
  | cons t ts => exact ⟨t, ts, rfl, rfl, rfl⟩

end Cte.WrittenIn

end TypedSql.Query

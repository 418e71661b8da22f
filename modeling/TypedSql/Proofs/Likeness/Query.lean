import TypedSql.Proofs.Likeness.Nesting
import TypedSql.Proofs.Token.CommaPieces
import TypedSql.Query.Statement

/-!
# Statements in both runs

A statement is read alike in both runs: its items, its parameters and its common table
expressions.  The texts that are cut out on the way come from parts of the statement, and parts of
parts are parts.

Main statement: `QueryLike.ofTokens`.
-/

namespace TypedSql.Likeness

open Query Text Token Memberwise

variable {L : Likeness}

/-! ## Parts of a text -/

/-- Tokens of two texts that are read by themselves, from the same indices in both. -/
inductive PartLike (L : Likeness) (s s' : String) : List Token → List Token → Prop
  | empty : PartLike L s s' [] []
  | part {p p' : Position} {before ts after before' ts' after' : List Token}
      (hcut : L.cut s p s' p') (htokens : tokensOf s p = before ++ (ts ++ after))
      (htokens' : tokensOf s' p' = before' ++ (ts' ++ after'))
      (hbefore : before.length = before'.length) (hlength : ts.length = ts'.length) :
      PartLike L s s' ts ts'

namespace PartLike

variable {s s' : String} {ts ts' : List Token}

theorem whole {p p' : Position} (laws : L.Lawful) (h : L.cut s p s' p') :
    L.PartLike s s' (tokensOf s p) (tokensOf s' p') :=
  @PartLike.part _ _ _ _ _ [] _ [] [] _ [] h (by simp) (by simp) rfl
    (laws.cut_tokens h).length_eq

theorem tokens (h : L.PartLike s s' ts ts') (laws : L.Lawful) : L.TokensLike ts ts' := by
  cases h with
  | empty => exact .nil
  | part hcut htokens htokens' hbefore hlength =>
      have hall := laws.cut_tokens hcut
      rw [htokens, htokens'] at hall
      exact ((append_rel_iff hlength).mp ((append_rel_iff hbefore).mp hall).2).1

theorem take (h : L.PartLike s s' ts ts') (n : Nat) :
    L.PartLike s s' (ts.take n) (ts'.take n) := by
  cases h with
  | empty => simpa using .empty
  | part hcut htokens htokens' hbefore hlength =>
      rw [← List.take_append_drop n ts, List.append_assoc] at htokens
      rw [← List.take_append_drop n ts', List.append_assoc] at htokens'
      exact .part hcut htokens htokens' hbefore (by simp [hlength])

theorem drop (h : L.PartLike s s' ts ts') (n : Nat) :
    L.PartLike s s' (ts.drop n) (ts'.drop n) := by
  cases h with
  | empty => simpa using .empty
  | part hcut htokens htokens' hbefore hlength =>
      rw [← List.take_append_drop n ts, List.append_assoc, ← List.append_assoc] at htokens
      rw [← List.take_append_drop n ts', List.append_assoc, ← List.append_assoc] at htokens'
      exact .part hcut htokens htokens' (by simp [hbefore, hlength]) (by simp [hlength])

theorem range (h : L.PartLike s s' ts ts') (r : Range) :
    L.PartLike s s' (r.tokens ts) (r.tokens ts') := (h.drop _).take _

theorem dropWhile {p q : Token → Bool} (h : L.PartLike s s' ts ts') (laws : L.Lawful)
    (hpq : ∀ t u, L.TokenLike t u → p t = q u) :
    L.PartLike s s' (ts.dropWhile p) (ts'.dropWhile q) := by
  rw [List.dropWhile_eq_drop_findIdx_not, List.dropWhile_eq_drop_findIdx_not,
    findIdx_eq (h.tokens laws) fun t u htu => by rw [hpq t u htu]]
  exact h.drop _

theorem takeWhile {p q : Token → Bool} (h : L.PartLike s s' ts ts') (laws : L.Lawful)
    (hpq : ∀ t u, L.TokenLike t u → p t = q u) :
    L.PartLike s s' (ts.takeWhile p) (ts'.takeWhile q) := by
  rw [List.takeWhile_eq_take_findIdx_not, List.takeWhile_eq_take_findIdx_not,
    findIdx_eq (h.tokens laws) fun t u htu => by rw [hpq t u htu]]
  exact h.take _

theorem skip (h : L.PartLike s s' ts ts') (laws : L.Lawful) (word : String) :
    L.PartLike s s' (Token.skip word ts) (Token.skip word ts') := by
  unfold Token.skip
  rw [TokensLike.startsWith (h.tokens laws)]
  split
  · exact h.drop 1
  · exact h

theorem group? (h : L.PartLike s s' ts ts') (laws : L.Lawful) :
    Option.Rel (fun g k => L.PartLike s s' g.inner k.inner ∧ L.PartLike s s' g.rest k.rest)
      (Token.group? ts) (Token.group? ts') := by
  unfold Token.group?
  rw [TokensLike.matchingParen? (h.tokens laws) 0]
  cases Token.matchingParen? ts' 0 with
  | none => exact .none
  | some close => exact .some ⟨(h.take close).drop 1, h.drop _⟩

theorem commaPieces (h : L.PartLike s s' ts ts') (laws : L.Lawful) :
    List.Forall₂ (L.PartLike s s') (Token.commaPieces ts) (Token.commaPieces ts') := by
  unfold Token.commaPieces
  rw [TokensLike.splitTopLevelCommas (h.tokens laws)]
  exact List.rel_map (fun _ _ hr => hr ▸ h.range _) (List.forall₂_same.mpr fun _ _ => rfl)

/-- What is cut out of both texts is alike, where there is something. -/
theorem sourceText {t t' : Token} (h : L.PartLike s s' (t :: ts) (t' :: ts')) (laws : L.Lawful) :
    L.cut (Token.sourceText s (t :: ts)) t.position (Token.sourceText s' (t' :: ts'))
      t'.position := by
  cases h with
  | part hcut htokens htokens' hbefore hlength =>
      exact laws.cut_part hcut htokens htokens' hbefore (by simpa using hlength)

end PartLike

/-! ## Items -/

/-- What an item is, in both runs, where it stands at `p` and at `q`. -/
inductive ShapeLike (L : Likeness) (p q : Position) : Shape → Shape → Prop
  | star {a b : Option String} (h : Option.Rel L.NameLike a b) : ShapeLike L p q (.star a) (.star b)
  | column {a b : Option String} {c d : String} (h : Option.Rel L.NameLike a b)
      (h' : L.NameLike c d) : ShapeLike L p q (.column a c) (.column b d)
  | expression {s s' : String} (h : L.cut s p s' q) :
      ShapeLike L p q (.expression s) (.expression s')

/-- Items in both runs. -/
structure ItemLike (L : Likeness) (i j : Item) : Prop where
  shape : L.ShapeLike i.position j.position i.shape j.shape
  asName : Option.Rel L.NameLike i.asName j.asName
  position : L.place i.position j.position

theorem canPrecedeAlias_like {t u : Token} (h : L.TokenLike t u) :
    canPrecedeAlias t = canPrecedeAlias u := by
  unfold canPrecedeAlias
  rw [h.kind, h.isAnyWord]

/-- An alias takes the same number of tokens off an item in both runs. -/
theorem splitAlias_like {ts us : List Token} (h : L.TokensLike ts us) :
    ∃ n, (ts ≠ [] → 0 < n) ∧ (splitAlias ts).1 = ts.take n ∧ (splitAlias us).1 = us.take n ∧
      Option.Rel L.NameLike (splitAlias ts).2 (splitAlias us).2 := by
  have hnone : ∃ n, (ts ≠ [] → 0 < n) ∧ ts = ts.take n ∧ us = us.take n ∧
      Option.Rel L.NameLike none none :=
    ⟨ts.length, fun hts => List.length_pos_iff.mpr hts, by simp, by simp [h.length_eq], .none⟩
  have hreverse := List.rel_reverse h
  have hts : ts = ts.reverse.reverse := by simp
  have hus : us = us.reverse.reverse := by simp
  generalize ts.reverse = rs at hreverse hts
  generalize us.reverse = rs' at hreverse hus
  unfold splitAlias
  cases hreverse with
  | nil => subst hts hus; exact hnone
  | @cons last last' rs rs' hlast hreverse =>
  cases hreverse with
  | nil => subst hts hus; exact hnone
  | @cons before before' rs rs' hbefore hreverse =>
  cases hreverse with
  | nil =>
      subst hts hus
      simp only [List.reverse_reverse, hlast.isIdentifier, canPrecedeAlias_like hbefore]
      split
      · exact ⟨1, fun _ => Nat.one_pos, rfl, rfl, .some hlast.value⟩
      · exact hnone
  | @cons first first' rs rs' hfirst hreverse =>
      have hfirst_length : (first' :: rs').length = (first :: rs).length := by
        simp [hreverse.length_eq]
      have hbefore_length : (before' :: first' :: rs').length = (before :: first :: rs).length := by
        simp [hreverse.length_eq]
      subst hts hus
      simp only [List.reverse_reverse, hlast.isIdentifier, canPrecedeAlias_like hbefore,
        hbefore.isWord]
      split
      · exact ⟨(first :: rs).length, fun _ => Nat.succ_pos _,
          (Lists.take_reverse_append [last, before] (first :: rs)).symm,
          (hfirst_length ▸ Lists.take_reverse_append [last', before'] (first' :: rs')).symm,
          .some hlast.value⟩
      · split
        · exact ⟨(before :: first :: rs).length, fun _ => Nat.succ_pos _,
            (Lists.take_reverse_append [last] (before :: first :: rs)).symm,
            (hbefore_length ▸ Lists.take_reverse_append [last'] (before' :: first' :: rs')).symm,
            .some hlast.value⟩
        · exact hnone

theorem ShapeLike.ofTokens {s s' : String} {t t' : Token} {ts ts' : List Token}
    (h : L.PartLike s s' (t :: ts) (t' :: ts')) (laws : L.Lawful) :
    L.ShapeLike t.position t'.position (Shape.ofTokens s (t :: ts))
      (Shape.ofTokens s' (t' :: ts')) := by
  have hexpression := ShapeLike.expression (h.sourceText laws)
  have htokens := h.tokens laws
  cases htokens with
  | cons h1 hrest =>
  cases hrest with
  | nil =>
      simp only [Shape.ofTokens, h1.kind, h1.isName]
      split
      · exact .star .none
      · split
        · exact .column .none h1.value
        · exact hexpression
  | cons h2 hrest =>
  cases hrest with
  | nil => exact hexpression
  | cons h3 hrest =>
  cases hrest with
  | nil =>
      simp only [Shape.ofTokens, h1.isName, h2.kind, h3.kind, h3.isName]
      split
      · exact .star (.some h1.value)
      · split
        · exact .column (.some h1.value) h3.value
        · exact hexpression
  | cons h4 hrest =>
  cases hrest with
  | nil => exact hexpression
  | cons h5 hrest =>
  cases hrest with
  | nil =>
      simp only [Shape.ofTokens, h2.kind, h3.isName, h4.kind, h5.isName]
      split
      · exact .column (.some h3.value) h5.value
      · exact hexpression
  | cons h6 hrest => exact hexpression

theorem ItemLike.ofTokens {s s' : String} {ts ts' : List Token} (h : L.PartLike s s' ts ts')
    (hts : ts ≠ []) (laws : L.Lawful) : L.ItemLike (Item.ofTokens s ts) (Item.ofTokens s' ts') := by
  obtain ⟨n, hn, hbody, hbody', hname⟩ := splitAlias_like (h.tokens laws)
  have hpart := h.take n
  rw [← hbody, ← hbody'] at hpart
  have hlength : 0 < (splitAlias ts).1.length := by
    have := List.length_pos_iff.mpr hts
    have := hn hts
    rw [hbody, List.length_take]
    omega
  unfold Item.ofTokens
  generalize splitAlias ts = body at *
  generalize splitAlias ts' = body' at *
  obtain ⟨body, asName⟩ := body
  obtain ⟨body', asName'⟩ := body'
  have htokens := hpart.tokens laws
  cases htokens with
  | nil => cases hlength
  | cons hfirst _ => exact ⟨ShapeLike.ofTokens hpart laws, hname, hfirst.position⟩

theorem readProjection_like {s s' : String} {ts ts' : List Token} (h : L.PartLike s s' ts ts')
    (laws : L.Lawful) : List.Forall₂ L.ItemLike (readProjection s ts) (readProjection s' ts') := by
  have hpieces := h.commaPieces laws
  have hne : ∀ piece ∈ commaPieces ts, piece ≠ [] := fun _ => ne_nil_of_mem_commaPieces
  unfold readProjection
  generalize commaPieces ts = pieces at hpieces hne ⊢
  generalize commaPieces ts' = pieces' at hpieces ⊢
  induction hpieces with
  | nil => exact .nil
  | cons hpiece _ ih =>
      exact .cons (.ofTokens hpiece (hne _ List.mem_cons_self) laws)
        (ih fun piece hmem => hne piece (List.mem_cons_of_mem _ hmem))

/-- The aliases of the items depend on their tokens alone, not on what can be cut out. -/
theorem asNames_like {ts us : List Token} (h : L.TokensLike ts us) (s s' : String) :
    List.Forall₂ (Option.Rel L.NameLike) ((readProjection s ts).map (·.asName))
      ((readProjection s' us).map (·.asName)) := by
  unfold readProjection
  rw [List.map_map, List.map_map]
  refine List.rel_map (fun _ _ hpiece => ?_) (TokensLike.commaPieces h)
  obtain ⟨n, -, -, -, hname⟩ := splitAlias_like hpiece
  exact hname

theorem ItemLike.table? {i j : Item} (h : L.ItemLike i j) :
    Option.Rel L.NameLike i.table? j.table? := by
  have hshape := h.shape
  unfold Item.table?
  generalize i.shape = a at hshape ⊢
  generalize j.shape = b at hshape ⊢
  cases hshape with
  | star hab => exact hab
  | column hab _ => exact hab
  | expression _ => exact .none

theorem ItemLike.name? {i j : Item} (h : L.ItemLike i j) :
    Option.Rel L.NameLike i.name? j.name? := by
  have hshape := h.shape
  unfold Item.name?
  generalize i.shape = a at hshape ⊢
  generalize j.shape = b at hshape ⊢
  cases hshape with
  | star _ => exact .none
  | column _ hcd => exact .some hcd
  | expression _ => exact .none

theorem ItemLike.isStar {i j : Item} (h : L.ItemLike i j) : i.isStar = j.isStar := by
  have hshape := h.shape
  unfold Item.isStar
  generalize i.shape = a at hshape ⊢
  generalize j.shape = b at hshape ⊢
  cases hshape <;> rfl

theorem ItemLike.text {i j : Item} (h : L.ItemLike i j) (laws : L.Lawful) (hexact : L.exact) :
    i.text = j.text := by
  have hqualify {a b : Option String} {c d : String} (hab : Option.Rel L.NameLike a b)
      (hcd : c = d) : Item.qualify a c = Item.qualify b d := by
    subst hcd
    cases hab with
    | none => rfl
    | some h => rw [h.exactly hexact]
  have hshape := h.shape
  unfold Item.text
  generalize i.shape = a at hshape ⊢
  generalize j.shape = b at hshape ⊢
  cases hshape with
  | star hab => exact hqualify hab rfl
  | column hab hcd => exact hqualify hab (hcd.exactly hexact)
  | expression hcut => exact laws.cut_exactly hcut hexact

/-! ## Parameters -/

/-- Bindings in both runs. -/
inductive BindingLike (L : Likeness) : Binding → Binding → Prop
  | positional : BindingLike L .positional .positional
  | named {a b : String} (h : L.NameLike a b) : BindingLike L (.named a) (.named b)
  | numbered (n : Nat) : BindingLike L (.numbered n) (.numbered n)

theorem BindingLike.refl (b : Binding) : L.BindingLike b b := by
  cases b with
  | positional => exact .positional
  | named a => exact .named (.refl a)
  | numbered n => exact .numbered n

theorem BindingLike.sameValue {a b c d : Binding} (h : L.BindingLike a b) (h' : L.BindingLike c d) :
    a.sameValue c = b.sameValue d := by
  cases h <;> cases h' <;> try rfl
  next hab _ _ hcd => exact hab.eqIgnoreCase hcd

/-- Parameters in both runs. -/
structure ParamLike (L : Likeness) (p q : Param) : Prop where
  binding : L.BindingLike p.binding q.binding
  position : L.place p.position q.position
  variadic : p.variadic = q.variadic
  forceNullable : p.forceNullable = q.forceNullable

theorem ParamLike.ofToken {t u : Token} (h : L.TokenLike t u) (hkind : t.kind = .parameter) :
    L.ParamLike (.ofToken t) (.ofToken u) := by
  refine ⟨?_, h.position, rfl, rfl⟩
  have htext : t.text = u.text := h.text (by simp [hkind]) (by simp [hkind])
  change L.BindingLike (.ofText t.text) (.ofText u.text)
  rw [htext]
  exact .refl _

theorem macroFlags?_like {a b : String} (h : L.NameLike a b) : macroFlags? a = macroFlags? b := by
  unfold macroFlags?
  rw [h.lower]

theorem macroParam?_like {ts us : List Token} (h : L.TokensLike ts us) :
    Option.Rel L.ParamLike (macroParam? ts) (macroParam? us) := by
  cases h with
  | nil => exact .none
  | cons h1 h =>
  cases h with
  | nil => exact .none
  | cons h2 h =>
  cases h with
  | nil => exact .none
  | cons h3 h =>
  cases h with
  | nil => exact .none
  | cons h4 h =>
  cases h with
  | nil => exact .none
  | cons h5 h =>
  cases h with
  | nil => exact .none
  | cons h6 h =>
      simp only [macroParam?, h1.isWord, h2.kind, h4.kind, h5.isName, h5.kind, h6.kind,
        macroFlags?_like h3.name]
      split
      · exact map_rel (R := Eq) (by cases macroFlags? _ <;> constructor; rfl) fun a b hab =>
          ⟨.named h5.value, h1.position, by rw [hab], by rw [hab]⟩
      · exact .none

theorem paramPlaces_like {ts us : List Token} (h : L.TokensLike ts us) :
    List.Forall₂ L.ParamLike (paramPlaces ts) (paramPlaces us) := by
  fun_induction paramPlaces ts generalizing us with
  | case1 =>
      cases h
      rw [paramPlaces]
      exact .nil
  | case2 t ts p hp ih =>
      have hwritten := macroParam?_like h
      rw [hp] at hwritten
      obtain ⟨q, hq, hpq⟩ := eq_some_of_rel hwritten
      cases h with
      | cons htu h =>
          rw [paramPlaces, hq]
          exact .cons hpq (ih (List.forall₂_drop _ h))
  | case3 t ts hp hkind ih =>
      have hwritten := macroParam?_like h
      rw [hp] at hwritten
      have hq := eq_none_of_rel hwritten
      cases h with
      | cons htu h =>
          rw [paramPlaces, hq]
          simp only [if_pos (htu.kind.symm.trans hkind)]
          exact .cons (.ofToken htu hkind) (ih h)
  | case4 t ts hp hkind ih =>
      have hwritten := macroParam?_like h
      rw [hp] at hwritten
      have hq := eq_none_of_rel hwritten
      cases h with
      | cons htu h =>
          rw [paramPlaces, hq]
          simp only [if_neg (fun h => hkind (htu.kind.trans h))]
          exact ih h

theorem addParam_like {ps qs : List Param} {p q : Param} (h : List.Forall₂ L.ParamLike ps qs)
    (hpq : L.ParamLike p q) : List.Forall₂ L.ParamLike (addParam ps p) (addParam qs q) := by
  unfold addParam
  rw [any_eq h fun a b hab => hab.binding.sameValue hpq.binding]
  split
  · exact h
  · exact List.rel_append h (.cons hpq .nil)

theorem readParams_like {ts us : List Token} (h : L.TokensLike ts us) :
    List.Forall₂ L.ParamLike (readParams ts) (readParams us) := by
  unfold readParams
  exact List.rel_foldl (P := List.Forall₂ L.ParamLike) (R := L.ParamLike)
    (fun _ _ hps _ _ hpq => addParam_like hps hpq) .nil (paramPlaces_like h)

/-! ## Common table expressions -/

/-- Common table expressions in both runs.  An empty body stands behind its parenthesis, and its
position is never used. -/
structure CteLike (L : Likeness) (c d : Cte) : Prop where
  name : L.NameLike c.name d.name
  columns : Option.Rel (List.Forall₂ L.NameLike) c.columns d.columns
  body : c.body = "" ∧ d.body = "" ∨ L.cut c.body c.bodyPosition d.body d.bodyPosition
  position : L.place c.position d.position

theorem cteHead?_like {s s' : String} {ts us : List Token} (h : L.PartLike s s' ts us)
    (laws : L.Lawful) :
    Option.Rel (fun a b => Option.Rel (List.Forall₂ L.NameLike) a.1 b.1 ∧
      L.PartLike s s' a.2 b.2) (cteHead? ts) (cteHead? us) := by
  have toBody {rest rest' : List Token} (h : L.PartLike s s' rest rest') :
      L.PartLike s s' ((skip "AS" rest).dropWhile fun t => t.isAnyWord ["NOT", "MATERIALIZED"])
        ((skip "AS" rest').dropWhile fun t => t.isAnyWord ["NOT", "MATERIALIZED"]) :=
    (h.skip laws "AS").dropWhile laws fun _ _ htu => htu.isAnyWord _
  unfold cteHead?
  rw [TokensLike.startsWithKind (h.tokens laws)]
  split
  · exact map_rel (h.group? laws) fun g k hgk =>
      ⟨.some (TokensLike.leadingValues (hgk.1.tokens laws)), toBody hgk.2⟩
  · exact .some ⟨.none, toBody h⟩

theorem CteLike.ofParts {s s' : String} {name name' : Token}
    {columns columns' : Option (List String)} {body body' : Group} {bodyTokens bodyTokens'}
    (hname : L.TokenLike name name')
    (hcolumns : Option.Rel (List.Forall₂ L.NameLike) columns columns')
    (hinner : L.PartLike s s' body.inner body'.inner) (laws : L.Lawful) :
    L.CteLike (.ofParts s name columns body bodyTokens)
      (.ofParts s' name' columns' body' bodyTokens') := by
  refine ⟨hname.value, hcolumns, ?_, hname.position⟩
  unfold Cte.ofParts
  obtain ⟨inner, rest⟩ := body
  obtain ⟨inner', rest'⟩ := body'
  have htokens := hinner.tokens laws
  cases htokens with
  | nil => exact .inl ⟨rfl, rfl⟩
  | cons _ _ => exact .inr (hinner.sourceText laws)

/-- The definitions behind one that is whole, and none behind one that is not. -/
theorem readCtes_cons (sql : String) (name : Token) (rest : List Token) :
    readCtes sql (name :: rest) =
      if !name.isName then []
      else match (cteHead? rest).bind fun head =>
          (group? head.2).map fun body => (head, body) with
        | none => []
        | some (head, body) =>
            Cte.ofParts sql name head.1 body head.2 ::
              if startsWithKind .comma body.rest then readCtes sql (body.rest.drop 1) else [] := by
  rw [readCtes]
  split
  · rfl
  · split
    · next hhead => rw [hhead]; rfl
    · next columns bodyTokens hhead =>
        rw [hhead, Option.bind_some]
        split
        · next hbody => rw [hbody]; rfl
        · next body hbody =>
            rw [hbody, Option.map_some]
            split
            · next hcomma => simp only [if_pos hcomma]
            · next hcomma => simp only [if_neg hcomma]

theorem readCtes_like {s s' : String} {ts us : List Token} (h : L.PartLike s s' ts us)
    (laws : L.Lawful) : List.Forall₂ L.CteLike (readCtes s ts) (readCtes s' us) := by
  induction hn : ts.length using Nat.strongRecOn generalizing ts us with
  | ind n ih =>
      subst hn
      have htokens := h.tokens laws
      have hrest := h.drop 1
      cases htokens with
      | nil => rw [readCtes, readCtes]; exact .nil
      | @cons name name' rest rest' hname htokens =>
          rw [List.drop_succ_cons, List.drop_succ_cons, List.drop_zero, List.drop_zero] at hrest
          have hparts := bind_rel (cteHead?_like hrest laws) fun a b hab =>
            map_rel (S := fun x y =>
                Option.Rel (List.Forall₂ L.NameLike) x.1.1 y.1.1 ∧
                L.PartLike s s' x.2.inner y.2.inner ∧ L.PartLike s s' x.2.rest y.2.rest)
              (f := fun g => (a, g)) (g := fun k => (b, k))
              (hab.2.group? laws) fun g k hgk => ⟨hab.1, hgk.1, hgk.2⟩
          rw [readCtes_cons, readCtes_cons, hname.isName]
          split
          · exact .nil
          · have hlt : ∀ head body, ((cteHead? rest).bind fun head =>
                (group? head.2).map fun body => (head, body)) = some (head, body) →
                body.rest.length ≤ rest.length := by
              intro head body heq
              obtain ⟨_, hhead, heq⟩ := Option.bind_eq_some_iff.mp heq
              obtain ⟨_, hbody, heq⟩ := Option.map_eq_some_iff.mp heq
              cases heq
              exact Nat.le_trans (Nat.le_of_lt (length_rest_of_group? hbody))
                (length_of_cteHead? hhead)
            generalize ((cteHead? rest).bind fun head =>
              (group? head.2).map fun body => (head, body)) = parts at hparts hlt ⊢
            generalize ((cteHead? rest').bind fun head =>
              (group? head.2).map fun body => (head, body)) = parts' at hparts ⊢
            cases hparts with
            | none => exact .nil
            | @some x y hxy =>
                obtain ⟨hcolumns, hinner, hbehind⟩ := hxy
                refine .cons (.ofParts hname hcolumns hinner laws) ?_
                rw [TokensLike.startsWithKind (hbehind.tokens laws)]
                split
                · refine ih _ ?_ (hbehind.drop 1) rfl
                  have := hlt _ _ rfl
                  simp only [List.length_drop, List.length_cons]
                  omega
                · exact .nil

theorem readWithClause_like {s s' : String} {ts us : List Token} (h : L.PartLike s s' ts us)
    (laws : L.Lawful) :
    List.Forall₂ L.CteLike (readWithClause s ts).1 (readWithClause s' us).1 ∧
      (readWithClause s ts).2 = (readWithClause s' us).2 := by
  unfold readWithClause
  rw [TokensLike.startsWith (h.tokens laws)]
  split
  · exact ⟨readCtes_like ((h.drop 1).skip laws "RECURSIVE") laws,
      TokensLike.startsWith ((h.drop 1).tokens laws) "RECURSIVE"⟩
  · exact ⟨.nil, rfl⟩

/-! ## Statements -/

/-- Statements in both runs. -/
structure QueryLike (L : Likeness) (q r : Query) : Prop where
  verb : q.verb = r.verb
  items : List.Forall₂ L.ItemLike q.items r.items
  params : List.Forall₂ L.ParamLike q.params r.params
  ctes : List.Forall₂ L.CteLike q.ctes r.ctes
  recursive : q.recursive = r.recursive

theorem Verb.ofWord_like {a b : String} (h : L.NameLike a b) : Verb.ofWord a = Verb.ofWord b := by
  unfold Verb.ofWord
  rw [h.lower]

theorem TokensLike.projectionTokens {ts us : List Token} (h : L.TokensLike ts us) :
    L.TokensLike (projectionTokens ts) (projectionTokens us) := by
  have hrest := dropWhile_rel (p := fun t : Token => t.isAnyWord ["DISTINCT", "ALL"])
    (q := fun t : Token => t.isAnyWord ["DISTINCT", "ALL"]) (List.forall₂_drop 1 h)
    fun _ _ htu => htu.isAnyWord _
  have hstop := TokensLike.findTopLevel? hrest
    (p := fun t => t.kind == .semicolon || t.isAnyWord projectionTerminators)
    (q := fun t => t.kind == .semicolon || t.isAnyWord projectionTerminators)
    fun _ _ htu => by rw [htu.kind, htu.isAnyWord]
  unfold Query.projectionTokens
  simp only [hstop]
  split
  · exact List.forall₂_take _ hrest
  · exact hrest

theorem projectionTokens_like {s s' : String} {ts us : List Token} (h : L.PartLike s s' ts us)
    (laws : L.Lawful) : L.PartLike s s' (projectionTokens ts) (projectionTokens us) := by
  have hrest := (h.drop 1).dropWhile laws
    (p := fun t => t.isAnyWord ["DISTINCT", "ALL"]) (q := fun t => t.isAnyWord ["DISTINCT", "ALL"])
    fun _ _ htu => htu.isAnyWord _
  have hstop := TokensLike.findTopLevel? (hrest.tokens laws)
    (p := fun t => t.kind == .semicolon || t.isAnyWord projectionTerminators)
    (q := fun t => t.kind == .semicolon || t.isAnyWord projectionTerminators)
    fun _ _ htu => by rw [htu.kind, htu.isAnyWord]
  unfold projectionTokens
  simp only [hstop]
  split
  · exact hrest.take _
  · exact hrest

/-- A statement is read alike in both runs. -/
theorem QueryLike.ofTokens {s s' : String} {ts us : List Token} (h : L.PartLike s s' ts us)
    (laws : L.Lawful) : L.QueryLike (Query.ofTokens s ts) (Query.ofTokens s' us) := by
  have htokens := h.tokens laws
  have hwith := readWithClause_like h laws
  have hstatement := h.drop (statementStart ts)
  rw [TokensLike.statementStart htokens] at hstatement
  refine ⟨?_, ?_, readParams_like htokens, hwith.1, hwith.2⟩
  · change ((((ts.drop (statementStart ts)).head?.map (·.text)).map Verb.ofWord).getD .other) =
      ((((us.drop (statementStart us)).head?.map (·.text)).map Verb.ofWord).getD .other)
    have hhead := TokensLike.head? (hstatement.tokens laws)
    rw [TokensLike.statementStart htokens]
    exact getD_rel (map_rel (map_rel hhead fun _ _ htu => htu.name) fun _ _ => Verb.ofWord_like)
      rfl
  · change List.Forall₂ L.ItemLike
      (if startsWith "SELECT" (ts.drop (statementStart ts)) then
        readProjection s (projectionTokens (ts.drop (statementStart ts))) else [])
      (if startsWith "SELECT" (us.drop (statementStart us)) then
        readProjection s' (projectionTokens (us.drop (statementStart us))) else [])
    rw [TokensLike.statementStart htokens, TokensLike.startsWith (hstatement.tokens laws)]
    split
    · exact readProjection_like (projectionTokens_like hstatement laws) laws
    · exact .nil

theorem eq_of_parse {sql : String} {p : Position} {query : Query}
    (h : Query.parse sql p = .ok query) : query = Query.ofTokens sql (tokensOf sql p) := by
  unfold Query.parse at h
  cases htokens : tokenizeAt sql p with
  | error e => rw [htokens] at h; cases h
  | ok tokens =>
      rw [htokens] at h
      cases h
      rw [tokensOf_eq htokens]

theorem eq_ofTokens_of_parse {sql : String} {p : Position} {query : Query} {tokens : List Token}
    (h : Query.parse sql p = .ok query) (htokens : tokenizeAt sql p = .ok tokens) :
    query = Query.ofTokens sql tokens := by
  rw [eq_of_parse h, tokensOf_eq htokens]

theorem QueryLike.of_parse {s s' : String} {p p' : Position} {query query' : Query}
    (laws : L.Lawful) (hcut : L.cut s p s' p') (h : Query.parse s p = .ok query)
    (h' : Query.parse s' p' = .ok query') : L.QueryLike query query' := by
  rw [eq_of_parse h, eq_of_parse h']
  exact .ofTokens (.whole laws hcut) laws

end TypedSql.Likeness

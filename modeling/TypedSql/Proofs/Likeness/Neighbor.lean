import TypedSql.Analysis.InsertTarget
import TypedSql.Analysis.Neighbor
import TypedSql.Proofs.Likeness.Nesting

/-!
# The surroundings of parameters in both runs

The same columns stand near alike parameters: in comparisons, in lists and in inserted rows.

Main statements: `comparedBefore?_like`, `comparedBehind?_like`, `inListColumn?_like` and
`targets_like`.
-/

namespace TypedSql.Likeness

open Token Memberwise

variable {L : Likeness} {ts us : List Token} {ps qs : List Place}

/-! ## Neighbors -/

/-- Columns near a parameter, in both runs. -/
structure ColumnNameLike (L : Likeness) (c d : Neighbor.ColumnName) : Prop where
  qualifier : Option.Rel L.NameLike c.qualifier d.qualifier
  name : L.NameLike c.name d.name

theorem isComparison_like {t u : Token} (h : L.TokenLike t u) :
    Neighbor.isComparison t = Neighbor.isComparison u := by
  unfold Neighbor.isComparison
  rw [h.kind, h.isAnyWord]
  by_cases hkind : u.kind = .operator
  · rw [h.text (by simp [h.kind, hkind]) (by simp [h.kind, hkind])]
  · rw [beq_eq_false_iff_ne.mpr hkind, Bool.false_and, Bool.false_and]

theorem columnBefore?_like (h : L.TokensLike ts us) :
    Option.Rel L.ColumnNameLike (Neighbor.columnBefore? ts) (Neighbor.columnBefore? us) := by
  cases h with
  | nil => exact .none
  | cons hname h =>
      simp only [Neighbor.columnBefore?, hname.isName]
      split
      · cases h with
        | nil => exact .some ⟨.none, hname.value⟩
        | cons hdot h =>
            cases h with
            | nil => exact .some ⟨.none, hname.value⟩
            | cons htable h =>
                refine .some ⟨?_, hname.value⟩
                simp only [hdot.kind, htable.isName]
                split
                · exact .some htable.value
                · exact .none
      · exact .none

theorem columnFrom?_like (h : L.TokensLike ts us) {a b : Option String}
    (hab : Option.Rel L.NameLike a b) :
    Option.Rel L.ColumnNameLike (Neighbor.columnFrom? a ts) (Neighbor.columnFrom? b us) := by
  fun_induction Neighbor.columnFrom? a ts generalizing b us with
  | case1 =>
      cases h
      exact .none
  | case2 qualifier name hname =>
      cases h with
      | cons hlike h =>
          cases h
          rw [Neighbor.columnFrom?, if_pos (hlike.isName ▸ hname)]
          exact .some ⟨hab, hlike.value⟩
  | case3 qualifier name hname next more hdot ih =>
      cases h with
      | cons hlike h =>
      cases h with
      | cons hnext h =>
          rw [Neighbor.columnFrom?, if_pos (hlike.isName ▸ hname)]
          simp only [if_pos (hnext.kind ▸ hdot)]
          exact ih h (.some hlike.value)
  | case4 qualifier name hname next more hdot hparen =>
      cases h with
      | cons hlike h =>
      cases h with
      | cons hnext h =>
          rw [Neighbor.columnFrom?, if_pos (hlike.isName ▸ hname)]
          simp only [if_neg (hnext.kind ▸ hdot), if_pos (hnext.kind ▸ hparen)]
          exact .none
  | case5 qualifier name hname next more hdot hparen =>
      cases h with
      | cons hlike h =>
      cases h with
      | cons hnext h =>
          rw [Neighbor.columnFrom?, if_pos (hlike.isName ▸ hname)]
          simp only [if_neg (hnext.kind ▸ hdot), if_neg (hnext.kind ▸ hparen)]
          exact .some ⟨hab, hlike.value⟩
  | case6 qualifier name rest hname =>
      cases h with
      | cons hlike h =>
          rw [Neighbor.columnFrom?.eq_def]
          simp only [if_neg (hlike.isName ▸ hname)]
          exact .none

theorem comparedBefore?_like (h : L.TokensLike ts us) :
    Option.Rel L.ColumnNameLike (Neighbor.comparedBefore? ts) (Neighbor.comparedBefore? us) := by
  have hbefore : L.TokensLike
      (if startsWith "NOT" ts && startsWith "IS" (ts.drop 1) then ts.drop 1 else ts)
      (if startsWith "NOT" us && startsWith "IS" (us.drop 1) then us.drop 1 else us) := by
    rw [TokensLike.startsWith h, TokensLike.startsWith (List.forall₂_drop 1 h)]
    split
    · exact List.forall₂_drop 1 h
    · exact h
  unfold Neighbor.comparedBefore?
  dsimp only
  generalize (if startsWith "NOT" ts && startsWith "IS" (ts.drop 1) then ts.drop 1 else ts) = x
    at hbefore ⊢
  generalize (if startsWith "NOT" us && startsWith "IS" (us.drop 1) then us.drop 1 else us) = y
    at hbefore ⊢
  cases hbefore with
  | nil => exact .none
  | cons hop hrest =>
      simp only [isComparison_like hop]
      split
      · exact columnBefore?_like (TokensLike.skip hrest "NOT")
      · exact .none

theorem comparedBehind?_like (h : L.TokensLike ts us) :
    Option.Rel L.ColumnNameLike (Neighbor.comparedBehind? ts) (Neighbor.comparedBehind? us) := by
  have hbehind := TokensLike.skip h "NOT"
  unfold Neighbor.comparedBehind?
  generalize skip "NOT" ts = x at hbehind ⊢
  generalize skip "NOT" us = y at hbehind ⊢
  cases hbehind with
  | nil => exact .none
  | cons hop hrest =>
      simp only [isComparison_like hop]
      split
      · exact columnFrom?_like (TokensLike.skip hrest "NOT") .none
      · exact .none

theorem before_like (h : L.TokensLike ts us) (i : Nat) :
    L.TokensLike (ts.take i).reverse (us.take i).reverse :=
  List.rel_reverse (List.forall₂_take i h)

theorem inListOpen?_like (h : L.TokensLike ts us) (i : Nat) :
    Neighbor.inListOpen? ts i = Neighbor.inListOpen? us i := by
  have hbefore := before_like h i
  unfold Neighbor.inListOpen?
  simp only [TokensLike.startsWithKind hbefore, TokensLike.opening? hbefore]
  split
  · congr 1
    funext openParen
    rw [TokensLike.startsWith (before_like h openParen)]
  · rfl

theorem inListColumn?_like (h : L.TokensLike ts us) (i : Nat) :
    Option.Rel L.ColumnNameLike (Neighbor.inListColumn? ts i) (Neighbor.inListColumn? us i) := by
  unfold Neighbor.inListColumn?
  rw [inListOpen?_like h]
  cases Neighbor.inListOpen? us i with
  | none => exact .none
  | some openParen =>
      exact columnBefore?_like
        (TokensLike.skip (List.forall₂_drop 1 (before_like h openParen)) "NOT")

theorem inListLength?_like (h : L.TokensLike ts us) (i : Nat) :
    Neighbor.inListLength? ts i = Neighbor.inListLength? us i := by
  unfold Neighbor.inListLength?
  rw [inListOpen?_like h]
  cases Neighbor.inListOpen? us i with
  | none => rfl
  | some openParen =>
      have hgroup := TokensLike.group? (List.forall₂_drop openParen h)
      simp only [Option.bind_some]
      generalize group? (ts.drop openParen) = g at hgroup ⊢
      generalize group? (us.drop openParen) = k at hgroup ⊢
      cases hgroup with
      | none => rfl
      | some hgk => simp only [Option.map_some, TokensLike.splitTopLevelCommas hgk.1]

/-! ## Targets of inserted values -/

/-- Targets of inserted values in both runs. -/
structure TargetLike (L : Likeness) (t u : InsertTarget) : Prop where
  index : t.index = u.index
  table : L.NameLike t.table u.table
  column : L.NameLike t.column u.column

theorem readTable_like (h : L.PlacesLike ps qs) {a b : String} (hab : L.NameLike a b) :
    L.NameLike (InsertTarget.readTable a ps).1 (InsertTarget.readTable b qs).1 ∧
      L.PlacesLike (InsertTarget.readTable a ps).2 (InsertTarget.readTable b qs).2 := by
  induction hn : ps.length using Nat.strongRecOn generalizing ps qs a b with
  | ind n ih =>
      subst hn
      cases h with
      | nil => exact ⟨hab, .nil⟩
      | cons hdot h =>
      cases h with
      | nil =>
          simp only [InsertTarget.readTable, hdot.token.kind]
          split
          · exact ⟨hab, .nil⟩
          · exact ⟨hab, .cons hdot .nil⟩
      | @cons part part' rest rest' hpart h =>
          have hname : L.NameLike (if part.token.isName then part.token.value else a)
              (if part'.token.isName then part'.token.value else b) := by
            rw [hpart.token.isName]
            split
            · exact hpart.token.value
            · exact hab
          simp only [InsertTarget.readTable, hdot.token.kind]
          split
          · exact ih rest.length (by simp only [List.length_cons]; omega) h hname rfl
          · exact ⟨hab, .cons hdot (.cons hpart h)⟩

theorem isParam_like (h : L.PlacesLike ps qs) :
    InsertTarget.isParam ps = InsertTarget.isParam qs := by
  unfold InsertTarget.isParam
  rw [h.length_eq, PlacesLike.nextIsKind h, PlacesLike.nextIsWord h]

theorem ofRow_like {a b : String} (hab : L.NameLike a b) {as bs : List String}
    (hcolumns : List.Forall₂ L.NameLike as bs) {xs ys : List (List Place)}
    (h : List.Forall₂ L.PlacesLike xs ys) :
    List.Forall₂ L.TargetLike (InsertTarget.ofRow a as xs) (InsertTarget.ofRow b bs ys) := by
  refine List.rel_filterMap (fun x y hxy => ?_) (zip_rel h hcolumns)
  obtain ⟨item, column⟩ := x
  obtain ⟨item', column'⟩ := y
  obtain ⟨hitem, hcolumn⟩ := hxy
  change L.PlacesLike item item' at hitem
  have hparam := isParam_like hitem
  cases hitem with
  | nil => exact .none
  | cons hfirst hrest =>
      simp only [hparam]
      split
      · exact .some ⟨hfirst.index, hab, hcolumn⟩
      · exact .none

theorem ofRows_like {a b : String} (hab : L.NameLike a b) {as bs : List String}
    (hcolumns : List.Forall₂ L.NameLike as bs) (h : L.PlacesLike ps qs) :
    List.Forall₂ L.TargetLike (InsertTarget.ofRows a as ps) (InsertTarget.ofRows b bs qs) := by
  induction hn : ps.length using Nat.strongRecOn generalizing ps qs with
  | ind n ih =>
      subst hn
      have hgroup := and_rel (P := fun g => g.2.length < ps.length)
        (PlacesLike.groupPlaces? h) fun g => length_rest_of_groupPlaces?
      rw [InsertTarget.ofRows_eq, InsertTarget.ofRows_eq b]
      generalize groupPlaces? ps = g at hgroup ⊢
      generalize groupPlaces? qs = k at hgroup ⊢
      cases hgroup with
      | none => exact .nil
      | @some g k hgk =>
          obtain ⟨row, rest⟩ := g
          obtain ⟨row', rest'⟩ := k
          obtain ⟨⟨hrow, hrest⟩, hlt⟩ := hgk
          simp only [PlacesLike.nextIsKind hrest] at hlt ⊢
          refine List.rel_append (ofRow_like hab hcolumns (PlacesLike.placePieces hrow)) ?_
          split
          · refine ih _ ?_ (List.forall₂_drop 1 hrest) rfl
            rw [List.length_drop]
            omega
          · exact ih _ hlt hrest rfl

theorem table?_like (c : Catalog) {a b : String} (hab : L.NameLike a b) :
    c.table? a = c.table? b := by
  unfold Catalog.table?
  rw [hab.lower]

theorem readColumns?_like (c : Catalog) {a b : String} (hab : L.NameLike a b)
    (h : L.PlacesLike ps qs) :
    Option.Rel (fun x y => List.Forall₂ L.NameLike x.1 y.1 ∧ L.PlacesLike x.2 y.2)
      (InsertTarget.readColumns? c a ps) (InsertTarget.readColumns? c b qs) := by
  unfold InsertTarget.readColumns?
  rw [PlacesLike.nextIsKind h, table?_like c hab]
  split
  · exact map_rel (PlacesLike.groupPlaces? h) fun _ _ hgk =>
      ⟨List.rel_filterMap (fun _ _ hpiece => map_rel (head?_rel hpiece) fun _ _ hpq =>
        hpq.token.value) (PlacesLike.placePieces hgk.1), hgk.2⟩
  · cases c.table? b with
    | none => exact .none
    | some t => exact .some ⟨List.forall₂_same.mpr fun _ _ => .refl _, h⟩

theorem ofInsertion_like (c : Catalog) (h : L.PlacesLike ps qs) :
    List.Forall₂ L.TargetLike (InsertTarget.ofInsertion c ps) (InsertTarget.ofInsertion c qs) := by
  cases h with
  | nil => exact .nil
  | @cons name name' rest rest' hname h =>
      have htable := readTable_like h hname.token.value
      have hbehind : L.PlacesLike
          (if nextIsWord "AS" (InsertTarget.readTable name.token.value rest).2 then
            (InsertTarget.readTable name.token.value rest).2.drop 2
          else (InsertTarget.readTable name.token.value rest).2)
          (if nextIsWord "AS" (InsertTarget.readTable name'.token.value rest').2 then
            (InsertTarget.readTable name'.token.value rest').2.drop 2
          else (InsertTarget.readTable name'.token.value rest').2) := by
        rw [PlacesLike.nextIsWord htable.2]
        split
        · exact List.forall₂_drop 2 htable.2
        · exact htable.2
      have hcolumns := readColumns?_like c htable.1 hbehind
      simp only [InsertTarget.ofInsertion, hname.token.isName]
      split
      · generalize InsertTarget.readColumns? c _ _ = x at hcolumns ⊢
        generalize InsertTarget.readColumns? c _ _ = y at hcolumns ⊢
        cases hcolumns with
        | none => exact .nil
        | some hxy =>
            simp only [PlacesLike.nextIsWord hxy.2]
            split
            · exact ofRows_like htable.1 hxy.1 (List.forall₂_drop 1 hxy.2)
            · exact .nil
      · exact .nil

theorem targets_like (c : Catalog) (h : L.TokensLike ts us) :
    List.Forall₂ L.TargetLike (InsertTarget.ofTokens c ts) (InsertTarget.ofTokens c us) := by
  have hstatement := List.forall₂_drop (statementStart us) (TokensLike.places h)
  unfold InsertTarget.ofTokens
  simp only [TokensLike.statementStart h,
    PlacesLike.nextIs hstatement fun _ _ htu => htu.isAnyWord ["INSERT", "REPLACE"]]
  split
  · exact ofInsertion_like c (List.forall₂_drop 1 (dropWhile_rel hstatement
      fun _ _ hpq => by rw [hpq.isTopWord]))
  · exact .nil

end TypedSql.Likeness

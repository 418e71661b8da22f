import TypedSql.Analysis.Cte
import TypedSql.Proofs.Likeness.Expr
import TypedSql.Proofs.Likeness.Query
import TypedSql.Proofs.Token.Reads

/-!
# Output columns in both runs

Alike items give alike output columns in alike scopes, and alike common table expressions make
alike relations.

Main statements: `resolveProjection_like` and `resolveCtes_like`.
-/

namespace TypedSql.Likeness

open Diagnostic Query Memberwise

variable {L : Likeness} {s u : Scope}

/-- Output columns in both runs. -/
structure ResultColumnLike (L : Likeness) (c d : ResultColumn) : Prop where
  name : L.NameLike c.name d.name
  relation : L.NameLike c.relation d.relation
  type : c.type = d.type

/-- Lists of output columns in both runs. -/
abbrev ResultColumnsLike (L : Likeness) : List ResultColumn → List ResultColumn → Prop :=
  List.Forall₂ L.ResultColumnLike

theorem ofScope_like {c d : Scope.Column} (h : L.ColumnLike c d) :
    L.ResultColumnLike (.ofScope c) (.ofScope d) := ⟨h.name, h.relation, h.type⟩

theorem EntryLike.results {e f : Scope.Entry} (h : L.EntryLike e f) :
    L.ResultColumnsLike (e.columns.map .ofScope) (f.columns.map .ofScope) :=
  List.rel_map (fun _ _ hcd => ofScope_like hcd) h.columns

theorem rename_like {cs ds : List ResultColumn} (h : L.ResultColumnsLike cs ds)
    {as bs : List String} (h' : List.Forall₂ L.NameLike as bs) :
    L.ResultColumnsLike (ResultColumn.rename cs as) (ResultColumn.rename ds bs) :=
  List.rel_map (fun _ _ hxy => ⟨hxy.2, hxy.1.relation, hxy.1.type⟩) (zip_rel h h')

/-! ## Items -/

theorem expandAll_like (h : L.ScopeLike s u) {p q : Position} (hp : L.place p q) :
    L.NotedLike L.ResultColumnsLike (expandAll s p) (expandAll u q) := by
  have hcolumns : L.ResultColumnsLike (s.entries.flatMap fun e => e.columns.map .ofScope)
      (u.entries.flatMap fun e => e.columns.map .ofScope) :=
    List.rel_flatMap h.entries fun _ _ hef => hef.results
  simp only [expandAll, h.isEmpty, h.hasOpaque]
  split
  · exact .bind (.warning (fun _ => hp) fun _ => rfl) fun _ _ _ => .pure hcolumns
  · exact .pure hcolumns

theorem expandQualified_like (h : L.ScopeLike s u) {a b : String} (hab : L.NameLike a b)
    {p q : Position} (hp : L.place p q) (mode : Mode) :
    L.NotedLike L.ResultColumnsLike (expandQualified mode s a p) (expandQualified mode u b q) := by
  have hentry := h.entry? hab
  unfold expandQualified
  generalize s.entry? a = e at hentry ⊢
  generalize u.entry? b = f at hentry ⊢
  cases hentry with
  | some hef => exact .pure hef.results
  | none =>
      simp only [h.isOpaque hab]
      split
      · exact .bind (.warning (fun _ => hp) fun hexact => by rw [hab.exactly hexact])
          fun _ _ _ => .pure .nil
      · exact .bind (noteLookup_like (.unknownRelation hab) (fun _ => hp) mode)
          fun _ _ _ => .pure .nil

theorem unnamed_like {i j : Item} (h : L.ItemLike i j) (laws : L.Lawful) (mode : Mode)
    (number : Nat) :
    L.NotedLike L.NameLike (defaultName.unnamed mode i number)
      (defaultName.unnamed mode j number) := by
  cases mode with
  | cte => exact .pure (.refl _)
  | query =>
      refine .bind (.warning (fun _ => h.position) fun hexact => ?_) fun _ _ _ => .pure (.refl _)
      rw [h.text laws hexact]

theorem defaultName_like {i j : Item} (h : L.ItemLike i j) (laws : L.Lawful) {ts us : List Token}
    (htokens : L.TokensLike ts us) {x y : Inferred} (hxy : L.InferredLike x y) (mode : Mode)
    (number : Nat) :
    L.NotedLike L.NameLike (defaultName mode i ts x number) (defaultName mode j us y number) := by
  have hlast := getLast?_rel htokens
  have hname := hxy.aggregateName
  have hunnamed := unnamed_like h laws mode number
  have haggregate {a b : String} (hab : L.NameLike a b) :
      L.NotedLike L.NameLike
        (do
          Noted.warning .missingAggregateAlias i.position
            ("aggregate " ++ i.text ++ " has no alias; using '" ++ a ++ "'")
          return a)
        (do
          Noted.warning .missingAggregateAlias j.position
            ("aggregate " ++ j.text ++ " has no alias; using '" ++ b ++ "'")
          return b) :=
    .bind (.warning (fun _ => h.position) fun hexact => by
      rw [h.text laws hexact, hab.exactly hexact]) fun _ _ _ => .pure hab
  unfold defaultName
  generalize ts.getLast? = t at hlast ⊢
  generalize us.getLast? = t' at hlast ⊢
  generalize x.aggregateName = a at hname ⊢
  generalize y.aggregateName = b at hname ⊢
  cases hlast with
  | none =>
      cases mode with
      | cte => exact hunnamed
      | query =>
          cases hname with
          | none => exact hunnamed
          | some hab => exact haggregate hab
  | @some last last' hlast =>
      have hby : L.NotedLike L.NameLike
          (if last.isIdentifier then Pure.pure last.value else defaultName.unnamed mode i number)
          (if last'.isIdentifier then Pure.pure last'.value
            else defaultName.unnamed mode j number) := by
        rw [hlast.isIdentifier]
        split
        · exact .pure hlast.value
        · exact hunnamed
      cases mode with
      | cte => exact hby
      | query =>
          cases hname with
          | none => exact hby
          | some hab => exact haggregate hab

theorem resolveItem_like {i j : Item} (h : L.ItemLike i j) (laws : L.Lawful)
    (hs : L.ScopeLike s u) (mode : Mode) (number : Nat) :
    L.NotedLike L.ResultColumnsLike (resolveItem mode s number i)
      (resolveItem mode u number j) := by
  have hshape := h.shape
  unfold resolveItem
  generalize i.shape = a at hshape ⊢
  generalize j.shape = b at hshape ⊢
  cases hshape with
  | star hab =>
      cases hab with
      | none => exact expandAll_like hs h.position
      | some hab => exact expandQualified_like hs hab h.position mode
  | column hab hcd =>
      refine .bind (inferColumn_like hs hab hcd h.position mode) fun x y hxy =>
        .pure (.cons ⟨?_, hxy.relation, hxy.type⟩ .nil)
      exact getD_rel (or_rel h.asName hxy.column) hcd
  | @expression text text' hcut =>
      have htokens := laws.cut_tokens hcut
      have hname := h.asName
      refine .bind ((ExprLike.ofTokens htokens).infer hs mode) fun x y hxy => ?_
      have hcolumn {a b : String} (hab : L.NameLike a b) :
          L.NotedLike L.ResultColumnsLike (Pure.pure [⟨a, x.relation, x.type⟩])
            (Pure.pure [⟨b, y.relation, y.type⟩]) :=
        .pure (.cons ⟨hab, hxy.relation, hxy.type⟩ .nil)
      generalize i.asName = a at hname ⊢
      generalize j.asName = b at hname ⊢
      cases hname with
      | some hab => exact hcolumn hab
      | none =>
          exact .bind (defaultName_like h laws htokens hxy mode number) fun _ _ hab => hcolumn hab

theorem resolveItems_like {is js : List Item} (h : List.Forall₂ L.ItemLike is js)
    (laws : L.Lawful) (hs : L.ScopeLike s u) (mode : Mode) (count : Nat) :
    L.NotedLike L.ResultColumnsLike (resolveItems mode s count is)
      (resolveItems mode u count js) := by
  induction h generalizing count with
  | nil => exact .pure .nil
  | cons hij _ ih =>
      refine .bind (resolveItem_like hij laws hs mode (count + 1)) fun cs ds hcs => ?_
      rw [hcs.length_eq]
      exact .bind (ih _) fun _ _ hmore => .pure (List.rel_append hcs hmore)

/-- Alike items give alike output columns. -/
theorem resolveProjection_like {is js : List Item} (h : List.Forall₂ L.ItemLike is js)
    (laws : L.Lawful) (hs : L.ScopeLike s u) (mode : Mode) :
    L.NotedLike L.ResultColumnsLike (resolveProjection mode s is) (resolveProjection mode u js) :=
  resolveItems_like h laws hs mode 0

/-! ## Common table expressions -/

theorem splitUnion_like {a b : String} {ts us : List Token} (h : L.PartLike a b ts us)
    (laws : L.Lawful) :
    L.PartLike a b (splitUnion ts).1 (splitUnion us).1 ∧
      Option.Rel (L.PartLike a b) (splitUnion ts).2 (splitUnion us).2 := by
  unfold splitUnion
  rw [TokensLike.findTopLevel? (h.tokens laws) (q := fun t => t.isWord "UNION")
    fun _ _ htu => htu.isWord "UNION"]
  split
  · exact ⟨h.take _, .some ((h.drop _).skip laws "ALL")⟩
  · exact ⟨h, .none⟩

theorem firstRow_like {a b : String} {ts us : List Token} (h : L.PartLike a b ts us)
    (laws : L.Lawful) : List.Forall₂ L.ItemLike (firstRow a ts) (firstRow b us) := by
  have hgroup := h.group? laws
  unfold firstRow
  generalize Token.group? ts = g at hgroup ⊢
  generalize Token.group? us = k at hgroup ⊢
  cases hgroup with
  | none => exact .nil
  | some hgk => exact readProjection_like hgk.1 laws

theorem statement_like {a b : String} {ts us : List Token} (h : L.PartLike a b ts us)
    (laws : L.Lawful) :
    L.PartLike a b (ts.drop (Token.statementStart ts)) (us.drop (Token.statementStart us)) := by
  rw [TokensLike.statementStart (h.tokens laws)]
  exact h.drop _

namespace CteLike

variable {c d : Cte}

theorem anchorItems (h : L.PartLike c.body d.body ts us) (laws : L.Lawful) :
    List.Forall₂ L.ItemLike (c.anchorItems ts) (d.anchorItems us) := by
  have hstatement := statement_like h laws
  unfold Cte.anchorItems
  simp only [TokensLike.startsWith (hstatement.tokens laws)]
  split
  · exact (QueryLike.ofTokens h laws).items
  · split
    · exact firstRow_like (hstatement.drop 1) laws
    · exact .nil

theorem noteMissing (h : L.ScopeLike s u) :
    L.NotedLike Eq (Cte.noteMissing s) (Cte.noteMissing u) :=
  .forEach h.missing fun _ _ hmn =>
    .warning (fun _ => hmn.position) fun hexact => by rw [hmn.name.exactly hexact]

theorem nameColumns (h : L.CteLike c d) {cs ds : List ResultColumn}
    (hcs : L.ResultColumnsLike cs ds) (number : Nat) :
    L.NotedLike L.ResultColumnsLike (c.nameColumns number cs) (d.nameColumns number ds) := by
  induction hcs generalizing number with
  | nil => exact .pure .nil
  | @cons x y cs ds hxy _ ih =>
      have hrest {column column' : ResultColumn} (hcolumn : L.ResultColumnLike column column') :
          L.NotedLike L.ResultColumnsLike
            (do return column :: (← c.nameColumns (number + 1) cs))
            (do return column' :: (← d.nameColumns (number + 1) ds)) :=
        .bind (ih (number + 1)) fun _ _ hmore => .pure (.cons hcolumn hmore)
      simp only [Cte.nameColumns, hxy.name.isEmpty]
      split
      · exact .bind (.error (fun _ => h.position) fun hexact => by rw [h.name.exactly hexact])
          fun _ _ _ => hrest ⟨.refl _, hxy.relation, hxy.type⟩
      · exact hrest hxy

theorem applyNames (h : L.CteLike c d) {cs ds : List ResultColumn}
    (hcs : L.ResultColumnsLike cs ds) :
    L.NotedLike L.ResultColumnsLike (c.applyNames cs) (d.applyNames ds) := by
  have hcolumns := h.columns
  unfold Cte.applyNames
  generalize c.columns = a at hcolumns ⊢
  generalize d.columns = b at hcolumns ⊢
  cases hcolumns with
  | none => exact h.nameColumns hcs 1
  | @some names names' hnames =>
      simp only [hnames.length_eq, hcs.length_eq]
      split
      · exact .pure (rename_like hcs hnames)
      · exact .bind (.error (fun _ => h.position) fun hexact => by rw [h.name.exactly hexact])
          fun _ _ _ => h.nameColumns hcs 1

theorem resolveAnchor (h : L.CteLike c d) (hs : L.ScopeLike s u)
    (hpart : L.PartLike c.body d.body ts us) (laws : L.Lawful) :
    L.NotedLike (Option.Rel L.ResultColumnsLike) (c.resolveAnchor s ts)
      (d.resolveAnchor u us) := by
  have hitems := CteLike.anchorItems hpart laws
  have hscope := hs.narrow ((statement_like hpart laws).tokens laws)
  unfold Cte.resolveAnchor
  generalize c.anchorItems ts = items at hitems ⊢
  generalize d.anchorItems us = items' at hitems ⊢
  cases hitems with
  | nil =>
      exact .bind (.error (fun _ => h.position) fun hexact => by rw [h.name.exactly hexact])
        fun _ _ _ => .pure .none
  | cons hitem hitems =>
      exact .bind (CteLike.noteMissing hscope) fun _ _ _ =>
        .bind (resolveProjection_like (.cons hitem hitems) laws hscope .cte) fun _ _ hcs =>
          .bind (h.applyNames hcs) fun _ _ hnamed => .pure (.some hnamed)

end CteLike

theorem itemWidth?_like {i j : Item} (h : L.ItemLike i j) (hs : L.ScopeLike s u) :
    Cte.itemWidth? s i = Cte.itemWidth? u j := by
  have hcount {e f : Scope.Entry} (hef : L.EntryLike e f) :
      e.columns.length = f.columns.length := hef.columns.length_eq
  have hshape := h.shape
  unfold Cte.itemWidth?
  generalize i.shape = a at hshape ⊢
  generalize j.shape = b at hshape ⊢
  cases hshape with
  | star hab =>
      cases hab with
      | none =>
          simp only [hs.hasOpaque, map_eq hs.entries fun _ _ hef => hcount hef]
      | @some a b hab =>
          have hwidth := map_rel (S := Eq) (hs.entry? hab) fun _ _ hef => hcount hef
          dsimp only
          generalize (s.entry? a).map _ = m at hwidth ⊢
          generalize (u.entry? b).map _ = n at hwidth ⊢
          cases hwidth with
          | none => rfl
          | some hmn => rw [hmn]
  | column _ _ => rfl
  | expression _ => rfl

theorem width?_like {is js : List Item} (h : List.Forall₂ L.ItemLike is js)
    (hs : L.ScopeLike s u) : Cte.width? s is = Cte.width? u js := by
  have hwidths : is.mapM (Cte.itemWidth? s) = js.mapM (Cte.itemWidth? u) := by
    induction h with
    | nil => rfl
    | cons hij _ ih => rw [List.mapM_cons, List.mapM_cons, itemWidth?_like hij hs, ih]
  unfold Cte.width?
  rw [hwidths]

namespace CteLike

variable {c d : Cte}

theorem checkRecursion (h : L.CteLike c d) (hs : L.ScopeLike s u)
    (hpart : L.PartLike c.body d.body ts us) (laws : L.Lawful) (expected : Nat) :
    L.NotedLike Eq (c.checkRecursion s expected ts) (d.checkRecursion u expected us) := by
  have hstatement := (statement_like hpart laws).tokens laws
  unfold Cte.checkRecursion
  simp only [TokensLike.startsWith hstatement,
    width?_like (QueryLike.ofTokens hpart laws).items (hs.narrow hstatement)]
  split
  · split
    · exact .pure rfl
    · split
      · exact .pure rfl
      · exact .error (fun _ => h.position) fun hexact => by rw [h.name.exactly hexact]
  · exact .pure rfl

theorem tokensOf_empty (p : Position) : Token.tokensOf "" p = [] := by
  unfold Token.tokensOf
  rw [Token.tokenizeAt_eq_ok_iff.mpr (.done (by simp))]
  rfl

theorem tokens (h : L.CteLike c d) (laws : L.Lawful) :
    L.PartLike c.body d.body (Token.tokensOf c.body c.bodyPosition)
      (Token.tokensOf d.body d.bodyPosition) := by
  rcases h.body with ⟨hc, hd⟩ | hcut
  · rw [hc, hd, tokensOf_empty, tokensOf_empty]
    exact .empty
  · exact .whole laws hcut

theorem resolve (h : L.CteLike c d) (hs : L.ScopeLike s u) (laws : L.Lawful) (recursive : Bool) :
    L.NotedLike L.ScopeLike (c.resolve recursive s) (d.resolve recursive u) := by
  have hsplit := splitUnion_like (h.tokens laws) laws
  unfold Token.tokensOf at hsplit
  unfold Cte.resolve
  dsimp only
  generalize splitUnion ((Token.tokenizeAt c.body c.bodyPosition).toOption.getD []) = x
    at hsplit ⊢
  generalize splitUnion ((Token.tokenizeAt d.body d.bodyPosition).toOption.getD []) = y
    at hsplit ⊢
  obtain ⟨anchor, term⟩ := x
  obtain ⟨anchor', term'⟩ := y
  obtain ⟨hanchor, hterm⟩ := hsplit
  refine .bind (h.resolveAnchor hs hanchor laws) fun x y hxy => ?_
  cases hxy with
  | none => exact .pure hs
  | @some cs ds hcs =>
      have hentry : L.EntryLike
          ((Scope.Entry.bare c.name).pushAll (cs.map fun c => (c.name, c.type)))
          ((Scope.Entry.bare d.name).pushAll (ds.map fun c => (c.name, c.type))) :=
        EntryLike.pushAll ⟨h.name, .nil⟩ (List.rel_map (fun _ _ hcd => ⟨hcd.name, hcd.type⟩) hcs)
      have hbase := hs.addEntry hentry
      cases recursive with
      | false => exact .pure hbase
      | true =>
          cases hterm with
          | none => exact .pure hbase
          | some hterm =>
              have hcheck := h.checkRecursion hbase hterm laws cs.length
              dsimp only
              rw [← hcs.length_eq]
              exact .bind hcheck fun _ _ _ => .pure hbase

end CteLike

/-- Alike common table expressions add alike relations to alike scopes. -/
theorem resolveCtes_like {cs ds : List Cte} (h : List.Forall₂ L.CteLike cs ds)
    (hs : L.ScopeLike s u) (laws : L.Lawful) (recursive : Bool) :
    L.NotedLike L.ScopeLike (resolveCtes recursive s cs) (resolveCtes recursive u ds) := by
  induction h generalizing s u with
  | nil => exact .pure hs
  | cons hcd _ ih => exact .bind (hcd.resolve hs laws recursive) fun _ _ hbase => ih hbase

end TypedSql.Likeness

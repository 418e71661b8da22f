import TypedSql.Analysis.Param
import TypedSql.Proofs.Likeness.Neighbor
import TypedSql.Proofs.Likeness.Segment

/-!
# Parameters in both runs

Alike parameters get the same types, as the same columns stand near them.

Main statements: `paramHints_like` and `finishParams_like`.
-/

namespace TypedSql.Likeness

open Diagnostic Query Token Memberwise

variable {L : Likeness} {ts us : List Token}

/-! ## Hints -/

/-- Hints in both runs. -/
structure HintLike (L : Likeness) (h k : Hint) : Prop where
  type : h.type = k.type
  name : Option.Rel L.NameLike h.name k.name

/-- What is known when parameters are typed, in both runs. -/
structure ContextLike (L : Likeness) (c d : ParamContext) : Prop where
  tokens : L.TokensLike c.tokens d.tokens
  segments : List.Forall₂ L.SegmentLike c.segments d.segments
  base : L.ScopeLike c.base d.base
  catalog : c.catalog = d.catalog

theorem catalogColumn?_like (c : Catalog) {a b x y : String} (hab : L.NameLike a b)
    (hxy : L.NameLike x y) : c.column? a x = c.column? b y := by
  have hnamed : Column.isNamed x = Column.isNamed y :=
    funext fun column => (NameLike.refl (L := L) column.name).eqIgnoreCase hxy
  unfold Catalog.column? Table.column?
  rw [table?_like c hab, hnamed]

namespace ContextLike

variable {c d : ParamContext} {s u : Scope}

theorem scopeAt (h : L.ContextLike c d) (index : Nat) :
    L.ScopeLike (c.scopeAt index) (d.scopeAt index) := by
  have hfound := find?_rel h.segments (p := fun s => s.contains index)
    (q := fun s => s.contains index) fun s u hsu => by
      unfold Segment.contains
      rw [hsu.ranges]
  exact getD_rel (map_rel (or_rel hfound (head?_rel h.segments)) fun _ _ hsu => hsu.scope) h.base

theorem columnType? (h : L.ContextLike c d) (hs : L.ScopeLike s u) {x y : Neighbor.ColumnName}
    (hxy : L.ColumnNameLike x y) : c.columnType? s x = d.columnType? u y := by
  have hlookup := hs.lookup hxy.qualifier hxy.name
  have hany := (h.base.lookupAny hxy.name).type
  have hqualified : (x.qualifier.bind fun q =>
        (c.base.lookupIn q x.name).toOption.map Scope.Column.type) =
      (y.qualifier.bind fun q =>
        (d.base.lookupIn q y.name).toOption.map Scope.Column.type) := by
    have hqualifier := hxy.qualifier
    generalize x.qualifier = a at hqualifier ⊢
    generalize y.qualifier = b at hqualifier ⊢
    cases hqualifier with
    | none => rfl
    | some hab => exact (h.base.lookupIn hab hxy.name).type
  have hdeclared : (x.qualifier.bind fun q =>
        (c.catalog.column? q x.name).map fun d => Affinity.columnType d.declaration d.notNull) =
      (y.qualifier.bind fun q =>
        (d.catalog.column? q y.name).map fun d => Affinity.columnType d.declaration d.notNull) := by
    have hqualifier := hxy.qualifier
    generalize x.qualifier = a at hqualifier ⊢
    generalize y.qualifier = b at hqualifier ⊢
    cases hqualifier with
    | none => rfl
    | some hab => simp only [Option.bind_some, h.catalog, catalogColumn?_like _ hab hxy.name]
  unfold ParamContext.columnType?
  simp only [hqualified, hdeclared, hany]
  generalize s.lookup x.qualifier x.name = found at hlookup ⊢
  generalize u.lookup y.qualifier y.name = found' at hlookup ⊢
  cases hlookup with
  | ok hcd => exact congrArg some hcd.type
  | error hef => cases hef <;> rfl

theorem hintBefore? (h : L.ContextLike c d) (hs : L.ScopeLike s u) (hts : L.TokensLike ts us) :
    Option.Rel L.HintLike (c.hintBefore? s ts) (d.hintBefore? u us) := by
  refine bind_rel (comparedBefore?_like hts) fun x y hxy => ?_
  rw [h.columnType? hs hxy]
  cases d.columnType? u y with
  | none => exact .none
  | some type => exact .some ⟨rfl, .some hxy.name⟩

theorem hintBehind? (h : L.ContextLike c d) (hs : L.ScopeLike s u) (cast : Option TypeInfo)
    (hts : L.TokensLike ts us) :
    Option.Rel L.HintLike (c.hintBehind? s cast ts) (d.hintBehind? u cast us) := by
  refine bind_rel (comparedBehind?_like hts) fun x y hxy => ?_
  rw [h.columnType? hs hxy]
  cases (d.columnType? u y).or cast with
  | none => exact .none
  | some type => exact .some ⟨rfl, .some hxy.name⟩

theorem readCast (hts : L.TokensLike ts us) :
    (ParamContext.readCast ts).1 = (ParamContext.readCast us).1 ∧
      L.TokensLike (ParamContext.readCast ts).2 (ParamContext.readCast us).2 := by
  cases hts with
  | nil => exact ⟨rfl, .nil⟩
  | @cons op op' rest rest' hop hrest =>
      simp only [ParamContext.readCast, hop.isOperator]
      split
      · refine ⟨?_, List.forall₂_drop 1 hrest⟩
        cases hrest with
        | nil => rfl
        | cons htu _ => simp [Affinity.named?_of_lower_eq htu.name.lower]
      · exact ⟨rfl, .cons hop hrest⟩

theorem hint? (h : L.ContextLike c d) {xs ys : List InsertTarget}
    (htargets : List.Forall₂ L.TargetLike xs ys) (index : Nat) (variadic : Bool) :
    Option.Rel L.HintLike (c.hint? xs index variadic) (d.hint? ys index variadic) := by
  have hworking := h.scopeAt index
  have hbefore := before_like h.tokens index
  have hwritten := TokensLike.startsWith (List.forall₂_drop index h.tokens) "sqlc"
  have hbehind := List.forall₂_drop
    (index + if startsWith "sqlc" (d.tokens.drop index) then macroSize else 1) h.tokens
  have hword := filter_rel (head?_rel hbefore) fun _ _ htu => htu.isAnyWord ["LIMIT", "OFFSET"]
  have hlist := inListColumn?_like h.tokens index
  have hcast := readCast hbehind
  have htarget := find?_rel htargets (p := fun target => target.index == index)
    (q := fun target => target.index == index) fun _ _ htu => by rw [htu.index]
  unfold ParamContext.hint?
  simp only [hwritten]
  generalize ((c.tokens.take index).reverse.head?).filter _ = word at hword ⊢
  generalize ((d.tokens.take index).reverse.head?).filter _ = word' at hword ⊢
  cases hword with
  | some hword => exact .some ⟨rfl, .some (.of_eq hword.name.lower)⟩
  | none =>
  generalize Neighbor.inListColumn? c.tokens index = column at hlist ⊢
  generalize Neighbor.inListColumn? d.tokens index = column' at hlist ⊢
  cases hlist with
  | some hcolumn =>
      simp only [h.columnType? hworking hcolumn]
      generalize d.columnType? _ _ = type
      cases type with
      | none => exact .none
      | some type => exact .some ⟨rfl, .some hcolumn.name⟩
  | none =>
  generalize ParamContext.readCast _ = x at hcast ⊢
  generalize ParamContext.readCast _ = y at hcast ⊢
  obtain ⟨cast, behind⟩ := x
  obtain ⟨cast', behind'⟩ := y
  obtain ⟨rfl, hrest⟩ := hcast
  have hhint := or_rel (h.hintBefore? hworking hbefore) (h.hintBehind? hworking cast hrest)
  dsimp only
  generalize (c.hintBefore? _ _).or _ = hint at hhint ⊢
  generalize (d.hintBefore? _ _).or _ = hint' at hhint ⊢
  cases hhint with
  | some hhint => exact .some hhint
  | none =>
  generalize xs.find? _ = target at htarget ⊢
  generalize ys.find? _ = target' at htarget ⊢
  cases htarget with
  | none =>
      cases cast with
      | none => exact .none
      | some type => exact .some ⟨rfl, .none⟩
  | @some target target' htarget =>
      have hcolumn : L.ColumnNameLike ⟨some target.table, target.column⟩
          ⟨some target'.table, target'.column⟩ := ⟨.some htarget.table, htarget.column⟩
      simp only [h.columnType? hworking hcolumn]
      generalize d.columnType? _ _ = type
      cases type with
      | none => exact .none
      | some type => exact .some ⟨rfl, .some htarget.column⟩

end ContextLike

theorem paramIndex?_like (laws : L.Lawful) (h : L.TokensLike ts us) {p q : Param}
    (hpq : L.ParamLike p q) : paramIndex? ts p = paramIndex? us q :=
  findIdx?_eq h fun t u htu => by
    rw [Bool.eq_iff_iff, beq_iff_eq, beq_iff_eq]
    exact laws.place_iff htu.position hpq.position

theorem paramHints_like (laws : L.Lawful) {c d : ParamContext} (h : L.ContextLike c d)
    {ps qs : List Param} (hps : List.Forall₂ L.ParamLike ps qs) :
    List.Forall₂ (Option.Rel L.HintLike) (paramHints c ps) (paramHints d qs) := by
  have htargets := targets_like (L := L) d.catalog h.tokens
  unfold paramHints
  rw [h.catalog]
  refine List.rel_map (fun p q hpq => ?_) hps
  rw [paramIndex?_like laws h.tokens hpq, hpq.variadic]
  cases paramIndex? d.tokens q with
  | none => exact .none
  | some index => exact h.hint? htargets index q.variadic

/-! ## Results -/

/-- Parameters with their types, in both runs. -/
structure ResultParamLike (L : Likeness) (p q : ResultParam) : Prop where
  name : L.NameLike p.name q.name
  binding : L.BindingLike p.binding q.binding
  type : p.type = q.type
  variadic : p.variadic = q.variadic
  elements : p.elements = q.elements

/-- Annotations in both runs. -/
structure TypeHintLike (L : Likeness) (a b : TypeHint) : Prop where
  name : a.name = b.name
  typeName : a.typeName = b.typeName
  nullable : a.nullable = b.nullable
  position : L.exact → L.place a.position b.position

theorem baseName_like {p q : Param} (hpq : L.ParamLike p q) {h k : Option Hint}
    (hhk : Option.Rel L.HintLike h k) (number : Nat) :
    L.NameLike (baseName p h number) (baseName q k number) := by
  have hname : Option.Rel L.NameLike p.binding.name? q.binding.name? := by
    have hbinding := hpq.binding
    generalize p.binding = a at hbinding ⊢
    generalize q.binding = b at hbinding ⊢
    cases hbinding with
    | positional => exact .none
    | named hab => exact .some hab
    | numbered _ => exact .none
  have hnumber : p.binding.number? = q.binding.number? := by
    have hbinding := hpq.binding
    generalize p.binding = a at hbinding ⊢
    generalize q.binding = b at hbinding ⊢
    cases hbinding <;> rfl
  unfold baseName
  rw [hnumber]
  exact getD_rel (or_rel hname (bind_rel hhk fun _ _ h => h.name)) (.refl _)

theorem numberedName_like (used : List String) {a b : String} (hab : L.NameLike a b) :
    L.NameLike (numberedName used a) (numberedName used b) := by
  unfold numberedName
  simp only [hab.lower]
  split
  · exact hab
  · exact (hab.append (.refl "_")).append (.refl _)

theorem annotatedType_like {as bs : List TypeHint} (h : List.Forall₂ L.TypeHintLike as bs)
    {x y : String} (hxy : L.NameLike x y) (type : TypeInfo) :
    L.NotedLike Eq (annotatedType as x type) (annotatedType bs y type) := by
  have hname (a b : TypeHint) (hab : L.TypeHintLike a b) :
      Text.eqIgnoreCase a.name x = Text.eqIgnoreCase b.name y := by
    have hsame : L.NameLike a.name b.name := .of_eq hab.name
    exact hsame.eqIgnoreCase hxy
  have hfound : Option.Rel L.TypeHintLike (as.find? fun a => Text.eqIgnoreCase a.name x)
      (bs.find? fun a => Text.eqIgnoreCase a.name y) := find?_rel h hname
  unfold annotatedType TypeHint.find?
  generalize as.find? (fun a => Text.eqIgnoreCase a.name x) = a at hfound ⊢
  generalize bs.find? (fun a => Text.eqIgnoreCase a.name y) = b at hfound ⊢
  cases hfound with
  | none => exact .pure rfl
  | some hab =>
      simp only [hab.typeName, hab.nullable]
      split
      · exact .pure rfl
      · exact .bind (.warning hab.position fun _ => by rw [hab.name]) fun _ _ _ => .pure rfl

theorem markedType_like {p q : Param} (h : L.ParamLike p q) (type : TypeInfo) :
    markedType p type = markedType q type := by
  unfold markedType
  rw [h.variadic, h.forceNullable]

theorem finishFrom_like (laws : L.Lawful) {as bs : List TypeHint}
    (has : List.Forall₂ L.TypeHintLike as bs) (hts : L.TokensLike ts us)
    {xs ys : List (Param × Option Hint)}
    (h : List.Forall₂ (fun x y => L.ParamLike x.1 y.1 ∧ Option.Rel L.HintLike x.2 y.2) xs ys)
    (number : Nat) (used : List String) :
    L.NotedLike (List.Forall₂ L.ResultParamLike) (finishFrom as ts number used xs)
      (finishFrom bs us number used ys) := by
  induction h generalizing number used with
  | nil => exact .pure .nil
  | @cons x y xs ys hxy _ ih =>
      obtain ⟨p, hint⟩ := x
      obtain ⟨q, hint'⟩ := y
      obtain ⟨hpq, hhint⟩ := hxy
      have hbase := baseName_like hpq hhint number
      have hname := numberedName_like used hbase
      have htype : ((hint.map (·.type)).getD .unresolved) =
          ((hint'.map (·.type)).getD .unresolved) :=
        getD_rel (R := Eq) (map_rel hhint fun _ _ h => h.type) rfl
      have helements : ((paramIndex? ts p).bind fun i => Neighbor.inListLength? ts i) =
          ((paramIndex? us q).bind fun i => Neighbor.inListLength? us i) := by
        have hlength : Neighbor.inListLength? ts = Neighbor.inListLength? us :=
          funext (inListLength?_like hts)
        rw [paramIndex?_like laws hts hpq, hlength]
      simp only [finishFrom]
      rw [htype, helements, hbase.lower]
      have hresult {type type' : TypeInfo} (htype : type = type') : L.ResultParamLike
          ⟨numberedName used (baseName p hint number), p.binding, markedType p type, p.variadic,
            (paramIndex? us q).bind fun i => Neighbor.inListLength? us i⟩
          ⟨numberedName used (baseName q hint' number), q.binding, markedType q type', q.variadic,
            (paramIndex? us q).bind fun i => Neighbor.inListLength? us i⟩ :=
        ⟨hname, hpq.binding, by rw [htype, markedType_like hpq], hpq.variadic, rfl⟩
      exact .bind (annotatedType_like has hname _) fun _ _ htype =>
        .bind (ih _ _) fun _ _ hmore => .pure (.cons (hresult htype) hmore)

/-- Alike parameters get the same types and alike names. -/
theorem finishParams_like (laws : L.Lawful) {b b' : Block}
    (hhints : List.Forall₂ L.TypeHintLike b.paramHints b'.paramHints)
    (hparams : List.Forall₂ L.ParamLike b.query.params b'.query.params)
    (hts : L.TokensLike ts us) {hs ks : List (Option Hint)}
    (h : List.Forall₂ (Option.Rel L.HintLike) hs ks) :
    L.NotedLike (List.Forall₂ L.ResultParamLike) (finishParams b ts hs) (finishParams b' us ks) :=
  finishFrom_like laws hhints hts (zip_rel hparams h) 1 []

end TypedSql.Likeness

import TypedSql.Proofs.Likeness.Nesting
import TypedSql.Proofs.Scope.Lookup
import TypedSql.Scope.Narrow

/-!
# Scopes in both runs

Alike scopes find the same columns under alike names, and fail with the same errors.  The
references of alike statements narrow them to alike scopes.
-/

namespace TypedSql.Likeness

open Text Token Memberwise

variable {L : Likeness}

/-! ## Relations -/

/-- Columns of a scope in both runs. -/
structure ColumnLike (L : Likeness) (c d : Scope.Column) : Prop where
  name : L.NameLike c.name d.name
  relation : L.NameLike c.relation d.relation
  type : c.type = d.type

/-- Relations in both runs. -/
structure EntryLike (L : Likeness) (e f : Scope.Entry) : Prop where
  name : L.NameLike e.name f.name
  columns : List.Forall₂ L.ColumnLike e.columns f.columns

theorem ColumnLike.refl (c : Scope.Column) : L.ColumnLike c c := ⟨.refl _, .refl _, rfl⟩

theorem ColumnLike.eq {c d : Scope.Column} (h : L.ColumnLike c d) (hexact : L.exact) : c = d := by
  cases c
  cases d
  cases h.name.exactly hexact
  cases h.relation.exactly hexact
  cases h.type
  rfl

namespace EntryLike

variable {e f : Scope.Entry}

theorem refl (e : Scope.Entry) : L.EntryLike e e :=
  ⟨.refl _, List.forall₂_same.mpr fun c _ => .refl c⟩

theorem eq (h : L.EntryLike e f) (hexact : L.exact) : e = f := by
  have hcolumns : List.Forall₂ Eq e.columns f.columns :=
    h.columns.imp fun _ _ hcd => hcd.eq hexact
  rw [List.forall₂_eq_eq_eq] at hcolumns
  exact Scope.Entry.ext_columns (h.name.exactly hexact) hcolumns

theorem column? (h : L.EntryLike e f) {a b : String} (hab : L.NameLike a b) :
    Option.Rel L.ColumnLike (e.column? a) (f.column? b) := by
  rw [e.column?_eq_find?, f.column?_eq_find?]
  exact find?_rel h.columns fun _ _ hcd => hcd.name.eqIgnoreCase hab

theorem push (h : L.EntryLike e f) {a b : String} (hab : L.NameLike a b) (type : TypeInfo) :
    L.EntryLike (e.push a type) (f.push b type) := by
  have hthere : lowerCase a ∈ e.index.keys ↔ lowerCase b ∈ f.index.keys := by
    rw [Scope.Entry.mem_keys_index, Scope.Entry.mem_keys_index, isSome_eq (h.column? hab)]
  unfold Scope.Entry.push
  by_cases hb : lowerCase b ∈ f.index.keys
  · rw [dif_pos (hthere.mpr hb), dif_pos hb]
    exact h
  · rw [dif_neg (mt hthere.mp hb), dif_neg hb]
    exact ⟨h.name, List.rel_append h.columns (.cons ⟨hab, h.name, rfl⟩ .nil)⟩

theorem pushAll (h : L.EntryLike e f) {cs ds : List (String × TypeInfo)}
    (hcs : List.Forall₂ (fun c d => L.NameLike c.1 d.1 ∧ c.2 = d.2) cs ds) :
    L.EntryLike (e.pushAll cs) (f.pushAll ds) :=
  List.rel_foldl (fun _ _ h _ _ hcd => hcd.2 ▸ h.push hcd.1 _) h hcs

end EntryLike

/-! ## Scopes -/

/-- A missing relation in both runs. -/
structure MissingLike (L : Likeness) (m n : Scope.Missing) : Prop where
  name : L.NameLike m.name n.name
  position : L.place m.position n.position

/-- Scopes in both runs. -/
structure ScopeLike (L : Likeness) (s u : Scope) : Prop where
  entries : List.Forall₂ L.EntryLike s.entries u.entries
  names : s.names = u.names
  opaqueNames : s.opaqueNames = u.opaqueNames
  missing : List.Forall₂ L.MissingLike s.missing u.missing

/-- Lookup errors in both runs. -/
inductive LookupErrorLike (L : Likeness) : Scope.LookupError → Scope.LookupError → Prop
  | unknownRelation {a b : String} (h : L.NameLike a b) :
      LookupErrorLike L (.unknownRelation a) (.unknownRelation b)
  | unknownColumn {a b c d : String} (h : L.NameLike a b) (h' : L.NameLike c d) :
      LookupErrorLike L (.unknownColumn a c) (.unknownColumn b d)
  | noSuchColumn {a b : String} (h : L.NameLike a b) :
      LookupErrorLike L (.noSuchColumn a) (.noSuchColumn b)
  | ambiguous {a b : String} (h : L.NameLike a b) :
      LookupErrorLike L (.ambiguous a) (.ambiguous b)
  | unmapped {a b : String} (h : L.NameLike a b) : LookupErrorLike L (.unmapped a) (.unmapped b)

theorem LookupErrorLike.eq {e f : Scope.LookupError} (h : L.LookupErrorLike e f)
    (hexact : L.exact) : e = f := by
  cases h with
  | unknownRelation h => rw [h.exactly hexact]
  | unknownColumn h h' => rw [h.exactly hexact, h'.exactly hexact]
  | noSuchColumn h => rw [h.exactly hexact]
  | ambiguous h => rw [h.exactly hexact]
  | unmapped h => rw [h.exactly hexact]

/-- Lookups in both runs. -/
inductive LookupLike (L : Likeness) :
    Except Scope.LookupError Scope.Column → Except Scope.LookupError Scope.Column → Prop
  | ok {c d : Scope.Column} (h : L.ColumnLike c d) : LookupLike L (.ok c) (.ok d)
  | error {e f : Scope.LookupError} (h : L.LookupErrorLike e f) : LookupLike L (.error e) (.error f)

theorem LookupLike.type {x y : Except Scope.LookupError Scope.Column} (h : L.LookupLike x y) :
    x.toOption.map Scope.Column.type = y.toOption.map Scope.Column.type := by
  cases h with
  | ok h => exact congrArg some h.type
  | error _ => rfl

namespace ScopeLike

variable {s u : Scope} {a b : String}

theorem empty : L.ScopeLike .empty .empty := ⟨.nil, rfl, rfl, .nil⟩

theorem slot? (h : L.ScopeLike s u) (hab : L.NameLike a b) : s.slot? a = u.slot? b := by
  unfold Scope.slot?
  rw [h.names, hab.lower]

theorem entry? (h : L.ScopeLike s u) (hab : L.NameLike a b) :
    Option.Rel L.EntryLike (s.entry? a) (u.entry? b) := by
  unfold Scope.entry?
  rw [h.slot? hab]
  cases u.slot? b with
  | none => exact .none
  | some slot => exact getElem?_rel h.entries slot

theorem isOpaque (h : L.ScopeLike s u) (hab : L.NameLike a b) : s.isOpaque a = u.isOpaque b := by
  unfold Scope.isOpaque
  rw [h.opaqueNames, hab.lower]

theorem hasOpaque (h : L.ScopeLike s u) : s.hasOpaque = u.hasOpaque := by
  unfold Scope.hasOpaque
  rw [h.opaqueNames]

theorem isEmpty (h : L.ScopeLike s u) : s.isEmpty = u.isEmpty := by
  unfold Scope.isEmpty
  rw [Bool.eq_iff_iff, List.isEmpty_iff_length_eq_zero, List.isEmpty_iff_length_eq_zero,
    h.entries.length_eq]

theorem addEntry (h : L.ScopeLike s u) {e f : Scope.Entry} (hef : L.EntryLike e f) :
    L.ScopeLike (s.addEntry e) (u.addEntry f) := by
  unfold Scope.addEntry
  rw [h.slot? hef.name, hef.name.lower, h.entries.length_eq, h.names]
  split
  · exact ⟨set_rel h.entries _ hef, rfl, h.opaqueNames, h.missing⟩
  · exact ⟨List.rel_append h.entries (.cons hef .nil), rfl, h.opaqueNames, h.missing⟩

theorem slotFor (h : L.ScopeLike s u) {e f : Scope.Entry} (hef : L.EntryLike e f) :
    s.slotFor e = u.slotFor f := by
  unfold Scope.slotFor
  rw [h.slot? hef.name, h.entries.length_eq]

theorem addAlias (h : L.ScopeLike s u) (hab : L.NameLike a b) (slot : Nat) :
    L.ScopeLike (s.addAlias a slot) (u.addAlias b slot) := by
  unfold Scope.addAlias
  rw [hab.lower, h.names]
  exact ⟨h.entries, rfl, h.opaqueNames, h.missing⟩

theorem addOpaque (h : L.ScopeLike s u) (hab : L.NameLike a b) :
    L.ScopeLike (s.addOpaque a) (u.addOpaque b) := by
  unfold Scope.addOpaque
  rw [h.isOpaque hab, hab.lower, h.opaqueNames]
  split
  · exact h
  · exact ⟨h.entries, h.names, rfl, h.missing⟩

theorem addOpaque? (h : L.ScopeLike s u) {a b : Option String} (hab : Option.Rel L.NameLike a b) :
    L.ScopeLike (s.addOpaque? a) (u.addOpaque? b) := by
  cases hab with
  | none => exact h
  | some hab => exact h.addOpaque hab

theorem addAlias? (h : L.ScopeLike s u) {a b : Option String} (hab : Option.Rel L.NameLike a b)
    (slot : Nat) : L.ScopeLike (s.addAlias? a slot) (u.addAlias? b slot) := by
  cases hab with
  | none => exact h
  | some hab => exact h.addAlias hab slot

theorem ofCatalog (overrides : ColumnOverrides) (c : Catalog) :
    L.ScopeLike (.ofCatalog overrides c) (.ofCatalog overrides c) :=
  List.rel_foldl (fun _ _ h t _ htu => htu ▸ h.addEntry (.refl (.ofTable overrides t))) .empty
    (List.forall₂_same.mpr fun _ _ => rfl)

theorem lookupIn (h : L.ScopeLike s u) (hab : L.NameLike a b) {c d : String}
    (hcd : L.NameLike c d) : L.LookupLike (s.lookupIn a c) (u.lookupIn b d) := by
  unfold Scope.lookupIn
  have hentry := h.entry? hab
  generalize s.entry? a = e at hentry ⊢
  generalize u.entry? b = f at hentry ⊢
  cases hentry with
  | none =>
      rw [h.isOpaque hab]
      simp only
      split
      · exact .error (.unmapped hcd)
      · exact .error (.unknownRelation hab)
  | @some e f hef =>
      have hcolumn := hef.column? hcd
      simp only
      generalize e.column? c = x at hcolumn ⊢
      generalize f.column? d = y at hcolumn ⊢
      cases hcolumn with
      | none => exact .error (.unknownColumn hab hcd)
      | some hxy => exact .ok hxy

theorem lookupAny (h : L.ScopeLike s u) (hab : L.NameLike a b) :
    L.LookupLike (s.lookupAny a) (u.lookupAny b) := by
  have hfound : List.Forall₂ L.ColumnLike (s.entries.filterMap fun e => e.column? a)
      (u.entries.filterMap fun e => e.column? b) :=
    List.rel_filterMap (fun _ _ hef => hef.column? hab) h.entries
  unfold Scope.lookupAny
  rw [h.hasOpaque]
  generalize (s.entries.filterMap fun e => e.column? a) = found at hfound ⊢
  generalize (u.entries.filterMap fun e => e.column? b) = found' at hfound ⊢
  cases hfound with
  | nil =>
      simp only
      split
      · exact .error (.unmapped hab)
      · exact .error (.noSuchColumn hab)
  | cons hcd hrest =>
      cases hrest with
      | nil => exact .ok hcd
      | cons _ _ => exact .error (.ambiguous hab)

theorem lookup (h : L.ScopeLike s u) {q r : Option String} (hqr : Option.Rel L.NameLike q r)
    (hab : L.NameLike a b) : L.LookupLike (s.lookup q a) (u.lookup r b) := by
  cases hqr with
  | none => exact h.lookupAny hab
  | some hqr => exact h.lookupIn hqr hab

end ScopeLike

/-! ## References -/

/-- References in both runs. -/
structure RefLike (L : Likeness) (r q : RelationRef) : Prop where
  name : L.NameLike r.name q.name
  asName : Option.Rel L.NameLike r.asName q.asName
  position : L.place r.position q.position
  derived : r.derived = q.derived
  tokens : r.tokens = q.tokens

theorem readAlias_like {ps qs : List Place} (h : L.PlacesLike ps qs) :
    Option.Rel L.PlaceLike (RelationRef.readAlias ps).1 (RelationRef.readAlias qs).1 ∧
      L.PlacesLike (RelationRef.readAlias ps).2 (RelationRef.readAlias qs).2 := by
  have hrest : L.PlacesLike (if nextIsWord "AS" ps then ps.drop 1 else ps)
      (if nextIsWord "AS" qs then qs.drop 1 else qs) := by
    rw [PlacesLike.nextIsWord h]
    split
    · exact List.forall₂_drop 1 h
    · exact h
  unfold RelationRef.readAlias
  generalize (if nextIsWord "AS" ps then ps.drop 1 else ps) = rest at hrest ⊢
  generalize (if nextIsWord "AS" qs then qs.drop 1 else qs) = rest' at hrest ⊢
  cases hrest with
  | nil => exact ⟨.none, h⟩
  | cons hpq hrest =>
      simp only [hpq.token.isName, hpq.token.isAnyWord]
      split
      · exact ⟨.some hpq, hrest⟩
      · exact ⟨.none, h⟩

theorem readParts_like {ps qs : List Place} (h : L.PlacesLike ps qs) :
    L.PlacesLike (RelationRef.readParts ps).1 (RelationRef.readParts qs).1 ∧
      L.PlacesLike (RelationRef.readParts ps).2 (RelationRef.readParts qs).2 := by
  fun_induction RelationRef.readParts ps generalizing qs with
  | case1 dot part rest hname ih =>
      cases h with
      | cons hdot h =>
      cases h with
      | cons hpart h =>
          rw [hdot.token.kind, hpart.token.isName] at hname
          simp only [RelationRef.readParts, if_pos hname]
          exact ⟨.cons hpart (ih h).1, (ih h).2⟩
  | case2 dot part rest hname =>
      cases h with
      | cons hdot h =>
      cases h with
      | cons hpart h =>
          rw [hdot.token.kind, hpart.token.isName] at hname
          simp only [RelationRef.readParts, if_neg hname]
          exact ⟨.nil, .cons hdot (.cons hpart h)⟩
  | case3 rest hshort =>
      cases h with
      | nil => exact ⟨.nil, .nil⟩
      | cons hdot h =>
          cases h with
          | nil => exact ⟨.nil, .cons hdot .nil⟩
          | cons hpart h => exact absurd rfl (hshort _ _ _)

/-- References and what follows them, in both runs. -/
abbrev ReadLike (L : Likeness) (x y : RelationRef × List Place) : Prop :=
  L.RefLike x.1 y.1 ∧ L.PlacesLike x.2 y.2

theorem indices_like {ps qs : List Place} (h : L.PlacesLike ps qs) :
    ps.map (·.index) = qs.map (·.index) := map_eq h fun _ _ hpq => hpq.index

theorem aliasIndex_like {p q : Option Place} (h : Option.Rel L.PlaceLike p q) :
    (p.map (·.index)).toList = (q.map (·.index)).toList := by
  cases h with
  | none => rfl
  | some h => simp [h.index]

theorem read?_like {ps qs : List Place} (h : L.PlacesLike ps qs) (allowFunction : Bool) :
    Option.Rel L.ReadLike (RelationRef.read? allowFunction ps)
      (RelationRef.read? allowFunction qs) := by
  have hwhole := h
  cases h with
  | nil => exact .none
  | @cons first first' rest rest' hfirst hrest =>
      simp only [RelationRef.read?, hfirst.token.kind, hfirst.token.isName]
      split
      · refine map_rel (PlacesLike.groupPlaces? hwhole) fun g k hgk => ?_
        have halias := readAlias_like hgk.2
        exact ⟨⟨.refl _, map_rel halias.1 fun _ _ hpq => hpq.token.value, hfirst.token.position,
          rfl, aliasIndex_like halias.1⟩, halias.2⟩
      · split
        · have hparts := readParts_like hrest
          have hname := getLastD_rel hparts.1 hfirst
          rw [PlacesLike.nextIsKind hparts.2]
          refine map_rel (R := fun g k => g.1 = k.1 ∧ L.PlacesLike g.2 k.2) ?_ fun g k hgk => ?_
          · split
            · exact map_rel (PlacesLike.groupPlaces? hparts.2) fun _ _ hgk => ⟨rfl, hgk.2⟩
            · exact .some ⟨rfl, hparts.2⟩
          · have halias := readAlias_like hgk.2
            refine ⟨⟨hname.token.value, map_rel halias.1 fun _ _ hpq => hpq.token.value,
              hname.token.position, hgk.1, ?_⟩, halias.2⟩
            simp only [hfirst.index, indices_like hparts.1, aliasIndex_like halias.1]
        · exact .none

/-- The references of a list: one, and those behind a comma where a list is allowed. -/
theorem readList_eq (allowFunction allowList : Bool) (places : List Place) :
    RelationRef.readList allowFunction allowList places =
      match RelationRef.read? allowFunction places with
      | none => ([], places)
      | some (r, rest) =>
          if allowList && nextIsKind .comma rest then
            (r :: (RelationRef.readList allowFunction allowList (rest.drop 1)).1,
              (RelationRef.readList allowFunction allowList (rest.drop 1)).2)
          else ([r], rest) := by
  rw [RelationRef.readList]
  split
  · next h => rw [h]
  · next h => rw [h]

/-- Lists are read in step where reading one reference is: `R` relates what is still to be read,
`S` the references. -/
theorem readList_rel {R : List Place → List Place → Prop} {S : RelationRef → RelationRef → Prop}
    {allowFunction : Bool}
    (hread : ∀ {ps qs}, R ps qs → Option.Rel (fun x y => S x.1 y.1 ∧ R x.2 y.2)
      (RelationRef.read? allowFunction ps) (RelationRef.read? allowFunction qs))
    (hcomma : ∀ {ps qs}, R ps qs → nextIsKind .comma ps = nextIsKind .comma qs)
    (hdrop : ∀ {ps qs}, R ps qs → nextIsKind .comma ps = true → R (ps.drop 1) (qs.drop 1))
    (allowList : Bool) {ps qs : List Place} (h : R ps qs) :
    List.Forall₂ S (RelationRef.readList allowFunction allowList ps).1
        (RelationRef.readList allowFunction allowList qs).1 ∧
      R (RelationRef.readList allowFunction allowList ps).2
        (RelationRef.readList allowFunction allowList qs).2 := by
  induction hn : ps.length using Nat.strongRecOn generalizing ps qs with
  | ind n ih =>
      subst hn
      have hthis := hread h
      have hlt : ∀ r rest, RelationRef.read? allowFunction ps = some (r, rest) →
          rest.length < ps.length := fun _ _ => RelationRef.length_of_read?
      rw [readList_eq, readList_eq allowFunction allowList qs]
      generalize RelationRef.read? allowFunction ps = x at hthis hlt ⊢
      generalize RelationRef.read? allowFunction qs = y at hthis ⊢
      cases hthis with
      | none => exact ⟨.nil, h⟩
      | @some x y hxy =>
          obtain ⟨r, rest⟩ := x
          obtain ⟨r', rest'⟩ := y
          obtain ⟨href, hrest⟩ := hxy
          simp only [← hcomma hrest]
          split
          · next hlist =>
              have hshort : (rest.drop 1).length < ps.length := by
                have := hlt r rest rfl
                rw [List.length_drop]
                omega
              obtain ⟨hmore, hbehind⟩ :=
                ih _ hshort (hdrop hrest (Bool.and_eq_true_iff.mp hlist).2) rfl
              exact ⟨.cons href hmore, hbehind⟩
          · exact ⟨.cons href .nil, hrest⟩

theorem readList_like {ps qs : List Place} (h : L.PlacesLike ps qs)
    (allowFunction allowList : Bool) :
    List.Forall₂ L.RefLike (RelationRef.readList allowFunction allowList ps).1
        (RelationRef.readList allowFunction allowList qs).1 ∧
      L.PlacesLike (RelationRef.readList allowFunction allowList ps).2
        (RelationRef.readList allowFunction allowList qs).2 :=
  readList_rel (fun h => read?_like h allowFunction) (fun h => PlacesLike.nextIsKind h .comma)
    (fun h _ => List.forall₂_drop 1 h) allowList h

theorem opensClause_like {p q : Place} (h : L.PlaceLike p q) :
    RelationRef.opensClause p = RelationRef.opensClause q := by
  unfold RelationRef.opensClause
  rw [h.isTopWord, h.token.isWord, any_option_eq h.before fun _ _ htu => htu.isWord "DISTINCT"]

theorem clauseBody_like {p q : Place} {ps qs : List Place} (h : L.PlaceLike p q)
    (hps : L.PlacesLike ps qs) :
    L.PlacesLike (RelationRef.clauseBody p ps) (RelationRef.clauseBody q qs) := by
  unfold RelationRef.clauseBody
  rw [h.token.isWord, PlacesLike.nextIsWord hps]
  split
  · exact List.forall₂_drop 2 hps
  · exact hps

theorem ofPlaces_like {ps qs : List Place} (h : L.PlacesLike ps qs) :
    List.Forall₂ L.RefLike (RelationRef.ofPlaces ps) (RelationRef.ofPlaces qs) := by
  fun_induction RelationRef.ofPlaces ps generalizing qs with
  | case1 =>
      cases h
      rw [RelationRef.ofPlaces]
      exact .nil
  | case2 p rest hopens clause =>
      rename_i ih
      cases h with
      | @cons _ q _ rest' hpq h =>
          have hclause := readList_like (clauseBody_like hpq h) (!p.token.isWord "INTO")
            (p.token.isWord "FROM")
          rw [RelationRef.ofPlaces, if_pos (opensClause_like hpq ▸ hopens)]
          simp only [← hpq.token.isWord]
          exact List.rel_append hclause.1 (ih hclause.2)
  | case3 p rest hopens ih =>
      cases h with
      | @cons _ q _ rest' hpq h =>
          rw [RelationRef.ofPlaces, if_neg (opensClause_like hpq ▸ hopens)]
          exact ih h

theorem TokensLike.refs {ts us : List Token} (h : L.TokensLike ts us) :
    List.Forall₂ L.RefLike (RelationRef.ofTokens ts) (RelationRef.ofTokens us) :=
  ofPlaces_like (TokensLike.places h)

/-! ## Narrowing -/

namespace ScopeLike

variable {s u base base' : Scope}

theorem addAgain (h : L.ScopeLike s u) {e f : Scope.Entry} (hef : L.EntryLike e f)
    {a b : Option String} (hab : Option.Rel L.NameLike a b) :
    L.ScopeLike (s.addAgain e a) (u.addAgain f b) := by
  cases hab with
  | none => exact h
  | some hab =>
      simp only [Scope.addAgain, h.slot? hab, h.entries.length_eq]
      split
      · exact h
      · have hmore : L.ScopeLike { s with entries := s.entries ++ [e] }
            { u with entries := u.entries ++ [f] } :=
          ⟨List.rel_append h.entries (.cons hef .nil), h.names, h.opaqueNames, h.missing⟩
        exact hmore.addAlias hab _

theorem addReference (hbase : L.ScopeLike base base') (h : L.ScopeLike s u) {r q : RelationRef}
    (hrq : L.RefLike r q) : L.ScopeLike (base.addReference s r) (base'.addReference u q) := by
  have hentry := hbase.entry? hrq.name
  unfold Scope.addReference
  rw [hrq.derived]
  generalize base.entry? r.name = e at hentry ⊢
  generalize base'.entry? q.name = f at hentry ⊢
  split
  · exact h.addOpaque? hrq.asName
  · cases hentry with
    | none =>
        have hbare := (h.addOpaque hrq.name).addOpaque? hrq.asName
        exact ⟨hbare.entries, hbare.names, hbare.opaqueNames,
          List.rel_append hbare.missing (.cons ⟨hrq.name, hrq.position⟩ .nil)⟩
    | some hef =>
        simp only [h.slot? hrq.name, h.slotFor hef]
        split
        · exact h.addAgain hef hrq.asName
        · exact (h.addEntry hef).addAlias? hrq.asName _

/-- Alike statements narrow alike scopes to alike scopes. -/
theorem narrow (hbase : L.ScopeLike base base') {ts us : List Token} (h : L.TokensLike ts us) :
    L.ScopeLike (base.narrow ts) (base'.narrow us) :=
  List.rel_foldl (P := L.ScopeLike) (R := L.RefLike)
    (fun _ _ hs _ _ hrq => hbase.addReference hs hrq) .empty (TokensLike.refs h)

end ScopeLike

end TypedSql.Likeness

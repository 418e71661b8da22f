import TypedSql.Proofs.Reference.Scan
import TypedSql.Proofs.Scope.Counted

/-!
# Scopes that agree off a name

A statement asks a scope for the names of its references, each of which is the value of one of its
tokens.  So two scopes in which every name but one leads to the same relation are narrowed alike by
tokens that do not have this name, and the scopes of two catalogs that differ in one table are such
scopes.

Main definitions: `Token.Avoid`, `Scope.AgreeOff`.  Main statements:
`RelationRef.exists_token_of_mem_ofTokens`, `Scope.AgreeOff.ofCatalog`, `Scope.AgreeOff.narrow`.
-/

namespace TypedSql

open Text Token

/-- The name is the value of none of the tokens, in any case. -/
def Token.Avoid (name : String) (tokens : List Token) : Prop :=
  ∀ t ∈ tokens, lowerCase t.value ≠ lowerCase name

instance (name : String) (tokens : List Token) : Decidable (Token.Avoid name tokens) :=
  inferInstanceAs (Decidable (∀ t ∈ tokens, lowerCase t.value ≠ lowerCase name))

theorem Token.Avoid.mono {name : String} {tokens part : List Token} (h : Avoid name tokens)
    (hpart : part ⊆ tokens) : Avoid name part := fun t ht => h t (hpart ht)

/-! ## Where a reference has its name from -/

namespace RelationRef

variable {places rest : List Place} {r : RelationRef}

theorem readAlias_suffix (places : List Place) : (readAlias places).2 <:+ places := by
  unfold readAlias
  split
  · exact List.suffix_refl _
  · next p rest h =>
      have hrest : p :: rest <:+ places := by
        rw [← h]
        split
        · exact List.drop_suffix _ _
        · exact List.suffix_refl _
      split
      · exact (List.suffix_cons p rest).trans hrest
      · exact List.suffix_refl _

theorem readParts_parts (places : List Place) :
    (readParts places).1 ⊆ places ∧ (readParts places).2 <:+ places := by
  fun_induction readParts places with
  | case1 dot part rest _ ih =>
      have hbehind : rest <:+ dot :: part :: rest :=
        (List.suffix_cons part rest).trans (List.suffix_cons dot _)
      refine ⟨List.cons_subset.mpr ⟨?_, List.Subset.trans ih.1 hbehind.subset⟩, ih.2.trans hbehind⟩
      exact List.mem_cons_of_mem _ List.mem_cons_self
  | case2 => exact ⟨List.nil_subset _, List.suffix_refl _⟩
  | case3 => exact ⟨List.nil_subset _, List.suffix_refl _⟩

theorem groupPlaces?_suffix {inner : List Place} (h : groupPlaces? places = some (inner, rest)) :
    rest <:+ places := by
  obtain ⟨close, -, he⟩ := Option.map_eq_some_iff.mp h
  cases he
  exact List.drop_suffix _ _

/-- The reference needs no relation, or has its name from one of the places. -/
def NamedIn (places : List Place) (r : RelationRef) : Prop :=
  r.derived = true ∨ ∃ p ∈ places, p.token.value = r.name

theorem NamedIn.mono {more : List Place} (h : r.NamedIn places) (hmore : places ⊆ more) :
    r.NamedIn more := h.imp_right fun ⟨p, hp, hname⟩ => ⟨p, hmore hp, hname⟩

theorem namedIn_of_read? {allowFunction : Bool} (h : read? allowFunction places = some (r, rest)) :
    r.NamedIn places ∧ rest <:+ places := by
  unfold read? at h
  split at h
  · cases h
  · next first more =>
      split at h
      · obtain ⟨group, hgroup, he⟩ := Option.map_eq_some_iff.mp h
        cases he
        exact ⟨.inl rfl, (readAlias_suffix _).trans (groupPlaces?_suffix hgroup)⟩
      · split at h
        · obtain ⟨behind, hbehind, he⟩ := Option.map_eq_some_iff.mp h
          cases he
          obtain ⟨hparts, hmore⟩ := readParts_parts more
          constructor
          · have hname : (readParts more).1.getLastD first ∈ first :: more := by
              rw [List.getLastD_eq_getLast?]
              cases hlast : (readParts more).1.getLast? with
              | none => exact List.mem_cons_self
              | some last =>
                  exact List.mem_cons_of_mem _ (hparts (List.mem_of_getLast? hlast))
            exact .inr ⟨_, hname, rfl⟩
          · have hrest : behind.2 <:+ (readParts more).2 := by
              split at hbehind
              · obtain ⟨group, hgroup, rfl⟩ := Option.map_eq_some_iff.mp hbehind
                exact groupPlaces?_suffix hgroup
              · cases hbehind
                exact List.suffix_refl _
            exact (readAlias_suffix _).trans (hrest.trans (hmore.trans (List.suffix_cons _ _)))
        · cases h

theorem namedIn_of_mem_readList (allowFunction allowList : Bool) (places : List Place) :
    (∀ r ∈ (readList allowFunction allowList places).1, r.NamedIn places) ∧
      (readList allowFunction allowList places).2 <:+ places := by
  fun_induction readList allowFunction allowList places with
  | case1 => exact ⟨List.forall_mem_nil _, List.suffix_refl _⟩
  | case2 places r rest hread _ more behind hmore ih =>
      obtain ⟨hr, hrest⟩ := namedIn_of_read? hread
      -- The list goes on behind a comma, in what the first reference leaves.
      have htail : rest.drop 1 <:+ places := (List.drop_suffix _ _).trans hrest
      rw [hmore] at ih
      refine ⟨List.forall_mem_cons.mpr ⟨hr, fun q hq => ?_⟩, ih.2.trans htail⟩
      exact (ih.1 q hq).mono htail.subset
  | case3 places r rest hread _ =>
      obtain ⟨hr, hrest⟩ := namedIn_of_read? hread
      exact ⟨fun q hq => List.mem_singleton.mp hq ▸ hr, hrest⟩

theorem namedIn_of_mem_ofPlaces (h : r ∈ ofPlaces places) : r.NamedIn places := by
  fun_induction ofPlaces places with
  | case1 => cases h
  | case2 p rest _ clause ih =>
      have hbody : clauseBody p rest <:+ p :: rest := by
        unfold clauseBody
        split
        · exact (List.drop_suffix _ _).trans (List.suffix_cons _ _)
        · exact List.suffix_cons _ _
      obtain ⟨hclause, hbehind⟩ := namedIn_of_mem_readList (!p.token.isWord "INTO")
        (p.token.isWord "FROM") (clauseBody p rest)
      rcases List.mem_append.mp h with h | h
      · exact (hclause r h).mono hbody.subset
      · exact (ih h).mono (hbehind.trans hbody).subset
  | case3 p rest _ ih => exact (ih h).mono (List.suffix_cons p rest).subset

/-- A relation that tokens name has its name from one of them. -/
theorem exists_token_of_mem_ofTokens {tokens : List Token} (h : r ∈ ofTokens tokens) :
    r.derived = true ∨ ∃ t ∈ tokens, t.value = r.name := by
  refine (namedIn_of_mem_ofPlaces h).imp_right fun ⟨p, hp, hname⟩ => ⟨p.token, ?_, hname⟩
  rw [← Grammar.map_token_placesAt 0 none 0 tokens]
  exact List.mem_map_of_mem hp

end RelationRef

/-! ## Two scopes -/

namespace Scope

variable {name : String} {s u : Scope}

theorem addReference_congr {base base' : Scope} {r : RelationRef}
    (h : r.derived = true ∨ base.entry? r.name = base'.entry? r.name) (s : Scope) :
    base.addReference s r = base'.addReference s r := by
  unfold addReference
  rcases h with h | h
  · rw [h]
    rfl
  · rw [h]

/-- Every name but this one, in any case, leads to the same relation in both scopes. -/
structure AgreeOff (name : String) (s u : Scope) : Prop where
  left : s.Keyed
  right : u.Keyed
  entry : ∀ other, lowerCase other ≠ lowerCase name → s.entry? other = u.entry? other

namespace AgreeOff

theorem addEntry (h : AgreeOff name s u) (e : Entry) :
    AgreeOff name (s.addEntry e) (u.addEntry e) where
  left := h.left.addEntry e
  right := h.right.addEntry e
  entry other hother := by rw [h.left.entry_addEntry, h.right.entry_addEntry, h.entry other hother]

/-- Tokens without the name narrow both scopes to the same one. -/
theorem narrow (h : AgreeOff name s u) {tokens : List Token} (havoid : Avoid name tokens) :
    s.narrow tokens = u.narrow tokens := by
  refine List.foldl_ext _ _ _ fun seen r hr => addReference_congr ?_ seen
  refine (RelationRef.exists_token_of_mem_ofTokens hr).imp_right fun ⟨t, ht, hname⟩ => ?_
  exact h.entry _ (hname ▸ havoid t ht)

/-- A table more in a catalog makes no difference off its name. -/
theorem ofCatalog {c c' : Catalog} {x : Table} {before after : List Table}
    (hc : c.tables.values = before ++ after) (hc' : c'.tables.values = before ++ x :: after)
    (overrides : ColumnOverrides) :
    AgreeOff x.name (.ofCatalog overrides c') (.ofCatalog overrides c) where
  left := keyed_ofCatalog overrides c'
  right := keyed_ofCatalog overrides c
  entry other hother := by
    have hx : [x].find? (fun t => eqIgnoreCase t.name other) = none :=
      List.find?_cons_of_neg fun hsame => hother (eqIgnoreCase_iff.mp hsame).symm
    have hnamed : c'.named? other = c.named? other := by
      unfold Catalog.named?
      rw [hc, hc', List.reverse_append, List.reverse_append, List.reverse_cons, List.find?_append,
        List.find?_append, List.find?_append, hx, Option.or_none]
    rw [entry_ofCatalog, entry_ofCatalog, hnamed]

end AgreeOff

end Scope

end TypedSql

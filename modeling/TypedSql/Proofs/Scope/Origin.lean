import Mathlib.Data.List.Basic
import TypedSql.Proofs.Scope.Counted
import TypedSql.Token.Reader

/-!
# Where the columns of a narrowed scope come from

A narrowed scope holds copies of relations of its base.  Names can overwrite each other in it, since
an alias may be the name of another relation, but what a name leads to is always the base's relation
of a reference that goes by this name or alias.  And every reference to a relation of the base still
leads somewhere by its own name.

Main definition: `Scope.Repeats`.  Main statement: `Scope.lookup_narrow`.
-/

namespace TypedSql

open Text

namespace Scope

/-- Every relation of the scope is the base's relation of one of the references, and every name is
one of a reference and leads to its relation. -/
structure Repeats (base : Scope) (refs : List RelationRef) (s : Scope) : Prop where
  entries : ∀ e ∈ s.entries, ∃ r ∈ refs, r.derived = false ∧ base.entry? r.name = some e
  names : ∀ key slot, s.names.get? key = some slot → ∃ r ∈ refs, r.derived = false ∧
    key ∈ r.keys ∧ ∃ e, s.entries[slot]? = some e ∧ base.entry? r.name = some e

variable {base s : Scope} {refs : List RelationRef} {r : RelationRef} {e : Entry}

theorem repeats_empty : Repeats base refs empty := ⟨nofun, nofun⟩

/-! ## One reference -/

theorem entries_addOpaque? (s : Scope) (name : Option String) :
    (s.addOpaque? name).entries = s.entries ∧ (s.addOpaque? name).names = s.names := by
  unfold addOpaque? addOpaque
  split
  · split
    · exact ⟨rfl, rfl⟩
    · exact ⟨rfl, rfl⟩
  · exact ⟨rfl, rfl⟩

/-- A copy behind the other relations comes from its reference. -/
theorem Repeats.append (h : Repeats base refs s) (hr : r ∈ refs) (hderived : r.derived = false)
    (hentry : base.entry? r.name = some e) :
    Repeats base refs { s with entries := s.entries ++ [e] } := by
  constructor
  · intro f hf
    rcases List.mem_append.mp hf with hf | hf
    · exact h.entries f hf
    · cases List.mem_singleton.mp hf
      exact ⟨r, hr, hderived, hentry⟩
  · intro key slot hslot
    obtain ⟨r', hr', hderived', hkey, f, hf, hentry'⟩ := h.names key slot hslot
    have hlt := (List.getElem?_eq_some_iff.mp hf).1
    exact ⟨r', hr', hderived', hkey, f, (List.getElem?_append_left hlt).trans hf, hentry'⟩

/-- A name of the reference may lead to a copy of its relation, whatever it led to before. -/
theorem Repeats.insert (h : Repeats base refs s) (hr : r ∈ refs) (hderived : r.derived = false)
    {key : String} (hkey : key ∈ r.keys) {slot : Nat} (hslot : s.entries[slot]? = some e)
    (hentry : base.entry? r.name = some e) :
    Repeats base refs { s with names := s.names.insert key slot } := by
  refine ⟨h.entries, ?_⟩
  intro other slot' hother
  rw [OrderedMap.get?_insert] at hother
  split at hother
  · next hsame =>
      cases hother
      exact ⟨r, hr, hderived, hsame ▸ hkey, e, hslot, hentry⟩
  · exact h.names other slot' hother

theorem lowerCase_name_mem_keys (r : RelationRef) : lowerCase r.name ∈ r.keys :=
  List.mem_cons_self

theorem lowerCase_asName_mem_keys {asName : String} (h : r.asName = some asName) :
    lowerCase asName ∈ r.keys := by
  rw [RelationRef.keys, h]
  exact List.mem_cons_of_mem _ List.mem_cons_self

theorem Repeats.addAgain (h : Repeats base refs s) (hr : r ∈ refs) (hderived : r.derived = false)
    (hentry : base.entry? r.name = some e) : Repeats base refs (s.addAgain e r.asName) := by
  unfold Scope.addAgain
  split
  · exact h
  · next asName has =>
      split
      · exact h
      · exact (h.append hr hderived hentry).insert hr hderived (lowerCase_asName_mem_keys has)
          List.getElem?_concat_length hentry

theorem Repeats.addFirst (h : Repeats base refs s) (hbase : base.Keyed) (hr : r ∈ refs)
    (hderived : r.derived = false) (hentry : base.entry? r.name = some e)
    (hnew : s.slot? r.name = none) :
    Repeats base refs ((s.addEntry e).addAlias? r.asName (s.slotFor e)) := by
  -- The relation stands in the base under its own name, which is that of the reference.
  have hname : lowerCase e.name = lowerCase r.name := hbase.lowerCase_name hentry
  have hslot : s.slot? e.name = none := by
    rw [slot?, hname]
    exact hnew
  have hfor : s.slotFor e = s.entries.length := by rw [slotFor, hslot, Option.getD_none]
  have hlast : (s.entries ++ [e])[s.entries.length]? = some e := List.getElem?_concat_length
  have hfirst : Repeats base refs (s.addEntry e) := by
    rw [addEntry, hslot]
    exact (h.append hr hderived hentry).insert hr hderived
      (hname ▸ lowerCase_name_mem_keys r) hlast hentry
  rw [hfor]
  unfold addAlias?
  split
  · next asName has =>
      refine hfirst.insert hr hderived (lowerCase_asName_mem_keys has) ?_ hentry
      rw [addEntry, hslot]
      exact hlast
  · exact hfirst

/-- A reference adds a copy of its relation under its own names, or nothing that has columns. -/
theorem Repeats.addReference (h : Repeats base refs s) (hbase : base.Keyed) (hr : r ∈ refs) :
    Repeats base refs (base.addReference s r) := by
  have hskipped {s : Scope} (h : Repeats base refs s) (name : Option String) :
      Repeats base refs (s.addOpaque? name) := by
    obtain ⟨hentries, hnames⟩ := entries_addOpaque? s name
    exact ⟨hentries ▸ h.entries, fun key slot => hentries ▸ hnames ▸ h.names key slot⟩
  unfold Scope.addReference
  split
  · exact hskipped h _
  · next hderived =>
      rw [Bool.not_eq_true] at hderived
      split
      · have hmissing := hskipped (hskipped h (some r.name)) r.asName
        exact ⟨hmissing.entries, hmissing.names⟩
      · next e hentry =>
          split
          · exact h.addAgain hr hderived hentry
          · next hnew => exact h.addFirst hbase hr hderived hentry (by simpa using hnew)

/-! ## All references -/

theorem Repeats.foldl (h : Repeats base refs s) (hbase : base.Keyed) (hsubset : refs' ⊆ refs) :
    Repeats base refs (refs'.foldl base.addReference s) := by
  induction refs' generalizing s with
  | nil => exact h
  | cons r rest ih =>
      rw [List.cons_subset] at hsubset
      exact ih (h.addReference hbase hsubset.1) hsubset.2

theorem repeats_narrow (hbase : base.Keyed) (tokens : List Token) :
    Repeats base (RelationRef.ofTokens tokens) (base.narrow tokens) :=
  repeats_empty.foldl hbase (List.Subset.refl _)

/-! ## Names that stay -/

theorem isSome_get?_insert {names : OrderedMap Nat} {key : String}
    (h : (names.get? key).isSome) (other : String) (slot : Nat) :
    ((names.insert other slot).get? key).isSome := by
  rw [OrderedMap.get?_insert]
  split
  · rfl
  · exact h

theorem isSome_get?_addEntry {key : String} (h : (s.names.get? key).isSome) (e : Entry) :
    ((s.addEntry e).names.get? key).isSome := by
  unfold Scope.addEntry
  split
  · exact h
  · exact isSome_get?_insert h _ _

theorem isSome_get?_addAlias? {key : String} (h : (s.names.get? key).isSome)
    (name : Option String) (slot : Nat) :
    ((s.addAlias? name slot).names.get? key).isSome := by
  unfold addAlias?
  split
  · exact isSome_get?_insert h _ _
  · exact h

/-- A name that leads somewhere still does behind a further reference. -/
theorem isSome_get?_addReference {key : String} (h : (s.names.get? key).isSome)
    (base : Scope) (r : RelationRef) : ((base.addReference s r).names.get? key).isSome := by
  unfold Scope.addReference
  split
  · rw [(entries_addOpaque? s r.asName).2]
    exact h
  · split
    · show (((s.addOpaque? (some r.name)).addOpaque? r.asName).names.get? key).isSome
      rw [(entries_addOpaque? _ r.asName).2, (entries_addOpaque? s (some r.name)).2]
      exact h
    · split
      · unfold addAgain
        split
        · exact h
        · split
          · exact h
          · exact isSome_get?_insert h _ _
      · exact isSome_get?_addAlias? (isSome_get?_addEntry h _) _ _

/-- The name of a reference to a relation of the base leads somewhere. -/
theorem isSome_slot?_addReference (hbase : base.Keyed) (hderived : r.derived = false)
    (hentry : base.entry? r.name = some e) :
    ((base.addReference s r).slot? r.name).isSome := by
  by_cases hthere : (s.slot? r.name).isSome
  · exact isSome_get?_addReference hthere base r
  · have hname : lowerCase e.name = lowerCase r.name := hbase.lowerCase_name hentry
    have hnone : s.slot? r.name = none := by simpa using hthere
    have hslot : s.slot? e.name = none := by
      rw [slot?, hname]
      exact hnone
    have hadded : ((s.addEntry e).names.get? (lowerCase r.name)).isSome := by
      rw [addEntry, hslot, ← hname]
      show ((s.names.insert _ _).get? _).isSome
      rw [OrderedMap.get?_insert, if_pos rfl]
      rfl
    simp only [Scope.addReference, hderived, hentry, hthere, Bool.false_eq_true, if_false]
    exact isSome_get?_addAlias? hadded _ _

theorem isSome_slot?_foldl (hbase : base.Keyed) (hr : r ∈ refs) (hderived : r.derived = false)
    (hentry : base.entry? r.name = some e) (s : Scope) :
    ((refs.foldl base.addReference s).slot? r.name).isSome := by
  -- The reference makes the name lead somewhere, and those behind it leave that so.
  obtain ⟨before, behind, rfl⟩ := List.append_of_mem hr
  have hstays (rest : List RelationRef) (s : Scope) (h : (s.slot? r.name).isSome) :
      ((rest.foldl base.addReference s).slot? r.name).isSome := by
    induction rest generalizing s with
    | nil => exact h
    | cons r' rest ih => exact ih _ (isSome_get?_addReference h base r')
  rw [List.foldl_append, List.foldl_cons]
  exact hstays behind _ (isSome_slot?_addReference hbase hderived hentry)

/-! ## Columns -/

theorem lookupIn_eq_ok {s : Scope} {qualifier column : String} {found : Column} :
    s.lookupIn qualifier column = .ok found ↔
      ∃ e, s.entry? qualifier = some e ∧ e.column? column = some found := by
  unfold lookupIn
  constructor
  · intro h
    split at h
    · next e he =>
        split at h
        · next c hc =>
            cases h
            exact ⟨e, he, hc⟩
        · cases h
    · split at h <;> cases h
  · rintro ⟨e, he, hc⟩
    simp only [he, hc]

/-- A column without a qualifier is found where one relation has one of that name, and no other
relation does. -/
theorem lookupAny_eq_ok {s : Scope} {column : String} {found : Column} :
    s.lookupAny column = .ok found ↔
      ∃ before e behind, s.entries = before ++ e :: behind ∧ e.column? column = some found ∧
        ∀ other ∈ before ++ behind, other.column? column = none := by
  have hone : s.lookupAny column = .ok found ↔
      (s.entries.filterMap fun e => e.column? column) = [found] := by
    unfold lookupAny
    constructor
    · intro h
      split at h
      · next c hc =>
          cases h
          exact hc
      · cases h
      · split at h <;> cases h
    · intro h
      rw [h]
  rw [hone, List.filterMap_eq_cons_iff]
  constructor
  · rintro ⟨before, e, behind, hentries, hbefore, he, hbehind⟩
    refine ⟨before, e, behind, hentries, he, fun other hother => ?_⟩
    rcases List.mem_append.mp hother with hother | hother
    · exact hbefore other hother
    · exact List.filterMap_eq_nil_iff.mp hbehind other hother
  · rintro ⟨before, e, behind, hentries, he, hothers⟩
    exact ⟨before, e, behind, hentries,
      fun other hother => hothers other (List.mem_append_left _ hother), he,
      List.filterMap_eq_nil_iff.mpr fun other hother =>
        hothers other (List.mem_append_right _ hother)⟩

/-! ## Lookups -/

/-- The scope of all tables of a catalog, with further relations. -/
theorem keyed_addEntries (overrides : ColumnOverrides) (c : Catalog) (added : List Entry) :
    (added.foldl addEntry (ofCatalog overrides c)).Keyed :=
  List.foldlRecOn _ _ (keyed_ofCatalog overrides c) fun _ hs e _ => hs.addEntry e

/-- What a narrowed scope finds is what its base finds under the name of a reference: of one that
goes by the qualifier, or without a qualifier of one whose relation alone has such a column.  Every
reference to a relation of the base leads to a relation by its name. -/
theorem lookup_narrow (overrides : ColumnOverrides) (c : Catalog) (added : List Entry)
    (tokens : List Token) :
    let base := added.foldl addEntry (ofCatalog overrides c)
    (∀ qualifier column found,
      (base.narrow tokens).lookup (some qualifier) column = .ok found →
        ∃ r ∈ RelationRef.ofTokens tokens, r.derived = false ∧ lowerCase qualifier ∈ r.keys ∧
          base.lookup (some r.name) column = .ok found) ∧
      (∀ column found, (base.narrow tokens).lookup none column = .ok found →
        ∃ r ∈ RelationRef.ofTokens tokens, r.derived = false ∧
          base.lookup (some r.name) column = .ok found ∧
          ∃ before e behind, (base.narrow tokens).entries = before ++ e :: behind ∧
            base.entry? r.name = some e ∧
            ∀ other ∈ before ++ behind, other.column? column = none) ∧
      ∀ r ∈ RelationRef.ofTokens tokens, r.derived = false → (base.entry? r.name).isSome →
        (Scope.entry? (base.narrow tokens) r.name).isSome := by
  intro base
  have hbase : base.Keyed := keyed_addEntries overrides c added
  have hrepeats := repeats_narrow hbase tokens
  refine ⟨?_, ?_, ?_⟩
  · intro qualifier column found h
    obtain ⟨e, he, hcolumn⟩ := lookupIn_eq_ok.mp h
    obtain ⟨slot, hslot, he⟩ := Option.bind_eq_some_iff.mp he
    obtain ⟨r, hr, hderived, hkey, e', he', hentry⟩ := hrepeats.names _ slot hslot
    cases he.symm.trans he'
    exact ⟨r, hr, hderived, hkey, lookupIn_eq_ok.mpr ⟨e, hentry, hcolumn⟩⟩
  · intro column found h
    obtain ⟨before, e, behind, hentries, hcolumn, hothers⟩ := lookupAny_eq_ok.mp h
    obtain ⟨r, hr, hderived, hentry⟩ := hrepeats.entries e (by rw [hentries]; simp)
    exact ⟨r, hr, hderived, lookupIn_eq_ok.mpr ⟨e, hentry, hcolumn⟩, before, e, behind, hentries,
      hentry, hothers⟩
  · intro r hr hderived hsome
    obtain ⟨e, hentry⟩ := Option.isSome_iff_exists.mp hsome
    obtain ⟨slot, hslot⟩ :=
      Option.isSome_iff_exists.mp (isSome_slot?_foldl hbase hr hderived hentry empty)
    obtain ⟨-, -, -, -, e', he', -⟩ := hrepeats.names _ slot hslot
    exact Option.isSome_iff_exists.mpr ⟨e', Option.bind_eq_some_iff.mpr ⟨slot, hslot, he'⟩⟩

/-- An alias hides the relation whose name it is: the name leads to the relation of the alias. -/
theorem lookup_narrow_of_hidden :
    let c := (Catalog.empty.addTable { Table.bare "users" with columns := [.plain "id" "INTEGER"] })
      |>.addTable { Table.bare "posts" with columns := [.plain "title" "TEXT"] }
    let base := [].foldl addEntry (ofCatalog .empty c)
    let tokens := (Token.tokenize "SELECT title FROM posts users JOIN users u").toOption.getD []
    let title : Column := ⟨"title", "posts", .resolved .string true⟩
    (base.narrow tokens).lookup (some "USERS") "title" = .ok title ∧
      ∃ r ∈ RelationRef.ofTokens tokens, r.derived = false ∧ lowerCase "USERS" ∈ r.keys ∧
        base.lookup (some r.name) "title" = .ok title := by
  intro c base tokens title
  have hfound : (base.narrow tokens).lookup (some "USERS") "title" = .ok title := by
    decide +kernel
  exact ⟨hfound, (lookup_narrow .empty c [] tokens).1 "USERS" "title" title hfound⟩

end Scope

end TypedSql

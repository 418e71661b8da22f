import TypedSql.Proofs.Scope.Columns
import TypedSql.Proofs.Scope.Origin

/-!
# Slots and places that are there

A name leads to the slot of a relation, and the index of a relation to the place of a column.  In
every scope that operations make, however relations are replaced, put in again under an alias or
hidden by one, there is a relation at every such slot and a column at every such place.  Without
aliases every relation stands under its own name, and under no other one.

Main definitions: `Scope.Reachable`, `Scope.Grounded`, `Scope.Entry.MadeOf`, `Scope.Filed`.  Main
statement: `Scope.slots_and_places_exact`.
-/

namespace TypedSql.Scope

open Text

/-- The scopes that come of the empty one and of those of catalogs by adding relations, aliases of
slots that are there, and by narrowing. -/
inductive Reachable : Scope → Prop
  | empty : Reachable empty
  | ofCatalog (overrides : ColumnOverrides) (c : Catalog) : Reachable (ofCatalog overrides c)
  | addEntry {s : Scope} (h : Reachable s) (name : String) (columns : List (String × TypeInfo)) :
      Reachable (s.addEntry ((Entry.bare name).pushAll columns))
  | addAlias {s : Scope} (h : Reachable s) (name : String) {slot : Nat}
      (hslot : slot < s.entries.length) : Reachable (s.addAlias name slot)
  | narrow {s : Scope} (h : Reachable s) (tokens : List Token) : Reachable (s.narrow tokens)

variable {s base : Scope} {e : Entry} {name key : String} {slot : Nat}

/-! ## Relations made of columns -/

namespace Entry

/-- The relation was without columns, and then columns were pushed. -/
def Pushed (e : Entry) : Prop := ∃ columns, e = (bare e.name).pushAll columns

theorem pushed_pushAll (name : String) (columns : List (String × TypeInfo)) :
    ((bare name).pushAll columns).Pushed :=
  ⟨columns, by rw [name_pushAll]; rfl⟩

/-- The relation holds the first of these columns of every name, in any case.  Its index leads the
names of the columns that it holds, and nothing else, each to its own column. -/
structure MadeOf (e : Entry) (columns : List (String × TypeInfo)) : Prop where
  distinct : (e.columns.map fun c => lowerCase c.name).Nodup
  exact : ∀ key place, e.index.get? key = some place ↔
    ∃ hlt : place < e.columns.length, lowerCase e.columns[place].name = key
  found : ∀ name place, e.index.get? (lowerCase name) = some place →
    ∃ hlt : place < e.columns.length, e.column? name = some e.columns[place]
  first : ∀ name, e.column? name =
    (columns.find? fun c => eqIgnoreCase c.1 name).map fun c => ⟨c.1, e.name, c.2⟩

theorem madeOf_pushAll (name : String) (columns : List (String × TypeInfo)) :
    ((bare name).pushAll columns).MadeOf columns where
  distinct := nodup_names _
  exact key place := by
    rw [get?_index_iff]
    constructor
    · rintro ⟨c, hc, hname⟩
      obtain ⟨hlt, rfl⟩ := List.getElem?_eq_some_iff.mp hc
      exact ⟨hlt, hname⟩
    · rintro ⟨hlt, hname⟩
      exact ⟨_, List.getElem?_eq_getElem hlt, hname⟩
  found _ _ h := column?_of_index h
  first word := by
    rw [column?_pushAll_bare, name_pushAll]
    rfl

theorem Pushed.madeOf (h : e.Pushed) :
    ∃ columns, e = (bare e.name).pushAll columns ∧ e.MadeOf columns := by
  obtain ⟨columns, he⟩ := h
  exact ⟨columns, he, he ▸ madeOf_pushAll e.name columns⟩

end Entry

/-! ## Names that lead to relations -/

/-- Every name leads to a slot that is there, and what stands in the slots was made of columns. -/
structure Grounded (s : Scope) : Prop where
  slot_lt : ∀ key slot, s.names.get? key = some slot → slot < s.entries.length
  pushed : ∀ e ∈ s.entries, e.Pushed

theorem grounded_empty : empty.Grounded := ⟨nofun, nofun⟩

theorem mem_entries (h : s.entry? name = some e) : e ∈ s.entries := by
  obtain ⟨slot, -, he⟩ := Option.bind_eq_some_iff.mp h
  exact List.mem_of_getElem? he

namespace Grounded

/-- A relation behind the others leaves all slots where they are. -/
theorem append (h : s.Grounded) (he : e.Pushed) :
    Grounded { s with entries := s.entries ++ [e] } := by
  constructor
  · intro key slot hslot
    have hlt : slot < s.entries.length := h.slot_lt key slot hslot
    show slot < (s.entries ++ [e]).length
    rw [List.length_append]
    exact Nat.lt_add_right _ hlt
  · intro f hf
    rcases List.mem_append.mp hf with hf | hf
    · exact h.pushed f hf
    · exact List.mem_singleton.mp hf ▸ he

theorem addAlias (h : s.Grounded) (name : String) (hslot : slot < s.entries.length) :
    (s.addAlias name slot).Grounded := by
  refine ⟨fun key other hother => ?_, h.pushed⟩
  have hother : (s.names.insert (lowerCase name) slot).get? key = some other := hother
  rw [OrderedMap.get?_insert] at hother
  split at hother
  · cases hother
    exact hslot
  · exact h.slot_lt key other hother

theorem addAlias? (h : s.Grounded) (name : Option String) (hslot : slot < s.entries.length) :
    (s.addAlias? name slot).Grounded := by
  unfold Scope.addAlias?
  split
  · exact h.addAlias _ hslot
  · exact h

theorem addEntry (h : s.Grounded) (he : e.Pushed) : (s.addEntry e).Grounded := by
  unfold Scope.addEntry
  split
  · next old hold =>
      -- The relation takes the place of another one, so there are as many slots as before.
      constructor
      · intro key slot hslot
        show slot < (s.entries.set old e).length
        rw [List.length_set]
        exact h.slot_lt key slot hslot
      · intro f hf
        rcases List.mem_or_eq_of_mem_set hf with hf | rfl
        · exact h.pushed f hf
        · exact he
  · have hlast : s.entries.length < (s.entries ++ [e]).length := by simp
    exact (h.append he).addAlias e.name hlast

/-- A relation is put where there is a slot. -/
theorem slotFor_lt (h : s.Grounded) (e : Entry) :
    s.slotFor e < (s.addEntry e).entries.length := by
  unfold Scope.slotFor Scope.addEntry
  cases hslot : s.slot? e.name with
  | some old =>
      show old < (s.entries.set old e).length
      rw [List.length_set]
      exact h.slot_lt _ old hslot
  | none =>
      show s.entries.length < (s.entries ++ [e]).length
      simp

theorem ofCatalog (overrides : ColumnOverrides) (c : Catalog) :
    (ofCatalog overrides c).Grounded :=
  List.foldlRecOn _ _ grounded_empty fun _ hs _ _ => hs.addEntry (Entry.pushed_pushAll _ _)

theorem addOpaque? (h : s.Grounded) (name : Option String) : (s.addOpaque? name).Grounded := by
  obtain ⟨hentries, hnames⟩ := entries_addOpaque? s name
  exact ⟨fun key slot => hentries ▸ hnames ▸ h.slot_lt key slot, hentries ▸ h.pushed⟩

theorem addAgain (h : s.Grounded) (he : e.Pushed) (asName : Option String) :
    (s.addAgain e asName).Grounded := by
  unfold Scope.addAgain
  split
  · exact h
  · split
    · exact h
    · exact (h.append he).addAlias _ (by simp)

/-- Whatever a reference names, what it adds leads to slots that are there. -/
theorem addReference (hbase : base.Grounded) (h : s.Grounded) (r : RelationRef) :
    (base.addReference s r).Grounded := by
  unfold Scope.addReference
  split
  · exact h.addOpaque? _
  · split
    · have hmissing := (h.addOpaque? (some r.name)).addOpaque? r.asName
      exact ⟨hmissing.slot_lt, hmissing.pushed⟩
    · next e hentry =>
        have he : e.Pushed := hbase.pushed e (mem_entries hentry)
        split
        · exact h.addAgain he _
        · exact (h.addEntry he).addAlias? _ (h.slotFor_lt e)

theorem narrow (h : base.Grounded) (tokens : List Token) : (base.narrow tokens).Grounded :=
  List.foldlRecOn _ _ grounded_empty fun _ hs r _ => h.addReference hs r

/-- Both steps of a lookup find something where the name leads somewhere. -/
theorem entry?_of_slot? (h : s.Grounded) (hslot : s.slot? name = some slot) :
    ∃ hlt : slot < s.entries.length, s.entry? name = some s.entries[slot] := by
  have hlt := h.slot_lt _ slot hslot
  refine ⟨hlt, ?_⟩
  unfold entry?
  rw [hslot, Option.bind_some, List.getElem?_eq_getElem hlt]

end Grounded

theorem Reachable.grounded (h : s.Reachable) : s.Grounded := by
  induction h with
  | empty => exact grounded_empty
  | ofCatalog overrides c => exact .ofCatalog overrides c
  | addEntry _ name columns ih => exact ih.addEntry (Entry.pushed_pushAll name columns)
  | addAlias _ name hslot ih => exact ih.addAlias name hslot
  | narrow _ tokens ih => exact ih.narrow tokens

/-! ## Relations under their own names -/

/-- The name of every relation leads to its slot. -/
def Filed (s : Scope) : Prop :=
  ∀ slot e, s.entries[slot]? = some e → s.names.get? (lowerCase e.name) = some slot

theorem Filed.addEntry (h : s.Filed) (e : Entry) : (s.addEntry e).Filed := by
  intro slot f hf
  unfold Scope.addEntry at hf ⊢
  split at hf
  · next old hold =>
      -- The name led to the slot before, so it leads to what is put there now.
      rw [List.getElem?_set] at hf
      split at hf
      · next hsame =>
          split at hf
          · cases hf
            exact hsame ▸ hold
          · cases hf
      · exact h slot f hf
  · next hnew =>
      show (s.names.insert (lowerCase e.name) s.entries.length).get? (lowerCase f.name) = some slot
      rw [OrderedMap.get?_insert]
      by_cases hlt : slot < s.entries.length
      · -- A relation that was there does not have the name, which was free.
        rw [List.getElem?_append_left hlt] at hf
        have hold : s.names.get? (lowerCase f.name) = some slot := h slot f hf
        rw [if_neg fun hname => ?_, hold]
        rw [hname] at hold
        cases hold.symm.trans hnew
      · have hlast : slot = s.entries.length := by
          have hbound := (List.getElem?_eq_some_iff.mp hf).1
          rw [List.length_append, List.length_singleton] at hbound
          omega
        subst hlast
        cases List.getElem?_concat_length.symm.trans hf
        exact if_pos rfl

theorem filed_addEntries (overrides : ColumnOverrides) (c : Catalog) (added : List Entry) :
    (added.foldl addEntry (ofCatalog overrides c)).Filed := by
  have hcatalog : (ofCatalog overrides c).Filed :=
    List.foldlRecOn _ _ nofun fun _ hs _ _ => Filed.addEntry hs _
  exact List.foldlRecOn _ _ hcatalog fun _ hs e _ => Filed.addEntry hs e

/-! ## Every slot and every place -/

/-- Nothing that a scope looks up is missing.  In every scope that can be made, each name leads to a
slot of a relation, and a lookup under the name goes on in that relation; each relation was made of
columns, of which it holds and indexes the first one of every name.  In the scope of a catalog with
further relations, each relation stands under its own name, and there are no other names. -/
theorem slots_and_places_exact :
    (∀ s : Scope, s.Reachable →
      (∀ slot ∈ s.names.values, slot < s.entries.length) ∧
        (∀ name slot, s.slot? name = some slot → ∃ hlt : slot < s.entries.length,
          s.entry? name = some s.entries[slot] ∧
            ∀ column, s.lookup (some name) column =
              (s.entries[slot].column? column).elim (.error (.unknownColumn name column)) .ok) ∧
        ∀ e ∈ s.entries, ∃ columns, e = (Entry.bare e.name).pushAll columns ∧ e.MadeOf columns) ∧
      (∀ (name : String) (columns : List (String × TypeInfo)),
        ((Entry.bare name).pushAll columns).MadeOf columns) ∧
      ∀ (overrides : ColumnOverrides) (c : Catalog) (added : List Entry),
        let s := added.foldl addEntry (ofCatalog overrides c)
        ∀ key slot, s.names.get? key = some slot ↔
          ∃ e, s.entries[slot]? = some e ∧ lowerCase e.name = key := by
  refine ⟨fun s hs => ?_, Entry.madeOf_pushAll, fun overrides c added => ?_⟩
  · have hgrounded := hs.grounded
    refine ⟨fun slot hslot => ?_, fun name slot hslot => ?_, fun e he => ?_⟩
    · obtain ⟨key, hkey⟩ := OrderedMap.mem_values_iff.mp hslot
      exact hgrounded.slot_lt key slot hkey
    · obtain ⟨hlt, hentry⟩ := hgrounded.entry?_of_slot? hslot
      refine ⟨hlt, hentry, fun column => ?_⟩
      simp only [lookup, lookupIn, hentry]
      cases s.entries[slot].column? column <;> rfl
    · exact (hgrounded.pushed e he).madeOf
  · intro s key slot
    constructor
    · exact keyed_addEntries overrides c added key slot
    · rintro ⟨e, he, rfl⟩
      exact filed_addEntries overrides c added slot e he

/-- A relation that takes the place of a table, hides another one under an alias and is named
twice.  Of its two columns of one name the first one is found. -/
theorem slots_and_places_of_replaced :
    let c := (Catalog.empty.addTable { Table.bare "users" with columns := [.plain "id" "TEXT"] })
      |>.addTable { Table.bare "posts" with columns := [.plain "title" "TEXT"] }
    let users := (Entry.bare "Users").pushAll [("id", .resolved .int64 false), ("ID", .unresolved)]
    let base := ((ofCatalog .empty c).addEntry users).addAlias "posts" 0
    let tokens := (Token.tokenize "FROM posts p JOIN Users u").toOption.getD []
    let s := base.narrow tokens
    s.Reachable ∧ s.names.entries = [("users", 0), ("p", 0), ("u", 1)] ∧
      (∀ slot ∈ s.names.values, slot < s.entries.length) ∧
      s.lookup (some "U") "ID" = .ok ⟨"id", "Users", .resolved .int64 false⟩ ∧
      ∀ e ∈ s.entries, ∃ columns, e = (Entry.bare e.name).pushAll columns ∧ e.MadeOf columns := by
  intro c users base tokens s
  have hreach : s.Reachable :=
    .narrow (.addAlias (.addEntry (.ofCatalog .empty c) "Users" _) "posts" (by decide +kernel))
      tokens
  have hnames : s.names.entries = [("users", 0), ("p", 0), ("u", 1)] := by decide +kernel
  have hslot : s.slot? "U" = some 1 := by
    rw [slot?, OrderedMap.get?, hnames]
    decide +kernel
  have hid : ∀ hlt : 1 < s.entries.length, s.entries[1].column? "ID" =
      some ⟨"id", "Users", .resolved .int64 false⟩ := by decide +kernel
  obtain ⟨hslots, hlookup, hentries⟩ := slots_and_places_exact.1 s hreach
  obtain ⟨_, -, hcolumn⟩ := hlookup "U" 1 hslot
  refine ⟨hreach, hnames, hslots, ?_, hentries⟩
  rw [hcolumn "ID", hid, Option.elim_some]

end TypedSql.Scope

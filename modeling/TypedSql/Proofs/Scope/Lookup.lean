import Mathlib.Data.List.Nodup
import TypedSql.Scope.Basic
import TypedSql.Scope.Narrow

/-!
# What the names of a scope lead to

The index of a relation leads the name of every column, in lower case, to the place of the column,
and no other name leads anywhere.  So the column that is found through the index is the one that a
search of all columns finds.

A name of the scope of a catalog leads to the table of that name.  A statement that names one table
under one alias sees that table under both names, and nothing else.

Main definitions: `Scope.Keyed`, `Catalog.named?`.  Main statements: `Scope.Entry.get?_index_iff`,
`Scope.Entry.column?_eq_find?`, `Scope.entry_ofCatalog`, `Scope.lookupIn_addReference`.
-/

namespace TypedSql.Scope.Entry

open Text

/-! ## The index of the columns of a relation -/

variable {e : Entry} {key name : String} {place : Nat} {c : Column}

/-- The index holds the names of the columns in their order. -/
theorem keys_index (e : Entry) : e.index.keys = e.columns.map fun c => lowerCase c.name := by
  calc e.index.keys
      = (e.columns.zipIdx.map fun c => (lowerCase c.1.name, c.2)).map Prod.fst := by
        rw [OrderedMap.keys, e.indexed]
    _ = (e.columns.zipIdx.map Prod.fst).map fun c => lowerCase c.name := by
        rw [List.map_map, List.map_map]
        rfl
    _ = e.columns.map fun c => lowerCase c.name := by rw [List.zipIdx_map_fst]

/-- No two columns have one name, in any case. -/
theorem nodup_names (e : Entry) : (e.columns.map fun c => lowerCase c.name).Nodup :=
  e.keys_index ▸ e.index.nodup

/-- A name leads to the place at which the column of that name stands. -/
theorem get?_index_iff :
    e.index.get? key = some place ↔ ∃ c, e.columns[place]? = some c ∧ lowerCase c.name = key := by
  rw [OrderedMap.get?_eq_some, e.indexed, List.mem_map]
  constructor
  · rintro ⟨⟨c, place'⟩, hc, heq⟩
    cases heq
    exact ⟨c, List.mem_zipIdx_iff_getElem?.mp hc, rfl⟩
  · rintro ⟨c, hc, rfl⟩
    exact ⟨(c, place), List.mem_zipIdx_iff_getElem?.mpr hc, rfl⟩

/-- What the index leads to is there. -/
theorem column?_of_index (h : e.index.get? (lowerCase name) = some place) :
    ∃ hlt : place < e.columns.length, e.column? name = some e.columns[place] := by
  obtain ⟨c, hc, -⟩ := get?_index_iff.mp h
  obtain ⟨hlt, -⟩ := List.getElem?_eq_some_iff.mp hc
  refine ⟨hlt, ?_⟩
  rw [column?, h, Option.bind_some, List.getElem?_eq_getElem hlt]

/-- The columns that are found under a name are those that have it. -/
theorem column?_eq_some : e.column? name = some c ↔ c ∈ e.columns ∧ eqIgnoreCase c.name name := by
  rw [column?, Option.bind_eq_some_iff, eqIgnoreCase_iff, List.mem_iff_getElem?]
  constructor
  · rintro ⟨place, hplace, hc⟩
    obtain ⟨c', hc', hname⟩ := get?_index_iff.mp hplace
    cases hc.symm.trans hc'
    exact ⟨⟨place, hc⟩, hname⟩
  · rintro ⟨⟨place, hc⟩, hname⟩
    exact ⟨place, get?_index_iff.mpr ⟨c, hc, hname⟩, hc⟩

/-- The index finds what a search of the columns finds. -/
theorem column?_eq_find? (e : Entry) (name : String) :
    e.column? name = e.columns.find? fun c => eqIgnoreCase c.name name := by
  cases hfound : e.columns.find? fun c => eqIgnoreCase c.name name with
  | none =>
      rw [Option.eq_none_iff_forall_not_mem]
      intro c hc
      obtain ⟨hmem, hname⟩ := column?_eq_some.mp hc
      exact List.find?_eq_none.mp hfound c hmem hname
  | some c =>
      have hname := List.find?_some hfound
      exact column?_eq_some.mpr ⟨List.mem_of_find?_eq_some hfound, hname⟩

/-- The index is determined by the columns. -/
theorem ext_columns {f : Entry} (hname : e.name = f.name) (hcolumns : e.columns = f.columns) :
    e = f := by
  have hindex : e.index = f.index :=
    OrderedMap.ext (by rw [e.indexed, f.indexed, hcolumns])
  cases e
  cases f
  cases hname
  cases hcolumns
  cases hindex
  rfl

/-- The index has the names that a column is found under. -/
theorem mem_keys_index : lowerCase name ∈ e.index.keys ↔ (e.column? name).isSome := by
  rw [keys_index, List.mem_map, column?_eq_find?, List.find?_isSome]
  simp only [eqIgnoreCase_iff]

end TypedSql.Scope.Entry

namespace TypedSql

open Text

/-! ## The names of a scope -/

namespace Scope

/-! ### Columns of a table -/

namespace Entry

theorem isSome_column?_push (e : Entry) (name other : String) (type : TypeInfo) :
    ((e.push name type).column? other).isSome =
      ((e.column? other).isSome || eqIgnoreCase name other) := by
  have hany (e : Entry) (other : String) :
      (e.column? other).isSome = e.columns.any fun c => eqIgnoreCase c.name other :=
    (congrArg Option.isSome (e.column?_eq_find? other)).trans List.isSome_find?
  unfold push
  split
  · next hthere =>
      -- A column of that name is there already.
      rw [mem_keys_index, hany, List.any_eq_true] at hthere
      cases hsame : eqIgnoreCase name other with
      | false => rw [Bool.or_false]
      | true =>
          obtain ⟨c, hc, hname⟩ := hthere
          rw [Bool.or_true, hany, List.any_eq_true]
          exact ⟨c, hc, eqIgnoreCase_iff.mpr
            ((eqIgnoreCase_iff.mp hname).trans (eqIgnoreCase_iff.mp hsame))⟩
  · rw [hany, hany, List.any_append, List.any_cons, List.any_nil, Bool.or_false]

theorem name_pushAll (e : Entry) (columns : List (String × TypeInfo)) :
    (e.pushAll columns).name = e.name := by
  unfold pushAll
  induction columns generalizing e with
  | nil => rfl
  | cons c cs ih =>
      rw [List.foldl_cons, ih]
      unfold push
      split <;> rfl

theorem isSome_column?_pushAll (e : Entry) (columns : List (String × TypeInfo)) (other : String) :
    ((e.pushAll columns).column? other).isSome =
      ((e.column? other).isSome || columns.any fun c => eqIgnoreCase c.1 other) := by
  induction columns generalizing e with
  | nil => rw [List.any_nil, Bool.or_false]; rfl
  | cons c cs ih =>
      show (((e.push c.1 c.2).pushAll cs).column? other).isSome = _
      rw [ih, isSome_column?_push, List.any_cons, Bool.or_assoc]

theorem name_ofTable (overrides : ColumnOverrides) (t : Table) :
    (ofTable overrides t).name = t.name := name_pushAll _ _

/-- The relation that a table is has the columns of the table. -/
theorem isSome_column?_ofTable (overrides : ColumnOverrides) (t : Table) (column : String) :
    ((ofTable overrides t).column? column).isSome = t.hasColumn column := by
  rw [ofTable, isSome_column?_pushAll, List.any_map, Table.hasColumn, Table.column?,
    List.isSome_find?]
  exact Bool.false_or _

end Entry

/-! ### Tables of a catalog -/

/-- Every name leads to a relation of that name. -/
def Keyed (s : Scope) : Prop :=
  ∀ key slot, s.names.get? key = some slot →
    ∃ e, s.entries[slot]? = some e ∧ lowerCase e.name = key

theorem keyed_empty : empty.Keyed := nofun

variable {s : Scope}

theorem Keyed.addEntry (h : s.Keyed) (e : Entry) : (s.addEntry e).Keyed := by
  intro key slot hslot
  unfold Scope.addEntry at hslot ⊢
  split at hslot
  · next old hold =>
      obtain ⟨f, hf, hname⟩ := h key slot hslot
      obtain ⟨f', hf', hname'⟩ := h _ _ hold
      by_cases hsame : slot = old
      · subst hsame
        cases hf.symm.trans hf'
        refine ⟨e, ?_, by rw [← hname, hname']⟩
        exact List.getElem?_set_self (List.getElem?_eq_some_iff.mp hf).1
      · exact ⟨f, (List.getElem?_set_ne (Ne.symm hsame)).trans hf, hname⟩
  · rw [OrderedMap.get?_insert] at hslot
    split at hslot
    · next hkey =>
        cases hslot
        exact ⟨e, List.getElem?_concat_length, hkey.symm⟩
    · obtain ⟨f, hf, hname⟩ := h key slot hslot
      exact ⟨f, (List.getElem?_append_left (List.getElem?_eq_some_iff.mp hf).1).trans hf, hname⟩

/-- The relation that was added last under a name is the one that the name leads to. -/
theorem Keyed.entry_addEntry (h : s.Keyed) (e : Entry) (name : String) :
    Scope.entry? (s.addEntry e) name =
      if eqIgnoreCase e.name name then some e else s.entry? name := by
  unfold entry? slot? Scope.addEntry
  by_cases hname : lowerCase name = lowerCase e.name
  · rw [if_pos (eqIgnoreCase_iff.mpr hname.symm), hname]
    split
    · next old hold =>
        obtain ⟨f, hf, -⟩ := h _ _ hold
        have hold : s.names.get? (lowerCase e.name) = some old := hold
        rw [hold, Option.bind_some]
        exact List.getElem?_set_self (List.getElem?_eq_some_iff.mp hf).1
    · rw [OrderedMap.get?_insert, if_pos rfl, Option.bind_some]
      exact List.getElem?_concat_length
  · rw [if_neg fun hsame => hname (eqIgnoreCase_iff.mp hsame).symm]
    split
    · next old hold =>
        cases hslot : s.names.get? (lowerCase name) with
        | none => rfl
        | some slot =>
            obtain ⟨f, hf, hfname⟩ := h _ _ hslot
            obtain ⟨f', hf', hname'⟩ := h _ _ hold
            have hne : old ≠ slot := by
              rintro rfl
              cases hf.symm.trans hf'
              exact hname (hfname.symm.trans hname')
            exact List.getElem?_set_ne hne
    · rw [OrderedMap.get?_insert, if_neg hname]
      cases hslot : s.names.get? (lowerCase name) with
      | none => rfl
      | some slot =>
          obtain ⟨f, hf, -⟩ := h _ _ hslot
          exact List.getElem?_append_left (List.getElem?_eq_some_iff.mp hf).1

end Scope

/-- The table of that name, in any case.  Of several the last one counts. -/
def Catalog.named? (c : Catalog) (name : String) : Option Table :=
  c.tables.values.reverse.find? fun t => eqIgnoreCase t.name name

theorem Catalog.name_of_named? {c : Catalog} {name : String} {t : Table}
    (h : c.named? name = some t) : eqIgnoreCase t.name name = true := by
  rw [named?] at h
  have hname := List.find?_some h
  exact hname

namespace Scope

/-- A name of the scope of a catalog leads to the table of that name. -/
theorem entry_ofCatalog (overrides : ColumnOverrides) (c : Catalog) (name : String) :
    Scope.entry? (ofCatalog overrides c) name = (c.named? name).map (Entry.ofTable overrides) := by
  have hfold (ts : List Table) (s : Scope) (hs : s.Keyed) :
      Scope.entry? (ts.foldl (fun s t => s.addEntry (.ofTable overrides t)) s) name =
        ((ts.reverse.find? fun t => eqIgnoreCase t.name name).map
          (Entry.ofTable overrides)).or (s.entry? name) := by
    induction ts generalizing s with
    | nil => rfl
    | cons t ts ih =>
        rw [List.foldl_cons, ih _ (hs.addEntry _), hs.entry_addEntry, Entry.name_ofTable,
          List.reverse_cons, List.find?_append]
        cases hlater : ts.reverse.find? (fun t => eqIgnoreCase t.name name) with
        | some u => rfl
        | none =>
            rw [List.find?_singleton]
            cases eqIgnoreCase t.name name <;> rfl
  exact (hfold c.tables.values empty keyed_empty).trans (Option.or_none)

/-! ### One relation -/

/-- Among the columns of one relation a name leads to the column of that name. -/
theorem lookup_addEntry_empty (e : Entry) (name : String) :
    (empty.addEntry e).lookup none name =
      match e.column? name with
      | some d => .ok d
      | none => .error (.noSuchColumn name) := by
  have hentries : (empty.addEntry e).entries = [e] := rfl
  rw [lookup, lookupAny, hentries, List.filterMap_cons]
  cases e.column? name <;> rfl

variable {base : Scope} {e : Entry} {r : RelationRef}

/-- The scope of a statement that names one relation under one alias. -/
theorem addReference_empty (hderived : r.derived = false) (hentry : base.entry? r.name = some e) :
    base.addReference empty r = (empty.addEntry e).addAlias? r.asName 0 := by
  have hslot : empty.slot? e.name = none := rfl
  simp only [addReference, hderived, hentry, slotFor, hslot]
  rfl

theorem missing_addReference_empty (hderived : r.derived = false)
    (hentry : base.entry? r.name = some e) : (base.addReference empty r).missing = [] := by
  rw [addReference_empty hderived hentry]
  cases r.asName <;> rfl

/-- In such a scope the relation has two names, and there is no other one. -/
theorem lookupIn_addReference {asName : String} (hderived : r.derived = false)
    (hentry : base.entry? r.name = some e) (hname : eqIgnoreCase e.name r.name = true)
    (has : r.asName = some asName) (qualifier column : String) :
    (base.addReference empty r).lookupIn qualifier column =
      if eqIgnoreCase qualifier r.name || eqIgnoreCase qualifier asName then
        match e.column? column with
        | some c => .ok c
        | none => .error (.unknownColumn qualifier column)
      else .error (.unknownRelation qualifier) := by
  have hentry' : Scope.entry? (base.addReference empty r) qualifier =
      if eqIgnoreCase qualifier r.name || eqIgnoreCase qualifier asName then some e else none := by
    rw [addReference_empty hderived hentry, has]
    show (((OrderedMap.empty.insert (lowerCase e.name) 0).insert (lowerCase asName) 0).get?
      (lowerCase qualifier)).bind (fun slot => [e][slot]?) = _
    rw [OrderedMap.get?_insert, OrderedMap.get?_insert, eqIgnoreCase_iff.mp hname]
    by_cases halias : lowerCase qualifier = lowerCase asName
    · rw [if_pos halias, eqIgnoreCase_iff.mpr halias, Bool.or_true]
      rfl
    · have hno : eqIgnoreCase qualifier asName = false :=
        Bool.eq_false_iff.mpr (mt eqIgnoreCase_iff.mp halias)
      rw [if_neg halias, hno, Bool.or_false]
      by_cases hthis : lowerCase qualifier = lowerCase r.name
      · rw [if_pos hthis, eqIgnoreCase_iff.mpr hthis]
        rfl
      · have hno : eqIgnoreCase qualifier r.name = false :=
          Bool.eq_false_iff.mpr (mt eqIgnoreCase_iff.mp hthis)
        rw [if_neg hthis, hno]
        rfl
  have hknown : (base.addReference empty r).isOpaque qualifier = false := by
    rw [addReference_empty hderived hentry, has]
    rfl
  rw [lookupIn, hentry', hknown]
  cases eqIgnoreCase qualifier r.name || eqIgnoreCase qualifier asName with
  | true => rfl
  | false => rfl

/-- In the scope of a statement that names one relation, the columns of the relation are those that
it has among all relations. -/
theorem lookupIn_addReference_self (hderived : r.derived = false)
    (hentry : base.entry? r.name = some e) (hname : eqIgnoreCase e.name r.name = true)
    (has : r.asName = none) (column : String) :
    (base.addReference empty r).lookupIn r.name column = base.lookupIn r.name column := by
  have hentry' : Scope.entry? (base.addReference empty r) r.name = some e := by
    rw [addReference_empty hderived hentry, has]
    show ((OrderedMap.empty.insert (lowerCase e.name) 0).get? (lowerCase r.name)).bind
      (fun slot => [e][slot]?) = _
    rw [OrderedMap.get?_insert, if_pos (eqIgnoreCase_iff.mp hname).symm]
    rfl
  rw [lookupIn, lookupIn, hentry', hentry]

/-- The column of a table of a catalog is found under the name of the table, with the type that is
given for it or else the declared one. -/
theorem lookupIn_ofCatalog {c : Catalog} {t : Table} {d : Column} {table column : String}
    (overrides : ColumnOverrides) (ht : c.named? table = some t)
    (hd : (Entry.ofTable overrides t).column? column = some d) :
    (ofCatalog overrides c).lookupIn table column = .ok d := by
  have hentry : Scope.entry? (ofCatalog overrides c) table = some (.ofTable overrides t) := by
    rw [entry_ofCatalog, ht]
    rfl
  rw [lookupIn, hentry]
  dsimp only
  rw [hd]

end Scope

end TypedSql

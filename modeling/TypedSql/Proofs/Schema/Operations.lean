import TypedSql.Proofs.Report.Views
import TypedSql.Proofs.Schema.KeptTables
import TypedSql.Proofs.Schema.ColumnNames

/-!
# Catalogs that operations make

A catalog is made by schema files, by adding and removing tables and views, and by turning views
into tables.  Whatever the order of these, every relation stands under the lower-case form of its
name, so that a name finds the one relation that has it in any case and removing one leaves the
others in their order; and every column of a primary key is never NULL.

Main definitions: `Catalog.Operation`, `Catalog.Sound`.  Main statement:
`Catalog.Operation.sound_run`.
-/

namespace TypedSql

open Text

/-! ## Maps keyed by names -/

namespace OrderedMap

variable {α : Type} {name : α → String} {m : OrderedMap α}

/-- The values of a name, in any case, are the one that the name leads to. -/
theorem KeyedBy.filter_values (h : m.KeyedBy name) (word : String) :
    m.values.filter (fun v => eqIgnoreCase (name v) word) =
      (m.get? (lowerCase word)).toList := by
  cases hvalue : m.get? (lowerCase word) with
  | none =>
      rw [Option.toList_none, List.filter_eq_nil_iff]
      intro v hv hword
      have hsome := (h.exists_iff word).mp ⟨v, hv, hword⟩
      rw [hvalue] at hsome
      cases hsome
  | some value =>
      have hname : lowerCase (name value) = lowerCase word := h _ value hvalue
      obtain ⟨before, behind, hvalues⟩ :=
        List.append_of_mem (mem_values_iff.mpr ⟨_, hvalue⟩)
      -- Names differ, so the others have another one.
      have hnodup := h.nodup
      rw [hvalues, List.map_append, List.map_cons, List.nodup_middle, List.nodup_cons,
        ← List.map_append, hname] at hnodup
      have hothers : (before ++ behind).filter (fun v => eqIgnoreCase (name v) word) = [] := by
        rw [List.filter_eq_nil_iff]
        intro v hv hword
        exact hnodup.1 (List.mem_map.mpr ⟨v, hv, eqIgnoreCase_iff.mp hword⟩)
      rw [List.filter_append, List.append_eq_nil_iff] at hothers
      have hthis : eqIgnoreCase (name value) word = true := eqIgnoreCase_iff.mpr hname
      rw [hvalues, List.filter_append, List.filter_cons, if_pos hthis, hothers.1, hothers.2]
      rfl

/-- Removing a name leaves the values of other names, in their order. -/
theorem KeyedBy.values_erase (h : m.KeyedBy name) (word : String) :
    (m.erase (lowerCase word)).values = m.values.filter fun v => !eqIgnoreCase (name v) word := by
  show (m.entries.filter fun e => e.1 != lowerCase word).map Prod.snd =
    (m.entries.map Prod.snd).filter _
  rw [List.filter_map]
  congr 1
  refine List.filter_congr fun e he => ?_
  rw [Function.comp_apply, eqIgnoreCase, h e.1 e.2 (get?_of_mem he)]
  rfl

end OrderedMap

/-! ## Columns -/

/-- A column that is made of a name and a declared type, and marks. -/
inductive Column.Built : Column → Prop
  | plain (name declaration : String) : Built (.plain name declaration)
  | withNotNull {d : Column} (h : Built d) : Built d.withNotNull
  | withPrimaryKey {d : Column} (h : Built d) : Built d.withPrimaryKey

/-- As part of a primary key the column is never NULL. -/
def Column.KeyNotNull (d : Column) : Prop := d.primaryKey = true → d.notNull = true

theorem Column.Built.keyNotNull {d : Column} (h : d.Built) : d.KeyNotNull := by
  cases h with
  | plain name declaration => exact nofun
  | withNotNull _ => exact fun _ => rfl
  | withPrimaryKey _ => exact fun _ => rfl

/-- A column that is never NULL has no type that can be NULL. -/
theorem Affinity.columnType_ne_nullable {notNull : Bool} (h : notNull = true)
    (declaration : String) (type : ValueType) :
    columnType declaration notNull ≠ .resolved type true := by
  rw [h, columnType]
  cases resolve? declaration with
  | none => exact nofun
  | some t => exact nofun

namespace Table

/-- Every column of the table that is part of a primary key is never NULL. -/
def KeyNotNull (t : Table) : Prop := ∀ d ∈ t.columns, d.KeyNotNull

variable {t : Table}

theorem KeyNotNull.append (h : t.KeyNotNull) {column : Column} (hcolumn : column.KeyNotNull) :
    { t with columns := t.columns ++ [column] }.KeyNotNull := by
  intro d hd
  rcases List.mem_append.mp hd with hd | hd
  · exact h d hd
  · cases List.mem_singleton.mp hd
    exact hcolumn

theorem KeyNotNull.modifyColumn (h : t.KeyNotNull) {f : Column → Column}
    (hf : ∀ d : Column, d.KeyNotNull → (f d).KeyNotNull) (name : String) :
    (t.modifyColumn name f).KeyNotNull := by
  cases hthere : (t.column? name).isSome with
  | false => rwa [modifyColumn_of_none hthere]
  | true =>
      obtain ⟨before, column, behind, hcolumns, -, -, heq⟩ := modifyColumn_eq hthere f
      rw [KeyNotNull, hcolumns, List.forall_mem_append, List.forall_mem_cons] at h
      rw [heq, KeyNotNull, List.forall_mem_append, List.forall_mem_cons]
      exact ⟨h.1, hf column h.2.1, h.2.2⟩

end Table

/-! ## Statements -/

namespace Schema

open Token

variable {source : Source} {c c' : Catalog} {statement : List Token}

/-- Constraints that mark a column as part of the primary key also mark it as never NULL. -/
theorem keyNotNull_readConstraints (sql : String) {column : Column} (tokens : List Token)
    (h : column.KeyNotNull) : (readConstraints sql column tokens).KeyNotNull := by
  fun_induction readConstraints sql column tokens with
  | case1 => exact h
  | case2 _ _ _ _ ih => exact ih fun _ => rfl
  | case3 _ _ _ _ _ ih => exact ih fun _ => rfl
  | case4 _ _ _ _ _ _ ih => exact ih h
  | case5 _ _ _ _ _ _ _ _ _ ih => exact ih h
  | case6 => exact h
  | case7 _ _ _ _ _ _ _ ih => exact ih h

theorem keyNotNull_readColumn {definition : List Token} {column : Column}
    (h : readColumn source definition = .ok column) : column.KeyNotNull := by
  cases definition with
  | nil => cases h
  | cons name rest =>
      rw [readColumn] at h
      by_cases hname : canName name = true
      · rw [if_pos hname] at h
        cases h
        exact keyNotNull_readConstraints _ _ fun hkey => absurd hkey Bool.false_ne_true
      · rw [if_neg hname] at h
        cases h

theorem keyNotNull_readTable (source : Source) (name : String) (position : Position)
    (body : List Token) : (readTable source name position body).table.KeyNotNull := by
  refine readTable_induction name position body nofun ?_ ?_
  · intro d element h
    rcases d.table_addElement source element with ⟨_, _, heq⟩ | ⟨column, _, hread, -, heq⟩
    · rw [heq]
      exact h
    · rw [heq]
      exact h.append (keyNotNull_readColumn hread)
  · intro t key h
    exact h.modifyColumn (fun _ _ _ => rfl) key

theorem Change.keyNotNull (hchange : Change source c statement c')
    (h : c.EveryTable Table.KeyNotNull) : c'.EveryTable Table.KeyNotNull := by
  refine hchange.everyTable h (fun _ _ ht => ht) (fun _ _ ht => ht)
    (fun _ _ _ _ => keyNotNull_readTable _ _ _ _)
    (fun _ _ _ hread _ ht => ht.append (keyNotNull_readColumn hread)) ?_ ?_
  · intro t table old new _ _ _ ht
    exact ht.modifyColumn (f := fun d => { d with name := new.value }) (fun _ hd => hd) _
  · intro t table column _ _ ht d hd
    exact ht d (List.mem_of_mem_filter hd)

/-- A table or a view that is dropped is removed, and where there is none nothing changes. -/
theorem applyStatement_of_drops {kind : Dropped} {name : Token} (hkind : kind ≠ .index)
    (h : Drops kind statement name) :
    (applyStatement source c statement).1 = kind.remove name.value c := by
  obtain ⟨drop, word, rest, behind, rfl, hdrop, hword, hname⟩ := h
  have hattempt := attempt_of_drop hdrop (word :: rest) source c
  by_cases hthere : kind.isIn name.value c
  · have hdone : dropObject source c (word :: rest) = .ok (kind.remove name.value c) :=
      dropObject_eq_ok.mpr ⟨kind, word, rest, name, behind, rfl, hword, hname, hthere, rfl⟩
    rw [AttemptsOnly, hdone] at hattempt
    rw [applyStatement, hattempt]
    rfl
  · have hsame : kind.remove name.value c = c := by
      cases kind with
      | table =>
          have hnone : c.tables.get? (lowerCase name.value) = none := by
            simpa [Dropped.isIn, Catalog.table?] using hthere
          exact congrArg (Catalog.mk · c.views) (OrderedMap.erase_of_none hnone)
      | view =>
          have hnone : c.views.get? (lowerCase name.value) = none := by
            simpa [Dropped.isIn, Catalog.view?] using hthere
          exact congrArg (Catalog.mk c.tables) (OrderedMap.erase_of_none hnone)
      | index => exact absurd rfl hkind
    refine hattempt.frame (P := fun c' => c' = kind.remove name.value c) hsame.symm fun c' hc' => ?_
    exact eq_remove_of_dropObject hword hname hc'

end Schema

/-! ## Operations -/

namespace Catalog

/-- A step in which a catalog is made. -/
inductive Operation
  | applyFile (path sql : String)
  | addTable (t : Table) (h : ∀ d ∈ t.columns, d.Built)
  | addView (v : View)
  | removeTable (name : String)
  | removeView (name : String)
  | resolveViews

/-- The catalog behind an operation. -/
def Operation.apply (c : Catalog) : Operation → Catalog
  | applyFile path sql => (Schema.applyFile path sql c).1
  | addTable t _ => c.addTable t
  | addView v => c.addView v
  | removeTable name => c.removeTable name
  | removeView name => c.removeView name
  | resolveViews => (TypedSql.resolveViews c).1

/-- The catalog that operations make of the empty one. -/
def Operation.run (operations : List Operation) : Catalog := operations.foldl apply .empty

/-- Every relation stands under its name, and no column of a primary key can be NULL. -/
structure Sound (c : Catalog) : Prop where
  keyed : c.Keyed
  keyNotNull : c.EveryTable Table.KeyNotNull

variable {c : Catalog}

theorem sound_empty : empty.Sound := ⟨keyed_empty, everyTable_empty⟩

theorem Sound.addTable (h : c.Sound) {t : Table} (ht : t.KeyNotNull) : (c.addTable t).Sound :=
  ⟨h.keyed.addTable t, h.keyNotNull.addTable ht⟩

theorem Sound.applyFile (h : c.Sound) (path sql : String) :
    (Schema.applyFile path sql c).1.Sound := by
  have hrun (steps : List Schema.Step) {c : Catalog} (h : c.Sound) :
      (steps.foldl Schema.Step.apply c).Sound := by
    induction steps generalizing c with
    | nil => exact h
    | cons s steps ih =>
        have hchange := Schema.change_applyStatement s.source c s.statement
        exact ih ⟨hchange.keyed h.keyed, hchange.keyNotNull h.keyNotNull⟩
  rw [show Schema.applyFile path sql c = Schema.applyFile (path, sql).1 (path, sql).2 c from rfl,
    Schema.fst_applyFile]
  exact hrun _ h

/-- A table that a view becomes has no primary key. -/
theorem Sound.resolveViews (h : c.Sound) : (TypedSql.resolveViews c).1.Sound := by
  have hviews (views : List View) {c : Catalog} (h : c.Sound) : (c.withViews views).Sound := by
    induction views generalizing c with
    | nil => exact h
    | cons v views ih =>
        refine ih ?_
        show (v.resolve c).1.Sound
        rw [View.fst_resolve]
        cases v.outputs c with
        | none => exact h
        | some columns =>
            refine h.addTable (t := v.toTable columns) fun d hd => ?_
            obtain ⟨column, -, rfl⟩ := List.mem_map.mp hd
            exact nofun
  rw [fst_resolveViews]
  exact hviews _ h

theorem Sound.apply (h : c.Sound) (o : Operation) : (o.apply c).Sound := by
  cases o with
  | applyFile path sql => exact h.applyFile path sql
  | addTable t ht => exact h.addTable fun d hd => (ht d hd).keyNotNull
  | addView v => exact ⟨h.keyed.addView v, h.keyNotNull⟩
  | removeTable name => exact ⟨h.keyed.removeTable name, h.keyNotNull.removeTable name⟩
  | removeView name => exact ⟨⟨h.keyed.tables, h.keyed.views.erase _⟩, h.keyNotNull⟩
  | resolveViews => exact h.resolveViews

theorem sound_foldl (operations : List Operation) (h : c.Sound) :
    (operations.foldl Operation.apply c).Sound := by
  induction operations generalizing c with
  | nil => exact h
  | cons o operations ih => exact ih (h.apply o)

/-- Operations in any order make a catalog in which every relation stands under the lower-case form
of its name; a name finds the tables that have it in any case, which are one or none; a column of a
primary key is never NULL and has no type that can be; and a relation that is removed, or dropped by
a statement, leaves the others in their order. -/
theorem Operation.sound_run (operations : List Operation) :
    let c := run operations
    (∀ e ∈ c.tables.entries, e.1 = lowerCase e.2.name) ∧
      (∀ e ∈ c.views.entries, e.1 = lowerCase e.2.name) ∧
      (∀ name, c.tables.values.filter (fun t => eqIgnoreCase t.name name) =
        (c.table? name).toList) ∧
      (∀ t ∈ c.tables.values, ∀ d ∈ t.columns, d.primaryKey = true → d.notNull = true ∧
        ∀ type, Affinity.columnType d.declaration d.notNull ≠ .resolved type true) ∧
      (∀ name, (c.removeTable name).views = c.views ∧ (c.removeTable name).tables.values =
        c.tables.values.filter fun t => !eqIgnoreCase t.name name) ∧
      (∀ name, (c.removeView name).tables = c.tables ∧ (c.removeView name).views.values =
        c.views.values.filter fun v => !eqIgnoreCase v.name name) ∧
      ∀ source statement name,
        (Schema.Drops .table statement name →
          (Schema.applyStatement source c statement).1 = c.removeTable name.value) ∧
        (Schema.Drops .view statement name →
          (Schema.applyStatement source c statement).1 = c.removeView name.value) := by
  intro c
  have h : c.Sound := sound_foldl operations sound_empty
  refine ⟨?_, ?_, h.keyed.tables.filter_values, ?_, ?_, ?_, ?_⟩
  · intro e he
    exact (h.keyed.tables e.1 e.2 (OrderedMap.get?_of_mem he)).symm
  · intro e he
    exact (h.keyed.views e.1 e.2 (OrderedMap.get?_of_mem he)).symm
  · intro t ht d hd hkey
    have hnotNull : d.notNull = true := h.keyNotNull t ht d hd hkey
    exact ⟨hnotNull, Affinity.columnType_ne_nullable hnotNull d.declaration⟩
  · exact fun name => ⟨rfl, h.keyed.tables.values_erase name⟩
  · exact fun name => ⟨rfl, h.keyed.views.values_erase name⟩
  · intro source statement name
    exact ⟨Schema.applyStatement_of_drops (by decide), Schema.applyStatement_of_drops (by decide)⟩

end Catalog

end TypedSql

import Mathlib.Data.List.Nodup
import TypedSql.Proofs.Schema.EveryTable
import TypedSql.Proofs.Schema.Run

/-!
# The names of the columns of a table

The columns of a table have different names, up to case, as long as no statement gives a column
the name of another one: `CREATE TABLE` and `ADD` look for the name before they add a column, but
`RENAME` of a column does not.

Main definitions: `Catalog.DistinctColumns`, `Schema.RenamesOnto`.  Main statement:
`Schema.distinctColumns_along_iff`.
-/

namespace TypedSql

open Text

/-! ## Tables -/

namespace Table

/-- The names of the columns, in lower case. -/
def columnKeys (t : Table) : List String := t.columns.map fun c => lowerCase c.name

/-- No two columns have the same name, in any case. -/
def DistinctColumns (t : Table) : Prop := t.columnKeys.Nodup

instance (t : Table) : Decidable t.DistinctColumns := inferInstanceAs (Decidable (List.Nodup _))

variable {t : Table}

theorem isSome_column?_iff {name : String} :
    (t.column? name).isSome ↔ lowerCase name ∈ t.columnKeys := by
  rw [column?, List.isSome_find?, List.any_eq_true, columnKeys, List.mem_map]
  constructor
  · rintro ⟨c, hc, hname⟩
    exact ⟨c, hc, eqIgnoreCase_iff.mp hname⟩
  · rintro ⟨c, hc, hname⟩
    exact ⟨c, hc, eqIgnoreCase_iff.mpr hname⟩

/-- A column under a new name joins the others. -/
theorem DistinctColumns.append {key : List String} {column : Column} (h : t.DistinctColumns)
    (hnew : (t.column? column.name).isSome = false) :
    { t with columns := t.columns ++ [column], primaryKey := key }.DistinctColumns := by
  have hnot : lowerCase column.name ∉ t.columnKeys := by
    intro hmem
    rw [isSome_column?_iff.mpr hmem] at hnew
    cases hnew
  show (List.map _ (t.columns ++ [column])).Nodup
  rw [List.map_append, List.nodup_append]
  refine ⟨h, by simp, ?_⟩
  intro a ha b hb hab
  simp only [List.map_cons, List.map_nil, List.mem_singleton] at hb
  exact hnot (hb ▸ hab ▸ ha)

/-- The first column of a name stands somewhere, and `modifyColumn` changes it there. -/
theorem modifyColumn_eq {name : String} (h : (t.column? name).isSome) (f : Column → Column) :
    ∃ before column behind, t.columns = before ++ column :: behind ∧
      (∀ d ∈ before, d.isNamed name = false) ∧ lowerCase column.name = lowerCase name ∧
      t.modifyColumn name f = { t with columns := before ++ f column :: behind } := by
  obtain ⟨i, hi⟩ : ∃ i, t.columns.findIdx? (Column.isNamed name) = some i := by
    rw [← Option.isSome_iff_exists, List.findIdx?_isSome, ← List.isSome_find?]
    exact h
  obtain ⟨hlt, hname, hfirst⟩ := List.findIdx?_eq_some_iff_getElem.mp hi
  obtain ⟨before, column, behind, hcolumns, hlength, hmodify⟩ := List.exists_of_modify f hlt
  refine ⟨before, column, behind, hcolumns, ?_, ?_, ?_⟩
  · intro d hd
    obtain ⟨j, hj, rfl⟩ := List.mem_iff_getElem.mp hd
    have hbound : j < t.columns.length := by omega
    have hthis : t.columns[j] = before[j] := by simp [hcolumns, hj]
    rw [← hthis]
    simpa using hfirst j (by omega)
  · have hthis : t.columns[i] = column := by simp [hcolumns, ← hlength]
    rw [hthis] at hname
    exact eqIgnoreCase_iff.mp hname
  · simp only [modifyColumn, hi, hmodify]

theorem modifyColumn_of_none {name : String} (h : (t.column? name).isSome = false)
    (f : Column → Column) : t.modifyColumn name f = t := by
  have hnone : t.columns.findIdx? (Column.isNamed name) = none := by
    rw [← Option.isNone_iff_eq_none, ← Option.isSome_eq_false_iff, List.findIdx?_isSome,
      ← List.isSome_find?]
    exact h
  simp only [modifyColumn, hnone]

/-- A change that keeps the name of a column keeps all names. -/
theorem columnKeys_modifyColumn {f : Column → Column} (hf : ∀ c, (f c).name = c.name)
    (name : String) : (t.modifyColumn name f).columnKeys = t.columnKeys := by
  cases hthere : (t.column? name).isSome with
  | false => rw [modifyColumn_of_none hthere]
  | true =>
      obtain ⟨before, column, behind, hcolumns, -, -, heq⟩ := modifyColumn_eq hthere f
      rw [heq]
      simp [columnKeys, hcolumns, hf]

/-- The names still differ after a column got a new name, unless another column has that name. -/
theorem distinctColumns_rename_iff {old new : String} (h : t.DistinctColumns)
    (hold : (t.column? old).isSome) :
    (t.modifyColumn old fun c => { c with name := new }).DistinctColumns ↔
      ((t.column? new).isSome → lowerCase old = lowerCase new) := by
  obtain ⟨before, column, behind, hcolumns, -, hname, heq⟩ :=
    modifyColumn_eq hold fun c => { c with name := new }
  have hkeys : t.columnKeys = before.map (fun c => lowerCase c.name) ++
      lowerCase old :: behind.map fun c => lowerCase c.name := by
    simp [columnKeys, hcolumns, hname]
  rw [isSome_column?_iff, heq]
  unfold DistinctColumns at h ⊢
  rw [hkeys] at h ⊢
  simp only [columnKeys, List.map_append, List.map_cons]
  -- Only the name in the middle is another one than before.
  rw [List.nodup_middle, List.nodup_cons] at h ⊢
  constructor
  · rintro ⟨hnot, -⟩ hmem
    rw [List.mem_append, List.mem_cons] at hmem
    rcases hmem with hmem | hmem | hmem
    · exact absurd (List.mem_append_left _ hmem) hnot
    · exact hmem.symm
    · exact absurd (List.mem_append_right _ hmem) hnot
  · intro hfree
    refine ⟨fun hmem => ?_, h.2⟩
    have hsame : lowerCase old = lowerCase new := by
      apply hfree
      rcases List.mem_append.mp hmem with hmem | hmem
      · exact List.mem_append_left _ hmem
      · exact List.mem_append_right _ (List.mem_cons_of_mem _ hmem)
    exact h.1 (hsame ▸ hmem)

end Table

/-! ## Table bodies -/

namespace Schema

/-- The columns of a new table have different names. -/
theorem distinctColumns_readTable (source : Source) (name : String) (position : Position)
    (body : List Token) :
    (readTable source name position body).table.DistinctColumns := by
  refine readTable_induction name position body List.nodup_nil ?_ ?_
  · intro d element h
    rcases d.table_addElement source element with ⟨_, _, heq⟩ | ⟨column, _, -, hnew, heq⟩
    · rw [heq]
      exact h
    · rw [heq]
      exact h.append hnew
  · intro t key h
    rw [Table.DistinctColumns,
      Table.columnKeys_modifyColumn (f := Column.withPrimaryKey) (fun _ => rfl)]
    exact h

end Schema

/-! ## Catalogs -/

namespace Catalog

/-- No table has two columns of the same name, in any case. -/
def DistinctColumns (c : Catalog) : Prop := ∀ t ∈ c.tables.values, t.DistinctColumns

instance (c : Catalog) : Decidable c.DistinctColumns :=
  inferInstanceAs (Decidable (∀ t ∈ c.tables.values, t.DistinctColumns))

theorem distinctColumns_iff {c : Catalog} :
    c.DistinctColumns ↔ c.EveryTable Table.DistinctColumns := Iff.rfl

end Catalog

/-! ## Statements -/

namespace Schema

variable {source : Source} {c c' : Catalog} {statement : List Token}

/-- The statement gives a column of a table the name of another column of that table. -/
def RenamesOnto (c : Catalog) (statement : List Token) : Prop :=
  ∃ table old new, RenamesColumn statement table old new ∧
    (c.column? table.value old.value).isSome ∧ (c.column? table.value new.value).isSome ∧
    eqIgnoreCase old.value new.value = false

/-- A change that gives no column the name of another one keeps the names of columns different. -/
theorem Change.distinctColumns (hchange : Change source c statement c') (h : c.DistinctColumns)
    (hnot : ¬ RenamesOnto c statement) : c'.DistinctColumns := by
  refine hchange.everyTable (Catalog.distinctColumns_iff.mp h) (fun _ _ ht => ht)
    (fun _ _ ht => ht) (fun _ _ _ _ => distinctColumns_readTable _ _ _ _)
    (fun _ _ _ _ hnew ht => ht.append hnew) ?_ ?_
  · intro t table old new hrename htable hold ht
    rw [Table.distinctColumns_rename_iff ht hold, ← eqIgnoreCase_iff]
    intro hnew
    by_contra hne
    exact hnot ⟨table, old, new, hrename, by simpa [Catalog.column?, htable] using hold,
      by simpa [Catalog.column?, htable] using hnew, by simpa using hne⟩
  · intro t table column _ _ ht
    exact ht.sublist (List.filter_sublist.map _)

/-- A statement keeps the names of columns different exactly where it gives no column the name of
another one. -/
theorem distinctColumns_applyStatement_iff (h : c.DistinctColumns) :
    (applyStatement source c statement).1.DistinctColumns ↔ ¬ RenamesOnto c statement := by
  constructor
  · rintro hafter ⟨table, old, new, hrename, hold, hnew, hne⟩
    rw [applyStatement_of_renamesColumn hrename hold, Catalog.distinctColumns_iff,
      (Catalog.distinctColumns_iff.mp h).modifyTable_iff] at hafter
    obtain ⟨t, ht, hold⟩ := exists_table_of_column hold
    rw [Catalog.column?, ht, Option.bind_some] at hnew
    have htable := (Catalog.distinctColumns_iff.mp h).of_table? ht
    have hsame := (Table.distinctColumns_rename_iff htable hold).mp (hafter t ht) hnew
    rw [eqIgnoreCase_iff.mpr hsame] at hne
    cases hne
  · intro hnot
    exact (change_applyStatement source c statement).distinctColumns h hnot

/-- Along a run of schema files the columns of every table have different names exactly where no
statement gives a column the name of another one.  The catalog of the files is the last of the
run. -/
theorem distinctColumns_along_iff (files : List (String × String)) :
    (ofFiles files).1 = after (script files) ∧
      ((∀ done, done <+: script files → (after done).DistinctColumns) ↔
        ∀ done s, done ++ [s] <+: script files → ¬ RenamesOnto (after done) s.statement) :=
  ⟨fst_ofFiles files,
    forall_after_iff (Catalog.everyTable_empty (P := Table.DistinctColumns))
      (fun _ _ h => distinctColumns_applyStatement_iff h) _⟩

/-- A column gets the name of the other column of its table, and nothing is reported. -/
theorem not_distinctColumns_of_rename :
    let files := [("s.sql",
      "CREATE TABLE t (a INTEGER, b TEXT);\nALTER TABLE t RENAME COLUMN a TO b;")]
    ¬ (ofFiles files).1.DistinctColumns ∧ (ofFiles files).2 = [] := by
  intro files
  rw [ofFiles_singleton, applyFile_ofList]
  decide +kernel

end Schema

end TypedSql

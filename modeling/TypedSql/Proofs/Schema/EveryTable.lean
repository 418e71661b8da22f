import TypedSql.Proofs.Schema.Change

/-!
# What holds of every table

A property of single tables holds of all tables of a catalog behind a change if each of the ways to
make a table or to alter one keeps it.  Invariants of tables are proved from the six ways in which a
statement acts on a table, and no later proof looks into maps of tables.

Main definition: `Catalog.EveryTable`.  Main statement: `Schema.Change.everyTable`.
-/

namespace TypedSql

open Text

namespace Catalog

/-- Every table of the catalog has the property. -/
def EveryTable (P : Table → Prop) (c : Catalog) : Prop := ∀ t ∈ c.tables.values, P t

variable {P : Table → Prop} {c : Catalog}

instance [DecidablePred P] : Decidable (c.EveryTable P) :=
  inferInstanceAs (Decidable (∀ t ∈ c.tables.values, P t))

theorem everyTable_iff :
    c.EveryTable P ↔ ∀ key t, c.tables.get? key = some t → P t := by
  constructor
  · intro h key t ht
    exact h t (OrderedMap.mem_values_iff.mpr ⟨key, ht⟩)
  · intro h t ht
    obtain ⟨key, hkey⟩ := OrderedMap.mem_values_iff.mp ht
    exact h key t hkey

theorem everyTable_empty : empty.EveryTable P := nofun

theorem EveryTable.of_table? (h : c.EveryTable P) {name : String} {t : Table}
    (ht : c.table? name = some t) : P t :=
  everyTable_iff.mp h _ t ht

theorem EveryTable.addTable (h : c.EveryTable P) {t : Table} (ht : P t) :
    (c.addTable t).EveryTable P := by
  rw [everyTable_iff] at h ⊢
  intro key u hu
  rw [Catalog.addTable, OrderedMap.get?_insert] at hu
  split at hu
  · cases hu
    exact ht
  · exact h key u hu

theorem EveryTable.removeTable (h : c.EveryTable P) (name : String) :
    (c.removeTable name).EveryTable P := by
  rw [everyTable_iff] at h ⊢
  intro key u hu
  rw [Catalog.removeTable, OrderedMap.get?_erase] at hu
  split at hu
  · cases hu
  · exact h key u hu

/-- Only the table that is changed has to be looked at. -/
theorem EveryTable.modifyTable_iff (h : c.EveryTable P) {name : String} {f : Table → Table} :
    (c.modifyTable name f).EveryTable P ↔ ∀ t, c.table? name = some t → P (f t) := by
  rw [everyTable_iff] at h ⊢
  simp only [Catalog.modifyTable, OrderedMap.get?_modify]
  constructor
  · intro hall t ht
    have hthis := hall (lowerCase name) (f t)
    rw [show c.tables.get? (lowerCase name) = some t from ht] at hthis
    exact hthis (by simp)
  · intro hthis key u hu
    obtain ⟨t, ht, rfl⟩ := Option.map_eq_some_iff.mp hu
    split
    · next hkey => exact hthis t (by rw [table?, ← hkey]; exact ht)
    · exact h key t ht

end Catalog

namespace Schema

open Token

variable {P : Table → Prop} {source : Source} {c c' : Catalog} {statement : List Token}

theorem everyTable_drop (h : c.EveryTable P)
    (hindexes : ∀ t indexes, P t → P { t with indexes := indexes }) (kind : Dropped)
    (name : String) : (kind.remove name c).EveryTable P := by
  cases kind with
  | table => exact h.removeTable name
  | view => exact h
  | index =>
      rw [Catalog.everyTable_iff] at h ⊢
      intro key u hu
      rw [Dropped.remove, OrderedMap.get?_mapValues] at hu
      obtain ⟨t, ht, rfl⟩ := Option.map_eq_some_iff.mp hu
      exact hindexes t _ (h key t ht)

/-- A property of tables holds behind a change if it holds of a table that the statement defines,
and if it survives other indexes, a new name, and the changes of columns that the statement can
make. -/
theorem Change.everyTable (hchange : Change source c statement c') (h : c.EveryTable P)
    (hindexes : ∀ t indexes, P t → P { t with indexes := indexes })
    (hname : ∀ t name, P t → P { t with name := name })
    (hdefine : ∀ name body, Defines statement name body → (c.table? name.value).isNone →
      P (readTable source name.value name.position body).table)
    (hadd : ∀ t definition column, readColumn source definition = .ok column →
      (t.column? column.name).isSome = false → P t → P { t with columns := t.columns ++ [column] })
    (hrename : ∀ t table old new, RenamesColumn statement table old new →
      c.table? table.value = some t → (t.column? old.value).isSome → P t →
        P (t.modifyColumn old.value fun column => { column with name := new.value }))
    (hdrop : ∀ t table column, DropsColumn statement table column →
      c.table? table.value = some t → P t →
        P { t with columns := t.columns.filter fun d => !d.isNamed column.value }) :
    c'.EveryTable P := by
  cases hchange with
  | unchanged => exact h
  | define hdefines hnew => exact h.addTable (hdefine _ _ hdefines hnew)
  | view v _ => exact h
  | index table i => exact h.modifyTable_iff.mpr fun t ht => hindexes t _ (h.of_table? ht)
  | addColumn hread hnew =>
      refine h.modifyTable_iff.mpr fun t ht => hadd t _ _ hread ?_ (h.of_table? ht)
      simpa [Catalog.column?, ht] using hnew
  | rename _ ht => exact (h.removeTable _).addTable (hname _ _ (h.of_table? ht))
  | renameColumn hrenames hold =>
      refine h.modifyTable_iff.mpr fun t ht => hrename t _ _ _ hrenames ht ?_ (h.of_table? ht)
      simpa [Catalog.column?, ht] using hold
  | dropColumn hdrops _ =>
      exact h.modifyTable_iff.mpr fun t ht => hdrop t _ _ hdrops ht (h.of_table? ht)
  | drop _ => exact everyTable_drop h hindexes _ _

end Schema

end TypedSql

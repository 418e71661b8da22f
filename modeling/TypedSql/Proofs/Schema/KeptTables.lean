import Mathlib.Data.List.Forall2
import Mathlib.Data.List.Nodup
import Mathlib.Data.List.Perm.Subperm
import TypedSql.Proofs.Schema.Frame
import TypedSql.Proofs.Schema.Run

/-!
# The tables that a statement keeps

A table goes in two ways only: `DROP TABLE` drops it, or another table gets its name, since
`RENAME TO` does not ask whether the name is free.  Any other statement leaves every table in the
catalog, under its own name or under the new one that the statement gives it.  Where a table gets
the name of another one, that other one is all that is lost.

Main definitions: `Stays`, `Keeps`, `DropsTable`, `Overwrites`, `Loses`.  Main statement:
`keeps_applyStatement_iff`.
-/

namespace TypedSql

open Text

/-! ## Entries of maps -/

namespace OrderedMap

variable {α : Type} {m : OrderedMap α} {key : String}

theorem entries_insert_of_none (h : m.get? key = none) (value : α) :
    (m.insert key value).entries = m.entries ++ [(key, value)] := by
  unfold insert
  rw [dif_neg (get?_eq_none.mp h)]

theorem size_insert_of_some (h : (m.get? key).isSome) (value : α) :
    (m.insert key value).size = m.size := by
  have hkey : key ∈ m.keys := by
    by_contra hnot
    rw [get?_eq_none.mpr hnot] at h
    cases h
  have hkeys := congrArg List.length (keys_insert m key value)
  rw [if_pos hkey] at hkeys
  simpa [keys, size] using hkeys

/-- An entry with the key, and those without it, are all entries. -/
theorem perm_erase {value : α} (h : m.get? key = some value) :
    m.entries.Perm ((key, value) :: (m.erase key).entries) := by
  obtain ⟨entries, nodup⟩ := m
  obtain ⟨before, behind, hentries, hbefore⟩ := List.lookup_eq_some_iff.mp h
  simp only at hentries
  subst hentries
  have hkeys : key ∉ before.map Prod.fst ++ behind.map Prod.fst := by
    rw [List.map_append, List.map_cons] at nodup
    exact (List.nodup_middle.mp nodup).notMem
  have hothers : (before ++ (key, value) :: behind).filter (fun e => e.1 != key) =
      before ++ behind := by
    rw [List.filter_append, List.filter_cons_of_neg (by simp)]
    congr 1
    all_goals
      rw [List.filter_eq_self]
      intro e he
      rw [bne_iff_ne]
      rintro rfl
      exact hkeys (by simp [List.mem_map_of_mem he])
  show (before ++ (key, value) :: behind).Perm
    ((key, value) :: (before ++ (key, value) :: behind).filter fun e => e.1 != key)
  rw [hothers]
  exact List.perm_middle

theorem size_erase_of_some (h : (m.get? key).isSome) : (m.erase key).size + 1 = m.size := by
  obtain ⟨value, hvalue⟩ := Option.isSome_iff_exists.mp h
  exact (perm_erase hvalue).length_eq.symm

theorem erase_of_none (h : m.get? key = none) : m.erase key = m := by
  apply ext
  show m.entries.filter _ = m.entries
  rw [List.filter_eq_self]
  intro e he
  rw [bne_iff_ne]
  rintro rfl
  exact get?_eq_none.mp h (List.mem_map_of_mem he)

theorem erase_comm (key other : String) :
    (m.erase key).erase other = (m.erase other).erase key := by
  apply ext
  exact List.filter_comm _ _ _

/-- What was set under a key goes with the key. -/
theorem erase_insert (m : OrderedMap α) (key : String) (value : α) :
    (m.insert key value).erase key = m.erase key := by
  by_cases hkey : key ∈ m.keys
  · unfold insert
    rw [dif_pos hkey, erase_modify]
  · apply ext
    show (m.insert key value).entries.filter _ = m.entries.filter _
    rw [entries_insert_of_none (get?_eq_none.mpr hkey), List.filter_append]
    simp

end OrderedMap

namespace Schema

open Token

variable {source : Source} {c c' : Catalog} {statement : List Token}

/-! ## Tables that stay -/

/-- What becomes of a table and its key: a table that the statement renames has the new name and
is the same otherwise; any other one has its own name, and perhaps other columns and indexes. -/
structure Stays (statement : List Token) (e e' : String × Table) : Prop where
  own : (∀ table name, Renames statement table name → lowerCase table.value ≠ e.1) →
    e'.1 = e.1 ∧ e'.2 = { e.2 with columns := e'.2.columns, indexes := e'.2.indexes }
  renamed : ∀ table name, Renames statement table name → lowerCase table.value = e.1 →
    e' = (lowerCase name.value, { e.2 with name := name.value })

/-- Every table of the first catalog is in the second one, each at a place of its own. -/
def Keeps (statement : List Token) (c c' : Catalog) : Prop :=
  ∃ kept, List.Forall₂ (Stays statement) c.tables.entries kept ∧ kept.Subperm c'.tables.entries

/-- The statement drops a table that is there. -/
def DropsTable (c : Catalog) (statement : List Token) : Prop :=
  ∃ name, Drops .table statement name ∧ (c.table? name.value).isSome

/-- The statement gives a table the name of another one. -/
def Overwrites (c : Catalog) (statement : List Token) (name : Token) : Prop :=
  ∃ table, Renames statement table name ∧ lowerCase name.value ≠ lowerCase table.value ∧
    (c.table? table.value).isSome ∧ (c.table? name.value).isSome

/-- The statement makes a table go: it drops one that is there, or gives one the name of another
one. -/
def Loses (c : Catalog) (statement : List Token) : Prop :=
  DropsTable c statement ∨ ∃ name, Overwrites c statement name

theorem Keeps.size_le (h : Keeps statement c c') : c.size ≤ c'.size := by
  obtain ⟨kept, hkept, hsub⟩ := h
  exact Nat.le_trans (Nat.le_of_eq hkept.length_eq) hsub.length_le

/-- A statement has one new name for one table. -/
theorem Renames.unique {table name table' name' : Token} (h : Renames statement table name)
    (h' : Renames statement table' name') : table = table' ∧ name = name' := by
  obtain ⟨rest, behind, ⟨alter, word, tokens, rfl, -, -, htable⟩, -, hname⟩ := h
  obtain ⟨rest', behind', ⟨alter', word', tokens', heq, -, -, htable'⟩, -, hname'⟩ := h'
  cases heq
  cases htable.symm.trans htable'
  cases hname.symm.trans hname'
  exact ⟨rfl, rfl⟩

/-- Where no table gets a new name, changes of columns and indexes leave every table. -/
theorem keeps_of_mapValues {f : String → Table → Table}
    (hnot : ∀ table name, Renames statement table name → c.table? table.value = none)
    (hf : ∀ key t, f key t = { t with columns := (f key t).columns, indexes := (f key t).indexes })
    (h : (c.tables.mapValues f).entries.Subperm c'.tables.entries) : Keeps statement c c' := by
  refine ⟨_, List.forall₂_map_right_iff.mpr (List.forall₂_same.mpr fun e he => ?_), h⟩
  refine ⟨fun _ => ⟨rfl, hf e.1 e.2⟩, fun table name hrenames hkey => ?_⟩
  have hthere : e.1 ∈ c.tables.keys := List.mem_map_of_mem he
  rw [← hkey] at hthere
  exact absurd hthere (OrderedMap.get?_eq_none.mp (hnot table name hrenames))

/-- A catalog with all tables of this one keeps them where none gets a new name. -/
theorem keeps_of_sublist
    (hnot : ∀ table name, Renames statement table name → c.table? table.value = none)
    (h : c.tables.entries.Sublist c'.tables.entries) : Keeps statement c c' := by
  refine keeps_of_mapValues (f := fun _ t => t) hnot (fun _ _ => rfl) ?_
  show (c.tables.entries.map fun e => (e.1, e.2)).Subperm _
  rw [List.map_id']
  exact h.subperm

theorem keeps_modifyTable {table : String} {f : Table → Table}
    (hnot : ∀ table name, Renames statement table name → c.table? table.value = none)
    (hf : ∀ t, f t = { t with columns := (f t).columns, indexes := (f t).indexes }) :
    Keeps statement c (c.modifyTable table f) := by
  refine keeps_of_mapValues hnot ?_ (List.Subperm.refl _)
  intro key t
  split
  · exact hf t
  · rfl

/-! ## A table under a new name -/

section

variable {table name : Token} {t : Table}

/-- A renamed table comes to the others of a catalog, less the one whose name it takes. -/
theorem entries_rename (c : Catalog) (table name : Token) (t : Table) :
    ((c.removeTable table.value).addTable { t with name := name.value }).tables.entries.Perm
      ((lowerCase name.value, { t with name := name.value }) ::
        ((c.tables.erase (lowerCase table.value)).erase (lowerCase name.value)).entries) := by
  have hthere : ((c.removeTable table.value).addTable { t with name := name.value }).tables.get?
      (lowerCase name.value) = some { t with name := name.value } := by
    show ((c.tables.erase _).insert (lowerCase name.value) _).get? _ = _
    rw [OrderedMap.get?_insert, if_pos rfl]
  have hperm := OrderedMap.perm_erase hthere
  have herase := OrderedMap.erase_insert (c.tables.erase (lowerCase table.value))
    (lowerCase name.value) { t with name := name.value }
  exact herase ▸ hperm

/-- The tables of `d` stay in what renaming makes of `c`, if it has the renamed table and the same
others, less the one whose name is taken. -/
theorem keeps_rename {d : Catalog} (h : Renames statement table name)
    (ht : d.table? table.value = some t)
    (hothers : d.tables.erase (lowerCase table.value) =
      (c.tables.erase (lowerCase table.value)).erase (lowerCase name.value)) :
    Keeps statement d ((c.removeTable table.value).addTable { t with name := name.value }) := by
  let renamed (e : String × Table) : String × Table :=
    if e.1 = lowerCase table.value then (lowerCase name.value, { e.2 with name := name.value })
    else e
  refine ⟨d.tables.entries.map renamed, ?_, List.Perm.subperm ?_⟩
  · refine List.forall₂_map_right_iff.mpr (List.forall₂_same.mpr fun e _ => ?_)
    constructor
    · intro hother
      have hne : e.1 ≠ lowerCase table.value := (hother table name h).symm
      simp only [renamed, if_neg hne, and_self]
    · intro table' name' h' hkey
      obtain ⟨rfl, rfl⟩ := h.unique h'
      simp only [renamed, if_pos hkey.symm]
  · have hothersSame : ((d.tables.erase (lowerCase table.value)).entries).map renamed =
        (d.tables.erase (lowerCase table.value)).entries := by
      rw [List.map_congr_left (g := id), List.map_id]
      intro e he
      have hne : e.1 ≠ lowerCase table.value := bne_iff_ne.mp (List.mem_filter.mp he).2
      exact if_neg hne
    have hperm := (OrderedMap.perm_erase ht).map renamed
    have hrenamed : renamed (lowerCase table.value, t) =
        (lowerCase name.value, { t with name := name.value }) := if_pos rfl
    rw [List.map_cons, hrenamed, hothersSame, hothers] at hperm
    exact hperm.trans (entries_rename c table name t).symm

end

/-! ## Statements -/

/-- A table that is there and dropped is gone. -/
theorem size_of_dropsTable (h : DropsTable c statement) :
    (applyStatement source c statement).1.size + 1 = c.size := by
  obtain ⟨name, ⟨drop, word, rest, behind, rfl, hdrop, hkind, hname⟩, hthere⟩ := h
  have hdone : dropObject source c (word :: rest) = .ok (c.removeTable name.value) :=
    dropObject_eq_ok.mpr ⟨.table, word, rest, name, behind, rfl, hkind, hname, hthere, rfl⟩
  have hattempt := attempt_of_drop hdrop (word :: rest) source c
  rw [AttemptsOnly, hdone] at hattempt
  rw [applyStatement, hattempt]
  exact OrderedMap.size_erase_of_some hthere

/-- A table that takes the name of another one leaves all but that one. -/
theorem keeps_of_overwrites {name : Token} (h : Overwrites c statement name) :
    Keeps statement (c.removeTable name.value) (applyStatement source c statement).1 ∧
      (applyStatement source c statement).1.size + 1 = c.size := by
  obtain ⟨table, hrenames, hne, htable, hthere⟩ := h
  obtain ⟨t, ht⟩ := Option.isSome_iff_exists.mp htable
  rw [applyStatement_of_renames hrenames ht]
  have hstill : (c.removeTable name.value).table? table.value = some t := by
    show (c.tables.erase _).get? _ = _
    rw [OrderedMap.get?_erase, if_neg hne.symm]
    exact ht
  refine ⟨keeps_rename hrenames hstill (OrderedMap.erase_comm _ _), ?_⟩
  have hthere' : ((c.tables.erase (lowerCase table.value)).get? (lowerCase name.value)).isSome := by
    rw [OrderedMap.get?_erase, if_neg hne]
    exact hthere
  show ((c.tables.erase _).insert (lowerCase name.value) _).size + 1 = c.tables.size
  rw [OrderedMap.size_insert_of_some hthere', OrderedMap.size_erase_of_some htable]

/-- A table that takes a free name, or its own in another case, leaves all tables. -/
theorem keeps_of_renames {table name : Token} (h : Renames statement table name)
    (htable : (c.table? table.value).isSome) (hnot : ¬ Overwrites c statement name) :
    Keeps statement c (applyStatement source c statement).1 := by
  obtain ⟨t, ht⟩ := Option.isSome_iff_exists.mp htable
  rw [applyStatement_of_renames h ht]
  refine keeps_rename h ht ?_
  by_cases hsame : lowerCase name.value = lowerCase table.value
  · rw [hsame, OrderedMap.erase_erase]
  · have hfree : c.table? name.value = none := by
      by_contra hthere
      exact hnot ⟨table, h, hsame, htable, Option.isSome_iff_ne_none.mpr hthere⟩
    have hfree' : (c.tables.erase (lowerCase table.value)).get? (lowerCase name.value) = none := by
      rw [OrderedMap.get?_erase, if_neg hsame]
      exact hfree
    rw [OrderedMap.erase_of_none hfree']

theorem modifyColumn_fields (t : Table) (column : String) (f : Column → Column) :
    t.modifyColumn column f = { t with
      columns := (t.modifyColumn column f).columns
      indexes := (t.modifyColumn column f).indexes } := by
  unfold Table.modifyColumn
  split <;> rfl

/-- A change that drops no table and renames none leaves all tables. -/
theorem Change.keeps (hchange : Change source c statement c')
    (hdrop : ∀ name, Drops .table statement name → c.table? name.value = none)
    (hnot : ∀ table name, Renames statement table name → c.table? table.value = none) :
    Keeps statement c c' := by
  cases hchange with
  | unchanged => exact keeps_of_sublist hnot (List.Sublist.refl _)
  | @define name body _ hnew =>
      refine keeps_of_sublist hnot ?_
      show c.tables.entries.Sublist (c.tables.insert _ _).entries
      rw [name_readTable, OrderedMap.entries_insert_of_none (Option.isNone_iff_eq_none.mp hnew)]
      exact List.sublist_append_left _ _
  | view v _ => exact keeps_of_sublist hnot (List.Sublist.refl _)
  | index table i => exact keeps_modifyTable hnot fun _ => rfl
  | addColumn _ _ => exact keeps_modifyTable hnot fun _ => rfl
  | rename hrenames ht =>
      rw [hnot _ _ hrenames] at ht
      cases ht
  | renameColumn _ _ =>
      refine keeps_modifyTable hnot fun t => ?_
      exact modifyColumn_fields t _ _
  | dropColumn _ _ => exact keeps_modifyTable hnot fun _ => rfl
  | @drop kind name hdrops =>
      cases kind with
      | table =>
          -- The table that is dropped is not there.
          refine keeps_of_sublist hnot ?_
          show c.tables.entries.Sublist (c.tables.erase (lowerCase name.value)).entries
          rw [OrderedMap.erase_of_none (hdrop name hdrops)]
      | view => exact keeps_of_sublist hnot (List.Sublist.refl _)
      | index => exact keeps_of_mapValues hnot (fun _ _ => rfl) (List.Subperm.refl _)

/-- A statement that makes no table go leaves all tables. -/
theorem keeps_applyStatement (source : Source) (hnot : ¬ Loses c statement) :
    Keeps statement c (applyStatement source c statement).1 := by
  rw [Loses, not_or, not_exists] at hnot
  by_cases hrenames : ∃ table name, Renames statement table name ∧ (c.table? table.value).isSome
  · obtain ⟨table, name, hrename, htable⟩ := hrenames
    exact keeps_of_renames hrename htable (hnot.2 name)
  · refine (change_applyStatement source c statement).keeps ?_ ?_
    · intro name hdrops
      by_contra hthere
      exact hnot.1 ⟨name, hdrops, Option.isSome_iff_ne_none.mpr hthere⟩
    · intro table name hrename
      by_contra hthere
      exact hrenames ⟨table, name, hrename, Option.isSome_iff_ne_none.mpr hthere⟩

/-! ## The statement -/

theorem size_lt_iff_loses :
    (applyStatement source c statement).1.size < c.size ↔ Loses c statement := by
  constructor
  · intro hlt
    by_contra hnot
    have hle := (keeps_applyStatement source hnot).size_le
    omega
  · rintro (hdrop | ⟨name, hover⟩)
    · rw [← size_of_dropsTable hdrop]
      exact Nat.lt_succ_self _
    · rw [← (keeps_of_overwrites hover).2]
      exact Nat.lt_succ_self _

/-- Along a run that loses no table the number of tables never goes down. -/
theorem size_le_after_append {steps more : List Step}
    (h : ∀ done s, done ++ [s] <+: more → ¬ Loses (after (steps ++ done)) s.statement) :
    (after steps).size ≤ (after (steps ++ more)).size := by
  induction more using List.reverseRecOn with
  | nil => simp
  | append_singleton more s ih =>
      have hbefore : (after steps).size ≤ (after (steps ++ more)).size :=
        ih fun done u hdone => h done u (hdone.trans (List.prefix_append _ _))
      have hstep : ¬ Loses (after (steps ++ more)) s.statement := h more s (List.prefix_refl _)
      rw [← List.append_assoc, after_concat]
      exact Nat.le_trans hbefore (Nat.not_lt.mp (size_lt_iff_loses.not.mpr hstep))

/-- A statement keeps every table of a catalog, under its own name or under the one that it gives
it, exactly where it neither drops a table that is there nor gives a table the name of another one,
and so the number of tables goes down in these two cases only.  In the second case the table whose
name is taken is all that is lost.  Along a run of schema files, no catalog has fewer tables than
one before it exactly where no statement is one of these. -/
theorem keeps_applyStatement_iff (source : Source) (c : Catalog) (statement : List Token)
    (files : List (String × String)) :
    let c' := (applyStatement source c statement).1
    (Keeps statement c c' ↔ ¬ Loses c statement) ∧ (c'.size < c.size ↔ Loses c statement) ∧
      (∀ name, Overwrites c statement name →
        Keeps statement (c.removeTable name.value) c' ∧ c'.size + 1 = c.size) ∧
      (ofFiles files).1 = after (script files) ∧
      ((∀ done more, done ++ more <+: script files →
          (after done).size ≤ (after (done ++ more)).size) ↔
        ∀ done s, done ++ [s] <+: script files → ¬ Loses (after done) s.statement) := by
  intro c'
  refine ⟨⟨fun hkeeps hloses => ?_, keeps_applyStatement source⟩, size_lt_iff_loses,
    fun name hover => keeps_of_overwrites hover, fst_ofFiles files, ?_, ?_⟩
  · -- Where a table goes, the tables that are left are too few.
    exact absurd hkeeps.size_le (Nat.not_le.mpr (size_lt_iff_loses.mpr hloses))
  · intro hsizes done s hdone
    have hle := hsizes done [s] hdone
    rw [after_concat] at hle
    exact size_lt_iff_loses.not.mp (Nat.not_lt.mpr hle)
  · intro hnot done more hdone
    refine size_le_after_append fun first s hfirst => hnot (done ++ first) s ?_
    rw [List.append_assoc]
    exact ((List.prefix_append_right_inj done).mpr hfirst).trans hdone

/-- Two tables become one when one gets the name of the other, and nothing is reported. -/
theorem not_keeps_of_rename_onto :
    let sql := "ALTER TABLE a RENAME TO B"
    let statement := (tokenize sql).toOption.getD []
    let c := (ofFiles [("s.sql", "CREATE TABLE a (x INTEGER);\nCREATE TABLE b (y TEXT);")]).1
    let c' := (applyStatement ⟨"s.sql", sql⟩ c statement).1
    (∀ name, ¬ Drops .table statement name) ∧ ¬ Keeps statement c c' ∧ c.size = 2 ∧ c'.size = 1 ∧
      (applyStatement ⟨"s.sql", sql⟩ c statement).2 = [] := by
  intro sql statement c c'
  have hrun : statement.head?.any (·.isWord "DROP") = false ∧ c.size = 2 ∧ c'.size = 1 ∧
      (applyStatement ⟨"s.sql", sql⟩ c statement).2 = [] := by
    simp only [c', c, statement]
    rw [ofFiles_singleton, applyFile_ofList, tokenize_ofList]
    decide +kernel
  obtain ⟨hfirst, hbefore, hafter, hreported⟩ := hrun
  refine ⟨?_, fun hkeeps => ?_, hbefore, hafter, hreported⟩
  · rintro name ⟨drop, word, rest, behind, heq, hdrop, -⟩
    rw [heq, List.head?_cons, Option.any_some, hdrop] at hfirst
    cases hfirst
  · have hle := hkeeps.size_le
    omega

end Schema

end TypedSql

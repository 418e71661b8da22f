import TypedSql.Proofs.Schema.ColumnNames

/-!
# The columns of primary keys

A table holds its primary key twice: as a list of names, and as marks on its columns.  `CREATE
TABLE` marks the column of every name in the list, or reports a name that no column has.  No other
statement touches the list, so list and marks agree until a column is dropped or gets another name
that the list still speaks of.

Main definitions: `Column.CarriesKey`, `Table.KeyMarked`, `Schema.Unmarks`.  Main statement:
`Schema.keysMarked_along_iff`.
-/

namespace TypedSql

open Text

/-! ## Columns and tables -/

/-- The column has the name, is marked as part of the primary key, and is never NULL. -/
def Column.CarriesKey (key : String) (d : Column) : Prop :=
  d.isNamed key = true ∧ d.primaryKey = true ∧ d.notNull = true

instance (key : String) (d : Column) : Decidable (d.CarriesKey key) :=
  inferInstanceAs (Decidable (_ ∧ _))

theorem Column.isNamed_congr {name other : String} (h : eqIgnoreCase name other = true) :
    Column.isNamed name = Column.isNamed other := by
  funext d
  rw [Column.isNamed, Column.isNamed, eqIgnoreCase, eqIgnoreCase, eqIgnoreCase_iff.mp h]

namespace Table

/-- Every name in the primary key is that of a column which carries the key. -/
def KeyMarked (t : Table) : Prop := ∀ key ∈ t.primaryKey, ∃ d ∈ t.columns, d.CarriesKey key

instance (t : Table) : Decidable t.KeyMarked :=
  inferInstanceAs (Decidable (∀ key ∈ t.primaryKey, ∃ d ∈ t.columns, d.CarriesKey key))

variable {t : Table}

/-- The first column of a name stands between others, and a change of it leaves these. -/
theorem exists_first {name : String} (h : (t.column? name).isSome) (f : Column → Column) :
    ∃ before column behind, t.columns = before ++ column :: behind ∧ column.isNamed name = true ∧
      t.columns.eraseP (Column.isNamed name) = before ++ behind ∧
      (t.modifyColumn name f).columns = before ++ f column :: behind := by
  obtain ⟨before, column, behind, hcolumns, hbefore, hname, heq⟩ := modifyColumn_eq h f
  have hnamed : column.isNamed name = true := eqIgnoreCase_iff.mpr hname
  refine ⟨before, column, behind, hcolumns, hnamed, ?_, by rw [heq]⟩
  rw [hcolumns, List.eraseP_append_right _ fun d hd => by rw [hbefore d hd]; exact nofun,
    List.eraseP_cons_of_pos hnamed]

theorem primaryKey_modifyColumn (t : Table) (column : String) (f : Column → Column) :
    (t.modifyColumn column f).primaryKey = t.primaryKey := by
  unfold modifyColumn
  split
  · rfl
  · rfl

/-- A column that carries a key still does, after a change that takes nothing from it. -/
theorem exists_carriesKey_modifyColumn {key : String} (name : String) {f : Column → Column}
    (hf : ∀ d : Column, d.CarriesKey key → (f d).CarriesKey key)
    (h : ∃ d ∈ t.columns, d.CarriesKey key) :
    ∃ d ∈ (t.modifyColumn name f).columns, d.CarriesKey key := by
  cases hthere : (t.column? name).isSome with
  | false => rwa [modifyColumn_of_none hthere]
  | true =>
      obtain ⟨before, column, behind, hcolumns, -, -, heq⟩ := exists_first hthere f
      obtain ⟨d, hd, hcarries⟩ := h
      rw [hcolumns, List.mem_append, List.mem_cons] at hd
      simp only [heq, List.mem_append, List.mem_cons]
      rcases hd with hd | rfl | hd
      · exact ⟨d, .inl hd, hcarries⟩
      · exact ⟨f d, .inr (.inl rfl), hf d hcarries⟩
      · exact ⟨d, .inr (.inr hd), hcarries⟩

/-- A key is still marked after a column got another name, if that column alone carried none of its
names, or the names it carried are the other name too. -/
theorem keyMarked_rename_iff {old new : String} (h : t.KeyMarked)
    (hold : (t.column? old).isSome) :
    (t.modifyColumn old fun d => { d with name := new }).KeyMarked ↔
      ∀ key ∈ t.primaryKey, eqIgnoreCase old key = true → eqIgnoreCase new key = true ∨
        ∃ d ∈ t.columns.eraseP (Column.isNamed key), d.CarriesKey key := by
  obtain ⟨before, column, behind, hcolumns, hname, herase, heq⟩ :=
    exists_first hold fun d => { d with name := new }
  unfold KeyMarked
  rw [primaryKey_modifyColumn, heq]
  simp only [List.mem_append, List.mem_cons]
  constructor
  · intro hafter key hkey hsame
    obtain ⟨d, hd, hcarries⟩ := hafter key hkey
    rw [← Column.isNamed_congr hsame, herase]
    simp only [List.mem_append]
    rcases hd with hd | rfl | hd
    · exact .inr ⟨d, .inl hd, hcarries⟩
    · exact .inl hcarries.1
    · exact .inr ⟨d, .inr hd, hcarries⟩
  · intro hstays key hkey
    obtain ⟨d, hd, hcarries⟩ := h key hkey
    rw [hcolumns, List.mem_append, List.mem_cons] at hd
    rcases hd with hd | rfl | hd
    · exact ⟨d, .inl hd, hcarries⟩
    · -- The column that gets the name carried the key.
      have hsame : eqIgnoreCase old key = true :=
        eqIgnoreCase_iff.mpr ((eqIgnoreCase_iff.mp hname).symm.trans
          (eqIgnoreCase_iff.mp hcarries.1))
      rcases hstays key hkey hsame with hnew | ⟨e, he, hother⟩
      · exact ⟨_, .inr (.inl rfl), hnew, hcarries.2⟩
      · rw [← Column.isNamed_congr hsame, herase, List.mem_append] at he
        rcases he with he | he
        · exact ⟨e, .inl he, hother⟩
        · exact ⟨e, .inr (.inr he), hother⟩
    · exact ⟨d, .inr (.inr hd), hcarries⟩

/-- A key is still marked after columns were dropped, unless it has their name. -/
theorem keyMarked_drop_iff {name : String} (h : t.KeyMarked) :
    { t with columns := t.columns.filter fun d => !d.isNamed name }.KeyMarked ↔
      ∀ key ∈ t.primaryKey, eqIgnoreCase name key = false := by
  unfold KeyMarked
  simp only [List.mem_filter, Bool.not_eq_true']
  constructor
  · intro hafter key hkey
    obtain ⟨d, ⟨-, hother⟩, hcarries⟩ := hafter key hkey
    rw [Bool.eq_false_iff]
    intro hsame
    rw [Column.isNamed_congr hsame, hcarries.1] at hother
    cases hother
  · intro hothers key hkey
    obtain ⟨d, hd, hcarries⟩ := h key hkey
    refine ⟨d, ⟨hd, ?_⟩, hcarries⟩
    rw [Bool.eq_false_iff]
    intro hnamed
    have hsame : eqIgnoreCase name key = true :=
      eqIgnoreCase_iff.mpr ((eqIgnoreCase_iff.mp hnamed).symm.trans
        (eqIgnoreCase_iff.mp hcarries.1))
    rw [hothers key hkey] at hsame
    cases hsame

end Table

namespace Schema

open Token

variable {source : Source} {c c' : Catalog} {statement : List Token}

/-! ## Table bodies -/

section

variable {d : Draft} {key : String} {position : Position}

/-- A mark takes no key from a column, and a note is never taken back. -/
theorem Draft.markKey_grows (source : Source) (position : Position) (d : Draft) (key : String) :
    (d.markKey source position key).table.primaryKey = d.table.primaryKey ∧
      d.problems ⊆ (d.markKey source position key).problems ∧
      ∀ other, (∃ e ∈ d.table.columns, e.CarriesKey other) →
        ∃ e ∈ (d.markKey source position key).table.columns, e.CarriesKey other := by
  unfold markKey
  split
  · exact ⟨Table.primaryKey_modifyColumn _ _ _, List.Subset.refl _, fun other =>
      Table.exists_carriesKey_modifyColumn key fun e he => ⟨he.1, rfl, rfl⟩⟩
  · exact ⟨rfl, List.subset_append_left _ _, fun _ h => h⟩

/-- Behind its mark a key has a column, or a problem says that it has none. -/
theorem Draft.markKey_marks (source : Source) (position : Position) (d : Draft) (key : String) :
    (∃ e ∈ (d.markKey source position key).table.columns, e.CarriesKey key) ∨
      ∃ problem ∈ (d.markKey source position key).problems,
        problem.code = .unknownSchemaColumn := by
  unfold markKey
  split
  · next hthere =>
      obtain ⟨before, column, behind, -, hname, -, heq⟩ :=
        Table.exists_first hthere Column.withPrimaryKey
      refine .inl ⟨column.withPrimaryKey, ?_, hname, rfl, rfl⟩
      rw [heq]
      exact List.mem_append_right _ List.mem_cons_self
  · exact .inr ⟨_, List.mem_append_right _ List.mem_cons_self, rfl⟩

theorem Draft.foldl_markKey (source : Source) (position : Position) (keys : List String)
    (d : Draft) :
    let after := keys.foldl (Draft.markKey source position) d
    after.table.primaryKey = d.table.primaryKey ∧ d.problems ⊆ after.problems ∧
      (∀ key, (∃ e ∈ d.table.columns, e.CarriesKey key) →
        ∃ e ∈ after.table.columns, e.CarriesKey key) ∧
      ∀ key ∈ keys, (∃ e ∈ after.table.columns, e.CarriesKey key) ∨
        ∃ problem ∈ after.problems, problem.code = .unknownSchemaColumn := by
  induction keys generalizing d with
  | nil => exact ⟨rfl, List.Subset.refl _, fun _ h => h, nofun⟩
  | cons key keys ih =>
      obtain ⟨hkey, hproblems, hcarries⟩ := d.markKey_grows source position key
      obtain ⟨hkey', hproblems', hcarries', hmarks⟩ := ih (d.markKey source position key)
      refine ⟨hkey'.trans hkey, List.Subset.trans hproblems hproblems',
        fun other h => hcarries' other (hcarries other h), ?_⟩
      intro other hother
      rcases List.mem_cons.mp hother with rfl | hother
      · rcases d.markKey_marks source position other with h | ⟨problem, hproblem, hcode⟩
        · exact .inl (hcarries' other h)
        · exact .inr ⟨problem, hproblems' hproblem, hcode⟩
      · exact hmarks other hother

end

/-- A new table has a marked key, unless a name of its key is reported. -/
theorem keyMarked_readTable {name : String} {position : Position} {body : List Token}
    (h : ∀ problem ∈ (readTable source name position body).problems,
      problem.code ≠ .unknownSchemaColumn) :
    (readTable source name position body).table.KeyMarked := by
  let draft := (commaPieces body).foldl (Draft.addElement source) ⟨.bare name, []⟩
  obtain ⟨hkey, -, -, hmarks⟩ := Draft.foldl_markKey source position draft.table.primaryKey draft
  intro key hmem
  rcases hmarks key (hkey ▸ hmem) with hcarries | ⟨problem, hproblem, hcode⟩
  · exact hcarries
  · exact absurd hcode (h problem hproblem)

/-! ## Statements -/

/-- Every table has a marked key. -/
abbrev KeysMarked (c : Catalog) : Prop := c.EveryTable Table.KeyMarked

/-- A name of a primary key is left without a column that carries it: the statement drops the
columns of the name, or gives the first of them another one where no further one carries the
key. -/
def Unmarks (c : Catalog) (statement : List Token) : Prop :=
  ∃ table t key, c.table? table.value = some t ∧ key ∈ t.primaryKey ∧
    ((∃ column, DropsColumn statement table column ∧ eqIgnoreCase column.value key = true) ∨
      ∃ old new, RenamesColumn statement table old new ∧ eqIgnoreCase old.value key = true ∧
        eqIgnoreCase new.value key = false ∧
        ∀ d ∈ t.columns.eraseP (Column.isNamed key), ¬ d.CarriesKey key)

/-- A change that takes no name of a key from its column keeps all keys marked, where no name of a
new key is reported. -/
theorem Change.keysMarked (hchange : Change source c statement c') (h : KeysMarked c)
    (hreported : ∀ problem ∈ (applyStatement source c statement).2,
      problem.code ≠ .unknownSchemaColumn)
    (hnot : ¬ Unmarks c statement) : KeysMarked c' := by
  refine hchange.everyTable h (fun _ _ ht => ht) (fun _ _ ht => ht) ?_ ?_ ?_ ?_
  · intro name body hdefines hnew
    rw [applyStatement_of_defines hdefines hnew] at hreported
    exact keyMarked_readTable hreported
  · intro t definition column _ _ ht key hkey
    obtain ⟨d, hd, hcarries⟩ := ht key hkey
    exact ⟨d, List.mem_append_left _ hd, hcarries⟩
  · intro t table old new hrenames htable hold ht
    rw [Table.keyMarked_rename_iff ht hold]
    intro key hkey hsame
    by_contra hno
    rw [not_or, Bool.not_eq_true] at hno
    exact hnot ⟨table, t, key, htable, hkey, .inr ⟨old, new, hrenames, hsame, hno.1,
      fun d hd hcarries => hno.2 ⟨d, hd, hcarries⟩⟩⟩
  · intro t table column hdrops htable ht
    rw [Table.keyMarked_drop_iff ht]
    intro key hkey
    by_contra hsame
    rw [Bool.not_eq_false] at hsame
    exact hnot ⟨table, t, key, htable, hkey, .inl ⟨column, hdrops, hsame⟩⟩

/-- A column that a name of a marked key speaks of is there. -/
theorem isSome_column?_of_keyMarked {table : String} {t : Table} {key name : String}
    (htable : c.table? table = some t) (ht : t.KeyMarked) (hkey : key ∈ t.primaryKey)
    (hsame : eqIgnoreCase name key = true) :
    (t.column? name).isSome ∧ (c.column? table name).isSome := by
  obtain ⟨d, hd, hcarries⟩ := ht key hkey
  have hthere : (t.column? name).isSome := by
    rw [Table.column?, Column.isNamed_congr hsame, List.find?_isSome]
    exact ⟨d, hd, hcarries.1⟩
  exact ⟨hthere, by rwa [Catalog.column?, htable, Option.bind_some]⟩

/-- A statement that reports no missing key column keeps all keys marked exactly where it takes no
name of a key from its column. -/
theorem keysMarked_applyStatement_iff (h : KeysMarked c)
    (hreported : ∀ problem ∈ (applyStatement source c statement).2,
      problem.code ≠ .unknownSchemaColumn) :
    KeysMarked (applyStatement source c statement).1 ↔ ¬ Unmarks c statement := by
  constructor
  · rintro hafter ⟨table, t, key, htable, hkey, ⟨column, hdrops, hsame⟩ |
      ⟨old, new, hrenames, hsame, hnew, hothers⟩⟩
    · have ht : t.KeyMarked := h.of_table? htable
      obtain ⟨-, hthere⟩ := isSome_column?_of_keyMarked htable ht hkey hsame
      rw [applyStatement_of_dropsColumn hdrops hthere, KeysMarked, h.modifyTable_iff] at hafter
      have hother := (Table.keyMarked_drop_iff ht).mp (hafter t htable) key hkey
      rw [hsame] at hother
      cases hother
    · have ht : t.KeyMarked := h.of_table? htable
      obtain ⟨hold, hthere⟩ := isSome_column?_of_keyMarked htable ht hkey hsame
      rw [applyStatement_of_renamesColumn hrenames hthere, KeysMarked, h.modifyTable_iff] at hafter
      rcases (Table.keyMarked_rename_iff ht hold).mp (hafter t htable) key hkey hsame with
        hthis | ⟨d, hd, hcarries⟩
      · rw [hnew] at hthis
        cases hthis
      · exact hothers d hd hcarries
  · exact (change_applyStatement source c statement).keysMarked h hreported

/-- Along a run of schema files that report no missing key column, every name in the primary key of
a table is that of a column marked as part of the key and as never NULL, exactly where no statement
drops such a column or gives it another name.  The catalog of the files is the last of the run. -/
theorem keysMarked_along_iff (files : List (String × String))
    (h : ∀ problem ∈ (ofFiles files).2, problem.code ≠ .unknownSchemaColumn) :
    (ofFiles files).1 = after (script files) ∧
      ((∀ done, done <+: script files → KeysMarked (after done)) ↔
        ∀ done s, done ++ [s] <+: script files → ¬ Unmarks (after done) s.statement) := by
  refine ⟨fst_ofFiles files, forall_after_iff_of_run Catalog.everyTable_empty ?_⟩
  intro done s hprefix hdone
  exact keysMarked_applyStatement_iff hdone fun problem hproblem =>
    h problem (mem_problems_along hprefix hproblem)

/-- Where a key column is dropped, the run has a statement that takes a name of the key from its
column. -/
theorem keysMarked_along_of_dropped :
    let files := [("s.sql", "CREATE TABLE t (a, PRIMARY KEY (A));\nALTER TABLE t DROP a;")]
    (∀ problem ∈ (ofFiles files).2, problem.code ≠ .unknownSchemaColumn) ∧
      ∃ done s, done ++ [s] <+: script files ∧ Unmarks (after done) s.statement := by
  intro files
  have hrun : (∀ problem ∈ (ofFiles files).2, problem.code ≠ .unknownSchemaColumn) ∧
      ¬ KeysMarked (ofFiles files).1 := by
    rw [ofFiles_singleton, applyFile_ofList]
    decide +kernel
  obtain ⟨hreported, hunmarked⟩ := hrun
  obtain ⟨hafter, hiff⟩ := keysMarked_along_iff files hreported
  refine ⟨hreported, ?_⟩
  by_contra hnone
  have hmarked := hiff.mpr fun done s hdone hunmarks => hnone ⟨done, s, hdone, hunmarks⟩
  rw [hafter] at hunmarked
  exact hunmarked (hmarked _ (List.prefix_refl _))

/-- A key column gets another name, which the primary key does not have, and nothing is
reported. -/
theorem not_keysMarked_of_rename :
    let files := [("s.sql",
      "CREATE TABLE t (a INTEGER PRIMARY KEY);\nALTER TABLE t RENAME a TO b;")]
    ¬ KeysMarked (ofFiles files).1 ∧ (ofFiles files).2 = [] := by
  intro files
  rw [ofFiles_singleton, applyFile_ofList]
  decide +kernel

end Schema

end TypedSql

import TypedSql.Proofs.Schema.Change
import TypedSql.Proofs.Schema.Run

/-!
# The names of relations

No name belongs to both a table and a view as long as no statement creates a table, or gives a
table a new name, where a view has the name: `CREATE VIEW` looks for tables and views of its name,
but `CREATE TABLE` looks for tables only and `RENAME TO` for nothing.

A statement that creates something under a name that it finds taken changes nothing and is refused,
silently if it says `IF NOT EXISTS`.

Main definitions: `Catalog.Keyed`, `Catalog.Apart`, `Schema.Crosses`.  Main statement:
`Schema.relationNames_along`.
-/

namespace TypedSql

open Text

/-! ## Maps keyed by names -/

namespace OrderedMap

variable {α : Type} {name : α → String} {m : OrderedMap α}

/-- Every value stands under the lower-case form of its name. -/
def KeyedBy (name : α → String) (m : OrderedMap α) : Prop :=
  ∀ key value, m.get? key = some value → lowerCase (name value) = key

theorem KeyedBy.insert (h : m.KeyedBy name) (value : α) :
    (m.insert (lowerCase (name value)) value).KeyedBy name := by
  intro key v hv
  rw [get?_insert] at hv
  split at hv
  · next hkey =>
      cases hv
      exact hkey.symm
  · exact h key v hv

theorem KeyedBy.erase (h : m.KeyedBy name) (key : String) : (m.erase key).KeyedBy name := by
  intro other v hv
  rw [get?_erase] at hv
  split at hv
  · cases hv
  · exact h other v hv

theorem KeyedBy.mapValues (h : m.KeyedBy name) {f : String → α → α}
    (hf : ∀ key value, name (f key value) = name value) : (m.mapValues f).KeyedBy name := by
  intro key v hv
  rw [get?_mapValues] at hv
  obtain ⟨value, hvalue, rfl⟩ := Option.map_eq_some_iff.mp hv
  rw [hf]
  exact h key value hvalue

/-- A value that has the name up to case is the one that the name leads to. -/
theorem KeyedBy.exists_iff (h : m.KeyedBy name) (word : String) :
    (∃ value ∈ m.values, eqIgnoreCase (name value) word = true) ↔
      (m.get? (lowerCase word)).isSome := by
  constructor
  · rintro ⟨value, hmem, hword⟩
    obtain ⟨key, hkey⟩ := mem_values_iff.mp hmem
    have hthis : lowerCase word = key := (eqIgnoreCase_iff.mp hword).symm.trans (h key value hkey)
    rw [hthis, hkey]
    rfl
  · intro hsome
    obtain ⟨value, hvalue⟩ := Option.isSome_iff_exists.mp hsome
    exact ⟨value, mem_values_iff.mpr ⟨_, hvalue⟩, eqIgnoreCase_iff.mpr (h _ value hvalue)⟩

end OrderedMap

/-! ## Catalogs -/

namespace Catalog

variable {c : Catalog}

/-- Every relation stands under the lower-case form of its name. -/
structure Keyed (c : Catalog) : Prop where
  tables : c.tables.KeyedBy Table.name
  views : c.views.KeyedBy View.name

/-- A view of the catalog has the name, in any case. -/
def hasView (c : Catalog) (name : String) : Bool :=
  c.views.values.any fun v => eqIgnoreCase v.name name

/-- No table has the name of a view, in any case. -/
def Apart (c : Catalog) : Prop := ∀ t ∈ c.tables.values, c.hasView t.name = false

instance (c : Catalog) : Decidable c.Apart :=
  inferInstanceAs (Decidable (∀ t ∈ c.tables.values, c.hasView t.name = false))

theorem keyed_empty : empty.Keyed := ⟨nofun, nofun⟩

theorem apart_empty : empty.Apart := nofun

theorem Keyed.addTable (h : c.Keyed) (t : Table) : (c.addTable t).Keyed :=
  ⟨h.tables.insert t, h.views⟩

theorem Keyed.addView (h : c.Keyed) (v : View) : (c.addView v).Keyed :=
  ⟨h.tables, h.views.insert v⟩

theorem Keyed.removeTable (h : c.Keyed) (name : String) : (c.removeTable name).Keyed :=
  ⟨h.tables.erase _, h.views⟩

theorem Keyed.modifyTable (h : c.Keyed) (name : String) {f : Table → Table}
    (hf : ∀ t, (f t).name = t.name) : (c.modifyTable name f).Keyed := by
  refine ⟨h.tables.mapValues ?_, h.views⟩
  intro key t
  split
  · exact hf t
  · rfl

theorem Keyed.hasView_iff (h : c.Keyed) (name : String) :
    c.hasView name = true ↔ (c.view? name).isSome := by
  rw [hasView, List.any_eq_true]
  exact h.views.exists_iff name

/-- In terms of keys, no key leads to both a table and a view. -/
theorem Keyed.apart_iff (h : c.Keyed) :
    c.Apart ↔ ∀ key, c.tables.get? key = none ∨ c.views.get? key = none := by
  constructor
  · intro hapart key
    cases ht : c.tables.get? key with
    | none => exact .inl rfl
    | some t =>
        right
        have hname : lowerCase t.name = key := h.tables key t ht
        have hview : c.hasView t.name = false :=
          hapart t (OrderedMap.mem_values_iff.mpr ⟨key, ht⟩)
        rw [← Bool.not_eq_true, h.hasView_iff, view?, hname] at hview
        simpa using hview
  · intro hkeys t ht
    obtain ⟨key, hkey⟩ := OrderedMap.mem_values_iff.mp ht
    have hname : lowerCase t.name = key := h.tables key t hkey
    rw [← Bool.not_eq_true, h.hasView_iff, view?, hname]
    rcases hkeys key with hnone | hnone
    · rw [hkey] at hnone
      cases hnone
    · simp [hnone]

/-- A changed table neither comes nor goes. -/
theorem get?_modifyTable_eq_none {name key : String} {f : Table → Table} :
    (c.modifyTable name f).tables.get? key = none ↔ c.tables.get? key = none := by
  rw [modifyTable, OrderedMap.get?_modify, Option.map_eq_none_iff]

/-- A new table keeps the names apart exactly where no view has its name. -/
theorem apart_addTable_iff (hkeyed : c.Keyed) (h : c.Apart) (t : Table) :
    (c.addTable t).Apart ↔ c.hasView t.name = false := by
  rw [(hkeyed.addTable t).apart_iff, ← Bool.not_eq_true, hkeyed.hasView_iff, view?]
  rw [hkeyed.apart_iff] at h
  simp only [addTable, OrderedMap.get?_insert]
  constructor
  · intro hkeys
    rcases hkeys (lowerCase t.name) with hnone | hnone
    · simp at hnone
    · simp [hnone]
  · intro hview key
    by_cases hkey : key = lowerCase t.name
    · right
      simpa [hkey] using hview
    · rw [if_neg hkey]
      exact h key

theorem Apart.addView (hkeyed : c.Keyed) (h : c.Apart) {v : View}
    (hnew : (c.table? v.name).isNone) : (c.addView v).Apart := by
  rw [hkeyed.apart_iff] at h
  rw [(hkeyed.addView v).apart_iff]
  intro key
  simp only [Catalog.addView, OrderedMap.get?_insert]
  by_cases hkey : key = lowerCase v.name
  · left
    simpa [hkey, table?] using hnew
  · rw [if_neg hkey]
    exact h key

theorem Apart.removeTable (hkeyed : c.Keyed) (h : c.Apart) (name : String) :
    (c.removeTable name).Apart := by
  rw [hkeyed.apart_iff] at h
  rw [(hkeyed.removeTable name).apart_iff]
  intro key
  simp only [Catalog.removeTable, OrderedMap.get?_erase]
  split
  · exact .inl rfl
  · exact h key

theorem Apart.modifyTable (hkeyed : c.Keyed) (h : c.Apart) (name : String) {f : Table → Table}
    (hf : ∀ t, (f t).name = t.name) : (c.modifyTable name f).Apart := by
  rw [hkeyed.apart_iff] at h
  rw [(hkeyed.modifyTable name hf).apart_iff]
  intro key
  rw [get?_modifyTable_eq_none]
  exact h key

end Catalog

/-! ## Statements -/

namespace Schema

open Token

variable {source : Source} {c c' : Catalog} {statement : List Token}

/-- The statement creates a table, or gives a table a new name, where a view has the name. -/
def Crosses (c : Catalog) (statement : List Token) : Prop :=
  ∃ name, c.hasView name.value ∧
    ((∃ body, Defines statement name body) ∨
      ∃ table, Renames statement table name ∧ (c.table? table.value).isSome)

theorem keyed_drop (h : c.Keyed) (kind : Dropped) (name : String) :
    (kind.remove name c).Keyed := by
  cases kind with
  | table => exact h.removeTable name
  | view => exact ⟨h.tables, h.views.erase _⟩
  | index => exact ⟨h.tables.mapValues fun _ _ => rfl, h.views⟩

theorem apart_drop (hkeyed : c.Keyed) (h : c.Apart) (kind : Dropped) (name : String) :
    (kind.remove name c).Apart := by
  have hafter := keyed_drop hkeyed kind name
  cases kind with
  | table => exact h.removeTable hkeyed name
  | view =>
      rw [hkeyed.apart_iff] at h
      rw [hafter.apart_iff]
      intro key
      simp only [Dropped.remove, Catalog.removeView, OrderedMap.get?_erase]
      split
      · exact .inr rfl
      · exact h key
  | index =>
      rw [hkeyed.apart_iff] at h
      rw [hafter.apart_iff]
      intro key
      rw [Dropped.remove, OrderedMap.get?_mapValues, Option.map_eq_none_iff]
      exact h key

/-- A change leaves every relation under its name. -/
theorem Change.keyed (hchange : Change source c statement c') (h : c.Keyed) : c'.Keyed := by
  cases hchange with
  | unchanged => exact h
  | define _ _ => exact h.addTable _
  | view v _ => exact h.addView v
  | index table i => exact h.modifyTable table fun _ => rfl
  | addColumn _ _ => exact h.modifyTable _ fun _ => rfl
  | rename _ _ => exact (h.removeTable _).addTable _
  | renameColumn _ _ => exact h.modifyTable _ fun t => name_modifyColumn t _ _
  | dropColumn _ _ => exact h.modifyTable _ fun _ => rfl
  | drop _ => exact keyed_drop h _ _

/-- In the catalog of schema files every relation stands under its name. -/
theorem keyed_ofFiles (files : List (String × String)) : (ofFiles files).1.Keyed := by
  rw [fst_ofFiles]
  exact after_induction Catalog.keyed_empty
    (fun c s h => (change_applyStatement s.source c s.statement).keyed h) _

/-- A change that puts no table beside a view of its name keeps the names apart. -/
theorem Change.apart (hchange : Change source c statement c') (hkeyed : c.Keyed) (h : c.Apart)
    (hnot : ¬ Crosses c statement) : c'.Apart := by
  cases hchange with
  | unchanged => exact h
  | @define name body hdefine _ =>
      rw [Catalog.apart_addTable_iff hkeyed h, name_readTable, ← Bool.not_eq_true]
      intro hview
      exact hnot ⟨name, hview, .inl ⟨body, hdefine⟩⟩
  | view v hnew => exact h.addView hkeyed hnew
  | index table i => exact h.modifyTable hkeyed table fun _ => rfl
  | addColumn _ _ => exact h.modifyTable hkeyed _ fun _ => rfl
  | @rename table name t hrename ht =>
      rw [Catalog.apart_addTable_iff (hkeyed.removeTable _) (h.removeTable hkeyed _),
        ← Bool.not_eq_true]
      intro hview
      exact hnot ⟨name, hview, .inr ⟨table, hrename, by rw [ht]; rfl⟩⟩
  | renameColumn _ _ => exact h.modifyTable hkeyed _ fun t => name_modifyColumn t _ _
  | dropColumn _ _ => exact h.modifyTable hkeyed _ fun _ => rfl
  | drop _ => exact apart_drop hkeyed h _ _

/-- A table that comes beside a view of its name breaks the rule. -/
theorem not_apart_of_crosses (hkeyed : c.Keyed) (h : c.Apart) (hcrosses : Crosses c statement) :
    ¬ (applyStatement source c statement).1.Apart := by
  intro hafter
  obtain ⟨name, hview, ⟨body, hdefine⟩ | ⟨table, hrename, htable⟩⟩ := hcrosses
  · have hnew : (c.table? name.value).isNone := by
      rw [hkeyed.hasView_iff] at hview
      rcases hkeyed.apart_iff.mp h (lowerCase name.value) with hnone | hnone
      · simp [Catalog.table?, hnone]
      · simp [Catalog.view?, hnone] at hview
    rw [applyStatement_of_defines hdefine hnew, Catalog.apart_addTable_iff hkeyed h,
      name_readTable, hview] at hafter
    cases hafter
  · obtain ⟨t, ht⟩ := Option.isSome_iff_exists.mp htable
    rw [applyStatement_of_renames hrename ht,
      Catalog.apart_addTable_iff (hkeyed.removeTable _) (h.removeTable hkeyed _)] at hafter
    -- Removing a table leaves the views as they are.
    have hgone : c.hasView name.value = false := hafter
    rw [hview] at hgone
    cases hgone

/-- A statement keeps the names of tables and views apart exactly where it puts no table beside a
view of its name. -/
theorem apart_applyStatement_iff (hkeyed : c.Keyed) (h : c.Apart) :
    (applyStatement source c statement).1.Apart ↔ ¬ Crosses c statement := by
  constructor
  · intro hafter hcrosses
    exact not_apart_of_crosses hkeyed h hcrosses hafter
  · intro hnot
    exact (change_applyStatement source c statement).apart hkeyed h hnot

/-! ## Names that are taken -/

/-- The word for what has the name already. -/
def Created.taken : Created → String
  | .table => "table "
  | .view => "relation "

/-- The statement finds the name taken: by a table, or where it creates a view also by a view. -/
def Created.findsTaken (kind : Created) (c : Catalog) (name : String) : Bool :=
  (c.table? name).isSome || (kind == .view && c.hasView name)

/-- What is reported of a name that is taken. -/
def alreadyExists (source : Source) (kind : Created) (name : Token) : Diagnostic :=
  source.problem .duplicateTable name.position
    (kind.taken ++ inQuotes name.value ++ " already exists")

theorem createTable_of_taken {position : Position} {tokens : List Token} {name : Token}
    {rest : List Token}
    (hname : relationName? (skipAll ["IF", "NOT", "EXISTS"] tokens) = some (name, rest))
    (htaken : Created.table.findsTaken c name.value) :
    createTable source position c tokens =
      if startsWithAll ["IF", "NOT", "EXISTS"] tokens then ignore
      else .error (some (alreadyExists source .table name)) := by
  have hthere : (c.table? name.value).isSome = true := by
    simpa [Created.findsTaken] using htaken
  unfold createTable
  rw [requireName_eq_ok.mpr hname]
  show (if (c.table? name.value).isSome then _ else _) = _
  rw [if_pos hthere]
  rfl

theorem createView_of_taken {position : Position} {tokens : List Token} {name : Token}
    {rest : List Token}
    (hname : relationName? (skipAll ["IF", "NOT", "EXISTS"] tokens) = some (name, rest))
    (htaken : Created.view.findsTaken c name.value) :
    createView source position c tokens =
      if startsWithAll ["IF", "NOT", "EXISTS"] tokens then ignore
      else .error (some (alreadyExists source .view name)) := by
  have hthere : ((c.table? name.value).isSome || c.hasView name.value) = true := by
    simpa [Created.findsTaken] using htaken
  unfold createView
  rw [requireName_eq_ok.mpr hname]
  show (if (c.table? name.value).isSome || c.hasView name.value then _ else _) = _
  rw [if_pos hthere]
  rfl

/-- A statement that finds its name taken changes nothing, and reports it unless it says
`IF NOT EXISTS`. -/
theorem applyStatement_of_taken {kind : Created} {ifNotExists : Bool} {name : Token}
    {rest : List Token} (h : Creates kind statement ifNotExists name rest)
    (htaken : kind.findsTaken c name.value) (source : Source) :
    applyStatement source c statement =
      (c, if ifNotExists then [] else [alreadyExists source kind name]) := by
  obtain ⟨position, tokens, hif, hname, hattempt⟩ := attempt_of_creates h source c
  have hrefused : attempt source c statement =
      if ifNotExists then ignore else .error (some (alreadyExists source kind name)) := by
    rw [hattempt, ← hif]
    cases kind with
    | table => exact createTable_of_taken hname htaken
    | view =>
        simp only [createView_of_taken hname htaken]
        split
        · rfl
        · rfl
  rw [applyStatement, hrefused]
  cases ifNotExists with
  | true => rfl
  | false => rfl

/-- Along a run of schema files no table has the name of a view exactly where no statement puts a
table beside a view of its name; the catalog of the files is the last of the run.  Whatever the
catalog, a statement that finds its name taken leaves it alone and reports the name, or nothing
under `IF NOT EXISTS`. -/
theorem relationNames_along (files : List (String × String)) :
    (ofFiles files).1 = after (script files) ∧
      ((∀ done, done <+: script files → (after done).Apart) ↔
        ∀ done s, done ++ [s] <+: script files → ¬ Crosses (after done) s.statement) ∧
      ∀ (source : Source) (c : Catalog) (statement : List Token) (kind : Created)
        (ifNotExists : Bool) (name : Token) (rest : List Token),
        Creates kind statement ifNotExists name rest → kind.findsTaken c name.value →
          applyStatement source c statement =
            (c, if ifNotExists then [] else [alreadyExists source kind name]) := by
  have hkeyed (done : List Step) : (after done).Keyed :=
    after_induction Catalog.keyed_empty
      (fun c s h => (change_applyStatement s.source c s.statement).keyed h) done
  refine ⟨fst_ofFiles files, ?_, ?_⟩
  · exact forall_after_iff Catalog.apart_empty
      (fun done _ h => apart_applyStatement_iff (hkeyed done) h) _
  · intro source c statement kind ifNotExists name rest hcreates htaken
    exact applyStatement_of_taken hcreates htaken source

/-- A view under the name of a table, in another case, is refused. -/
theorem relationNames_of_view_over_table :
    let create : Token := ⟨.keyword, "CREATE", ⟨0, 6⟩, ⟨1, 1⟩⟩
    let word : Token := ⟨.keyword, "VIEW", ⟨7, 11⟩, ⟨1, 8⟩⟩
    let name : Token := ⟨.identifier, "T", ⟨12, 13⟩, ⟨1, 13⟩⟩
    let c := Catalog.empty.addTable (.bare "t")
    Creates .view [create, word, name] false name [] ∧ Created.view.findsTaken c name.value ∧
      applyStatement ⟨"s.sql", "CREATE VIEW T"⟩ c [create, word, name] =
        (c, [.error .duplicateTable "relation 'T' already exists" "s.sql" ⟨1, 13⟩ none]) := by
  have hcreates : Creates .view [⟨.keyword, "CREATE", ⟨0, 6⟩, ⟨1, 1⟩⟩,
      ⟨.keyword, "VIEW", ⟨7, 11⟩, ⟨1, 8⟩⟩, ⟨.identifier, "T", ⟨12, 13⟩, ⟨1, 13⟩⟩] false
      ⟨.identifier, "T", ⟨12, 13⟩, ⟨1, 13⟩⟩ [] :=
    ⟨_, _, _, _, rfl, by decide, rfl, by decide, by decide, by decide⟩
  have htaken : Created.view.findsTaken (Catalog.empty.addTable (.bare "t")) "T" := by decide
  refine ⟨hcreates, htaken, ?_⟩
  exact (relationNames_along []).2.2 ⟨"s.sql", "CREATE VIEW T"⟩ _ _ _ _ _ _ hcreates htaken

/-- A table is created where a view has its name: both are there, and nothing is reported. -/
theorem not_apart_of_table_over_view :
    let files := [("s.sql", "CREATE VIEW v AS SELECT 1;\nCREATE TABLE v (id INTEGER);")]
    ¬ (ofFiles files).1.Apart ∧ (ofFiles files).2 = [] := by
  intro files
  rw [ofFiles_singleton, applyFile_ofList]
  decide +kernel

end Schema

end TypedSql

import TypedSql.Proofs.Schema.Change

/-!
# What a schema statement leaves alone

A statement that alters a table, drops something, or creates an index or a view does all of its
work or none: if it reports something, which it does once at most, the catalog is as it was.  And
it works on what it names: all else is the same afterwards, in the same order.

Main definitions: `Work`, `CreatesIndex`.  Main statement: `atomic_applyStatement`.
-/

namespace TypedSql

/-! ## Maps and catalogs without a part -/

namespace OrderedMap

variable {α : Type} (m : OrderedMap α) (key : String)

/-- A changed value is not seen where its key is left out. -/
theorem erase_modify (f : α → α) : (m.modify key f).erase key = m.erase key := by
  obtain ⟨entries, nodup⟩ := m
  apply ext
  show (entries.map fun e => (e.1, if e.1 = key then f e.2 else e.2)).filter (fun e => e.1 != key) =
    entries.filter fun e => e.1 != key
  clear nodup
  induction entries with
  | nil => rfl
  | cons e es ih =>
      rw [List.map_cons, List.filter_cons, List.filter_cons, ih]
      by_cases hkey : e.1 = key
      · simp [hkey]
      · simp [hkey]

theorem erase_erase : (m.erase key).erase key = m.erase key := by
  apply ext
  show (m.entries.filter _).filter _ = _
  rw [List.filter_filter]
  simp only [Bool.and_self]
  rfl

/-- What one change of all values hides is not seen behind it. -/
theorem mapValues_mapValues {f g : String → α → α} (h : ∀ k v, g k (f k v) = g k v) :
    (m.mapValues f).mapValues g = m.mapValues g := by
  apply ext
  show (m.entries.map _).map _ = m.entries.map _
  rw [List.map_map]
  refine List.map_congr_left fun e _ => ?_
  rw [Function.comp_apply, h]

end OrderedMap

namespace Catalog

variable (c : Catalog) (name : String)

/-- The catalog without the indexes of its tables. -/
def withoutIndexes : Catalog :=
  { c with tables := c.tables.mapValues fun _ t => { t with indexes := [] } }

theorem removeTable_modifyTable (f : Table → Table) :
    (c.modifyTable name f).removeTable name = c.removeTable name :=
  congrArg (Catalog.mk · c.views) (c.tables.erase_modify _ f)

theorem removeTable_removeTable : (c.removeTable name).removeTable name = c.removeTable name :=
  congrArg (Catalog.mk · c.views) (c.tables.erase_erase _)

end Catalog

namespace Schema

open Token Text

variable {source : Source} {c c' : Catalog} {statement : List Token}

/-! ## Forms of statements -/

/-- What a statement works on that does all of its work or none. -/
inductive Work
  | alterTable
  | createIndex
  | createView
  | drop
deriving DecidableEq, Repr

/-- The work of a statement, by the words that it begins with. -/
def Work.ofStatement? : List Token → Option Work
  | [] => none
  | first :: rest =>
      if first.isWord "CREATE" then
        if startsWith "INDEX" (afterModifiers rest) then some createIndex
        else if startsWith "VIEW" (afterModifiers rest) then some createView
        else none
      else if first.isWord "ALTER" && startsWith "TABLE" rest then some alterTable
      else if first.isWord "DROP" then some drop
      else none

/-- The statement creates an index on the table of that name. -/
def CreatesIndex (statement : List Token) (table : Token) : Prop :=
  ∃ create tokens word behind name rest columns, statement = create :: tokens ∧
    create.isWord "CREATE" ∧ afterModifiers tokens = word :: behind ∧ word.isWord "INDEX" ∧
    relationName? (skipAll ["IF", "NOT", "EXISTS"] behind) = some (name, rest) ∧
    startsWith "ON" rest ∧ relationName? (rest.drop 1) = some (table, columns)

/-! ## Work that succeeds -/

section

variable {position : Position} {tokens : List Token}

/-- A table that is altered without a new name is all that is altered. -/
theorem removeTable_of_alterTable {table : Token} {rest : List Token}
    (hname : relationName? tokens = some (table, rest))
    (hrest : startsWithAll ["RENAME", "TO"] rest = false)
    (h : alterTable source position c tokens = .ok c') :
    c'.removeTable table.value = c.removeTable table.value := by
  unfold alterTable at h
  obtain ⟨found, hfound, h⟩ := Attempt.bind_eq_ok.mp h
  cases hname.symm.trans (requireName_eq_ok.mp hfound)
  simp only [hrest, Bool.false_eq_true, if_false] at h
  split at h
  · cases h
  · split at h
    · obtain ⟨column, -, -, rfl⟩ := addColumn_eq_ok h
      exact c.removeTable_modifyTable _ _
    · split at h
      · obtain ⟨old, toWord, new, behind, -, -, -, rfl⟩ := renameColumn_eq_ok.mp h
        exact c.removeTable_modifyTable _ _
      · split at h
        · obtain ⟨column, -, -, -, rfl⟩ := dropColumn_eq_ok.mp h
          exact c.removeTable_modifyTable _ _
        · cases h

/-- An index changes its table and nothing else. -/
theorem removeTable_of_createIndex {unique : Bool} {name table : Token}
    {rest columns : List Token}
    (hname : relationName? (skipAll ["IF", "NOT", "EXISTS"] tokens) = some (name, rest))
    (htable : relationName? (rest.drop 1) = some (table, columns))
    (h : createIndex source position unique c tokens = .ok c') :
    c'.removeTable table.value = c.removeTable table.value := by
  unfold createIndex at h
  obtain ⟨found, hfound, h⟩ := Attempt.bind_eq_ok.mp h
  cases hname.symm.trans (requireName_eq_ok.mp hfound)
  simp only at h
  split at h
  · cases h
  · obtain ⟨found, hfound, h⟩ := Attempt.bind_eq_ok.mp h
    cases htable.symm.trans (requireName_eq_ok.mp hfound)
    simp only at h
    split at h
    · cases h
      exact c.removeTable_modifyTable _ _
    · cases h

theorem tables_of_createView (h : createView source position c tokens = .ok c') :
    c'.tables = c.tables := by
  obtain ⟨v, -, -, rfl⟩ := createView_eq_ok h
  rfl

theorem eq_remove_of_dropObject {kind : Dropped} {word name : Token} {rest behind : List Token}
    (hkind : Dropped.ofToken? word = some kind)
    (hname : relationName? (skipAll ["IF", "EXISTS"] rest) = some (name, behind))
    (h : dropObject source c (word :: rest) = .ok c') : c' = kind.remove name.value c := by
  unfold dropObject at h
  simp only [hkind, hname] at h
  split at h
  · cases h
    rfl
  · split at h <;> cases h

end

/-- Dropping an index changes indexes only. -/
theorem withoutIndexes_remove (c : Catalog) (name : String) :
    (Dropped.index.remove name c).withoutIndexes = c.withoutIndexes := by
  let others (_ : String) (t : Table) : Table :=
    { t with indexes := t.indexes.filter fun i => !eqIgnoreCase i.name name }
  let forget (_ : String) (t : Table) : Table := { t with indexes := [] }
  have htables := @OrderedMap.mapValues_mapValues _ c.tables others forget fun _ _ => rfl
  exact congrArg (Catalog.mk · c.views) htables

/-! ## Attempts that succeed or leave the catalog alone -/

variable {x : Attempt Catalog}

theorem AttemptsOnly.cases (h : AttemptsOnly source c statement x) :
    (∃ c', x = .ok c' ∧ applyStatement source c statement = (c', [])) ∨
      ∃ problem, applyStatement source c statement = (c, Option.toList problem) := by
  unfold applyStatement
  rw [h]
  cases x with
  | ok c' => exact .inl ⟨c', rfl, rfl⟩
  | error problem => exact .inr ⟨problem, rfl⟩

/-- What holds of a catalog and itself, and of what the attempt makes of it, holds of what the
statement makes of it. -/
theorem AttemptsOnly.frame {P : Catalog → Prop} (h : AttemptsOnly source c statement x)
    (hsame : P c) (hdone : ∀ c', x = .ok c' → P c') : P (applyStatement source c statement).1 := by
  rcases h.cases with ⟨c', hc', happly⟩ | ⟨problem, happly⟩
  · rw [happly]
    exact hdone c' hc'
  · rw [happly]
    exact hsame

theorem exists_cons_of_startsWith {word : String} {tokens : List Token}
    (h : startsWith word tokens) : ∃ t ts, tokens = t :: ts ∧ t.isWord word := by
  cases tokens with
  | nil => cases h
  | cons t ts => exact ⟨t, ts, rfl, h⟩

/-- A statement with one of these works attempts nothing else. -/
theorem attemptsOnly_of_work {work : Work} (h : Work.ofStatement? statement = some work)
    (source : Source) (c : Catalog) :
    ∃ x, AttemptsOnly source c statement x ∧
      (work = .createView → ∀ c', x = .ok c' → c'.tables = c.tables) := by
  unfold Work.ofStatement? at h
  split at h
  · cases h
  · next first rest =>
      split at h
      · next hcreate =>
          split at h
          · next hindex =>
              cases h
              obtain ⟨word, behind, hbehind, hword⟩ := exists_cons_of_startsWith hindex
              refine ⟨_, (attempt_of_create hcreate hbehind source c).2.1 hword, ?_⟩
              rintro ⟨⟩
          · split at h
            · next hview =>
                cases h
                obtain ⟨word, behind, hbehind, hword⟩ := exists_cons_of_startsWith hview
                exact ⟨_, (attempt_of_create hcreate hbehind source c).2.2 hword,
                  fun _ _ => tables_of_createView⟩
            · cases h
      · split at h
        · next halter =>
            cases h
            rw [Bool.and_eq_true] at halter
            obtain ⟨word, tokens, rfl, hword⟩ := exists_cons_of_startsWith halter.2
            refine ⟨_, attempt_of_alter halter.1 hword tokens source c, ?_⟩
            rintro ⟨⟩
        · split at h
          · next hdrop =>
              cases h
              refine ⟨_, attempt_of_drop hdrop rest source c, ?_⟩
              rintro ⟨⟩
          · cases h

/-! ## The statement -/

/-- What a statement drops is all that is gone, apart from indexes of one name. -/
theorem frame_of_drops {kind : Dropped} {name : Token} (h : Drops kind statement name)
    (source : Source) (c : Catalog) :
    match kind with
    | .table => (applyStatement source c statement).1.removeTable name.value =
        c.removeTable name.value
    | .view => (applyStatement source c statement).1.tables = c.tables
    | .index => (applyStatement source c statement).1.withoutIndexes = c.withoutIndexes := by
  obtain ⟨drop, word, rest, behind, rfl, hdrop, hkind, hname⟩ := h
  have honly := attempt_of_drop hdrop (word :: rest) source c
  cases kind with
  | table =>
      refine honly.frame (P := fun c' => c'.removeTable name.value = c.removeTable name.value) rfl
        fun c' hc' => ?_
      rw [eq_remove_of_dropObject hkind hname hc']
      exact c.removeTable_removeTable name.value
  | view =>
      refine honly.frame (P := fun c' => c'.tables = c.tables) rfl fun c' hc' => ?_
      rw [eq_remove_of_dropObject hkind hname hc']
      rfl
  | index =>
      refine honly.frame (P := fun c' => c'.withoutIndexes = c.withoutIndexes) rfl
        fun c' hc' => ?_
      rw [eq_remove_of_dropObject hkind hname hc']
      exact withoutIndexes_remove c name.value

/-- A statement that alters a table, drops something, or creates an index or a view reports at most
one problem, and if it reports one the catalog is as it was.  In any case, altering a table without
giving it a new name, creating an index on a table and dropping a table leave all the same but that
table; creating and dropping a view leave the tables the same; and dropping an index leaves all the
same but indexes. -/
theorem atomic_applyStatement (source : Source) (c : Catalog) {statement : List Token}
    (h : (Work.ofStatement? statement).isSome) :
    let after := applyStatement source c statement
    after.2.length ≤ 1 ∧ (after.2 ≠ [] → after.1 = c) ∧
      (∀ table rest, Alters statement table rest →
        startsWithAll ["RENAME", "TO"] rest = false →
          after.1.removeTable table.value = c.removeTable table.value) ∧
      (∀ table, CreatesIndex statement table →
        after.1.removeTable table.value = c.removeTable table.value) ∧
      (∀ name, Drops .table statement name →
        after.1.removeTable name.value = c.removeTable name.value) ∧
      (Work.ofStatement? statement = some .createView → after.1.tables = c.tables) ∧
      (∀ name, Drops .view statement name → after.1.tables = c.tables) ∧
      (∀ name, Drops .index statement name → after.1.withoutIndexes = c.withoutIndexes) := by
  intro after
  obtain ⟨work, hwork⟩ := Option.isSome_iff_exists.mp h
  obtain ⟨x, honly, hview⟩ := attemptsOnly_of_work hwork source c
  have hfailed : after.2.length ≤ 1 ∧ (after.2 ≠ [] → after.1 = c) := by
    rcases honly.cases with ⟨c', -, happly⟩ | ⟨problem, happly⟩
    · rw [show after = (c', []) from happly]
      exact ⟨Nat.zero_le _, fun hne => absurd rfl hne⟩
    · rw [show after = (c, problem.toList) from happly]
      exact ⟨Option.length_toList_le, fun _ => rfl⟩
  refine ⟨hfailed.1, hfailed.2, ?_, ?_, fun name hdrops => frame_of_drops hdrops source c, ?_,
    fun name hdrops => frame_of_drops hdrops source c,
    fun name hdrops => frame_of_drops hdrops source c⟩
  · intro table rest halters hrest
    obtain ⟨position, tokens, hname, honly⟩ := attempt_of_alters halters source c
    refine honly.frame (P := fun c' => c'.removeTable table.value = c.removeTable table.value) rfl
      fun c' hc' => ?_
    exact removeTable_of_alterTable hname hrest hc'
  · rintro table ⟨create, tokens, word, behind, name, rest, columns, rfl, hcreate, hbehind, hword,
      hname, -, htable⟩
    refine ((attempt_of_create hcreate hbehind source c).2.1 hword).frame
      (P := fun c' => c'.removeTable table.value = c.removeTable table.value) rfl fun c' hc' => ?_
    exact removeTable_of_createIndex hname htable hc'
  · intro hcreate
    rw [hwork] at hcreate
    exact honly.frame (P := fun c' => c'.tables = c.tables) rfl (hview (Option.some.inj hcreate))

/-- A catalog with a table that has an index, and a view. -/
def furnished : Catalog :=
  (ofFiles [("s.sql", "CREATE TABLE t (a INTEGER);\nCREATE INDEX i ON t (a);
    CREATE VIEW v AS SELECT a FROM t;")]).1

/-- A column that is not there is not dropped: that is reported, and the table, its index and the
view are as they were. -/
theorem atomic_dropColumn_of_missing :
    let sql := "ALTER TABLE t DROP COLUMN b"
    let statement := (tokenize sql).toOption.getD []
    let problem : Diagnostic :=
      .error .unknownSchemaColumn "unknown column 'b' in table 't'" "s.sql" ⟨1, 27⟩ none
    (Work.ofStatement? statement).isSome ∧
      applyStatement ⟨"s.sql", sql⟩ furnished statement = (furnished, [problem]) := by
  intro sql statement problem
  have hwork : (Work.ofStatement? statement).isSome := by
    simp only [statement]
    rw [tokenize_ofList]
    decide +kernel
  have hreported : (applyStatement ⟨"s.sql", sql⟩ furnished statement).2 = [problem] := by
    simp only [statement]
    rw [furnished, ofFiles_singleton, applyFile_ofList, tokenize_ofList]
    decide +kernel
  obtain ⟨-, hsame, -⟩ := atomic_applyStatement ⟨"s.sql", sql⟩ furnished hwork
  refine ⟨hwork, Prod.ext (hsame ?_) hreported⟩
  rw [hreported]
  exact List.cons_ne_nil _ _

end Schema

end TypedSql

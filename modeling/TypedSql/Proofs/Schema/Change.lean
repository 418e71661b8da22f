import TypedSql.Schema.File

/-!
# What a schema statement can change

A statement either leaves the catalog alone or changes it in one of eight ways.  `Change` lists
them, with what the statement checks before it acts; invariants of catalogs are proved case by
case from it, and no later proof looks into the readers of statements.  For the changes that
decide whether an invariant holds, the form of the statement is part of the case, and a statement
of that form does make the change.

Main definitions: `Creates`, `Renames`, `RenamesColumn`, `DropsColumn`, `Drops`, `Change`.  Main
statement: `change_applyStatement`.
-/

namespace TypedSql.Schema

open Token Text

variable {source : Source} {c c' : Catalog} {statement : List Token}

/-! ## Parts of statements -/

theorem skipAll_suffix (words : List String) (ts : List Token) : skipAll words ts <:+ ts := by
  unfold skipAll
  split
  · exact List.drop_suffix _ _
  · exact List.suffix_refl _

/-- A name stands in front of what is behind it. -/
theorem suffix_of_relationName? {ts : List Token} {found : Token × List Token}
    (h : relationName? ts = some found) : found.1 :: found.2 <:+ ts := by
  fun_induction relationName? ts with
  | case1 => cases h
  | case2 => cases h; exact List.suffix_refl _
  | case3 => cases h
  | case4 t dot rest _ ih =>
      exact (ih h).trans ((List.suffix_cons dot rest).trans (List.suffix_cons t _))
  | case5 t dot rest => cases h; exact List.suffix_refl _
  | case6 => cases h

/-! ## Table bodies -/

/-- An element of a table body adds the column that it defines, under a new name, or no column; what
it changes otherwise are keys and indexes. -/
theorem Draft.table_addElement (source : Source) (d : Draft) (element : List Token) :
    (∃ key indexes, (d.addElement source element).table =
      { d.table with primaryKey := key, indexes := indexes }) ∨
    ∃ column key, readColumn source element = .ok column ∧
      (d.table.column? column.name).isSome = false ∧
      (d.addElement source element).table =
        { d.table with columns := d.table.columns ++ [column], primaryKey := key } := by
  have hsame : ∃ key indexes, d.table = { d.table with primaryKey := key, indexes := indexes } :=
    ⟨_, _, rfl⟩
  unfold addElement
  simp only
  split
  · exact .inl hsame
  · next first behind _ =>
      split
      · split
        · exact .inl ⟨_, _, rfl⟩
        · exact .inl hsame
      · split
        · split
          · split
            · exact .inl ⟨_, _, rfl⟩
            · exact .inl hsame
          · exact .inl hsame
        · split
          · exact .inl hsame
          · unfold addDefinition
            split
            · exact .inl hsame
            · exact .inl hsame
            · next column hread =>
                split
                · exact .inl hsame
                · next hnew =>
                    exact .inr ⟨column, _, hread, by simpa [Table.hasColumn] using hnew, rfl⟩

theorem name_modifyColumn (t : Table) (column : String) (f : Column → Column) :
    (t.modifyColumn column f).name = t.name := by
  unfold Table.modifyColumn
  split
  · rfl
  · rfl

/-- A property of the table that every element and every mark of a key column keeps holds of the
table that is read. -/
theorem readTable_induction {P : Table → Prop} (name : String) (position : Position)
    (body : List Token) (hbare : P (.bare name))
    (helement : ∀ (d : Draft) (element : List Token),
      P d.table → P (d.addElement source element).table)
    (hkey : ∀ (t : Table) (key : String), P t → P (t.modifyColumn key Column.withPrimaryKey)) :
    P (readTable source name position body).table := by
  have helements (elements : List (List Token)) (d : Draft) (h : P d.table) :
      P (elements.foldl (Draft.addElement source) d).table := by
    induction elements generalizing d with
    | nil => exact h
    | cons element elements ih => exact ih _ (helement d element h)
  have hkeys (keys : List String) (d : Draft) (h : P d.table) :
      P (keys.foldl (Draft.markKey source position) d).table := by
    induction keys generalizing d with
    | nil => exact h
    | cons key keys ih =>
        apply ih
        unfold Draft.markKey
        split
        · exact hkey d.table key h
        · exact h
  exact hkeys _ _ (helements _ _ hbare)

theorem name_readTable (name : String) (position : Position) (body : List Token) :
    (readTable source name position body).table.name = name := by
  refine readTable_induction (P := fun t => t.name = name) name position body rfl ?_ ?_
  · intro d element h
    rcases d.table_addElement source element with ⟨_, _, heq⟩ | ⟨_, _, -, -, heq⟩
    · rw [heq]
      exact h
    · rw [heq]
      exact h
  · intro t key h
    rw [name_modifyColumn]
    exact h

/-! ## Forms of statements -/

/-- What `CREATE` with a list of columns or a query can create. -/
inductive Created
  | table
  | view
deriving DecidableEq, Repr

/-- The word for it. -/
def Created.word : Created → String
  | table => "TABLE"
  | view => "VIEW"

/-- The tokens behind the words that can stand between `CREATE` and what is created. -/
def afterModifiers (tokens : List Token) : List Token :=
  let rest := skip "UNIQUE" tokens
  if startsWith "TEMP" rest then rest.drop 1 else skip "TEMPORARY" rest

theorem afterModifiers_suffix (tokens : List Token) : afterModifiers tokens <:+ tokens := by
  unfold afterModifiers
  dsimp only
  split
  · exact (List.drop_suffix 1 _).trans (skip_suffix _ _)
  · exact (skip_suffix _ _).trans (skip_suffix _ _)

/-- The view is cut out of the source where the tokens end: its query is the last ones of them. -/
def CutFrom (source : Source) (tokens : List Token) (v : View) : Prop :=
  ∃ first rest, first :: rest <:+ tokens ∧ v.sql = sourceText source.sql (first :: rest) ∧
    v.path = source.path ∧ v.position = first.position

theorem CutFrom.mono {source : Source} {tokens behind : List Token} {v : View}
    (h : CutFrom source behind v) (hsuffix : behind <:+ tokens) : CutFrom source tokens v := by
  obtain ⟨first, rest, hbody, hv⟩ := h
  exact ⟨first, rest, hbody.trans hsuffix, hv⟩

/-- The statement creates something under the name, with or without `IF NOT EXISTS`; `rest` is what
stands behind the name. -/
def Creates (kind : Created) (statement : List Token) (ifNotExists : Bool) (name : Token)
    (rest : List Token) : Prop :=
  ∃ create tokens word behind, statement = create :: tokens ∧ create.isWord "CREATE" ∧
    afterModifiers tokens = word :: behind ∧ word.isWord kind.word ∧
    startsWithAll ["IF", "NOT", "EXISTS"] behind = ifNotExists ∧
    relationName? (skipAll ["IF", "NOT", "EXISTS"] behind) = some (name, rest)

/-- The statement creates a table under the name, with the columns in `body`. -/
def Defines (statement : List Token) (name : Token) (body : List Token) : Prop :=
  ∃ ifNotExists rest behind, Creates .table statement ifNotExists name rest ∧
    group? rest = some ⟨body, behind⟩

/-- The statement alters a table; `rest` says how. -/
def Alters (statement : List Token) (table : Token) (rest : List Token) : Prop :=
  ∃ alter word tokens, statement = alter :: word :: tokens ∧ alter.isWord "ALTER" ∧
    word.isWord "TABLE" ∧ relationName? tokens = some (table, rest)

/-- The statement gives a table a new name. -/
def Renames (statement : List Token) (table name : Token) : Prop :=
  ∃ rest behind, Alters statement table rest ∧ startsWithAll ["RENAME", "TO"] rest ∧
    relationName? (rest.drop 2) = some (name, behind)

/-- The statement gives a column a new name. -/
def RenamesColumn (statement : List Token) (table old new : Token) : Prop :=
  ∃ rest toWord behind, Alters statement table rest ∧ startsWithAll ["RENAME", "TO"] rest = false ∧
    startsWith "RENAME" rest ∧ skip "COLUMN" (rest.drop 1) = old :: toWord :: new :: behind ∧
    toWord.isWord "TO"

/-- The statement drops a column. -/
def DropsColumn (statement : List Token) (table column : Token) : Prop :=
  ∃ rest behind, Alters statement table rest ∧ startsWith "DROP" rest ∧
    skip "COLUMN" (rest.drop 1) = column :: behind

/-- The statement drops the thing of that name, with or without `IF EXISTS`. -/
def Drops (kind : Dropped) (statement : List Token) (name : Token) : Prop :=
  ∃ drop word rest behind, statement = drop :: word :: rest ∧ drop.isWord "DROP" ∧
    Dropped.ofToken? word = some kind ∧
    relationName? (skipAll ["IF", "EXISTS"] rest) = some (name, behind)

/-- What a statement can do to a catalog. -/
inductive Change (source : Source) (c : Catalog) (statement : List Token) : Catalog → Prop
  | unchanged : Change source c statement c
  | define {name : Token} {body : List Token} (h : Defines statement name body)
      (hnew : (c.table? name.value).isNone) :
      Change source c statement (c.addTable (readTable source name.value name.position body).table)
  | view (v : View) (hnew : (c.table? v.name).isNone) : Change source c statement (c.addView v)
  | index (table : String) (i : Index) :
      Change source c statement
        (c.modifyTable table fun t => { t with indexes := t.indexes ++ [i] })
  | addColumn {table : String} {definition : List Token} {column : Column}
      (hread : readColumn source definition = .ok column)
      (hnew : (c.column? table column.name).isNone) :
      Change source c statement
        (c.modifyTable table fun t => { t with columns := t.columns ++ [column] })
  | rename {table name : Token} {t : Table} (h : Renames statement table name)
      (ht : c.table? table.value = some t) :
      Change source c statement
        ((c.removeTable table.value).addTable { t with name := name.value })
  | renameColumn {table old new : Token} (h : RenamesColumn statement table old new)
      (hold : (c.column? table.value old.value).isSome) :
      Change source c statement (c.modifyTable table.value fun t =>
        t.modifyColumn old.value fun column => { column with name := new.value })
  | dropColumn {table column : Token} (h : DropsColumn statement table column)
      (hold : (c.column? table.value column.value).isSome) :
      Change source c statement (c.modifyTable table.value fun t =>
        { t with columns := t.columns.filter fun d => !d.isNamed column.value })
  | drop {kind : Dropped} {name : Token} (h : Drops kind statement name) :
      Change source c statement (kind.remove name.value c)

/-! ## Attempts that succeed -/

theorem Attempt.bind_eq_ok {α β : Type} {x : Attempt α} {f : α → Attempt β} {b : β} :
    (x >>= f) = .ok b ↔ ∃ a, x = .ok a ∧ f a = .ok b := by
  cases x with
  | error problem =>
      constructor
      · intro h
        cases h
      · rintro ⟨a, h, -⟩
        cases h
  | ok a =>
      constructor
      · intro h
        exact ⟨a, rfl, h⟩
      · rintro ⟨a', h, hb⟩
        cases h
        exact hb

theorem requireName_eq_ok {code : Diagnostic.Code} {position : Position} {message : String}
    {tokens : List Token} {found : Token × List Token} :
    requireName source code position message tokens = .ok found ↔
      relationName? tokens = some found := by
  unfold requireName
  cases relationName? tokens with
  | none => simp [Source.refuse]
  | some other => simp

section

variable {position : Position} {name : String} {tokens body : List Token}

theorem registerView_eq_ok {columns : Option (List String)}
    (h : registerView source c name columns body position = .ok c') :
    ∃ v : View, v.name = name ∧ CutFrom source body v ∧ c' = c.addView v := by
  unfold registerView at h
  split at h
  · cases h
  · next first rest =>
      cases h
      exact ⟨_, rfl, ⟨first, rest, List.suffix_refl _, rfl, rfl, rfl⟩, rfl⟩

theorem defineTable_eq_ok {name : Token} {problems : List Diagnostic}
    (h : defineTable source c name tokens = .ok (c', problems)) :
    ∃ g, group? tokens = some g ∧
      c' = c.addTable (readTable source name.value name.position g.inner).table := by
  unfold defineTable at h
  split at h
  · split at h
    · next g hg =>
        cases h
        exact ⟨g, hg, rfl⟩
    · cases h
  · cases h

/-- A table is created where no table of its name is there: from a body, or like a view. -/
theorem createTable_eq_ok {problems : List Diagnostic}
    (h : createTable source position c tokens = .ok (c', problems)) :
    ∃ name rest, relationName? (skipAll ["IF", "NOT", "EXISTS"] tokens) = some (name, rest) ∧
      (c.table? name.value).isNone ∧
      ((∃ v : View, v.name = name.value ∧ CutFrom source tokens v ∧ c' = c.addView v ∧
          problems = []) ∨
        ∃ g, group? rest = some g ∧
          c' = c.addTable (readTable source name.value name.position g.inner).table) := by
  unfold createTable at h
  obtain ⟨⟨name, rest⟩, hname, h⟩ := Attempt.bind_eq_ok.mp h
  refine ⟨name, rest, requireName_eq_ok.mp hname, ?_⟩
  simp only at h
  split at h
  · split at h <;> cases h
  · next hnew =>
      refine ⟨by simpa using hnew, ?_⟩
      split at h
      · obtain ⟨c₁, hview, h⟩ := Attempt.bind_eq_ok.mp h
        cases h
        obtain ⟨v, hv, hcut, hc⟩ := registerView_eq_ok hview
        have hbehind := suffix_of_relationName? (requireName_eq_ok.mp hname)
        exact .inl ⟨v, hv, hcut.mono ((List.drop_suffix 1 rest).trans
          ((List.suffix_cons name rest).trans (hbehind.trans (skipAll_suffix _ _)))), hc, rfl⟩
      · exact .inr (defineTable_eq_ok h)

theorem createIndex_eq_ok {unique : Bool}
    (h : createIndex source position unique c tokens = .ok c') :
    ∃ table i, c' = c.modifyTable table fun t => { t with indexes := t.indexes ++ [i] } := by
  unfold createIndex at h
  obtain ⟨⟨name, rest⟩, -, h⟩ := Attempt.bind_eq_ok.mp h
  simp only at h
  split at h
  · cases h
  · obtain ⟨⟨table, rest⟩, -, h⟩ := Attempt.bind_eq_ok.mp h
    simp only at h
    split at h
    · cases h
      exact ⟨_, _, rfl⟩
    · cases h

theorem createView_eq_ok (h : createView source position c tokens = .ok c') :
    ∃ v : View, (c.table? v.name).isNone ∧ CutFrom source tokens v ∧ c' = c.addView v := by
  unfold createView at h
  obtain ⟨⟨name, rest⟩, hname, h⟩ := Attempt.bind_eq_ok.mp h
  have hbehind : rest <:+ tokens := (List.suffix_cons name rest).trans
    ((suffix_of_relationName? (requireName_eq_ok.mp hname)).trans (skipAll_suffix _ _))
  simp only at h
  split at h
  · split at h <;> cases h
  · next hnew =>
      have hnone : (c.table? name.value).isNone := by
        simp at hnew
        simp [hnew.1]
      split at h
      · next g hg =>
          have hgroup : g.rest <:+ tokens := by
            obtain ⟨close, -, rfl⟩ := Option.map_eq_some_iff.mp hg
            exact (List.drop_suffix _ _).trans hbehind
          simp only at h
          split at h
          · obtain ⟨v, hv, hcut, hc⟩ := registerView_eq_ok h
            exact ⟨v, hv ▸ hnone, hcut.mono ((List.drop_suffix 1 _).trans hgroup), hc⟩
          · cases h
      · simp only at h
        split at h
        · obtain ⟨v, hv, hcut, hc⟩ := registerView_eq_ok h
          exact ⟨v, hv ▸ hnone, hcut.mono ((List.drop_suffix 1 _).trans hbehind), hc⟩
        · cases h

theorem addColumn_eq_ok {table : String} (h : addColumn source position c table tokens = .ok c') :
    ∃ column : Column, readColumn source tokens = .ok column ∧
      (c.column? table column.name).isNone ∧
      c' = c.modifyTable table fun t => { t with columns := t.columns ++ [column] } := by
  unfold addColumn at h
  obtain ⟨column, hread, h⟩ := Attempt.bind_eq_ok.mp h
  split at h
  · cases h
  · next hnew =>
      cases h
      exact ⟨column, hread, by simpa using hnew, rfl⟩

theorem renameTable_eq_ok {table : String} :
    renameTable c table tokens = .ok c' ↔
      ∃ name behind t, relationName? tokens = some (name, behind) ∧ c.table? table = some t ∧
        c' = (c.removeTable table).addTable { t with name := name.value } := by
  unfold renameTable
  constructor
  · intro h
    split at h
    · next name behind t hname ht =>
        cases h
        exact ⟨name, behind, t, hname, ht, rfl⟩
    · cases h
  · rintro ⟨name, behind, t, hname, ht, rfl⟩
    simp only [hname, ht]

theorem renameColumn_eq_ok {table : String} :
    renameColumn source position c table tokens = .ok c' ↔
      ∃ old toWord new behind, tokens = old :: toWord :: new :: behind ∧ toWord.isWord "TO" ∧
        (c.column? table old.value).isSome ∧
        c' = c.modifyTable table fun t =>
          t.modifyColumn old.value fun column => { column with name := new.value } := by
  unfold renameColumn
  constructor
  · intro h
    split at h
    · next old toWord new behind =>
        split at h
        · next hto =>
            split at h
            · next hold =>
                cases h
                exact ⟨old, toWord, new, behind, rfl, hto, hold, rfl⟩
            · cases h
        · cases h
    · cases h
  · rintro ⟨old, toWord, new, behind, rfl, hto, hold, rfl⟩
    simp only [hto, hold, if_true]

theorem dropColumn_eq_ok {table : String} :
    dropColumn source c table tokens = .ok c' ↔
      ∃ column behind, tokens = column :: behind ∧ (c.column? table column.value).isSome ∧
        c' = c.modifyTable table fun t =>
          { t with columns := t.columns.filter fun d => !d.isNamed column.value } := by
  unfold dropColumn
  constructor
  · intro h
    split at h
    · cases h
    · next column behind =>
        split at h
        · next hold =>
            cases h
            exact ⟨column, behind, rfl, hold, rfl⟩
        · cases h
  · rintro ⟨column, behind, rfl, hold, rfl⟩
    simp only [hold, if_true]

theorem dropObject_eq_ok :
    dropObject source c tokens = .ok c' ↔
      ∃ kind word rest name behind, tokens = word :: rest ∧ Dropped.ofToken? word = some kind ∧
        relationName? (skipAll ["IF", "EXISTS"] rest) = some (name, behind) ∧
        kind.isIn name.value c ∧ c' = kind.remove name.value c := by
  unfold dropObject
  constructor
  · intro h
    split at h
    · cases h
    · next word rest =>
        split at h
        · next kind name behind hkind hname =>
            split at h
            · next hthere =>
                cases h
                exact ⟨kind, word, rest, name, behind, rfl, hkind, hname, hthere, rfl⟩
            · split at h <;> cases h
        · cases h
  · rintro ⟨kind, word, rest, name, behind, rfl, hkind, hname, hthere, rfl⟩
    simp only [hkind, hname, hthere, if_true]

end

/-! ## Changes -/

/-- A table that is altered is there, and it is altered in one of the ways of a change. -/
theorem change_alterTable {alter word : Token} {tokens : List Token} {position : Position}
    (hstatement : statement = alter :: word :: tokens) (halter : alter.isWord "ALTER")
    (hword : word.isWord "TABLE") (h : alterTable source position c tokens = .ok c') :
    Change source c statement c' := by
  unfold alterTable at h
  obtain ⟨⟨table, rest⟩, hname, h⟩ := Attempt.bind_eq_ok.mp h
  have halters : Alters statement table rest :=
    ⟨alter, word, tokens, hstatement, halter, hword, requireName_eq_ok.mp hname⟩
  simp only at h
  split at h
  · cases h
  · split at h
    · obtain ⟨column, hread, hnew, rfl⟩ := addColumn_eq_ok h
      exact .addColumn hread hnew
    · split at h
      · next hto =>
          obtain ⟨name, behind, t, hname, ht, rfl⟩ := renameTable_eq_ok.mp h
          exact .rename ⟨rest, behind, halters, hto, hname⟩ ht
      · next hto =>
          split at h
          · next hrename =>
              obtain ⟨old, toWord, new, behind, hrest, hto', hold, rfl⟩ := renameColumn_eq_ok.mp h
              exact .renameColumn
                ⟨rest, toWord, behind, halters, by simpa using hto, hrename, hrest, hto'⟩ hold
          · split at h
            · next hdrop =>
                obtain ⟨column, behind, hrest, hold, rfl⟩ := dropColumn_eq_ok.mp h
                exact .dropColumn ⟨rest, behind, halters, hdrop, hrest⟩ hold
            · cases h

theorem change_createObject {create : Token} {tokens : List Token} {position : Position}
    {problems : List Diagnostic} (hstatement : statement = create :: tokens)
    (hcreate : create.isWord "CREATE")
    (h : createObject source position c tokens = .ok (c', problems)) :
    Change source c statement c' := by
  unfold createObject at h
  simp only at h
  split at h
  · cases h
  · next word behind hbehind =>
      split at h
      · next hword =>
          obtain ⟨name, rest, hname, hnew, ⟨v, hv, -, rfl, -⟩ | ⟨g, hg, rfl⟩⟩ := createTable_eq_ok h
          · exact .view v (hv ▸ hnew)
          · exact .define ⟨_, rest, g.rest, ⟨create, tokens, word, behind, hstatement, hcreate,
              hbehind, hword, rfl, hname⟩, hg⟩ hnew
      · split at h
        · obtain ⟨c₁, hindex, h⟩ := Attempt.bind_eq_ok.mp h
          cases h
          obtain ⟨table, i, rfl⟩ := createIndex_eq_ok hindex
          exact .index table i
        · split at h
          · obtain ⟨c₁, hview, h⟩ := Attempt.bind_eq_ok.mp h
            cases h
            obtain ⟨v, hnew, -, rfl⟩ := createView_eq_ok hview
            exact .view v hnew
          · cases h

/-- A statement leaves the catalog alone or makes one of the changes. -/
theorem change_applyStatement (source : Source) (c : Catalog) (statement : List Token) :
    Change source c statement (applyStatement source c statement).1 := by
  unfold applyStatement
  cases hattempt : attempt source c statement with
  | error problem => exact .unchanged
  | ok result =>
      obtain ⟨c', problems⟩ := result
      unfold attempt at hattempt
      split at hattempt
      · cases hattempt
      · next first rest =>
          split at hattempt
          · next hcreate => exact change_createObject rfl hcreate hattempt
          · split at hattempt
            · next halter =>
                obtain ⟨c₁, halter', h⟩ := Attempt.bind_eq_ok.mp hattempt
                cases h
                rw [Bool.and_eq_true] at halter
                cases rest with
                | nil => cases halter.2
                | cons word tokens => exact change_alterTable rfl halter.1 halter.2 halter'
            · split at hattempt
              · next hdrop =>
                  obtain ⟨c₁, hdropped, h⟩ := Attempt.bind_eq_ok.mp hattempt
                  cases h
                  obtain ⟨kind, word, tokens, name, behind, rfl, hkind, hname, -, rfl⟩ :=
                    dropObject_eq_ok.mp hdropped
                  exact .drop ⟨first, word, tokens, behind, rfl, hdrop, hkind, hname⟩
              · cases hattempt

/-! ## Statements of a known form -/

/-- The statement attempts something that gives a catalog and no problems. -/
def AttemptsOnly (source : Source) (c : Catalog) (statement : List Token)
    (x : Attempt Catalog) : Prop :=
  attempt source c statement = (x >>= fun c => .ok (c, []))

/-- What creates something attempts what the word behind the modifiers says. -/
theorem attempt_of_create {create word : Token} {tokens behind : List Token}
    (hcreate : create.isWord "CREATE") (hbehind : afterModifiers tokens = word :: behind)
    (source : Source) (c : Catalog) :
    (word.isWord "TABLE" → attempt source c (create :: tokens) =
      createTable source create.position c behind) ∧
    (word.isWord "INDEX" → AttemptsOnly source c (create :: tokens)
      (createIndex source create.position (startsWith "UNIQUE" tokens) c behind)) ∧
    (word.isWord "VIEW" → AttemptsOnly source c (create :: tokens)
      (createView source create.position c behind)) := by
  have hattempt : attempt source c (create :: tokens) =
      createObject source create.position c tokens := by
    show (if create.isWord "CREATE" then _ else _) = _
    rw [if_pos hcreate]
  unfold afterModifiers at hbehind
  unfold AttemptsOnly
  rw [hattempt, createObject]
  simp only at hbehind ⊢
  simp only [hbehind]
  -- The word is none of the words that are tried before it.
  refine ⟨fun htable => ?_, fun hindex => ?_, fun hview => ?_⟩
  · simp only [htable, if_true]
  · have htable : word.isWord "TABLE" = false := isWord_of_isWord hindex (by decide)
    simp only [htable, hindex, Bool.false_eq_true, if_false, if_true]
    rfl
  · have htable : word.isWord "TABLE" = false := isWord_of_isWord hview (by decide)
    have hindex : word.isWord "INDEX" = false := isWord_of_isWord hview (by decide)
    simp only [htable, hindex, hview, Bool.false_eq_true, if_false, if_true]
    rfl

/-- What alters a table attempts nothing else. -/
theorem attempt_of_alter {alter word : Token} (halter : alter.isWord "ALTER")
    (hword : word.isWord "TABLE") (tokens : List Token) (source : Source) (c : Catalog) :
    AttemptsOnly source c (alter :: word :: tokens)
      (alterTable source alter.position c tokens) := by
  have hcreate : alter.isWord "CREATE" = false := isWord_of_isWord halter (by decide)
  have hthis : (alter.isWord "ALTER" && startsWith "TABLE" (word :: tokens)) = true := by
    rw [halter, Bool.true_and]
    exact hword
  unfold AttemptsOnly attempt
  simp only [hcreate, hthis, Bool.false_eq_true, if_false, if_true]
  rfl

theorem attempt_of_drop {drop : Token} (hdrop : drop.isWord "DROP") (rest : List Token)
    (source : Source) (c : Catalog) :
    AttemptsOnly source c (drop :: rest) (dropObject source c rest) := by
  have hcreate : drop.isWord "CREATE" = false := isWord_of_isWord hdrop (by decide)
  have halter : drop.isWord "ALTER" = false := isWord_of_isWord hdrop (by decide)
  unfold AttemptsOnly attempt
  simp only [hcreate, halter, hdrop, Bool.false_and, Bool.false_eq_true, if_false, if_true]
  rfl

/-- What a statement that creates something under a name comes to. -/
theorem attempt_of_creates {kind : Created} {ifNotExists : Bool} {name : Token}
    {rest : List Token} (h : Creates kind statement ifNotExists name rest) (source : Source)
    (c : Catalog) :
    ∃ position tokens, startsWithAll ["IF", "NOT", "EXISTS"] tokens = ifNotExists ∧
      relationName? (skipAll ["IF", "NOT", "EXISTS"] tokens) = some (name, rest) ∧
      attempt source c statement =
        match kind with
        | .table => createTable source position c tokens
        | .view => createView source position c tokens >>= fun c => .ok (c, []) := by
  obtain ⟨create, tokens, word, behind, rfl, hcreate, hbehind, hword, hif, hname⟩ := h
  have hattempts := attempt_of_create hcreate hbehind source c
  refine ⟨create.position, behind, hif, hname, ?_⟩
  cases kind with
  | table => exact hattempts.1 hword
  | view => exact hattempts.2.2 hword

/-- A table with a body is created where no table of its name is there. -/
theorem applyStatement_of_defines {name : Token} {body : List Token}
    (h : Defines statement name body) (hnew : (c.table? name.value).isNone) :
    applyStatement source c statement =
      (c.addTable (readTable source name.value name.position body).table,
        (readTable source name.value name.position body).problems) := by
  obtain ⟨ifNotExists, rest, behind, hcreates, hbody⟩ := h
  obtain ⟨position, tokens, -, hname, hattempt⟩ := attempt_of_creates hcreates source c
  have hopen : startsWithKind .leftParen rest = true := by
    cases rest with
    | nil => cases hbody
    | cons t ts =>
        -- No group begins without a parenthesis.
        by_cases ht : t.kind = .leftParen
        · simp [startsWithKind, ht]
        · simp [group?, matchingParen?, ht] at hbody
  have has : startsWith "AS" rest = false := by
    cases rest with
    | nil => rfl
    | cons t ts =>
        have ht : t.kind = .leftParen := by simpa [startsWithKind] using hopen
        simp [startsWith, isWord, ht]
  have hthere : (c.table? name.value).isSome = false := by simpa using hnew
  have hcreate : createTable source position c tokens =
      .ok (c.addTable (readTable source name.value name.position body).table,
        (readTable source name.value name.position body).problems) := by
    refine Attempt.bind_eq_ok.mpr ⟨(name, rest), requireName_eq_ok.mpr hname, ?_⟩
    simp only [hthere, has, defineTable, hopen, hbody, Bool.false_eq_true, if_false, if_true]
  rw [applyStatement, hattempt, hcreate]

/-- What a statement that alters a table comes to. -/
theorem attempt_of_alters {table : Token} {rest : List Token} (h : Alters statement table rest)
    (source : Source) (c : Catalog) :
    ∃ position tokens, relationName? tokens = some (table, rest) ∧
      AttemptsOnly source c statement (alterTable source position c tokens) := by
  obtain ⟨alter, word, tokens, rfl, halter, hword, hname⟩ := h
  exact ⟨alter.position, tokens, hname, attempt_of_alter halter hword tokens source c⟩

/-- A list that begins with one word does not begin with another one. -/
theorem startsWith_of_ne {word other : String} {rest : List Token} (h : startsWith other rest)
    (hne : eqIgnoreCase word other = false) : startsWith word rest = false := by
  cases rest with
  | nil => rfl
  | cons t ts => exact isWord_of_isWord (t := t) h hne

/-- A table that is there gets the new name. -/
theorem applyStatement_of_renames {table name : Token} {t : Table}
    (h : Renames statement table name) (ht : c.table? table.value = some t) :
    applyStatement source c statement =
      ((c.removeTable table.value).addTable { t with name := name.value }, []) := by
  obtain ⟨rest, behind, halters, hto, hname⟩ := h
  obtain ⟨position, tokens, htable, hattempt⟩ := attempt_of_alters halters source c
  have hrename : startsWith "RENAME" rest := by
    cases rest with
    | nil => cases hto
    | cons t ts => exact (Bool.and_eq_true _ _ ▸ hto).1
  have halter : alterTable source position c tokens =
      .ok ((c.removeTable table.value).addTable { t with name := name.value }) := by
    refine Attempt.bind_eq_ok.mpr ⟨(table, rest), requireName_eq_ok.mpr htable, ?_⟩
    have hadd : startsWith "ADD" rest = false := startsWith_of_ne hrename (by decide)
    simp only [ht, hadd, hto, Option.isNone_some, Bool.false_eq_true, if_false, if_true]
    exact renameTable_eq_ok.mpr ⟨name, behind, t, hname, ht, rfl⟩
  rw [applyStatement, hattempt, halter]
  rfl

theorem exists_table_of_column {table column : String} (h : (c.column? table column).isSome) :
    ∃ t, c.table? table = some t ∧ (t.column? column).isSome := by
  cases ht : c.table? table with
  | none => simp [Catalog.column?, ht] at h
  | some t => exact ⟨t, rfl, by simpa [Catalog.column?, ht] using h⟩

/-- A column that is there gets the new name. -/
theorem applyStatement_of_renamesColumn {table old new : Token}
    (h : RenamesColumn statement table old new)
    (hold : (c.column? table.value old.value).isSome) :
    applyStatement source c statement =
      (c.modifyTable table.value fun t =>
        t.modifyColumn old.value fun column => { column with name := new.value }, []) := by
  obtain ⟨rest, toWord, behind, halters, hto, hrename, hrest, hword⟩ := h
  obtain ⟨position, tokens, htable, hattempt⟩ := attempt_of_alters halters source c
  obtain ⟨t, ht, -⟩ := exists_table_of_column hold
  have halter : alterTable source position c tokens =
      .ok (c.modifyTable table.value fun t =>
        t.modifyColumn old.value fun column => { column with name := new.value }) := by
    refine Attempt.bind_eq_ok.mpr ⟨(table, rest), requireName_eq_ok.mpr htable, ?_⟩
    have hadd : startsWith "ADD" rest = false := startsWith_of_ne hrename (by decide)
    simp only [ht, Option.isNone_some, hadd, hto, hrename, Bool.false_eq_true, if_false, if_true]
    exact renameColumn_eq_ok.mpr ⟨old, toWord, new, behind, hrest, hword, hold, rfl⟩
  rw [applyStatement, hattempt, halter]
  rfl

/-- A column that is there is dropped. -/
theorem applyStatement_of_dropsColumn {table column : Token}
    (h : DropsColumn statement table column)
    (hold : (c.column? table.value column.value).isSome) :
    applyStatement source c statement =
      (c.modifyTable table.value fun t =>
        { t with columns := t.columns.filter fun d => !d.isNamed column.value }, []) := by
  obtain ⟨rest, behind, halters, hdrop, hrest⟩ := h
  obtain ⟨position, tokens, htable, hattempt⟩ := attempt_of_alters halters source c
  obtain ⟨t, ht, -⟩ := exists_table_of_column hold
  have hadd : startsWith "ADD" rest = false := startsWith_of_ne hdrop (by decide)
  have hrename : startsWith "RENAME" rest = false := startsWith_of_ne hdrop (by decide)
  have hto : startsWithAll ["RENAME", "TO"] rest = false := by
    cases rest with
    | nil => rfl
    | cons t ts =>
        have ht : t.isWord "RENAME" = false := hrename
        rw [startsWithAll, ht, Bool.false_and]
  have halter : alterTable source position c tokens =
      .ok (c.modifyTable table.value fun t =>
        { t with columns := t.columns.filter fun d => !d.isNamed column.value }) := by
    refine Attempt.bind_eq_ok.mpr ⟨(table, rest), requireName_eq_ok.mpr htable, ?_⟩
    simp only [ht, Option.isNone_some, hadd, hto, hrename, hdrop, Bool.false_eq_true, if_false,
      if_true]
    exact dropColumn_eq_ok.mpr ⟨column, behind, hrest, hold, rfl⟩
  rw [applyStatement, hattempt, halter]
  rfl

end TypedSql.Schema

import TypedSql.Proofs.Schema.ColumnClauses
import TypedSql.Proofs.Schema.Operations

/-!
# New tables

A `CREATE TABLE` whose body is a list of column definitions makes a table with the columns that are
read from them, in their order.  The columns that are part of the primary key are marked as such
when they are read, so that the pass over the keys at the end of the body changes nothing.

Main statement: `createTable_definitions`.
-/

namespace TypedSql.Schema

open Text Token

/-- The columns join the table one after the other, and those in the primary key its key. -/
theorem foldl_addColumn (columns : List Column) (draft : Draft) :
    columns.foldl Draft.addColumn draft =
      { draft with table := { draft.table with
          primaryKey :=
            draft.table.primaryKey ++ (columns.filter (·.primaryKey)).map (·.name)
          columns := draft.table.columns ++ columns } } := by
  induction columns generalizing draft with
  | nil => simp
  | cons column columns ih =>
      rw [List.foldl_cons, ih, Draft.addColumn]
      cases hkey : column.primaryKey <;> simp [hkey]

/-- A column that is marked as part of the key is not changed by marking it again. -/
theorem markKey_of_marked (source : Source) (position : Position) {draft : Draft}
    {column : Column} (hdistinct : draft.table.DistinctColumns)
    (hmem : column ∈ draft.table.columns) (hkey : column.primaryKey = true)
    (hnull : column.notNull = true) :
    draft.markKey source position column.name = draft := by
  have hthere : (draft.table.column? column.name).isSome :=
    Table.isSome_column?_iff.mpr (List.mem_map_of_mem hmem)
  obtain ⟨before, found, behind, hcolumns, -, hname, heq⟩ :=
    Table.modifyColumn_eq hthere Column.withPrimaryKey
  have hfound : found ∈ draft.table.columns := by simp [hcolumns]
  have hsame : found = column :=
    List.inj_on_of_nodup_map hdistinct hfound hmem hname
  have hmarked : column.withPrimaryKey = column := by
    cases column
    cases hkey
    cases hnull
    rfl
  have htable : draft.table.modifyColumn column.name Column.withPrimaryKey = draft.table := by
    rw [heq, hsame, hmarked, ← hsame, ← hcolumns]
  rw [Draft.markKey, Table.hasColumn, if_pos hthere, htable]

section Definitions

variable {source : Source} {ds : List ColumnDefinition}

/-- The names differ, and none of them begins a constraint of the table. -/
structure Fresh (ds : List ColumnDefinition) : Prop where
  word : ∀ d ∈ ds, d.name.token.isAnyWord ["UNIQUE", "PRIMARY", "FOREIGN"] = false
  distinct : (ds.map fun d => d.name.token.normalized).Nodup

theorem keyNotNull_reading (d : ColumnDefinition) : (d.reading source).KeyNotNull :=
  keyNotNull_readColumn (d.readColumn_tokens source)

theorem lowerCase_name_reading (d : ColumnDefinition) :
    lowerCase (d.reading source).name = d.name.token.normalized := by
  rw [(d.within_declared source).name]
  rfl

/-- Every definition adds its column. -/
theorem foldl_addElement {draft : Draft}
    (hword : ∀ d ∈ ds, d.name.token.isAnyWord ["UNIQUE", "PRIMARY", "FOREIGN"] = false)
    (hdistinct : (draft.table.columnKeys ++ ds.map fun d => d.name.token.normalized).Nodup) :
    (ds.map ColumnDefinition.tokens).foldl (Draft.addElement source) draft =
      (ds.map (ColumnDefinition.reading · source)).foldl Draft.addColumn draft := by
  induction ds generalizing draft with
  | nil => rfl
  | cons d ds ih =>
      have hnew : draft.table.hasColumn d.name.token.value = false := by
        rw [List.map_cons, List.nodup_middle, List.nodup_cons] at hdistinct
        rw [Bool.eq_false_iff]
        exact fun h => hdistinct.1 (List.mem_append_left _ (Table.isSome_column?_iff.mp h))
      have hkeys : (draft.addColumn (d.reading source)).table.columnKeys =
          draft.table.columnKeys ++ [d.name.token.normalized] := by
        rw [Draft.addColumn, Table.columnKeys, List.map_append, List.map_singleton,
          lowerCase_name_reading]
        rfl
      rw [List.map_cons, List.map_cons, List.foldl_cons, List.foldl_cons,
        d.addElement_tokens source draft (hword d List.mem_cons_self) hnew]
      refine ih (fun e he => hword e (List.mem_cons_of_mem _ he)) ?_
      rwa [hkeys, List.append_assoc, List.singleton_append]

/-- The table with the columns that are read. -/
def tableOf (source : Source) (name : String) (ds : List ColumnDefinition) : Table :=
  let columns := ds.map (ColumnDefinition.reading · source)
  { Table.bare name with
    columns := columns
    primaryKey := (columns.filter (·.primaryKey)).map (·.name) }

theorem readTable_definitions (name : String) (position : Position) {body : List Token}
    (hbody : commaPieces body = ds.map ColumnDefinition.tokens) (hfresh : Fresh ds) :
    readTable source name position body = ⟨tableOf source name ds, []⟩ := by
  have hdraft : (commaPieces body).foldl (Draft.addElement source) ⟨.bare name, []⟩ =
      ⟨tableOf source name ds, []⟩ := by
    rw [hbody, @foldl_addElement source ds ⟨.bare name, []⟩ hfresh.word hfresh.distinct,
      foldl_addColumn]
    rfl
  have hdistinct : (tableOf source name ds).DistinctColumns := by
    have hkeys : (tableOf source name ds).columnKeys =
        ds.map fun d => d.name.token.normalized := by
      rw [tableOf, Table.columnKeys, List.map_map]
      exact List.map_congr_left fun d _ => lowerCase_name_reading d
    rw [Table.DistinctColumns, hkeys]
    exact hfresh.distinct
  have hmarked : ∀ keys ⊆ (tableOf source name ds).primaryKey,
      keys.foldl (Draft.markKey source position) ⟨tableOf source name ds, []⟩ =
        ⟨tableOf source name ds, []⟩ := by
    intro keys hkeys
    induction keys with
    | nil => rfl
    | cons key keys ih =>
        obtain ⟨hkey, hbehind⟩ := List.cons_subset.mp hkeys
        obtain ⟨column, hcolumn, rfl⟩ := List.mem_map.mp hkey
        obtain ⟨hmem, hprimary⟩ := List.mem_filter.mp hcolumn
        obtain ⟨d, -, rfl⟩ := List.mem_map.mp hmem
        rw [List.foldl_cons, @markKey_of_marked source position ⟨tableOf source name ds, []⟩ _
          hdistinct hmem hprimary (keyNotNull_reading d hprimary)]
        exact ih hbehind
  rw [readTable, hdraft]
  exact hmarked _ (List.Subset.refl _)

/-- `CREATE TABLE` with a list of column definitions adds the table with these columns, whatever
stands behind the body. -/
theorem createTable_definitions (source : Source) (position : Position) {c : Catalog}
    (name : Naming) (body : Enclosed) (rest : List Token)
    (hnew : c.table? name.token.value = none)
    (hbody : commaPieces body.inner = ds.map ColumnDefinition.tokens) (hfresh : Fresh ds) :
    createTable source position c (name.token :: (body.tokens ++ rest)) =
      .ok (c.addTable (tableOf source name.token.value ds), []) := by
  have hskip : startsWithAll ["IF", "NOT", "EXISTS"] (name.token :: (body.tokens ++ rest)) =
      false := by
    have hnot : body.openParen.isWord "NOT" = false := body.startsWith_append "NOT" rest
    rw [Enclosed.tokens, List.cons_append, startsWithAll, startsWithAll, hnot, Bool.false_and,
      Bool.and_false]
  have hname : relationName? (name.token :: (body.tokens ++ rest)) =
      some (name.token, body.tokens ++ rest) := by
    have hdot : body.openParen.kind ≠ .dot := by
      rw [body.hopen]
      decide
    rw [Enclosed.tokens, List.cons_append, relationName?, if_neg hdot, if_pos name.canName]
  have hopen : startsWithKind .leftParen (body.tokens ++ rest) = true :=
    beq_iff_eq.mpr body.hopen
  have htable : readTable source name.token.value name.token.position body.inner =
      ⟨tableOf source name.token.value ds, []⟩ := readTable_definitions _ _ hbody hfresh
  have hdefine : defineTable source c name.token (body.tokens ++ rest) =
      .ok (c.addTable (tableOf source name.token.value ds), []) := by
    rw [defineTable, if_pos hopen, body.group?]
    simp only [htable]
  have has : startsWith "AS" (body.tokens ++ rest) = false := body.startsWith_append "AS" rest
  rw [createTable, skipAll, hskip, if_neg Bool.false_ne_true, requireName, hname]
  show (if (c.table? name.token.value).isSome then _ else if startsWith "AS" (body.tokens ++ rest)
    then _ else defineTable source c name.token (body.tokens ++ rest)) = _
  rw [hnew, has, hdefine]
  rfl

end Definitions

end TypedSql.Schema

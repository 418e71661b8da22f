import TypedSql.Analysis.Statement
import TypedSql.Proofs.Report.Joins
import TypedSql.Proofs.Schema.RelationNames
import TypedSql.Proofs.Scope.Columns
import TypedSql.Proofs.Token.Quoted

/-!
# Views as tables

A view becomes a table whose declared types say what was inferred for its columns.  What is declared
is read back as the same type, so a star over the view gives the columns of its query: whatever
views come after it.

Main definitions: `View.outputs`, `Catalog.withViews`.  Main statement: `View.analyze_star`.
-/

namespace TypedSql

open Diagnostic Query Text Token

/-! ## Types of columns -/

/-- The declared type that stands for a value type is read as that type. -/
theorem Affinity.resolve?_declaration {t : ValueType} (h : t.isList = false) :
    resolve? t.declaration = some t := by
  cases t with
  | list item => cases h
  | int64 => decide
  | float64 => decide
  | string => decide
  | bytes => decide
  | bool => decide

/-- A column of a view has the type that was inferred, unless that is a list. -/
theorem View.columnType_tableColumn {d : ResultColumn}
    (h : ∀ t, d.type.type? = some t → t.isList = false) :
    Affinity.columnType (tableColumn d).declaration (tableColumn d).notNull = d.type := by
  obtain ⟨name, relation, type⟩ := d
  cases type with
  | unresolved =>
      have hnone : Affinity.resolve? "" = none := by decide
      show TypeInfo.ofOption (Affinity.resolve? "") _ = _
      rw [hnone]
      rfl
  | resolved t nullable =>
      show TypeInfo.ofOption (Affinity.resolve? t.declaration) (!!nullable) = _
      rw [Affinity.resolve?_declaration (h t rfl), Bool.not_not]
      rfl

/-! ## Catalogs with their views as tables -/

namespace OrderedMap

variable {α : Type} {m : OrderedMap α}

/-- Values that stand under their names have different names. -/
theorem KeyedBy.nodup {name : α → String} (h : m.KeyedBy name) :
    (m.values.map fun v => lowerCase (name v)).Nodup := by
  have hkeys : (m.values.map fun v => lowerCase (name v)) = m.keys := by
    rw [values, List.map_map]
    exact List.map_congr_left fun e he => h e.1 e.2 (get?_of_mem he)
  rw [hkeys]
  exact m.nodup

end OrderedMap

namespace Catalog

variable {c : Catalog}

/-- In a catalog whose tables stand under their names, a name leads to one table. -/
theorem named?_eq (h : c.tables.KeyedBy Table.name) (name : String) :
    c.named? name = c.table? name := by
  unfold named? table?
  cases htable : c.tables.get? (lowerCase name) with
  | none =>
      rw [List.find?_eq_none]
      intro t ht hname
      have hsome := (h.exists_iff name).mp ⟨t, List.mem_reverse.mp ht, hname⟩
      rw [htable] at hsome
      cases hsome
  | some t =>
      have hmem : t ∈ c.tables.values := OrderedMap.mem_values_iff.mpr ⟨_, htable⟩
      have hname : eqIgnoreCase t.name name = true := eqIgnoreCase_iff.mpr (h _ t htable)
      cases hfound : c.tables.values.reverse.find? fun t => eqIgnoreCase t.name name with
      | none =>
          have hnone := List.find?_eq_none.mp hfound t (List.mem_reverse.mpr hmem)
          exact absurd hname hnone
      | some u =>
          obtain ⟨key, hu⟩ := OrderedMap.mem_values_iff.mp
            (List.mem_reverse.mp (List.mem_of_find?_eq_some hfound))
          have hkey : key = lowerCase name :=
            (h key u hu).symm.trans (eqIgnoreCase_iff.mp (List.find?_some hfound :))
          rw [hkey, htable] at hu
          exact hu.symm

/-- The catalog with these views as tables, one after the other. -/
def withViews (c : Catalog) (views : List View) : Catalog :=
  views.foldl (fun c v => (v.resolve c).1) c

theorem withViews_append (c : Catalog) (before after : List View) :
    c.withViews (before ++ after) = (c.withViews before).withViews after := List.foldl_append

theorem fst_resolveViews (c : Catalog) : (resolveViews c).1 = c.withViews c.views.values :=
  (List.foldl_hom Prod.fst fun _ _ => rfl).symm

end Catalog

namespace View

variable {c : Catalog} {v : View}

/-- The columns of the view's query, under the names that the view gives them; none where its query
cannot be read. -/
def outputs (c : Catalog) (v : View) : Option (List ResultColumn) :=
  match Query.parse v.sql v.position with
  | .error _ => none
  | .ok query => some (v.applyNames (Analyzer.analyze ⟨some c, .empty⟩ (v.toBlock query)).columns).1

/-- A view becomes the table of its columns, or no table. -/
theorem fst_resolve (c : Catalog) (v : View) :
    (v.resolve c).1 = ((v.outputs c).map fun columns => c.addTable (v.toTable columns)).getD c := by
  unfold resolve outputs
  cases Query.parse v.sql v.position with
  | error e => rfl
  | ok query => rfl

/-- What the query of a view gives depends on the tables only. -/
theorem outputs_congr {c c' : Catalog} (h : c.tables = c'.tables) (v : View) :
    v.outputs c = v.outputs c' := by
  obtain ⟨tables, views⟩ := c
  obtain ⟨tables', views'⟩ := c'
  cases h
  have hanalyze (b : Block) : (Analyzer.analyze ⟨some ⟨tables, views⟩, .empty⟩ b).columns =
      (Analyzer.analyze ⟨some ⟨tables, views'⟩, .empty⟩ b).columns := by
    unfold Analyzer.analyze
    cases tokenizeAt b.sql b.position with
    | error e => rfl
    | ok tokens => rfl
  unfold outputs
  simp only [hanalyze]

theorem tables_resolve_congr {c c' : Catalog} (h : c.tables = c'.tables) (v : View) :
    (v.resolve c).1.tables = (v.resolve c').1.tables := by
  rw [fst_resolve, fst_resolve, outputs_congr h]
  cases v.outputs c' with
  | none => exact h
  | some columns =>
      show c.tables.insert _ _ = c'.tables.insert _ _
      rw [h]

theorem keyedBy_resolve (h : c.tables.KeyedBy Table.name) (v : View) :
    (v.resolve c).1.tables.KeyedBy Table.name := by
  rw [fst_resolve]
  cases v.outputs c with
  | none => exact h
  | some columns => exact h.insert _

/-- The view changes no table of another name. -/
theorem table?_resolve_of_ne {name : String} (hne : lowerCase v.name ≠ lowerCase name) :
    (v.resolve c).1.table? name = c.table? name := by
  rw [fst_resolve]
  cases v.outputs c with
  | none => rfl
  | some columns => exact (OrderedMap.get?_insert ..).trans (if_neg hne.symm)

theorem table?_resolve {columns : List ResultColumn} (h : v.outputs c = some columns) :
    (v.resolve c).1.table? v.name = some (v.toTable columns) := by
  rw [fst_resolve, h]
  exact (OrderedMap.get?_insert ..).trans (if_pos rfl)

end View

namespace Catalog

variable {c : Catalog}

theorem tables_withViews_congr {c' : Catalog} (h : c.tables = c'.tables) (views : List View) :
    (c.withViews views).tables = (c'.withViews views).tables := by
  induction views generalizing c c' with
  | nil => exact h
  | cons v views ih => exact ih (View.tables_resolve_congr h v)

theorem keyedBy_withViews (h : c.tables.KeyedBy Table.name) (views : List View) :
    (c.withViews views).tables.KeyedBy Table.name := by
  induction views generalizing c with
  | nil => exact h
  | cons v views ih => exact ih (View.keyedBy_resolve h v)

/-- Views of other names change no table of this name. -/
theorem table?_withViews_of_ne {name : String} {views : List View}
    (h : ∀ v ∈ views, lowerCase v.name ≠ lowerCase name) :
    (c.withViews views).table? name = c.table? name := by
  induction views generalizing c with
  | nil => rfl
  | cons v views ih =>
      rw [withViews, List.foldl_cons]
      rw [List.forall_mem_cons] at h
      exact (ih h.2).trans (View.table?_resolve_of_ne h.1)

/-- A view leads to the table of its columns, whatever views come after it. -/
theorem table?_resolveViews {before after : List View} {v : View} {columns : List ResultColumn}
    (hkeyed : c.Keyed) (hviews : c.views.values = before ++ v :: after)
    (hcolumns : v.outputs (c.withViews before) = some columns) :
    (resolveViews c).1.table? v.name = some (v.toTable columns) := by
  have hnodup := hkeyed.views.nodup
  rw [hviews, List.map_append, List.map_cons, List.nodup_append, List.nodup_cons] at hnodup
  have hother : ∀ w ∈ after, lowerCase w.name ≠ lowerCase v.name := by
    intro w hw heq
    exact hnodup.2.1.1 (heq ▸ List.mem_map_of_mem (f := fun v : View => lowerCase v.name) hw)
  rw [fst_resolveViews, hviews, withViews_append, withViews, List.foldl_cons]
  exact (table?_withViews_of_ne hother).trans (View.table?_resolve hcolumns)

end Catalog

/-! ## The statement -/

/-- A star over the relation of that name. -/
def starFrom (name : String) : String := "SELECT * FROM " ++ quoteName name

namespace Grammar.Joins

/-- The tokens of `starFrom`. -/
def ofName (name : String) (p : Position) : Joins where
  select := ⟨.keyword, "SELECT", ⟨0, 6⟩, p⟩
  star := ⟨.star, "*", ⟨7, 8⟩, p.after "SELECT ".toList⟩
  source := ⟨.keyword, "FROM", ⟨9, 13⟩, p.after "SELECT * ".toList⟩
  first := ⟨⟨.quotedIdentifier, quoteName name, ⟨14, 14 + byteLength (quoted name)⟩,
    p.after "SELECT * FROM ".toList⟩, none, .inr (.inl rfl)⟩
  rest := []
  hselect := .of_text rfl
  hstar := rfl
  hsource := .of_text rfl

theorem tokenizeAt_starFrom (name : String) (p : Position) :
    tokenizeAt (starFrom name) p = .ok (ofName name p).tokens := by
  have hname := Reads.onlyQuoted name 14 (p.after "SELECT * FROM ".toList)
  have hplace {before text : String} {piece cs : List Char} {o : Nat} {ts : List Token}
      (htext : before.toList ++ (piece ++ [' ']) = text.toList)
      (h : PlainReads cs o (p.after text.toList) ts) :
      PlainReads cs o (((p.after before.toList).after piece).after [' ']) ts := by
    rwa [← Position.after_append, ← Position.after_append, htext]
  have hsource : PlainReads (['F', 'R', 'O', 'M'] ++ ' ' :: quoted name) 9
      (p.after "SELECT * ".toList) _ :=
    .piece rfl (notOpen_cons (by decide) _) rfl rfl (hplace (by decide) hname)
  have hstar : PlainReads (['*'] ++ ' ' :: (['F', 'R', 'O', 'M'] ++ ' ' :: quoted name)) 7
      (p.after "SELECT ".toList) _ :=
    .piece rfl (notOpen_cons (by decide) _) rfl rfl (hplace (by decide) hsource)
  have hselect : PlainReads (['S', 'E', 'L', 'E', 'C', 'T'] ++
      ' ' :: (['*'] ++ ' ' :: (['F', 'R', 'O', 'M'] ++ ' ' :: quoted name))) 0 p _ :=
    .piece rfl (notOpen_cons (by decide) _) rfl rfl hstar
  have htext : (starFrom name).toList = ['S', 'E', 'L', 'E', 'C', 'T'] ++
      ' ' :: (['*'] ++ ' ' :: (['F', 'R', 'O', 'M'] ++ ' ' :: quoted name)) := by
    have hquoted : (quoteName name).toList = quoted name := String.toList_ofList
    unfold starFrom
    rw [String.toList_append, hquoted]
    rfl
  refine tokenizeAt_eq_ok_iff.mpr ?_
  rw [htext]
  exact hselect

/-- The statement sees the table of that name and nothing else. -/
theorem entries_scope_ofName {c : Catalog} {name : String} {p : Position} {t : Table}
    (overrides : ColumnOverrides) (ht : c.named? name = some t) :
    (ofName name p).AllThere c ∧
      ((ofName name p).scope overrides c).entries = [.ofTable overrides t] := by
  have hvalue : (ofName name p).first.table.value = name := value_quoted rfl rfl
  have hthere : (ofName name p).AllThere c := by
    intro r hr
    cases List.mem_singleton.mp hr
    rw [hvalue, ht]
    rfl
  have hcounts : RelationRef.EachCounts (ofName name p).references := by
    intro before r after heq
    cases before with
    | nil => exact ⟨_, List.mem_cons_self, List.not_mem_nil⟩
    | cons r' before =>
        have hlength := congrArg List.length heq
        rw [show (ofName name p).references.length = 1 from rfl] at hlength
        simp at hlength
  refine ⟨hthere, ?_⟩
  rw [(hthere.eachCounts_iff overrides).mp hcounts, entries]
  show List.filterMap _ [(ofName name p).first] = _
  rw [List.filterMap_cons_some (b := Scope.Entry.ofTable overrides t) (by rw [hvalue, ht]; rfl)]
  rfl

end Grammar.Joins

/-- A star over a table gives the columns of the table without a note. -/
theorem Analyzer.analyze_starFrom {a : Analyzer} {c : Catalog} {name : String} {t : Table}
    {b : Block} (hcatalog : a.catalog = some c) (ht : c.named? name = some t)
    (hsql : b.sql = starFrom name) (hparse : Query.parse b.sql b.position = .ok b.query)
    (hhints : b.columnHints = []) :
    a.analyze b = ⟨(Scope.Entry.ofTable a.overrides t).columns.map .ofScope, [], []⟩ := by
  obtain ⟨hthere, hentries⟩ :=
    Grammar.Joins.entries_scope_ofName (p := b.position) a.overrides ht
  have htokens := Grammar.Joins.tokenizeAt_starFrom name b.position
  rw [← hsql] at htokens
  have hquery : b.query = Query.ofTokens b.sql (Grammar.Joins.ofName name b.position).tokens := by
    rw [Query.parse, htokens] at hparse
    exact (Except.ok.inj hparse).symm
  have hresolve := hthere.resolve_eq hcatalog hquery hhints
  rw [hentries] at hresolve
  unfold analyze
  rw [htokens]
  simp only [hresolve]
  show (⟨_ ++ [], [], _⟩ : Analysis) = _
  rw [List.append_nil]
  rfl

namespace View

/-- The table of a view has the columns of its query, with their types. -/
theorem columns_ofTable_toTable {v : View} {columns : List ResultColumn}
    (hnames : (columns.map fun d => lowerCase d.name).Nodup)
    (htypes : ∀ d ∈ columns, ∀ t, d.type.type? = some t → t.isList = false) :
    (Scope.Entry.ofTable .empty (v.toTable columns)).columns.map ResultColumn.ofScope =
      columns.map fun d => { d with relation := v.name } := by
  have hpush : (Scope.Entry.ofTable .empty (v.toTable columns)).columns =
      columns.map fun d => ⟨d.name, v.name, d.type⟩ := by
    have hdistinct : firstsBy (fun d => (tableColumn d).name) columns = columns :=
      firstsBy_eq_self_iff.mpr hnames
    unfold Scope.Entry.ofTable
    rw [Scope.Entry.columns_pushAll_bare, toTable, List.map_map, firstsBy_map, List.map_map]
    show (firstsBy (fun d => (tableColumn d).name) columns).map _ = _
    rw [hdistinct]
    refine List.map_congr_left fun d hd => ?_
    have hgiven (key : String) : OrderedMap.get? (.empty : ColumnOverrides) key = none := rfl
    simp only [Function.comp_apply, hgiven, Option.getD_none,
      columnType_tableColumn (htypes d hd)]
    rfl
  rw [hpush, List.map_map]
  rfl

/-- A star over a view gives the columns of its query, with the types that were inferred for them:
without a note, and whatever views are declared after it.  Tables and views stand under their names
in every catalog that schema files make (`Schema.keyed_ofFiles`). -/
theorem analyze_star {c : Catalog} {v : View} {before after : List View}
    {columns : List ResultColumn} {b : Block} (hkeyed : c.Keyed)
    (hviews : c.views.values = before ++ v :: after)
    (hcolumns : v.outputs (c.withViews before) = some columns)
    (hnames : (columns.map fun d => lowerCase d.name).Nodup)
    (htypes : ∀ d ∈ columns, ∀ t, d.type.type? = some t → t.isList = false)
    (hsql : b.sql = starFrom v.name) (hparse : Query.parse b.sql b.position = .ok b.query)
    (hhints : b.columnHints = []) :
    let star (c : Catalog) := Analyzer.analyze ⟨some (resolveViews c).1, .empty⟩ b
    (star c).columns = columns.map (fun d => { d with relation := v.name }) ∧
      (star c).diagnostics = [] ∧
      ∀ (c' : Catalog) (after' : List View), c'.Keyed → c'.tables = c.tables →
        c'.views.values = before ++ v :: after' → star c' = star c := by
  -- Every catalog with the same tables and the same views before this one gives the same.
  have hstar (c' : Catalog) (after' : List View) (hkeyed' : c'.Keyed)
      (htables : c'.tables = c.tables) (hviews' : c'.views.values = before ++ v :: after') :
      Analyzer.analyze ⟨some (resolveViews c').1, .empty⟩ b =
        ⟨columns.map fun d => { d with relation := v.name }, [], []⟩ := by
    have hcolumns' : v.outputs (c'.withViews before) = some columns := by
      rw [outputs_congr (Catalog.tables_withViews_congr htables before), hcolumns]
    have hthere : (resolveViews c').1.named? v.name = some (v.toTable columns) := by
      rw [Catalog.named?_eq, Catalog.table?_resolveViews hkeyed' hviews' hcolumns']
      rw [Catalog.fst_resolveViews]
      exact Catalog.keyedBy_withViews hkeyed'.tables _
    rw [Analyzer.analyze_starFrom rfl hthere hsql hparse hhints,
      columns_ofTable_toTable hnames htypes]
  have hthis := hstar c after hkeyed rfl hviews
  refine ⟨?_, ?_, ?_⟩
  · exact congrArg Analysis.columns hthis
  · exact congrArg Analysis.diagnostics hthis
  · intro c' after' hkeyed' htables hviews'
    exact (hstar c' after' hkeyed' htables hviews').trans hthis.symm

/-- A view with a quote in its name and a column list over an earlier view: the type of its second
column is not known, and stays so. -/
theorem analyze_star_of_renamed :
    let posts : Table :=
      { Table.bare "posts" with
        columns := [(Column.plain "id" "INTEGER").withNotNull, .plain "body" "TEXT"] }
    let recent : View := ⟨"recent", none, "SELECT body, id FROM posts", "s.sql", .first⟩
    let odd : View := ⟨"o\"dd", some ["text", "score", "key"],
      "SELECT body, rank(id), id FROM recent", "s.sql", .first⟩
    let c := ((Catalog.empty.addTable posts).addView recent).addView odd
    let b : Block := .plain "SELECT * FROM \"o\"\"dd\""
    (Analyzer.analyze ⟨some (resolveViews c).1, .empty⟩ b).columns =
      [⟨"text", "o\"dd", .resolved .string true⟩, ⟨"score", "o\"dd", .unresolved⟩,
        ⟨"key", "o\"dd", .resolved .int64 false⟩] := by
  intro posts recent odd c b
  have hkeyed : c.Keyed := ((Catalog.keyed_empty.addTable posts).addView recent).addView odd
  have houtputs : odd.outputs (c.withViews [recent]) =
      some [⟨"text", "recent", .resolved .string true⟩, ⟨"score", "", .unresolved⟩,
        ⟨"key", "recent", .resolved .int64 false⟩] := by
    decide +kernel
  have hviews : c.views.values = [recent] ++ odd :: [] := by decide +kernel
  have hsql : b.sql = starFrom odd.name := by decide +kernel
  have hparse : Query.parse b.sql b.position = .ok b.query := by decide +kernel
  exact (analyze_star hkeyed hviews houtputs (by decide +kernel) (by decide +kernel) hsql hparse
    rfl).1

end View

end TypedSql

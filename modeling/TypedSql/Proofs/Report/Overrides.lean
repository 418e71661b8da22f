import TypedSql.Project.Basic
import TypedSql.Proofs.Reference.OneColumn
import TypedSql.Proofs.Report.CommonTable
import TypedSql.Proofs.Report.Views

/-!
# Types given from outside, and views

A type that is given for a column of a table is the type of that column in every statement over the
table.  Views are typed when the schema is loaded, from the declared types alone, so through a view
the column keeps its declared type; only a type that is given for the column of the view itself
takes its place.

Main statement: `Project.columns_through_view`.
-/

namespace TypedSql

open Diagnostic Query Text Token

/-- The type that is given for a column of a relation, or else the declared one. -/
def ColumnOverrides.typeOf (overrides : ColumnOverrides) (relation : String) (d : Column) :
    TypeInfo :=
  (overrides.get? (key relation d.name)).getD (Affinity.columnType d.declaration d.notNull)

theorem ColumnOverrides.typeOf_empty (relation : String) (d : Column) :
    typeOf .empty relation d = Affinity.columnType d.declaration d.notNull := by
  have hnone (key : String) : OrderedMap.get? (.empty : ColumnOverrides) key = none := rfl
  rw [typeOf, hnone, Option.getD_none]

/-! ## One column of a table -/

namespace Grammar.OneColumn

/-- The block holds the statement and no annotation of a column. -/
structure WrittenIn (q : OneColumn) (b : Block) : Prop where
  tokens : tokenizeAt b.sql b.position = .ok q.tokens
  query : Query.parse b.sql b.position = .ok b.query
  hints : b.columnHints = []

variable (q : OneColumn)

/-- The statement sees its relation, and nothing else. -/
theorem narrow_eq {base : Scope} {e : Scope.Entry}
    (hentry : base.entry? q.relation.value = some e) :
    base.narrow q.tokens = Scope.empty.addEntry e := by
  have hname : (q.listed.reference 3).name = q.relation.value := rfl
  have hscope : base.narrow q.tokens = base.addReference .empty (q.listed.reference 3) := by
    rw [Scope.narrow, q.references_eq]
    rfl
  rw [hscope, Scope.addReference_empty rfl (hname ▸ hentry)]
  rfl

/-- The item is the column of that name in the one relation. -/
theorem value_item {base : Scope} {e : Scope.Entry} {d : Scope.Column}
    (hentry : base.entry? q.relation.value = some e)
    (hcolumn : e.column? q.column.value = some d) :
    (resolveProjection .query (base.narrow q.tokens) [q.item]).value = [.ofScope d] := by
  have hinferred : inferColumn .query (Scope.empty.addEntry e) none q.column.value
      q.column.position = Pure.pure ⟨d.type, d.relation, some d.name, none⟩ := by
    rw [inferColumn, Scope.lookup_addEntry_empty, hcolumn]
  have hitem : (resolveItem .query (Scope.empty.addEntry e) (0 + 1) q.item).value =
      [.ofScope d] := by
    rw [resolveItem, item, Noted.value_bind, hinferred]
    rfl
  rw [q.narrow_eq hentry, resolveProjection, resolveItems, Noted.value_bind, hitem]
  rfl

end Grammar.OneColumn

/-- A statement over a table gives the column under its name in the table, with the type that is
given for it or else the declared one. -/
theorem Analyzer.columns_of_oneColumn {a : Analyzer} {c : Catalog} {t : Table} {d : Column}
    {b : Block} {q : Grammar.OneColumn} (hcatalog : a.catalog = some c)
    (ht : c.named? q.relation.value = some t) (hd : t.column? q.column.value = some d)
    (hb : q.WrittenIn b) :
    (a.analyze b).columns = [⟨d.name, t.name, a.overrides.typeOf t.name d⟩] := by
  have hparsed : b.query = Query.ofTokens b.sql q.tokens :=
    Likeness.eq_ofTokens_of_parse hb.query hb.tokens
  have hitems : b.query.items = [q.item] := by
    rw [hparsed, Grammar.OneColumn.tokens, ofTokens_select q.select_isWord]
    exact q.items_eq b.sql
  have hentry : Scope.entry? (Scope.ofCatalog a.overrides c) q.relation.value =
      some (.ofTable a.overrides t) := by
    rw [Scope.entry_ofCatalog, ht]
    rfl
  have hcolumn : (Scope.Entry.ofTable a.overrides t).column? q.column.value =
      some ⟨d.name, t.name, a.overrides.typeOf t.name d⟩ := by
    rw [Scope.Entry.column?_ofTable, hd]
    rfl
  have hfirst : firstArm (q.select :: [q.column, q.source, q.relation]) = q.tokens :=
    q.firstArm_eq
  rw [columns_of_select hcatalog hb.tokens q.select_isWord hparsed, hfirst, hitems,
    q.value_item hentry hcolumn, hb.hints]
  rfl

/-! ## One column of a view -/

/-- The type of a declaration is no list. -/
theorem Affinity.isList_of_columnType {declaration : String} {notNull : Bool} {t : ValueType}
    (h : (columnType declaration notNull).type? = some t) : t.isList = false := by
  have hrules : ∀ rule ∈ rules, rule.2.isList = false := by decide
  have hresolve : resolve? declaration = some t := by
    unfold columnType at h
    cases hfound : resolve? declaration with
    | none =>
        rw [hfound] at h
        cases h
    | some found =>
        rw [hfound] at h
        exact h
  obtain ⟨rule, hrule, rfl⟩ := Option.map_eq_some_iff.mp hresolve
  exact hrules rule (List.mem_of_find?_eq_some hrule)

namespace View

/-- The name of the only column of a view whose query names it so. -/
def onlyName (v : View) (name : String) : String :=
  match v.columns with
  | some [listed] => listed
  | _ => name

theorem applyNames_singleton (v : View) (column : ResultColumn) :
    (v.applyNames [column]).1 = [{ column with name := v.onlyName column.name }] := by
  unfold applyNames onlyName
  split
  · next h => rw [h]
  · next names h =>
      rw [h]
      match names with
      | [] => rfl
      | [listed] => rfl
      | first :: second :: rest => rfl

variable {c : Catalog} {v : View} {t : Table} {d : Column} {q : Grammar.OneColumn}

/-- The column of a view whose query gives this column of a table. -/
def ofColumn (v : View) (t : Table) (d : Column) : ResultColumn :=
  ⟨v.onlyName d.name, t.name, Affinity.columnType d.declaration d.notNull⟩

theorem type_ofColumn (v : View) (t : Table) (d : Column) :
    (v.ofColumn t d).type = Affinity.columnType d.declaration d.notNull := by
  rw [ofColumn]

/-- A view over one column of a table has that column, with its declared type. -/
theorem outputs_of_oneColumn (ht : c.named? q.relation.value = some t)
    (hd : t.column? q.column.value = some d)
    (htokens : tokenizeAt v.sql v.position = .ok q.tokens) :
    v.outputs c = some [v.ofColumn t d] := by
  have hparse : Query.parse v.sql v.position = .ok (Query.ofTokens v.sql q.tokens) := by
    rw [Query.parse, htokens]
    rfl
  have hcolumns := Analyzer.columns_of_oneColumn (a := ⟨some c, .empty⟩)
    (b := v.toBlock (Query.ofTokens v.sql q.tokens)) rfl ht hd ⟨htokens, hparse, rfl⟩
  unfold outputs
  rw [hparse]
  simp only [hcolumns, applyNames_singleton, ColumnOverrides.typeOf_empty, ofColumn]

/-- The table of such a view declares the type that the column has in the table. -/
theorem columnType_ofColumn (v : View) (t : Table) (d : Column) :
    Affinity.columnType (tableColumn (v.ofColumn t d)).declaration
      (tableColumn (v.ofColumn t d)).notNull = Affinity.columnType d.declaration d.notNull := by
  rw [columnType_tableColumn, type_ofColumn]
  rw [type_ofColumn]
  exact fun _ hx => Affinity.isList_of_columnType hx

end View

/-! ## The statement -/

namespace Catalog

variable {c : Catalog} {t : Table} {name : String}

/-- A table whose name no view has stays where it is. -/
theorem named?_withViews_of_apart (hkeyed : c.Keyed) (hapart : c.hasView t.name = false)
    (ht : c.table? name = some t) {views : List View} (hviews : ∀ v ∈ views, v ∈ c.views.values) :
    (c.withViews views).named? name = some t := by
  have hname : lowerCase t.name = lowerCase name := hkeyed.tables _ _ ht
  rw [named?_eq (keyedBy_withViews hkeyed.tables views), table?_withViews_of_ne, ht]
  intro v hv heq
  rw [hasView, List.any_eq_false] at hapart
  exact hapart v (hviews v hv) (eqIgnoreCase_iff.mpr (heq.trans hname.symm))

end Catalog

/-- After the schema files are loaded, a statement over a column of a table gives the type that the
project has for the column, or else the declared type.  A statement over a view of that column gives
the type that the project has for the column of the view, or else the type that is declared in the
table: what the project has for the column of the table does not come through. -/
theorem Project.columns_through_view (p : Project) (files : List (String × String)) {t : Table}
    {d : Column} {v : View} {body q q' : Grammar.OneColumn} {b b' : Block}
    (hapart : (Schema.ofFiles files).1.hasView t.name = false)
    (htable : (Schema.ofFiles files).1.table? q.relation.value = some t)
    (hcolumn : t.column? q.column.value = some d)
    (hview : (Schema.ofFiles files).1.view? q'.relation.value = some v)
    (hcolumn' : eqIgnoreCase (v.onlyName d.name) q'.column.value = true)
    (hbody : tokenizeAt v.sql v.position = .ok body.tokens)
    (htable' : (Schema.ofFiles files).1.table? body.relation.value = some t)
    (hsame : t.column? body.column.value = some d) (hb : q.WrittenIn b) (hb' : q'.WrittenIn b') :
    let analyze := (p.loadSchema files).analyzer.analyze
    (analyze b).columns = [⟨d.name, t.name, p.overrides.typeOf t.name d⟩] ∧
      (analyze b').columns = [⟨v.onlyName d.name, v.name,
        p.overrides.typeOf v.name { d with name := v.onlyName d.name }⟩] := by
  intro analyze
  have hkeyed := Schema.keyed_ofFiles files
  generalize hcatalog : (Schema.ofFiles files).1 = c at *
  have hanalyze : analyze = Analyzer.analyze ⟨some (resolveViews c).1, p.overrides⟩ := by
    rw [← hcatalog]
    rfl
  have hmem : v ∈ c.views.values := OrderedMap.mem_values_iff.mpr ⟨_, hview⟩
  obtain ⟨before, after, hsplit⟩ := List.append_of_mem hmem
  rw [hanalyze]
  constructor
  · have hthere : (resolveViews c).1.named? q.relation.value = some t := by
      rw [Catalog.fst_resolveViews]
      exact Catalog.named?_withViews_of_apart hkeyed hapart htable fun _ hw => hw
    exact Analyzer.columns_of_oneColumn rfl hthere hcolumn hb
  · -- The view is typed on the table as the files declare it.
    have houtputs : v.outputs (c.withViews before) = some [v.ofColumn t d] := by
      refine View.outputs_of_oneColumn ?_ hsame hbody
      refine Catalog.named?_withViews_of_apart hkeyed hapart htable' fun w hw => ?_
      rw [hsplit]
      exact List.mem_append_left _ hw
    have hthere : (resolveViews c).1.named? q'.relation.value =
        some (v.toTable [v.ofColumn t d]) := by
      have hname : lowerCase v.name = lowerCase q'.relation.value := hkeyed.views _ _ hview
      rw [Catalog.named?_eq, Catalog.table?, ← hname]
      · exact Catalog.table?_resolveViews hkeyed hsplit houtputs
      · rw [Catalog.fst_resolveViews]
        exact Catalog.keyedBy_withViews hkeyed.tables _
    have hfound : (v.toTable [v.ofColumn t d]).column? q'.column.value =
        some (View.tableColumn (v.ofColumn t d)) := List.find?_cons_of_pos hcolumn'
    rw [Analyzer.columns_of_oneColumn rfl hthere hfound hb', ColumnOverrides.typeOf,
      View.columnType_ofColumn]
    rfl

/-- The statement over bare words that begins at byte `o` and at this position. -/
def Grammar.OneColumn.ofWords (column relation : String) (o : Nat) (p : Position)
    (hcolumn : isKeyword column = false) (hrelation : isKeyword relation = false) :
    Grammar.OneColumn where
  select := ⟨.keyword, "SELECT", ⟨o, o + 6⟩, p⟩
  column := ⟨.identifier, column, ⟨o + 7, o + 7 + column.utf8ByteSize⟩,
    p.after "SELECT ".toList⟩
  source := ⟨.keyword, "FROM", ⟨o + 8 + column.utf8ByteSize, o + 12 + column.utf8ByteSize⟩,
    p.after ("SELECT ".toList ++ column.toList ++ " ".toList)⟩
  relation := ⟨.identifier, relation,
    ⟨o + 13 + column.utf8ByteSize, o + 13 + column.utf8ByteSize + relation.utf8ByteSize⟩,
    p.after ("SELECT ".toList ++ column.toList ++ " FROM ".toList)⟩
  hselect := .of_text rfl
  hcolumn := .inl ⟨rfl, hcolumn⟩
  hsource := .of_text rfl
  hrelation := .inl ⟨rfl, hrelation⟩

/-- Types are given for a column of a table and for the column of a view of it: each statement sees
its own. -/
theorem Project.columns_through_view_of_prices :
    let files := [("s.sql", "CREATE TABLE items (price INTEGER NOT NULL);
      CREATE VIEW cheap (amount) AS SELECT price FROM items;")]
    let p := Project.bare ((OrderedMap.empty.insert (ColumnOverrides.key "items" "price")
      (.resolved .float64 false)).insert (ColumnOverrides.key "cheap" "amount")
        (.resolved .string true))
    let analyze := (p.loadSchema files).analyzer.analyze
    (analyze (.plain "SELECT price FROM items")).columns =
        [⟨"price", "items", .resolved .float64 false⟩] ∧
      (analyze (.plain "SELECT amount FROM cheap")).columns =
        [⟨"amount", "cheap", .resolved .string true⟩] := by
  intro files p analyze
  let items : Table := { Table.bare "items" with
    columns := [(Column.plain "price" "INTEGER").withNotNull] }
  let cheap : View := ⟨"cheap", some ["amount"], "SELECT price FROM items", "s.sql", ⟨2, 37⟩⟩
  let q := Grammar.OneColumn.ofWords "price" "items" 0 .first (by decide) (by decide)
  let q' := Grammar.OneColumn.ofWords "amount" "cheap" 0 .first (by decide) (by decide)
  let body := Grammar.OneColumn.ofWords "price" "items" 0 ⟨2, 37⟩ (by decide) (by decide)
  have htokens : tokenizeAt "SELECT price FROM items" .first = .ok q.tokens := by
    rw [tokenizeAt_ofList]
    decide +kernel
  have htokens' : tokenizeAt "SELECT amount FROM cheap" .first = .ok q'.tokens := by
    rw [tokenizeAt_ofList]
    decide +kernel
  have hq : q.WrittenIn (.plain "SELECT price FROM items") :=
    ⟨htokens, (Block.parse_plain htokens).1, rfl⟩
  have hq' : q'.WrittenIn (.plain "SELECT amount FROM cheap") :=
    ⟨htokens', (Block.parse_plain htokens').1, rfl⟩
  have hcatalog : (Schema.ofFiles files).1 = (Catalog.empty.addTable items).addView cheap := by
    rw [Schema.ofFiles_singleton, Schema.applyFile_ofList]
    decide +kernel
  have hapart : (Schema.ofFiles files).1.hasView items.name = false := by
    rw [hcatalog]
    decide
  have htable : (Schema.ofFiles files).1.table? "items" = some items := by
    rw [hcatalog]
    decide
  have hview : (Schema.ofFiles files).1.view? "cheap" = some cheap := by
    rw [hcatalog]
    decide
  have hcolumn : items.column? "price" = some (Column.plain "price" "INTEGER").withNotNull := by
    decide
  have hcolumn' : eqIgnoreCase (cheap.onlyName "price") "amount" = true := by decide
  have hbody : tokenizeAt cheap.sql cheap.position = .ok body.tokens := by
    rw [tokenizeAt_ofList]
    decide +kernel
  have hfound := @columns_through_view p files items _ cheap body q q' _ _ hapart htable hcolumn
    hview hcolumn' hbody htable hcolumn hq hq'
  exact ⟨hfound.1.trans (by decide +kernel), hfound.2.trans (by decide +kernel)⟩

/-- Through a view the column has its declared type, not the one that is given for it. -/
theorem Project.declared_through_view :
    let p := (Project.bare (OrderedMap.empty.insert (ColumnOverrides.key "t" "c")
      (.resolved .string false))).loadSchema
        [("s.sql", "CREATE TABLE t (c INTEGER);\nCREATE VIEW v AS SELECT c FROM t;")]
    (p.analyzer.analyze (.plain "SELECT c FROM t")).columns.map (·.type) =
        [.resolved .string false] ∧
      (p.analyzer.analyze (.plain "SELECT c FROM v")).columns.map (·.type) =
        [.resolved .int64 true] := by
  intro p
  rw [Analyzer.analyze_plain_ofList, Analyzer.analyze_plain_ofList]
  revert p
  decide +kernel

end TypedSql

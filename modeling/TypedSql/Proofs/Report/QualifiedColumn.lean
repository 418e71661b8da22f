import TypedSql.Proofs.Report.Overrides

/-!
# A column behind an alias

In `SELECT "a"."c" FROM "t" AS "a"` every name stands in quotes, so it can be any text: one with
quotes, dots or line feeds, a keyword, or nothing.  The statement gives the column of the table
under the name that it is declared with, with the type that is given for it from outside or else
the declared one, and without a note.

Main definitions: `Grammar.QualifiedColumn`, `selectColumn`.  Main statement:
`Analyzer.analyze_selectColumn`.
-/

namespace TypedSql

open Diagnostic Query Text Token

/-- Where no two columns have the same name, the name of a column leads to it. -/
theorem Table.column?_of_mem {t : Table} {d : Column}
    (h : (t.columns.map fun d => lowerCase d.name).Nodup) (hd : d ∈ t.columns) :
    t.column? d.name = some d := by
  have hsome : (t.column? d.name).isSome := by
    rw [column?, List.find?_isSome]
    exact ⟨d, hd, eqIgnoreCase_iff.mpr rfl⟩
  obtain ⟨e, he⟩ := Option.isSome_iff_exists.mp hsome
  have hname : lowerCase e.name = lowerCase d.name := eqIgnoreCase_iff.mp (List.find?_some he :)
  rw [he, List.inj_on_of_nodup_map h (List.mem_of_find?_eq_some he) hd hname]

namespace Grammar

/-- A statement `SELECT a.c FROM t AS a` with its names in quotes. -/
structure QualifiedColumn where
  select : Token
  qualifier : Token
  dot : Token
  column : Token
  source : Token
  table : Token
  asWord : Token
  aliasName : Token
  hselect : select.IsKeyword "SELECT"
  hqualifier : qualifier.kind = .quotedIdentifier
  hdot : dot.Is .dot "."
  hcolumn : column.kind = .quotedIdentifier
  hsource : source.IsKeyword "FROM"
  htable : table.kind = .quotedIdentifier
  hasWord : asWord.IsKeyword "AS"
  halias : aliasName.kind = .quotedIdentifier

namespace QualifiedColumn

variable (q : QualifiedColumn)

/-- The tokens of the statement. -/
def tokens : List Token :=
  [q.select, q.qualifier, q.dot, q.column, q.source, q.table, q.asWord, q.aliasName]

/-- The one item of the statement. -/
def item : Item :=
  ⟨.column (some q.qualifier.value) q.column.value, none, q.qualifier.position⟩

theorem writes : Writes .expression [q.qualifier, q.dot, q.column] [⟨q.qualifier, q.column⟩] :=
  .operand (.reference q.hqualifier q.hdot q.hcolumn)

/-- The statement as one over a table, with nothing behind the relation. -/
def oneTable : OneTable where
  select := q.select
  items := [q.qualifier, q.dot, q.column]
  source := q.source
  table := q.table
  asWord := q.asWord
  aliasName := q.aliasName
  tail := []
  itemRefs := [⟨q.qualifier, q.column⟩]
  tailRefs := []
  hselect := q.hselect
  hsource := q.hsource
  htable := q.htable
  hasWord := q.hasWord
  halias := q.halias
  hfirst := by
    have hquantifier : q.qualifier.isAnyWord ["DISTINCT", "ALL"] = false :=
      q.writes.first_isAnyWord (by decide) q.qualifier rfl
    exact ⟨q.qualifier, _, rfl, hquantifier, q.writes.first_ne_dot q.qualifier rfl⟩
  hlast := ⟨q.column, rfl, q.hcolumn⟩
  hitems := q.writes.framed
  htail := .nil
  hend := nofun
  hitemRefs s := q.writes.passes s 1 0 (.some (quiet_of_keyword q.hselect (by decide)))
  htailRefs _ i := .nil i 0

theorem readProjection_eq (sql : String) :
    readProjection sql [q.qualifier, q.dot, q.column] = [q.item] := by
  have hdot : q.dot.isWord "AS" = false := by
    rw [isWord, q.hdot.1]
    rfl
  have hbefore : canPrecedeAlias q.dot = false := by
    rw [canPrecedeAlias, q.hdot.1]
  have hsplit : splitAlias [q.qualifier, q.dot, q.column] =
      ([q.qualifier, q.dot, q.column], none) := by
    show (if q.dot.isWord "AS" = true then _
      else if (q.column.isIdentifier && canPrecedeAlias q.dot) = true then _ else _) = _
    rw [hdot, hbefore, Bool.and_false]
    rfl
  have hshape : Shape.ofTokens sql [q.qualifier, q.dot, q.column] =
      .column (some q.qualifier.value) q.column.value := by
    have hstar : (q.column.kind == .star) = false := by
      rw [q.hcolumn]
      rfl
    simp only [Shape.ofTokens, isName_of_quoted q.hqualifier, isName_of_quoted q.hcolumn, q.hdot.1,
      hstar, Bool.and_false, Bool.false_eq_true, if_false]
    rfl
  have hpieces : commaPieces [q.qualifier, q.dot, q.column] =
      [[q.qualifier, q.dot, q.column]] := by
    have hnone : Outside NoComma [q.qualifier, q.dot, q.column] := q.writes.noComma (by simp)
    exact hnone.commaPieces_eq (List.cons_ne_nil _ _)
  rw [readProjection, hpieces, List.map_singleton, Item.ofTokens, hsplit]
  simp only [hshape]
  rfl

/-- The statement is a `SELECT` with one item and without parameters. -/
theorem query (sql : String) :
    Query.ofTokens sql q.tokens = ⟨.select, [q.item], [], [], false⟩ := by
  have hnone : ∀ t ∈ q.tokens, t.kind ≠ .parameter ∧ t.kind ≠ .leftParen := by
    intro t ht
    have hkind : t.kind ∈ [Kind.keyword, .quotedIdentifier, .dot] := by
      simp only [tokens, List.mem_cons, List.not_mem_nil, or_false] at ht
      rcases ht with rfl | rfl | rfl | rfl | rfl | rfl | rfl | rfl
      · rw [q.hselect.1]; decide
      · rw [q.hqualifier]; decide
      · rw [q.hdot.1]; decide
      · rw [q.hcolumn]; decide
      · rw [q.hsource.1]; decide
      · rw [q.htable]; decide
      · rw [q.hasWord.1]; decide
      · rw [q.halias]; decide
    constructor <;> intro h <;> rw [h] at hkind <;> exact absurd hkind (by decide)
  have hparams : readParams q.tokens = [] := by
    rw [readParams, paramPlaces_eq_nil hnone]
    rfl
  have hquery := q.oneTable.query sql
  rw [show readProjection sql q.oneTable.items = [q.item] from q.readProjection_eq sql,
    show readParams q.oneTable.tokens = [] from hparams] at hquery
  exact hquery

/-! ## The scope and the items -/

variable {q} {overrides : ColumnOverrides} {c : Catalog} {t : Table} {d : Column}

/-- What the statement sees. -/
def scope (q : QualifiedColumn) (overrides : ColumnOverrides) (c : Catalog) : Scope :=
  (Scope.ofCatalog overrides c).narrow q.tokens

theorem scope_eq (q : QualifiedColumn) (overrides : ColumnOverrides) (c : Catalog) :
    q.scope overrides c =
      (Scope.ofCatalog overrides c).addReference .empty q.oneTable.reference := by
  have hreferences : RelationRef.ofTokens q.tokens = [q.oneTable.reference] :=
    q.oneTable.references
  rw [scope, Scope.narrow, hreferences]
  rfl

theorem entry_table (ht : c.named? q.table.value = some t) :
    Scope.entry? (Scope.ofCatalog overrides c) q.oneTable.reference.name =
      some (Scope.Entry.ofTable overrides t) := by
  show Scope.entry? (Scope.ofCatalog overrides c) q.table.value = _
  rw [Scope.entry_ofCatalog, ht]
  rfl

/-- Behind the alias the name is the column of the table. -/
theorem lookup_eq (ht : c.named? q.table.value = some t) (hd : t.column? q.column.value = some d)
    (has : q.qualifier.value = q.aliasName.value) :
    (q.scope overrides c).lookup (some q.qualifier.value) q.column.value =
      .ok ⟨d.name, t.name, overrides.typeOf t.name d⟩ := by
  have hname : eqIgnoreCase (Scope.Entry.ofTable overrides t).name q.oneTable.reference.name =
      true := by
    rw [Scope.Entry.name_ofTable]
    exact Catalog.name_of_named? ht
  have hlookup := Scope.lookupIn_addReference (r := q.oneTable.reference) rfl (entry_table ht) hname
    rfl q.qualifier.value q.column.value
  have hself : eqIgnoreCase q.qualifier.value q.oneTable.aliasName.value = true :=
    eqIgnoreCase_iff.mpr (congrArg lowerCase has)
  rw [hself, Bool.or_true, if_pos rfl, Scope.Entry.column?_ofTable, hd] at hlookup
  rw [Scope.lookup, scope_eq, hlookup]
  rfl

/-- The statement gives the column and notes nothing. -/
theorem resolve_eq {a : Analyzer} {b : Block} (hcatalog : a.catalog = some c)
    (hquery : b.query = Query.ofTokens b.sql q.tokens) (hhints : b.columnHints = [])
    (ht : c.named? q.table.value = some t) (hd : t.column? q.column.value = some d)
    (has : q.qualifier.value = q.aliasName.value) :
    a.resolve b q.tokens = Pure.pure ([⟨d.name, t.name, a.overrides.typeOf t.name d⟩], []) := by
  have hlookup : (q.scope a.overrides c).lookup (some q.qualifier.value) q.column.value = _ :=
    lookup_eq ht hd has
  have hmissing : (q.scope a.overrides c).missing = [] := by
    rw [scope_eq]
    exact Scope.missing_addReference_empty rfl (entry_table ht)
  have hvalidate (known : List String) :
      Identifier.validate (q.scope a.overrides c) known q.tokens = Pure.pure () := by
    have hnotes := q.oneTable.validate_notes (q.scope a.overrides c) known
    have hnone : (ColumnRef.notes (q.scope a.overrides c) ⟨q.qualifier, q.column⟩) = [] := by
      rw [ColumnRef.notes, Identifier.check, hlookup]
      rfl
    have hrefs : q.oneTable.refs.flatMap (ColumnRef.notes (q.scope a.overrides c)) = [] := by
      show ColumnRef.notes (q.scope a.overrides c) ⟨q.qualifier, q.column⟩ ++ [] = []
      rw [hnone]
      rfl
    rw [hrefs] at hnotes
    exact congrArg (Noted.mk ()) hnotes
  have hitems : resolveProjection .query (q.scope a.overrides c) [q.item] =
      Pure.pure [⟨d.name, t.name, a.overrides.typeOf t.name d⟩] := by
    have hinferred : inferColumn .query (q.scope a.overrides c) (some q.qualifier.value)
        q.column.value q.qualifier.position =
          Pure.pure ⟨a.overrides.typeOf t.name d, t.name, some d.name, none⟩ := by
      rw [inferColumn, hlookup]
    have hitem : resolveItem .query (q.scope a.overrides c) (0 + 1) q.item =
        Pure.pure [⟨d.name, t.name, a.overrides.typeOf t.name d⟩] := by
      show (inferColumn .query (q.scope a.overrides c) (some q.qualifier.value) q.column.value
        q.qualifier.position >>= _) = _
      rw [hinferred]
      rfl
    rw [resolveProjection, resolveItems, hitem]
    rfl
  exact Analyzer.resolve_of_segment hcatalog (hquery.trans (q.query b.sql)) (q.oneTable.split _)
    hmissing hvalidate hitems hhints

end QualifiedColumn

end Grammar

/-! ## The statement -/

/-- The statement that selects the column of the table behind the alias, each name in quotes. -/
def selectColumn (asName column table : String) : String :=
  "SELECT " ++ quoteName asName ++ "." ++ quoteName column ++ " FROM " ++ quoteName table ++
    " AS " ++ quoteName asName

/-- Whatever the names are, the statement is read as its words. -/
theorem readsAs_selectColumn (asName column table : String) :
    ReadsAs (selectColumn asName column table).toList
      [(.keyword, "SELECT"), (.quotedIdentifier, quoteName asName), (.dot, "."),
        (.quotedIdentifier, quoteName column), (.keyword, "FROM"),
        (.quotedIdentifier, quoteName table), (.keyword, "AS"),
        (.quotedIdentifier, quoteName asName)] := by
  have htext : (selectColumn asName column table).toList = "SELECT".toList ++ ' ' ::
      (quoted asName ++ (['.'] ++ (quoted column ++ ' ' :: ("FROM".toList ++ ' ' ::
        (quoted table ++ ' ' :: ("AS".toList ++ ' ' :: (quoted asName ++ []))))))) := by
    delta selectColumn quoteName
    simp only [String.toList_append, String.toList_ofList, List.append_assoc, List.append_nil]
    rfl
  have hspace {cs : List Char} : (' ' :: cs).head? ≠ some '"' := by simp
  -- From the end of the statement to its beginning.
  have hAs := ReadsAs.spaced "AS" (by decide) rfl rfl (.quoted asName (by simp) .nil)
  have hFrom := ReadsAs.spaced "FROM" (by decide) rfl rfl
    (.quoted table hspace (.space rfl hAs))
  have hdot : ReadsAs (['.'] ++ (quoted column ++ ' ' :: _)) _ :=
    .bare rfl (notOpen_cons (by decide) _) rfl (.quoted column hspace (.space rfl hFrom))
  have hselect := ReadsAs.spaced "SELECT" (by decide) rfl rfl (.quoted asName (by simp) hdot)
  rw [htext]
  exact hselect

/-- The statement is one behind an alias, and its names are read as themselves. -/
theorem exists_tokens_selectColumn (asName column table : String) (p : Position) :
    ∃ q : Grammar.QualifiedColumn, tokenizeAt (selectColumn asName column table) p = .ok q.tokens ∧
      q.qualifier.value = asName ∧ q.column.value = column ∧ q.table.value = table ∧
      q.aliasName.value = asName := by
  obtain ⟨ts, hreads, hwords⟩ := readsAs_selectColumn asName column table 0 p
  obtain ⟨select, _, rfl, hselect, hwords⟩ := List.map_eq_cons_iff.mp hwords
  obtain ⟨qualifier, _, rfl, hqualifier, hwords⟩ := List.map_eq_cons_iff.mp hwords
  obtain ⟨dot, _, rfl, hdot, hwords⟩ := List.map_eq_cons_iff.mp hwords
  obtain ⟨column', _, rfl, hcolumn, hwords⟩ := List.map_eq_cons_iff.mp hwords
  obtain ⟨source, _, rfl, hsource, hwords⟩ := List.map_eq_cons_iff.mp hwords
  obtain ⟨table', _, rfl, htable, hwords⟩ := List.map_eq_cons_iff.mp hwords
  obtain ⟨asWord, _, rfl, hasWord, hwords⟩ := List.map_eq_cons_iff.mp hwords
  obtain ⟨aliasName, _, rfl, halias, hwords⟩ := List.map_eq_cons_iff.mp hwords
  cases List.map_eq_nil_iff.mp hwords
  exact ⟨⟨select, qualifier, dot, column', source, table', asWord, aliasName, .of_word hselect,
    (quoted_of_word hqualifier).1, ⟨congrArg Prod.fst hdot, congrArg Prod.snd hdot⟩,
    (quoted_of_word hcolumn).1, .of_word hsource, (quoted_of_word htable).1, .of_word hasWord,
    (quoted_of_word halias).1⟩, tokenizeAt_eq_ok_iff.mpr hreads, (quoted_of_word hqualifier).2,
    (quoted_of_word hcolumn).2, (quoted_of_word htable).2, (quoted_of_word halias).2⟩

/-- The statement for a column of a table of the catalog gives this column alone, named as it is
declared and owned by its table, and reports nothing.  Its type is the one that is given for it
from outside, or else the declared one.  No name is left out, be it a keyword, empty, or one with
quotes, dots or line feeds in it. -/
theorem Analyzer.analyze_selectColumn {a : Analyzer} {c : Catalog} {t : Table} {d : Column}
    {b : Block} (asName : String) (hcatalog : a.catalog = some c)
    (hkeyed : c.tables.KeyedBy Table.name) (ht : t ∈ c.tables.values)
    (hdistinct : (t.columns.map fun d => lowerCase d.name).Nodup) (hd : d ∈ t.columns)
    (hsql : b.sql = selectColumn asName d.name t.name)
    (hquery : ∀ query, Query.parse b.sql b.position = .ok query → b.query = query)
    (hhints : b.columnHints = []) :
    a.analyze b = ⟨[⟨d.name, t.name, a.overrides.typeOf t.name d⟩], [], []⟩ := by
  obtain ⟨q, htokens, hqualifier, hcolumn, htable, halias⟩ :=
    exists_tokens_selectColumn asName d.name t.name b.position
  rw [← hsql] at htokens
  have hparsed : b.query = Query.ofTokens b.sql q.tokens := by
    refine hquery _ ?_
    rw [Query.parse, htokens]
    rfl
  have hthere : c.named? q.table.value = some t := by
    obtain ⟨key, hkey⟩ := OrderedMap.mem_values_iff.mp ht
    rw [htable, Catalog.named?_eq hkeyed, Catalog.table?, hkeyed key t hkey, hkey]
  have hfound : t.column? q.column.value = some d := by
    rw [hcolumn]
    exact Table.column?_of_mem hdistinct hd
  have hresolve := q.resolve_eq hcatalog hparsed hhints hthere hfound (hqualifier.trans halias.symm)
  rw [analyze, htokens]
  simp only [hresolve]
  rfl

/-- A table with a name of two lines, a column whose name is a quote, a dot and a keyword, and a
column without a name; a type is given for the former. -/
def Analyzer.ofOddNames : Analyzer where
  catalog := some (Catalog.empty.addTable { Table.bare "a\nb" with
    columns := [(Column.plain "\".FROM" "INTEGER").withNotNull, .plain "" "TEXT"] })
  overrides := OrderedMap.empty.insert (ColumnOverrides.key "A\nB" "\".from") (.resolved .bool true)

/-- The names come back as they are declared, the first column with the type given for it and the
second with the declared one. -/
theorem Analyzer.analyze_selectColumn_of_oddNames :
    ofOddNames.analyze (.plain (selectColumn "" "\".FROM" "a\nb")) =
        ⟨[⟨"\".FROM", "a\nb", .resolved .bool true⟩], [], []⟩ ∧
      ofOddNames.analyze (.plain (selectColumn "WHERE" "" "a\nb")) =
        ⟨[⟨"", "a\nb", .resolved .string true⟩], [], []⟩ := by
  let t : Table := { Table.bare "a\nb" with
    columns := [(Column.plain "\".FROM" "INTEGER").withNotNull, .plain "" "TEXT"] }
  have hkeyed : (Catalog.empty.addTable t).tables.KeyedBy Table.name :=
    OrderedMap.KeyedBy.insert nofun t
  have ht : t ∈ (Catalog.empty.addTable t).tables.values := List.mem_singleton_self t
  have hdistinct : (t.columns.map fun d => lowerCase d.name).Nodup := by decide +kernel
  have hquoted := @analyze_selectColumn ofOddNames _ t
    (Column.plain "\".FROM" "INTEGER").withNotNull (.plain (selectColumn "" "\".FROM" "a\nb")) ""
    rfl hkeyed ht hdistinct List.mem_cons_self rfl (fun _ => Block.query_plain) rfl
  have hempty := @analyze_selectColumn ofOddNames _ t (Column.plain "" "TEXT")
    (.plain (selectColumn "WHERE" "" "a\nb")) "WHERE" rfl hkeyed ht hdistinct
    (List.mem_cons_of_mem _ List.mem_cons_self) rfl (fun _ => Block.query_plain) rfl
  exact ⟨hquoted.trans (by decide +kernel), hempty.trans (by decide +kernel)⟩

end TypedSql

import Mathlib.Data.List.Nodup
import TypedSql.Proofs.Expr.Mode
import TypedSql.Proofs.Query.FirstArm
import TypedSql.Proofs.Reference.CommonTable
import TypedSql.Proofs.Report.Layout
import TypedSql.Proofs.Scope.Columns
import TypedSql.Proofs.Scope.Counted

/-!
# A statement inside a common table expression

A `SELECT` statement whose items have aliases gives columns of the same names and types by itself
and through a star over a common table expression with that body.  The two readings part at
`INTERSECT` and `EXCEPT`: these end the first arm of a main statement, but not the first part of a
body, so a body sees the relations of more than its first arm.

Main statement: `Analyzer.columns_of_commonTable`.
-/

namespace TypedSql

open Diagnostic Query Text Token

theorem Token.SameText.matches {t u : Token} (h : t.SameText u) : t.Matches u := by
  refine ⟨h.1, ?_⟩
  split
  · rw [h.2]
    exact eqIgnoreCase_iff.mpr rfl
  · exact h.2

/-- The columns have the same name and the same type. -/
def ResultColumn.Same (c d : ResultColumn) : Prop := c.name = d.name ∧ c.type = d.type

instance (c d : ResultColumn) : Decidable (c.Same d) := inferInstanceAs (Decidable (_ ∧ _))

namespace Analyzer

/-! ## Columns of an analysis -/

/-- Annotations keep columns the same. -/
theorem same_annotateColumns {cs ds : List ResultColumn} (h : List.Forall₂ ResultColumn.Same cs ds)
    (hints : List TypeHint) :
    List.Forall₂ ResultColumn.Same (annotateColumns cs hints).value
      (annotateColumns ds hints).value := by
  induction hints generalizing cs ds with
  | nil => exact h
  | cons a hints ih =>
      refine ih ?_
      have hfound : cs.findIdx? (fun c => eqIgnoreCase c.name a.name) =
          ds.findIdx? fun c => eqIgnoreCase c.name a.name :=
        Memberwise.findIdx?_eq h fun c d hcd => by rw [hcd.1]
      unfold annotateColumn
      rw [hfound]
      split
      · exact h
      · split
        · exact Memberwise.modify_rel h _ fun c d hcd => ⟨hcd.1, rfl⟩
        · exact h

/-- The relations that the definitions of a block make besides those of the catalog. -/
def withCtes (a : Analyzer) (catalog : Catalog) (b : Block) : Scope :=
  (resolveCtes b.query.recursive (.ofCatalog a.overrides catalog) b.query.ctes).value

theorem columns_resolve {a : Analyzer} {catalog : Catalog} (hcatalog : a.catalog = some catalog)
    {b : Block} (hverb : b.query.verb = .select) (tokens : List Token) :
    (a.resolve b tokens).value.1 =
      (annotateColumns (resolveProjection .query
        (((Segment.split (a.withCtes catalog b) tokens).head?.map (·.scope)).getD
          (a.withCtes catalog b)) b.query.items).value b.columnHints).value := by
  have hreturning : returningItems b tokens = [] := by
    rw [returningItems, hverb]
    rfl
  have hcolumns : (resolveWith a.overrides catalog b tokens []).value.1 =
      (resolveProjection .query
        (((Segment.split (a.withCtes catalog b) tokens).head?.map (·.scope)).getD
          (a.withCtes catalog b)) b.query.items).value := by
    unfold resolveWith
    dsimp only
    split
    all_goals exact List.append_nil _
  unfold resolve
  rw [hreturning, hcatalog, ← hcolumns]
  rfl

theorem columns_analyze (a : Analyzer) {b : Block} {ts : List Token}
    (htokens : tokenizeAt b.sql b.position = .ok ts) :
    (a.analyze b).columns = (a.resolve b ts).value.1 := by
  rw [analyze, htokens]

/-- The columns of a statement that begins with `SELECT`. -/
theorem columns_of_select {a : Analyzer} {catalog : Catalog} (hcatalog : a.catalog = some catalog)
    {b : Block} {select : Token} {ts : List Token}
    (htokens : tokenizeAt b.sql b.position = .ok (select :: ts))
    (hselect : select.isWord "SELECT" = true)
    (hquery : b.query = Query.ofTokens b.sql (select :: ts)) :
    (a.analyze b).columns =
      (annotateColumns (resolveProjection .query
        ((Scope.ofCatalog a.overrides catalog).narrow (firstArm (select :: ts)))
        b.query.items).value b.columnHints).value := by
  rw [ofTokens_select hselect] at hquery
  have hbase : a.withCtes catalog b = .ofCatalog a.overrides catalog := by
    rw [withCtes, hquery]
    rfl
  rw [a.columns_analyze htokens, columns_resolve hcatalog (by rw [hquery]), hbase,
    Segment.head_split hselect]

end Analyzer

/-! ## The relation that a definition makes -/

namespace Query.Cte

variable {cte : Cte} {columns : List ResultColumn}

/-- Columns that have names keep them. -/
theorem value_nameColumns (h : ∀ c ∈ columns, c.name ≠ "") (number : Nat) :
    (cte.nameColumns number columns).value = columns := by
  induction columns generalizing number with
  | nil => rfl
  | cons c cs ih =>
      have hname : c.name.isEmpty = false := by
        rw [String.isEmpty_eq_false_iff]
        exact h c List.mem_cons_self
      unfold nameColumns
      rw [hname]
      show c :: (cte.nameColumns (number + 1) cs).value = _
      rw [ih fun d hd => h d (List.mem_cons_of_mem _ hd)]

/-- The relation that the columns make. -/
def entry (cte : Cte) (columns : List ResultColumn) : Scope.Entry :=
  (Scope.Entry.bare cte.name).pushAll (columns.map fun c => (c.name, c.type))

/-- The relation has the first of the columns of each name. -/
theorem ofScope_columns_entry (cte : Cte) (columns : List ResultColumn) :
    (cte.entry columns).columns.map ResultColumn.ofScope =
      (firstsBy ResultColumn.name columns).map
        fun c => (⟨c.name, cte.name, c.type⟩ : ResultColumn) := by
  rw [entry, Scope.Entry.columns_pushAll_bare, firstsBy_map, List.map_map, List.map_map]
  rfl

/-- The first part of a body that begins with `SELECT` gives the columns of its items. -/
theorem value_resolveAnchor (hnone : cte.columns = none) {select : Token} {ts : List Token}
    (hselect : select.isWord "SELECT" = true) {base : Scope}
    (hcolumns : (resolveProjection .cte (base.narrow (splitUnion (select :: ts)).1)
      (readProjection cte.body (projectionTokens (select :: ts)))).value = columns)
    (hnames : ∀ c ∈ columns, c.name ≠ "") :
    (cte.resolveAnchor base (splitUnion (select :: ts)).1).value =
      if (readProjection cte.body (projectionTokens (select :: ts))).isEmpty then none
      else some columns := by
  obtain ⟨rest, hanchor⟩ : ∃ rest, (splitUnion (select :: ts)).1 = select :: rest :=
    ⟨_, splitUnion_select hselect ts⟩
  have hprojected := projectionTokens_splitUnion hselect ts
  rw [hanchor] at hprojected hcolumns ⊢
  have hstatement : (select :: rest).drop (statementStart (select :: rest)) = select :: rest := by
    rw [statementStart_select hselect]
    rfl
  have hstarts : startsWith "SELECT" (select :: rest) = true := hselect
  have hitems : cte.anchorItems (select :: rest) =
      readProjection cte.body (projectionTokens (select :: ts)) := by
    rw [anchorItems, hstatement, ofTokens_select hselect, hprojected]
    exact if_pos hstarts
  have happly : (cte.applyNames columns).value = columns := by
    rw [applyNames, hnone]
    exact value_nameColumns hnames 1
  unfold resolveAnchor
  dsimp only
  rw [hitems, hstatement]
  split
  · rfl
  · show some (cte.applyNames (resolveProjection .cte _ _).value).value = _
    rw [hcolumns, happly]

/-- A body that begins with `SELECT` makes a relation of the columns that its items give in the
scope of its first part. -/
theorem value_resolve (hnone : cte.columns = none) {select : Token} {ts : List Token}
    (hbody : tokensOf cte.body cte.bodyPosition = select :: ts)
    (hselect : select.isWord "SELECT" = true) {base : Scope}
    (hcolumns : (resolveProjection .cte (base.narrow (splitUnion (select :: ts)).1)
      (readProjection cte.body (projectionTokens (select :: ts)))).value = columns)
    (hnames : ∀ c ∈ columns, c.name ≠ "") :
    (cte.resolve false base).value =
      if (readProjection cte.body (projectionTokens (select :: ts))).isEmpty then base
      else base.addEntry (cte.entry columns) := by
  have hresolved := value_resolveAnchor hnone hselect hcolumns hnames
  have htokens : (tokenizeAt cte.body cte.bodyPosition).toOption.getD [] = select :: ts := hbody
  unfold resolve
  rw [htokens]
  dsimp only
  -- The branch is chosen by the value of the first part alone.
  generalize cte.resolveAnchor base (splitUnion (select :: ts)).1 = found at hresolved ⊢
  obtain ⟨_, notes⟩ := found
  obtain rfl := hresolved
  cases (readProjection cte.body (projectionTokens (select :: ts))).isEmpty with
  | true => rfl
  | false => rfl

end Query.Cte

/-! ## The same statement in two texts -/

namespace Likeness

/-- Items of statements that are spelled alike have the same aliases. -/
theorem asNames_eq {ts us : List Token} (h : List.Forall₂ Token.SameText ts us) (s s' : String) :
    (readProjection s (projectionTokens ts)).map (·.asName) =
      (readProjection s' (projectionTokens us)).map (·.asName) := by
  have hnames := asNames_like (TokensLike.projectionTokens (tokensLike_spelled h)) s s'
  have heq : List.Forall₂ Eq ((readProjection s (projectionTokens ts)).map (·.asName))
      ((readProjection s' (projectionTokens us)).map (·.asName)) := by
    refine hnames.imp fun a b hab => ?_
    cases hab with
    | none => rfl
    | some hab => rw [hab.exactly trivial]
  exact List.forall₂_eq_eq_eq ▸ heq

end Likeness

/-- The columns of items with aliases, in the scope of the first part of the statement that they
stand in, are the same wherever the statement stands and however it is laid out. -/
theorem same_resolveProjection {s s' : String} {p p' : Position} {ts us : List Token}
    (hreads : CleanReads s.toList 0 p ts) (hreads' : CleanReads s'.toList 0 p' us)
    (h : List.Forall₂ Token.SameText ts us)
    (haliased : ∀ i ∈ readProjection s (projectionTokens ts), i.Aliased)
    (overrides : ColumnOverrides) (catalog : Catalog) (mode mode' : Mode) :
    List.Forall₂ ResultColumn.Same
      (resolveProjection mode ((Scope.ofCatalog overrides catalog).narrow (splitUnion ts).1)
        (readProjection s (projectionTokens ts))).value
      (resolveProjection mode' ((Scope.ofCatalog overrides catalog).narrow (splitUnion us).1)
        (readProjection s' (projectionTokens us))).value := by
  let L := Layout.likeness ts us
  have laws : L.Lawful := Layout.lawful hreads.positions_increase hreads'.positions_increase
  have hcut : L.cut s p s' p' :=
    ⟨ts, us, hreads, hreads', Layout.sameIndex_of_matches (h.imp fun _ _ htu => htu.matches)⟩
  have htokens : tokensOf s p = ts := tokensOf_eq (readFrom_of_reads hreads)
  have htokens' : tokensOf s' p' = us := tokensOf_eq (readFrom_of_reads hreads')
  have hpart : L.PartLike s s' ts us := by
    have hwhole := Likeness.PartLike.whole laws hcut
    rwa [htokens, htokens'] at hwhole
  have hitems := Likeness.readProjection_like (Likeness.projectionTokens_like hpart laws) laws
  have hscope := (Likeness.ScopeLike.ofCatalog (L := L) overrides catalog).narrow
    ((Likeness.splitUnion_like hpart laws).1.tokens laws)
  have haliased' : ∀ i ∈ readProjection s' (projectionTokens us), i.Aliased :=
    Memberwise.forall_mem_rel hitems (fun i j hij hi =>
      ⟨hij.isStar ▸ hi.1, Memberwise.isSome_eq hij.asName ▸ hi.2⟩) haliased
  obtain ⟨columns, hnames, hcolumns⟩ := resolveProjection_of_aliased haliased
    ((Scope.ofCatalog overrides catalog).narrow (splitUnion ts).1)
  obtain ⟨columns', hnames', hcolumns'⟩ := resolveProjection_of_aliased haliased'
    ((Scope.ofCatalog overrides catalog).narrow (splitUnion us).1)
  -- The likeness of layouts gives the types.  It leaves the case of names open, so these are
  -- compared as the aliases that they are.
  have htypes := (Likeness.resolveProjection_like hitems laws hscope .query).value
  rw [hcolumns, hcolumns'] at htypes ⊢
  have hsame : List.Forall₂ (fun c d : ResultColumn => some c.name = some d.name)
      columns columns' := by
    have heq : (columns.map fun c => some c.name) = columns'.map fun c => some c.name :=
      hnames.trans ((Likeness.asNames_eq h s s').trans hnames'.symm)
    rw [← List.forall₂_eq_eq_eq, List.forall₂_map_left_iff, List.forall₂_map_right_iff] at heq
    exact heq
  exact List.Forall₂.mp (fun c d hname htype => ⟨Option.some.inj hname, htype.type⟩) hsame htypes

/-- The names of columns under aliases are not empty and differ if the aliases do. -/
theorem names_of_aliased {items : List Item} {columns : List ResultColumn}
    (hnames : (columns.map fun c => some c.name) = items.map (·.asName))
    (hnonempty : ∀ i ∈ items, i.asName ≠ some "")
    (hdistinct : (items.map fun i => i.asName.map lowerCase).Nodup) :
    (∀ c ∈ columns, c.name ≠ "") ∧ (columns.map fun c => lowerCase c.name).Nodup := by
  constructor
  · intro c hc hname
    have hmem : some c.name ∈ items.map (·.asName) :=
      hnames ▸ List.mem_map_of_mem (f := fun c : ResultColumn => some c.name) hc
    obtain ⟨i, hi, hasName⟩ := List.mem_map.mp hmem
    exact hnonempty i hi (hasName.trans (congrArg some hname))
  · have hlower : (items.map fun i => i.asName.map lowerCase) =
        (columns.map fun c => lowerCase c.name).map some := by
      have hmapped := congrArg (List.map (Option.map lowerCase)) hnames
      rw [List.map_map, List.map_map] at hmapped
      rw [List.map_map]
      exact hmapped.symm
    rw [hlower] at hdistinct
    exact List.Nodup.of_map some hdistinct

/-! ## The star over the relation -/

namespace Grammar.CommonTable

variable (q : CommonTable)

/-- The star gives the columns of the relation, or none where there is no relation. -/
theorem value_star (base : Scope) :
    (resolveProjection .query (base.narrow q.main.tokens) [q.main.item]).value =
      ((base.entry? q.relation.value).map fun e => e.columns.map .ofScope).getD [] := by
  have hstar (s : Scope) : (resolveProjection .query s [q.main.item]).value =
      s.entries.flatMap fun e => e.columns.map .ofScope := by
    have hvalue : (expandAll s q.main.item.position).value =
        s.entries.flatMap fun e => e.columns.map .ofScope := by
      unfold expandAll
      split <;> rfl
    show (expandAll s q.main.item.position).value ++ [] = _
    rw [hvalue, List.append_nil]
  have hscope : base.narrow q.main.tokens =
      base.addReference .empty (q.main.first.reference 3) := by
    rw [Scope.narrow, q.main.references_eq]
    rfl
  have hname : (q.main.first.reference 3).name = q.relation.value := rfl
  rw [hstar, hscope]
  cases hentry : base.entry? q.relation.value with
  | some e =>
      rw [Scope.addReference_empty rfl (hname ▸ hentry)]
      exact List.append_nil _
  | none =>
      simp only [Scope.addReference, hname, hentry]
      rfl

/-- The body is read from the text of its definition as it is read in the statement. -/
theorem reads_body {sql : String} {p : Position} (h : CleanReads sql.toList 0 p q.tokens)
    {first : Token} {rest : List Token} (hbody : q.body = first :: rest) :
    CleanReads (q.cte sql).body.toList 0 (q.cte sql).bodyPosition
      (q.body.map (back first.span.start)) := by
  have htokens : q.tokens = [q.withWord, q.name, q.asWord, q.openParen] ++
      (first :: rest ++ q.closeParen :: q.main.tokens) := by
    rw [q.tokens_eq, fromBody, hbody]
    rfl
  rw [htokens] at h
  rw [cte, Cte.ofParts, hbody]
  exact h.of_sourceText

/-- The columns of the relation are those that the body gives, where its name is none of the
catalog. -/
theorem columns_star {sql : String} {overrides : ColumnOverrides} {catalog : Catalog}
    (hfree : catalog.named? q.name.value = none) {select : Token} {us : List Token}
    {columns : List ResultColumn}
    (hbody : tokensOf (q.cte sql).body (q.cte sql).bodyPosition = select :: us)
    (hselect : select.isWord "SELECT" = true)
    (hcolumns : (resolveProjection .cte
      ((Scope.ofCatalog overrides catalog).narrow (splitUnion (select :: us)).1)
      (readProjection (q.cte sql).body (projectionTokens (select :: us)))).value = columns)
    (hnames : ∀ c ∈ columns, c.name ≠ "")
    (hdistinct : (columns.map fun c => lowerCase c.name).Nodup) :
    ((((q.cte sql).resolve false (.ofCatalog overrides catalog)).value.entry?
        q.relation.value).map fun e => e.columns.map ResultColumn.ofScope).getD [] =
      columns.map fun c => (⟨c.name, q.name.value, c.type⟩ : ResultColumn) := by
  rw [Cte.value_resolve rfl hbody hselect hcolumns hnames]
  cases hitems : readProjection (q.cte sql).body (projectionTokens (select :: us)) with
  | nil =>
      have hsame (t : Table) : eqIgnoreCase t.name q.relation.value =
          eqIgnoreCase t.name q.name.value := by
        rw [eqIgnoreCase, eqIgnoreCase, eqIgnoreCase_iff.mp q.hsame]
      have hnone : catalog.named? q.relation.value = none := by
        rw [Catalog.named?] at hfree ⊢
        simp only [hsame, hfree]
      have hentry : Scope.entry? (Scope.ofCatalog overrides catalog) q.relation.value = none := by
        rw [Scope.entry_ofCatalog, hnone]
        rfl
      rw [hitems] at hcolumns
      cases hcolumns
      show (Option.map _ (Scope.entry? (Scope.ofCatalog overrides catalog)
        q.relation.value)).getD [] = _
      rw [hentry]
      rfl
  | cons i items =>
      have hname : eqIgnoreCase ((q.cte sql).entry columns).name q.relation.value = true := by
        rw [Cte.entry, Scope.Entry.name_pushAll]
        exact q.hsame
      show (Option.map _ (Scope.entry? ((Scope.ofCatalog overrides catalog).addEntry
        ((q.cte sql).entry columns)) q.relation.value)).getD [] = _
      rw [(Scope.keyed_ofCatalog overrides catalog).entry_addEntry, hname, if_pos rfl]
      exact ((q.cte sql).ofScope_columns_entry columns).trans
        (by rw [firstsBy_eq_self_iff.mpr hdistinct]; rfl)

end Grammar.CommonTable

namespace Analyzer

/-- The columns of a star over a common table expression are those of the relation that it makes. -/
theorem columns_of_starOver {a : Analyzer} {catalog : Catalog}
    (hcatalog : a.catalog = some catalog) {c : Block} {q : Grammar.StarOver}
    (htokens : tokenizeAt c.sql c.position = .ok q.tokens)
    (hquery : c.query = Query.ofTokens c.sql q.tokens) :
    (a.analyze c).columns =
      (annotateColumns (((((q.table.cte c.sql).resolve q.isRecursive
        (.ofCatalog a.overrides catalog)).value.entry? q.table.relation.value).map
          fun e => e.columns.map .ofScope).getD []) c.columnHints).value := by
  rw [q.query] at hquery
  have hbase : a.withCtes catalog c = ((q.table.cte c.sql).resolve q.isRecursive
      (.ofCatalog a.overrides catalog)).value := by
    rw [withCtes, hquery]
    rfl
  have hitems : c.query.items = [q.table.main.item] := by
    rw [hquery]
  rw [a.columns_analyze htokens, columns_resolve hcatalog (by rw [hquery]), hbase, hitems,
    q.split, ← q.table.value_star]
  rfl

theorem columns_of_star {a : Analyzer} {catalog : Catalog} (hcatalog : a.catalog = some catalog)
    {c : Block} {q : Grammar.CommonTable} (htokens : tokenizeAt c.sql c.position = .ok q.tokens)
    (hquery : c.query = Query.ofTokens c.sql q.tokens) :
    (a.analyze c).columns =
      (annotateColumns (((((q.cte c.sql).resolve false
        (.ofCatalog a.overrides catalog)).value.entry? q.relation.value).map
          fun e => e.columns.map .ofScope).getD []) c.columnHints).value :=
  columns_of_starOver (q := ⟨q, none, nofun⟩) hcatalog htokens hquery

/-- A statement whose items have different aliases that are not empty gives columns of the same
names and types by itself and through a star over a common table expression with that body, if
its first compound operator outside all parentheses is `UNION` or it has none. -/
theorem columns_of_commonTable (a : Analyzer) {catalog : Catalog} {b c : Block} {ts : List Token}
    {q : Grammar.CommonTable} (hcatalog : a.catalog = some catalog)
    (hquery : Query.parse b.sql b.position = .ok b.query)
    (hquery' : Query.parse c.sql c.position = .ok c.query)
    (hreturn : noBareReturn b.sql.toList = true) (hreturn' : noBareReturn c.sql.toList = true)
    (htokens : tokenizeAt b.sql b.position = .ok ts)
    (htokens' : tokenizeAt c.sql c.position = .ok q.tokens)
    (hbody : List.Forall₂ Token.SameText ts q.body) (hselect : startsWith "SELECT" ts = true)
    (hunion : UnionFirst ts)
    (haliased : ∀ i ∈ b.query.items, i.Aliased ∧ i.asName ≠ some "")
    (hdistinct : (b.query.items.map fun i => i.asName.map lowerCase).Nodup)
    (hfree : catalog.named? q.name.value = none) (hhints : b.columnHints = c.columnHints) :
    List.Forall₂ ResultColumn.Same (a.analyze b).columns (a.analyze c).columns := by
  obtain ⟨select, rest, rfl⟩ : ∃ select rest, ts = select :: rest := by
    cases ts with
    | nil => cases hselect
    | cons select rest => exact ⟨select, rest, rfl⟩
  obtain ⟨select', rest', hthis, -, hq⟩ := List.forall₂_cons_left_iff.mp hbody
  replace hselect : select.isWord "SELECT" = true := hselect
  have hselect' : (back select'.span.start select').isWord "SELECT" = true := by
    rw [isWord, hthis.1, hthis.2] at hselect
    exact hselect
  have hreads : CleanReads b.sql.toList 0 b.position (select :: rest) :=
    (tokenizeAt_eq_ok_iff.mp htokens).clean hreturn
  have hreads' := q.reads_body ((tokenizeAt_eq_ok_iff.mp htokens').clean hreturn') hq
  have hsame : List.Forall₂ Token.SameText (select :: rest)
      (q.body.map (back select'.span.start)) :=
    List.forall₂_map_right_iff.mpr hbody
  rw [hq, List.map_cons] at hreads' hsame
  -- By itself, the statement projects its items in the scope of its first arm.
  have hparsed : b.query = Query.ofTokens b.sql (select :: rest) :=
    Likeness.eq_ofTokens_of_parse hquery htokens
  have hparsed' : c.query = Query.ofTokens c.sql q.tokens :=
    Likeness.eq_ofTokens_of_parse hquery' htokens'
  have hitems : b.query.items = readProjection b.sql (projectionTokens (select :: rest)) := by
    rw [hparsed, ofTokens_select hselect]
  rw [hitems] at haliased hdistinct
  have hcolumns := same_resolveProjection hreads hreads' hsame (fun i hi => (haliased i hi).1)
    a.overrides catalog .query .cte
  obtain ⟨columns, hnames, hvalue⟩ := resolveProjection_of_aliased
    (fun i hi => (haliased i hi).1)
    ((Scope.ofCatalog a.overrides catalog).narrow (splitUnion (select :: rest)).1)
  rw [hvalue] at hcolumns
  obtain ⟨hnonempty, hnodup⟩ := names_of_aliased hnames (fun i hi => (haliased i hi).2) hdistinct
  generalize hvalue' : (resolveProjection .cte _ (readProjection (q.cte c.sql).body _)).value =
    columns' at hcolumns
  have hnonempty' : ∀ c ∈ columns', c.name ≠ "" :=
    Memberwise.forall_mem_rel hcolumns (fun c d hcd hc => hcd.1 ▸ hc) hnonempty
  have hnodup' : (columns'.map fun c => lowerCase c.name).Nodup := by
    rwa [← Memberwise.map_eq hcolumns fun c d hcd => congrArg lowerCase hcd.1]
  -- As a body, it makes a relation of the columns that it gives there.
  have hstar := q.columns_star hfree (tokensOf_eq (readFrom_of_reads hreads'))
    hselect' hvalue' hnonempty' hnodup'
  rw [columns_of_star hcatalog htokens' hparsed',
    columns_of_select hcatalog htokens hselect hparsed, hitems, ← hunion.splitUnion_eq, hvalue,
    hhints, hstar]
  refine same_annotateColumns (List.forall₂_map_right_iff.mpr ?_) _
  exact hcolumns.imp fun _ _ hcd => hcd

end Analyzer

/-- The tokens of `SELECT id AS a FROM users UNION SELECT 2` behind `k` characters. -/
def unionTokens (k : Nat) : List Token :=
  [⟨.keyword, "SELECT", ⟨k, k + 6⟩, ⟨1, k + 1⟩⟩, ⟨.identifier, "id", ⟨k + 7, k + 9⟩, ⟨1, k + 8⟩⟩,
    ⟨.keyword, "AS", ⟨k + 10, k + 12⟩, ⟨1, k + 11⟩⟩,
    ⟨.identifier, "a", ⟨k + 13, k + 14⟩, ⟨1, k + 14⟩⟩,
    ⟨.keyword, "FROM", ⟨k + 15, k + 19⟩, ⟨1, k + 16⟩⟩,
    ⟨.identifier, "users", ⟨k + 20, k + 25⟩, ⟨1, k + 21⟩⟩,
    ⟨.keyword, "UNION", ⟨k + 26, k + 31⟩, ⟨1, k + 27⟩⟩,
    ⟨.keyword, "SELECT", ⟨k + 32, k + 38⟩, ⟨1, k + 33⟩⟩,
    ⟨.integer, "2", ⟨k + 39, k + 40⟩, ⟨1, k + 40⟩⟩]

/-- The compound statement as the body of a common table expression. -/
def Grammar.CommonTable.ofUnion : Grammar.CommonTable where
  withWord := ⟨.keyword, "WITH", ⟨0, 4⟩, ⟨1, 1⟩⟩
  name := ⟨.quotedIdentifier, "\"x\"", ⟨5, 8⟩, ⟨1, 6⟩⟩
  asWord := ⟨.keyword, "AS", ⟨9, 11⟩, ⟨1, 10⟩⟩
  openParen := ⟨.leftParen, "(", ⟨12, 13⟩, ⟨1, 13⟩⟩
  body := unionTokens 13
  closeParen := ⟨.rightParen, ")", ⟨53, 54⟩, ⟨1, 54⟩⟩
  select := ⟨.keyword, "SELECT", ⟨55, 61⟩, ⟨1, 56⟩⟩
  star := ⟨.star, "*", ⟨62, 63⟩, ⟨1, 63⟩⟩
  source := ⟨.keyword, "FROM", ⟨64, 68⟩, ⟨1, 65⟩⟩
  relation := ⟨.quotedIdentifier, "\"x\"", ⟨69, 72⟩, ⟨1, 70⟩⟩
  hwith := ⟨rfl, by decide +kernel⟩
  hname := rfl
  hasWord := ⟨rfl, by decide +kernel⟩
  hopen := rfl
  hbody := (Outside.of_forall (p := fun _ => True) (by simp [unionTokens])).balanced
  hclose := rfl
  hselect := ⟨rfl, by decide +kernel⟩
  hstar := rfl
  hsource := ⟨rfl, by decide +kernel⟩
  hrelation := rfl
  hsame := by decide +kernel

namespace Analyzer

/-- The compound statement gives the identifiers of its first arm, by itself and as a body. -/
theorem columns_of_union :
    List.Forall₂ ResultColumn.Same
      (ofUsers.analyze (.plain "SELECT id AS a FROM users UNION SELECT 2")).columns
      (ofUsers.analyze (.plain
        "WITH \"x\" AS (SELECT id AS a FROM users UNION SELECT 2) SELECT * FROM \"x\"")).columns
    := by
  have htokens : tokenizeAt "SELECT id AS a FROM users UNION SELECT 2" .first =
      .ok (unionTokens 0) := by
    rw [tokenizeAt_ofList]
    decide +kernel
  have htokens' : tokenizeAt
      "WITH \"x\" AS (SELECT id AS a FROM users UNION SELECT 2) SELECT * FROM \"x\"" .first =
      .ok Grammar.CommonTable.ofUnion.tokens := by
    rw [tokenizeAt_ofList]
    decide +kernel
  obtain ⟨hparse, hquery⟩ := Block.parse_plain htokens
  refine ofUsers.columns_of_commonTable rfl hparse (Block.parse_plain htokens').1
    (by decide +kernel) (by decide +kernel) htokens htokens' (by decide +kernel)
    (by decide +kernel) (by decide +kernel) ?_ ?_ (by decide +kernel) rfl
  all_goals
    rw [hquery]
    decide +kernel

end Analyzer

/-- The tokens of `SELECT id AS a FROM users EXCEPT SELECT 2 AS a FROM users u` behind `k`
characters. -/
def exceptTokens (k : Nat) : List Token :=
  [⟨.keyword, "SELECT", ⟨k, k + 6⟩, ⟨1, k + 1⟩⟩, ⟨.identifier, "id", ⟨k + 7, k + 9⟩, ⟨1, k + 8⟩⟩,
    ⟨.keyword, "AS", ⟨k + 10, k + 12⟩, ⟨1, k + 11⟩⟩,
    ⟨.identifier, "a", ⟨k + 13, k + 14⟩, ⟨1, k + 14⟩⟩,
    ⟨.keyword, "FROM", ⟨k + 15, k + 19⟩, ⟨1, k + 16⟩⟩,
    ⟨.identifier, "users", ⟨k + 20, k + 25⟩, ⟨1, k + 21⟩⟩,
    ⟨.keyword, "EXCEPT", ⟨k + 26, k + 32⟩, ⟨1, k + 27⟩⟩,
    ⟨.keyword, "SELECT", ⟨k + 33, k + 39⟩, ⟨1, k + 34⟩⟩,
    ⟨.integer, "2", ⟨k + 40, k + 41⟩, ⟨1, k + 41⟩⟩,
    ⟨.keyword, "AS", ⟨k + 42, k + 44⟩, ⟨1, k + 43⟩⟩,
    ⟨.identifier, "a", ⟨k + 45, k + 46⟩, ⟨1, k + 46⟩⟩,
    ⟨.keyword, "FROM", ⟨k + 47, k + 51⟩, ⟨1, k + 48⟩⟩,
    ⟨.identifier, "users", ⟨k + 52, k + 57⟩, ⟨1, k + 53⟩⟩,
    ⟨.identifier, "u", ⟨k + 58, k + 59⟩, ⟨1, k + 59⟩⟩]

/-- A body with a second reference to its table, and the main statement on a line of its own. -/
def Grammar.CommonTable.ofExcept : Grammar.CommonTable where
  withWord := ⟨.keyword, "WITH", ⟨0, 4⟩, ⟨1, 1⟩⟩
  name := ⟨.quotedIdentifier, "\"x\"", ⟨5, 8⟩, ⟨1, 6⟩⟩
  asWord := ⟨.keyword, "AS", ⟨9, 11⟩, ⟨1, 10⟩⟩
  openParen := ⟨.leftParen, "(", ⟨12, 13⟩, ⟨1, 13⟩⟩
  body := exceptTokens 13
  closeParen := ⟨.rightParen, ")", ⟨72, 73⟩, ⟨1, 73⟩⟩
  select := ⟨.keyword, "SELECT", ⟨84, 90⟩, ⟨2, 11⟩⟩
  star := ⟨.star, "*", ⟨91, 92⟩, ⟨2, 18⟩⟩
  source := ⟨.keyword, "FROM", ⟨93, 97⟩, ⟨2, 20⟩⟩
  relation := ⟨.quotedIdentifier, "\"x\"", ⟨98, 101⟩, ⟨2, 25⟩⟩
  hwith := ⟨rfl, by decide +kernel⟩
  hname := rfl
  hasWord := ⟨rfl, by decide +kernel⟩
  hopen := rfl
  hbody := (Outside.of_forall (p := fun _ => True) (by simp [exceptTokens])).balanced
  hclose := rfl
  hselect := ⟨rfl, by decide +kernel⟩
  hstar := rfl
  hsource := ⟨rfl, by decide +kernel⟩
  hrelation := rfl
  hsame := by decide +kernel

namespace Analyzer

/-- Behind `EXCEPT` stands a second reference to the table.  The first arm of a main statement
does not see it, but the body of a common table expression does, and its column is ambiguous. -/
theorem columns_of_except :
    (ofUsers.analyze (.plain
        "SELECT id AS a FROM users EXCEPT SELECT 2 AS a FROM users u")).columns.map (·.type) =
        [.resolved .int64 true] ∧
      (ofUsers.analyze (.plain
        "WITH \"x\" AS (SELECT id AS a FROM users EXCEPT SELECT 2 AS a FROM users u)
          SELECT * FROM \"x\"")).columns.map (·.type) = [.unresolved] := by
  constructor
  · rw [analyze_plain_ofList]
    decide +kernel
  · let sql := "WITH \"x\" AS (SELECT id AS a FROM users EXCEPT SELECT 2 AS a FROM users u)
          SELECT * FROM \"x\""
    let q : Grammar.CommonTable := .ofExcept
    have hreturn : noBareReturn sql.toList = true := by
      rw [String.toList_ofList]
      decide +kernel
    have htokens : tokenizeAt sql .first = .ok q.tokens := by
      rw [tokenizeAt_ofList]
      decide +kernel
    let c : Catalog := Catalog.empty.addTable { Table.bare "users" with
      columns := [.plain "id" "INTEGER", .plain "name" "TEXT"] }
    have hreads := q.reads_body ((tokenizeAt_eq_ok_iff.mp htokens).clean hreturn) rfl
    -- The body alone names the table twice, so that its column is found in two relations.
    have hambiguous : (resolveProjection .cte
        ((Scope.ofCatalog .empty c).narrow (splitUnion (q.body.map (back 13))).1)
        (readProjection (q.cte sql).body (projectionTokens (q.body.map (back 13))))).value =
        [⟨"a", "", .unresolved⟩] := by decide +kernel
    have hcolumns : ((((q.cte sql).resolve false (.ofCatalog .empty c)).value.entry?
        q.relation.value).map fun e => e.columns.map ResultColumn.ofScope).getD [] =
        [⟨"a", q.name.value, .unresolved⟩] :=
      q.columns_star (by decide +kernel) (tokensOf_eq (readFrom_of_reads hreads)) rfl hambiguous
        (by decide) (by decide)
    rw [columns_of_star (c := .plain sql) (q := q) rfl htokens (Block.parse_plain htokens).2]
    exact congrArg (·.map ResultColumn.type) hcolumns

end Analyzer

end TypedSql

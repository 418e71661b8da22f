import TypedSql.Proofs.Report.CommonTable
import TypedSql.Proofs.Report.PassNotes

/-!
# The columns behind a star over a common table expression

The relation that a common table expression makes has each name once.  So a star over it gives the
items of the body one by one only where their names differ; of the items under one name it gives the
first.  A recursive term that is a star over the relation has the columns of the relation, but is
held against the number of the items, and is reported where two of them have one name.

Main definition: `Query.Item.label?`.  Main statement: `Analyzer.analyze_starOver`.
-/

namespace TypedSql

open Diagnostic Query Text Token

/-! ## Items and their names -/

namespace Query.Item

/-- The name that an item without an alias has: that of its column, or the identifier that its
expression ends with. -/
def ownName? (i : Item) : Option String :=
  match i.shape with
  | .star _ => none
  | .column _ name => some name
  | .expression text =>
      ((tokensOf text i.position).getLast?.filter (·.isIdentifier)).map (·.value)

/-- The name that an item has in a common table expression.  A star has none. -/
def label? (i : Item) : Option String := if i.isStar then none else i.asName.or i.ownName?

end Query.Item

namespace Scope

variable {s : Scope} {c : Column} {name : String}

theorem Entry.name_of_column? {e : Entry} (h : e.column? name = some c) :
    eqIgnoreCase c.name name = true :=
  (Entry.column?_eq_some.mp h).2

/-- What is found under a name has that name. -/
theorem name_of_lookup {qualifier : Option String} (h : s.lookup qualifier name = .ok c) :
    eqIgnoreCase c.name name = true := by
  cases qualifier with
  | none =>
      have h : s.lookupAny name = .ok c := h
      unfold lookupAny at h
      split at h
      · next found heq =>
          cases h
          have hmem : c ∈ s.entries.filterMap fun e => e.column? name :=
            heq ▸ List.mem_singleton_self c
          obtain ⟨e, -, he⟩ := List.mem_filterMap.mp hmem
          exact Entry.name_of_column? he
      · cases h
      · split at h <;> cases h
  | some word =>
      have h : s.lookupIn word name = .ok c := h
      unfold lookupIn at h
      split at h
      · split at h
        · next found he =>
            cases h
            exact Entry.name_of_column? he
        · cases h
      · split at h <;> cases h

end Scope

theorem column_inferColumn (mode : Mode) (s : Scope) (qualifier : Option String) (name : String)
    (position : Position) :
    ∃ found, (inferColumn mode s qualifier name position).value.column = some found ∧
      eqIgnoreCase found name = true := by
  unfold inferColumn
  cases h : s.lookup qualifier name with
  | ok c => exact ⟨c.name, rfl, Scope.name_of_lookup h⟩
  | error e => exact ⟨name, rfl, eqIgnoreCase_iff.mpr rfl⟩

/-- An item without an alias is a column of its own name, whatever stands before it. -/
theorem resolveItem_of_ownName {i : Item} {name : String} (has : i.asName = none)
    (h : i.ownName? = some name) (s : Scope) :
    ∃ column, eqIgnoreCase column.name name = true ∧
      ∀ number, (resolveItem .cte s number i).value = [column] := by
  unfold Item.ownName? at h
  cases hshape : i.shape with
  | star table =>
      rw [hshape] at h
      cases h
  | column table written =>
      rw [hshape] at h
      cases h
      obtain ⟨found, hfound, hname⟩ := column_inferColumn .cte s table name i.position
      let inferred := (inferColumn .cte s table name i.position).value
      refine ⟨⟨found, inferred.relation, inferred.type⟩, hname, fun number => ?_⟩
      unfold resolveItem
      rw [hshape, has]
      show [ResultColumn.mk (inferred.column.getD name) _ _] = _
      rw [show inferred.column = some found from hfound]
      rfl
  | expression text =>
      rw [hshape] at h
      obtain ⟨last, hlast, rfl⟩ := Option.map_eq_some_iff.mp h
      obtain ⟨hlast, hidentifier⟩ := Option.filter_eq_some_iff.mp hlast
      let inferred := ((Expr.ofTokens (tokensOf text i.position)).infer .cte s).value
      refine ⟨⟨last.value, inferred.relation, inferred.type⟩, eqIgnoreCase_iff.mpr rfl,
        fun number => ?_⟩
      have hdefault : (defaultName .cte i (tokensOf text i.position) inferred number).value =
          last.value := by
        unfold defaultName
        rw [hlast]
        simp only [hidentifier, if_true]
        rfl
      unfold resolveItem
      rw [hshape, has]
      show [ResultColumn.mk (defaultName .cte i (tokensOf text i.position) inferred number).value
        _ _] = _
      rw [hdefault]
      rfl

/-- An item that has a name is one column of that name, whatever stands before it. -/
theorem resolveItem_of_label {i : Item} {name : String} (h : i.label? = some name) (s : Scope) :
    ∃ column, eqIgnoreCase column.name name = true ∧
      ∀ number, (resolveItem .cte s number i).value = [column] := by
  unfold Item.label? at h
  split at h
  · cases h
  · next hstar =>
      cases has : i.asName with
      | none =>
          rw [has, Option.none_or] at h
          exact resolveItem_of_ownName has h s
      | some word =>
          rw [has, Option.some_or] at h
          cases h
          have haliased : i.Aliased := ⟨Bool.not_eq_true _ ▸ hstar, by rw [has]; rfl⟩
          obtain ⟨column, hname, hcolumn⟩ := resolveItem_of_aliased haliased s
          refine ⟨column, ?_, fun number => hcolumn .cte number⟩
          rw [has] at hname
          rw [Option.some.inj hname]
          exact eqIgnoreCase_iff.mpr rfl

/-- The column that an item is in a common table expression, if it is one. -/
def cteColumns (s : Scope) (items : List Item) : List ResultColumn :=
  items.flatMap fun i => (resolveItem .cte s 1 i).value

theorem value_resolveItems_of_labels {items : List Item} (h : ∀ i ∈ items, i.label?.isSome)
    (s : Scope) (count : Nat) : (resolveItems .cte s count items).value = cteColumns s items := by
  induction items generalizing count with
  | nil => rfl
  | cons i items ih =>
      rw [List.forall_mem_cons] at h
      obtain ⟨name, hname⟩ := Option.isSome_iff_exists.mp h.1
      obtain ⟨column, -, hcolumn⟩ := resolveItem_of_label hname s
      rw [resolveItems, cteColumns, List.flatMap_cons]
      show (resolveItem .cte s (count + 1) i).value ++ (resolveItems .cte s _ items).value = _
      rw [hcolumn, hcolumn, ih h.2]
      rfl

/-- The columns have the names of the items, up to case. -/
theorem names_cteColumns {items : List Item} (h : ∀ i ∈ items, i.label?.isSome) (s : Scope) :
    (cteColumns s items).map (fun c => some (lowerCase c.name)) =
      items.map fun i => i.label?.map lowerCase := by
  induction items with
  | nil => rfl
  | cons i items ih =>
      rw [List.forall_mem_cons] at h
      obtain ⟨name, hlabel⟩ := Option.isSome_iff_exists.mp h.1
      obtain ⟨column, hname, hcolumn⟩ := resolveItem_of_label hlabel s
      rw [cteColumns, List.flatMap_cons, hcolumn, List.singleton_append, List.map_cons,
        List.map_cons, hlabel, Option.map_some, eqIgnoreCase_iff.mp hname]
      exact congrArg _ (ih h.2)

theorem length_cteColumns {items : List Item} (h : ∀ i ∈ items, i.label?.isSome) (s : Scope) :
    (cteColumns s items).length = items.length := by
  simpa using congrArg List.length (names_cteColumns h s)

theorem eq_empty_of_lowerCase {s : String} (h : lowerCase s = "") : s = "" := by
  have hlist := congrArg String.toList h
  rw [toList_lowerCase] at hlist
  exact String.toList_inj.mp (List.map_eq_nil_iff.mp hlist)

/-- Items with names that are not empty have columns with names that are not empty. -/
theorem name_ne_empty_of_mem_cteColumns {items : List Item}
    (h : ∀ i ∈ items, i.label?.isSome ∧ i.label? ≠ some "") {s : Scope} {c : ResultColumn}
    (hc : c ∈ cteColumns s items) : c.name ≠ "" := by
  intro hempty
  have hmem := List.mem_map_of_mem (f := fun c : ResultColumn => some (lowerCase c.name)) hc
  rw [names_cteColumns fun i hi => (h i hi).1] at hmem
  obtain ⟨i, hi, hlabel⟩ := List.mem_map.mp hmem
  obtain ⟨name, hname⟩ := Option.isSome_iff_exists.mp (h i hi).1
  rw [hname, hempty] at hlabel
  have hlower : lowerCase name = "" := Option.some.inj hlabel
  exact (h i hi).2 (hname.trans (congrArg some (eq_empty_of_lowerCase hlower)))

/-- No column is lost by its name exactly where the names of the items differ. -/
theorem length_firstsBy_cteColumns_iff {items : List Item} (h : ∀ i ∈ items, i.label?.isSome)
    (s : Scope) :
    (firstsBy ResultColumn.name (cteColumns s items)).length = items.length ↔
      (items.map fun i => i.label?.map lowerCase).Nodup := by
  have hlower : (cteColumns s items).map (fun c => some (lowerCase c.name)) =
      ((cteColumns s items).map fun c => lowerCase c.name).map some := by
    rw [List.map_map]
    rfl
  rw [← length_cteColumns h s, length_firstsBy_eq_iff, ← names_cteColumns h s, hlower]
  exact (List.nodup_map_iff fun _ _ => Option.some.inj).symm

/-! ## The relation -/

namespace Query.Cte

variable {cte : Cte} {base : Scope}

/-- A first part whose items have names gives their columns. -/
theorem resolveAnchor_of_labels (hnone : cte.columns = none) {body : List Token}
    (hselect : startsWith "SELECT" body = true) {items : List Item}
    (hitems : readProjection cte.body (projectionTokens body) = items) (hne : items ≠ [])
    (hlabels : ∀ i ∈ items, i.label?.isSome ∧ i.label? ≠ some "") :
    (cte.resolveAnchor base (splitUnion body).1).value =
      some (cteColumns (base.narrow (splitUnion body).1) items) := by
  obtain ⟨select, us, rfl⟩ : ∃ select us, body = select :: us := by
    cases body with
    | nil => cases hselect
    | cons select us => exact ⟨select, us, rfl⟩
  have hvalue := value_resolveItems_of_labels (fun i hi => (hlabels i hi).1)
    (base.narrow (splitUnion (select :: us)).1) 0
  rw [← hitems] at hvalue
  rw [value_resolveAnchor hnone hselect hvalue
    fun c hc => name_ne_empty_of_mem_cteColumns (hitems ▸ hlabels) hc, hitems,
    if_neg (by simpa using hne)]

/-- The relation is found under the name of the definition, whatever the catalog has. -/
theorem entry?_addEntry (cte : Cte) {columns : List ResultColumn} {overrides : ColumnOverrides}
    {catalog : Catalog} {word : String} (hword : eqIgnoreCase cte.name word = true) :
    Scope.entry? ((Scope.ofCatalog overrides catalog).addEntry (cte.entry columns)) word =
      some (cte.entry columns) := by
  have hname : (cte.entry columns).name = cte.name := Scope.Entry.name_pushAll _ _
  rw [(Scope.keyed_ofCatalog overrides catalog).entry_addEntry, hname]
  exact if_pos hword

theorem length_columns_entry (cte : Cte) (columns : List ResultColumn) :
    (cte.entry columns).columns.length = (firstsBy ResultColumn.name columns).length := by
  have hmapped := congrArg List.length (cte.ofScope_columns_entry columns)
  rwa [List.length_map, List.length_map] at hmapped

/-- What is noted of the second part of a body. -/
def termNotes (cte : Cte) (recursive : Bool) (base : Scope) (expected : Nat) :
    Option (List Token) → List Diagnostic
  | some term => if recursive then (cte.checkRecursion base expected term).notes else []
  | none => []

/-- A definition whose first part gives columns adds their relation, and then looks at the second
part. -/
theorem resolve_of_anchor {columns : List ResultColumn} {body : List Token}
    (hbody : tokensOf cte.body cte.bodyPosition = body)
    (hcolumns : (cte.resolveAnchor base (splitUnion body).1).value = some columns)
    (recursive : Bool) :
    cte.resolve recursive base = ⟨base.addEntry (cte.entry columns),
      (cte.resolveAnchor base (splitUnion body).1).notes ++
        cte.termNotes recursive (base.addEntry (cte.entry columns)) columns.length
          (splitUnion body).2⟩ := by
  have htokens : (tokenizeAt cte.body cte.bodyPosition).toOption.getD [] = body := hbody
  unfold resolve
  rw [htokens]
  dsimp only
  generalize cte.resolveAnchor base (splitUnion body).1 = found at hcolumns ⊢
  obtain ⟨_, notes⟩ := found
  obtain rfl := hcolumns
  cases (splitUnion body).2 with
  | none => cases recursive <;> exact congrArg (Noted.mk _) rfl
  | some term =>
      cases recursive with
      | false => exact congrArg (Noted.mk _) rfl
      | true =>
          refine congrArg (Noted.mk _) ?_
          show notes ++ ((cte.checkRecursion _ _ term).notes ++ []) = _
          rw [List.append_nil]
          rfl

end Query.Cte

/-! ## The second part of a recursive body -/

namespace Grammar.Joins

variable {q : Joins} {base : Scope} {e : Scope.Entry}

/-- A statement over one relation sees the relation and nothing else. -/
theorem narrow_of_single (hsingle : q.rest = [])
    (hentry : base.entry? q.first.table.value = some e) :
    (base.narrow q.tokens).entries = [e] ∧ (base.narrow q.tokens).opaqueNames = [] := by
  have hname : (q.first.reference 3).name = q.first.table.value := rfl
  have hscope : base.narrow q.tokens = base.addReference .empty (q.first.reference 3) := by
    rw [Scope.narrow, q.references_eq, references, hsingle]
    rfl
  rw [hscope, Scope.addReference_empty rfl (hname ▸ hentry)]
  cases (q.first.reference 3).asName with
  | none => exact ⟨rfl, rfl⟩
  | some word => exact ⟨rfl, rfl⟩

end Grammar.Joins

namespace Query.Cte

variable {cte : Cte} {base : Scope} {e : Scope.Entry} {q : Grammar.Joins}

/-- A star over one relation is held against the number of columns of the relation. -/
theorem checkRecursion_star (hsingle : q.rest = [])
    (hentry : base.entry? q.first.table.value = some e) (expected : Nat) :
    (cte.checkRecursion base expected q.tokens).notes =
      if e.columns.length = expected then [] else [cte.mismatch e.columns.length expected] := by
  obtain ⟨hentries, hopaque⟩ := Grammar.Joins.narrow_of_single hsingle hentry
  have hwidth : width? (base.narrow q.tokens) [q.item] = some e.columns.length := by
    have hknown : (base.narrow q.tokens).hasOpaque = false := by
      rw [Scope.hasOpaque, hopaque]
      rfl
    have hitem : itemWidth? (base.narrow q.tokens) q.item = some e.columns.length := by
      unfold itemWidth?
      simp only [Grammar.Joins.item, hknown, hentries]
      exact congrArg some (Nat.zero_add _)
    rw [width?, List.mapM_cons, hitem]
    exact congrArg some (Nat.zero_add _)
  unfold checkRecursion
  simp only [q.statementStart_eq, List.drop_zero, q.startsWith_select, if_true, q.query, hwidth]
  split
  · rfl
  · rfl

end Query.Cte

/-! ## The statement -/

/-- A note on a recursive term is a note of the second part of the definition. -/
theorem Analyzer.mem_notes_of_starOver {a : Analyzer} {catalog : Catalog}
    (hcatalog : a.catalog = some catalog) {b : Block} {q : Grammar.StarOver}
    (hquery : b.query = Query.ofTokens b.sql q.tokens) {columns : List ResultColumn}
    {body : List Token}
    (hbody : tokensOf (q.table.cte b.sql).body (q.table.cte b.sql).bodyPosition = body)
    (hcolumns : ((q.table.cte b.sql).resolveAnchor (.ofCatalog a.overrides catalog)
      (splitUnion body).1).value = some columns) :
    let base := Scope.ofCatalog a.overrides catalog
    let entry := (q.table.cte b.sql).entry columns
    let term := (q.table.cte b.sql).termNotes q.isRecursive (base.addEntry entry) columns.length
      (splitUnion body).2
    (∀ d ∈ (a.resolve b q.tokens).notes, d ∈ term ∨ d.Ordinary) ∧
      ∀ d ∈ term, d ∈ (a.resolve b q.tokens).notes := by
  intro base entry term
  have hresolved := Cte.resolve_of_anchor hbody hcolumns q.isRecursive
  have hctes : (resolveCtes b.query.recursive base b.query.ctes).notes =
      ((q.table.cte b.sql).resolveAnchor base (splitUnion body).1).notes ++ term := by
    rw [hquery, q.query]
    show ((q.table.cte b.sql).resolve q.isRecursive base).notes ++ [] = _
    rw [List.append_nil, hresolved]
  have hnotes : (a.resolve b q.tokens).notes =
      (resolveWith a.overrides catalog b q.tokens (returningItems b q.tokens)).notes ++
        ((annotateColumns (resolveWith a.overrides catalog b q.tokens
          (returningItems b q.tokens)).value.1 b.columnHints).notes ++ []) := by
    unfold resolve
    rw [hcatalog]
    rfl
  rw [hnotes]
  -- Of all passes only the definition's second part can note such a thing.
  constructor
  · intro d hd
    rcases List.mem_append.mp hd with hd | hd
    · rcases ordinary_resolveWith hd with hd | hd
      · rw [hctes] at hd
        rcases List.mem_append.mp hd with hd | hd
        · exact .inr (Cte.ordinary_resolveAnchor _ _ _ d hd)
        · exact .inl hd
      · exact .inr hd
    · rw [List.append_nil] at hd
      exact .inr (ordinary_annotateColumns _ _ d hd)
  · intro d hd
    refine List.mem_append_left _ (List.mem_append_left _ ?_)
    rw [hctes]
    exact List.mem_append_right _ hd

/-- A recursive term is reported exactly where something is noted of the second part of the
definition. -/
theorem Analyzer.exists_mismatch_iff {a : Analyzer} {catalog : Catalog}
    (hcatalog : a.catalog = some catalog) {b : Block} {q : Grammar.StarOver}
    (htokens : tokenizeAt b.sql b.position = .ok q.tokens)
    (hquery : b.query = Query.ofTokens b.sql q.tokens) {columns : List ResultColumn}
    {body : List Token}
    (hbody : tokensOf (q.table.cte b.sql).body (q.table.cte b.sql).bodyPosition = body)
    (hcolumns : ((q.table.cte b.sql).resolveAnchor (.ofCatalog a.overrides catalog)
      (splitUnion body).1).value = some columns) {projected expected : Nat}
    (hterm : (q.table.cte b.sql).termNotes q.isRecursive
      ((Scope.ofCatalog a.overrides catalog).addEntry ((q.table.cte b.sql).entry columns))
        columns.length (splitUnion body).2 =
      if projected = expected then []
      else [(q.table.cte b.sql).mismatch projected expected]) :
    (∃ d ∈ (a.analyze b).diagnostics, d.code = .recursiveCountMismatch) ↔
      ¬ projected = expected := by
  obtain ⟨hfrom, hinto⟩ := mem_notes_of_starOver hcatalog hquery hbody hcolumns
  rw [hterm] at hfrom hinto
  have htold : ∀ d ∈ (a.resolve b q.tokens).notes, d.ToldByMessage := by
    intro d hd
    rcases hfrom d hd with hd | hd
    · split at hd
      · cases hd
      · cases List.mem_singleton.mp hd
        exact Cte.toldByMessage_mismatch _ _ _
    · exact hd.toldByMessage
  have hdiagnostics : (a.analyze b).diagnostics =
      distinct b.path (a.resolve b q.tokens).notes := by
    unfold analyze
    rw [htokens]
  rw [hdiagnostics, exists_code_distinct_iff htold]
  constructor
  · rintro ⟨d, hd, hcode⟩ hfits
    rw [if_pos hfits] at hfrom
    rcases hfrom d hd with hd | hd
    · cases hd
    · exact hd.code hcode
  · intro hnot
    rw [if_neg hnot] at hinto
    exact ⟨_, hinto _ (List.mem_singleton_self _), rfl⟩

/-- Items with names, equal or not, behind a star over a common table expression: the first item of
each name is a column, with the type of the item, so there is one column for each item exactly where
the names differ.  A recursive term that is a star over the relation is reported exactly where they
do not. -/
theorem Analyzer.analyze_starOver (a : Analyzer) {catalog : Catalog} {b : Block}
    {q : Grammar.StarOver} {body : List Token} {items : List Item}
    (hcatalog : a.catalog = some catalog) (htokens : tokenizeAt b.sql b.position = .ok q.tokens)
    (hquery : Query.parse b.sql b.position = .ok b.query) (hhints : b.columnHints = [])
    (hbody : tokensOf (q.table.cte b.sql).body (q.table.cte b.sql).bodyPosition = body)
    (hselect : startsWith "SELECT" body = true)
    (hitems : readProjection (q.table.cte b.sql).body (projectionTokens body) = items)
    (hne : items ≠ []) (hlabels : ∀ i ∈ items, i.label?.isSome ∧ i.label? ≠ some "") :
    let scope := (Scope.ofCatalog a.overrides catalog).narrow (splitUnion body).1
    let differ := (items.map fun i => i.label?.map lowerCase).Nodup
    (cteColumns scope items).length = items.length ∧
      (a.analyze b).columns = (firstsBy ResultColumn.name (cteColumns scope items)).map
        (fun c => ⟨c.name, q.table.name.value, c.type⟩) ∧
      ((a.analyze b).columns.length = items.length ↔ differ) ∧
      ∀ term : Grammar.Joins, q.isRecursive = true →
        (splitUnion body).2 = some term.tokens → term.rest = [] →
        eqIgnoreCase q.table.name.value term.first.table.value = true →
          ((∃ d ∈ (a.analyze b).diagnostics, d.code = .recursiveCountMismatch) ↔ ¬ differ) := by
  intro scope differ
  have hsome : ∀ i ∈ items, i.label?.isSome := fun i hi => (hlabels i hi).1
  have hlength : (cteColumns scope items).length = items.length := length_cteColumns hsome scope
  have hcount : (firstsBy ResultColumn.name (cteColumns scope items)).length = items.length ↔
      differ := length_firstsBy_cteColumns_iff hsome scope
  have hparsed : b.query = Query.ofTokens b.sql q.tokens :=
    Likeness.eq_ofTokens_of_parse hquery htokens
  have hanchor : ((q.table.cte b.sql).resolveAnchor (.ofCatalog a.overrides catalog)
      (splitUnion body).1).value = some (cteColumns scope items) :=
    Cte.resolveAnchor_of_labels rfl hselect hitems hne hlabels
  have hcolumns : (a.analyze b).columns =
      (firstsBy ResultColumn.name (cteColumns scope items)).map
        fun c => ⟨c.name, q.table.name.value, c.type⟩ := by
    rw [columns_of_starOver hcatalog htokens hparsed, hhints,
      Cte.resolve_of_anchor hbody hanchor, (q.table.cte b.sql).entry?_addEntry q.table.hsame]
    exact (q.table.cte b.sql).ofScope_columns_entry _
  refine ⟨hlength, hcolumns, ?_, fun term hrecursive hterm hsingle hover => ?_⟩
  · rw [hcolumns, List.length_map]
    exact hcount
  · -- The relation has a column for each name, but is held against the number of the items.
    let cte := q.table.cte b.sql
    have hnotes : cte.termNotes q.isRecursive
        ((Scope.ofCatalog a.overrides catalog).addEntry (cte.entry (cteColumns scope items)))
          (cteColumns scope items).length (splitUnion body).2 =
        if (firstsBy ResultColumn.name (cteColumns scope items)).length = items.length then []
        else [cte.mismatch (firstsBy ResultColumn.name (cteColumns scope items)).length
          items.length] := by
      rw [hterm, hrecursive, hlength]
      show (cte.checkRecursion _ _ _).notes = _
      rw [Cte.checkRecursion_star hsingle (cte.entry?_addEntry hover), Cte.length_columns_entry]
    exact (exists_mismatch_iff hcatalog htokens hparsed hbody hanchor hnotes).trans
      (not_congr hcount)

/-- The tokens of `SELECT id, name AS b FROM users UNION`, behind `k` bytes and at column 24. -/
def firstPartTokens (k : Nat) : List Token :=
  [⟨.keyword, "SELECT", ⟨k, k + 6⟩, ⟨1, 24⟩⟩, ⟨.identifier, "id", ⟨k + 7, k + 9⟩, ⟨1, 31⟩⟩,
    ⟨.comma, ",", ⟨k + 9, k + 10⟩, ⟨1, 33⟩⟩, ⟨.identifier, "name", ⟨k + 11, k + 15⟩, ⟨1, 35⟩⟩,
    ⟨.keyword, "AS", ⟨k + 16, k + 18⟩, ⟨1, 40⟩⟩, ⟨.identifier, "b", ⟨k + 19, k + 20⟩, ⟨1, 43⟩⟩,
    ⟨.keyword, "FROM", ⟨k + 21, k + 25⟩, ⟨1, 45⟩⟩,
    ⟨.identifier, "users", ⟨k + 26, k + 31⟩, ⟨1, 50⟩⟩,
    ⟨.keyword, "UNION", ⟨k + 32, k + 37⟩, ⟨1, 56⟩⟩]

/-- The statement `SELECT * FROM x`, behind `k` bytes and at column 62. -/
def Grammar.Joins.ofTerm (k : Nat) : Grammar.Joins where
  select := ⟨.keyword, "SELECT", ⟨k, k + 6⟩, ⟨1, 62⟩⟩
  star := ⟨.star, "*", ⟨k + 7, k + 8⟩, ⟨1, 69⟩⟩
  source := ⟨.keyword, "FROM", ⟨k + 9, k + 13⟩, ⟨1, 71⟩⟩
  first := ⟨⟨.identifier, "x", ⟨k + 14, k + 15⟩, ⟨1, 76⟩⟩, none,
    .inl ⟨rfl, (by decide : isKeyword "x" = false)⟩⟩
  rest := []
  hselect := .of_text rfl
  hstar := rfl
  hsource := .of_text rfl

/-- A recursive definition whose second part is a star over itself. -/
def Grammar.StarOver.ofItself : Grammar.StarOver where
  table :=
    { withWord := ⟨.keyword, "WITH", ⟨0, 4⟩, ⟨1, 1⟩⟩
      name := ⟨.quotedIdentifier, "\"x\"", ⟨15, 18⟩, ⟨1, 16⟩⟩
      asWord := ⟨.keyword, "AS", ⟨19, 21⟩, ⟨1, 20⟩⟩
      openParen := ⟨.leftParen, "(", ⟨22, 23⟩, ⟨1, 23⟩⟩
      body := firstPartTokens 23 ++ (Grammar.Joins.ofTerm 61).tokens
      closeParen := ⟨.rightParen, ")", ⟨76, 77⟩, ⟨1, 77⟩⟩
      select := ⟨.keyword, "SELECT", ⟨78, 84⟩, ⟨1, 79⟩⟩
      star := ⟨.star, "*", ⟨85, 86⟩, ⟨1, 86⟩⟩
      source := ⟨.keyword, "FROM", ⟨87, 91⟩, ⟨1, 88⟩⟩
      relation := ⟨.quotedIdentifier, "\"x\"", ⟨92, 95⟩, ⟨1, 93⟩⟩
      hwith := .of_text rfl
      hname := rfl
      hasWord := .of_text rfl
      hopen := rfl
      hbody := (Outside.of_forall (p := fun _ => True) (by decide +kernel)).balanced
      hclose := rfl
      hselect := .of_text rfl
      hstar := rfl
      hsource := .of_text rfl
      hrelation := rfl
      hsame := by decide +kernel }
  recursiveWord := some ⟨.keyword, "RECURSIVE", ⟨5, 14⟩, ⟨1, 6⟩⟩
  hrecursive := by
    rintro t ⟨⟩
    exact .of_text rfl

/-- Two items of different names are two columns, and the recursive term fits them. -/
theorem Analyzer.analyze_starOver_of_recursive :
    let b : Block := .plain ("WITH RECURSIVE \"x\" AS (SELECT id, name AS b FROM users " ++
      "UNION SELECT * FROM x) SELECT * FROM \"x\"")
    (ofUsers.analyze b).columns.length = 2 ∧
      ¬ ∃ d ∈ (ofUsers.analyze b).diagnostics, d.code = .recursiveCountMismatch := by
  intro b
  have htokens : tokenizeAt b.sql b.position = .ok Grammar.StarOver.ofItself.tokens := by
    show tokenizeAt ("WITH RECURSIVE \"x\" AS (SELECT id, name AS b FROM users " ++
      "UNION SELECT * FROM x) SELECT * FROM \"x\"") .first = _
    rw [← String.ofList_append, tokenizeAt_ofList]
    decide +kernel
  have hfound := @analyze_starOver ofUsers _ b .ofItself
    (firstPartTokens 0 ++ (Grammar.Joins.ofTerm 38).tokens)
    [⟨.column none "id", none, ⟨1, 31⟩⟩, ⟨.column none "name", some "b", ⟨1, 35⟩⟩] rfl htokens
    (Query.Block.parse_plain htokens).1 rfl (by decide +kernel) (by decide +kernel)
    (by decide +kernel) (by decide) (by decide +kernel)
  obtain ⟨-, -, hlength, hreport⟩ := hfound
  refine ⟨hlength.mpr (by decide +kernel), fun h => ?_⟩
  exact (hreport (.ofTerm 38) rfl (by decide +kernel) rfl (by decide +kernel)).mp h
    (by decide +kernel)

/-- Of two items under one name a star gives the first, and a recursive term that is a star over
the relation is held to have a column too few. -/
theorem Analyzer.star_of_repeated :
    let found := ofUsers.analyze (.plain ("WITH RECURSIVE \"x\" AS (SELECT id AS a, name AS a " ++
      "FROM users UNION ALL SELECT * FROM \"x\") SELECT * FROM \"x\""))
    (found.columns, found.diagnostics.map fun d => (d.code, d.message)) =
      ([⟨"a", "x", .resolved .int64 true⟩], [(.recursiveCountMismatch,
        "recursive term of CTE 'x' projects 1 columns; expected 2")]) := by
  rw [← String.ofList_append, Analyzer.analyze_plain_ofList]
  decide +kernel

end TypedSql

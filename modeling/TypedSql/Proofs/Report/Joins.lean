import TypedSql.Proofs.Reference.Joins
import TypedSql.Proofs.Report.Layout
import TypedSql.Proofs.Scope.Counted

/-!
# The columns of joined relations

A star over joined relations gives the columns of the relations that count, in order and without a
note.  A relation counts if it brings a name that none before it has, be it the name of a table
that an alias hides; so two references under two different names can still be one relation.

Main definition: `Joins.entries`.  Main statement: `Analyzer.analyze_joins`.
-/

namespace TypedSql

open Diagnostic Query Text Token

/-- What is done with a value without notes. -/
theorem Diagnostic.Noted.pure_bind {α β : Type} (a : α) (f : α → Noted β) :
    (Pure.pure a >>= f) = f a := rfl

/-- A `SELECT` without parameters that is one segment, where no relation is missing and nothing is
noted of the identifiers and the items, gives the columns of the items. -/
theorem Analyzer.resolve_of_segment {a : Analyzer} {c : Catalog} {b : Block} {tokens : List Token}
    {s : Scope} {items : List Item} {columns : List ResultColumn} (hcatalog : a.catalog = some c)
    (hquery : b.query = ⟨.select, items, [], [], false⟩)
    (hsplit : Segment.split (.ofCatalog a.overrides c) tokens = [⟨[⟨0, tokens.length⟩], s, false⟩])
    (hmissing : s.missing = [])
    (hvalidate : ∀ known, Identifier.validate s known tokens = Pure.pure ())
    (hitems : resolveProjection .query s items = Pure.pure columns) (hhints : b.columnHints = []) :
    a.resolve b tokens = Pure.pure (columns, []) := by
  let segment : Segment := ⟨[⟨0, tokens.length⟩], s, false⟩
  have hnoneMissing : noteMissing [segment] = Pure.pure () := by
    show (⟨(), s.missing.flatMap _ ++ []⟩ : Noted Unit) = _
    rw [hmissing]
    rfl
  have hcheck (outputs : List ResultColumn) :
      Noted.forEach (checkSegment b tokens [] outputs) [segment] = Pure.pure () := by
    have hwhole : Range.tokens ⟨0, tokens.length⟩ tokens = tokens := by
      rw [Range.tokens, List.drop_zero, Nat.sub_zero, List.take_length]
    show (⟨(), ((Identifier.validate s _ (Range.tokens ⟨0, tokens.length⟩ tokens)).notes ++ []) ++
      []⟩ : Noted Unit) = _
    rw [hwhole, hvalidate]
    rfl
  have hreturning : returningItems b tokens = [] := by
    rw [returningItems, hquery]
    rfl
  have hreturned : resolveProjection .query s [] = Pure.pure [] := rfl
  have hparams (hints : List (Option Hint)) : finishParams b tokens hints = Pure.pure [] := by
    rw [finishParams, hquery]
    rfl
  have hverb : (Verb.select != .other) = true := rfl
  have hresolve : resolveWith a.overrides c b tokens [] = Pure.pure (columns, []) := by
    unfold resolveWith
    simp only [hparams]
    rw [hquery]
    simp only [resolveCtes, Noted.pure_bind, hsplit, hnoneMissing, List.head?_cons, Option.map_some,
      Option.getD_some, hitems, hreturned, List.append_nil, hverb, if_true, hcheck, segment]
  unfold resolve
  rw [hreturning, hcatalog, hhints]
  show (resolveWith a.overrides c b tokens [] >>= _) = _
  rw [hresolve]
  rfl

namespace Grammar.Joins

variable {q : Joins} {overrides : ColumnOverrides} {c : Catalog}

/-- The scope that the statement sees. -/
def scope (q : Joins) (overrides : ColumnOverrides) (c : Catalog) : Scope :=
  (Scope.ofCatalog overrides c).narrow q.tokens

/-- The tables of the catalog that the statement names, one for each reference. -/
def entries (q : Joins) (overrides : ColumnOverrides) (c : Catalog) : List Scope.Entry :=
  q.relations.filterMap fun r => (c.named? r.table.value).map (Scope.Entry.ofTable overrides)

/-- Every relation of the statement is a table of the catalog. -/
def AllThere (q : Joins) (c : Catalog) : Prop :=
  ∀ r ∈ q.relations, (c.named? r.table.value).isSome

instance (q : Joins) (c : Catalog) : Decidable (q.AllThere c) :=
  inferInstanceAs (Decidable (∀ r ∈ q.relations, (c.named? r.table.value).isSome))

theorem names_joinReferences (joins : List Join) (i : Nat) :
    (joinReferences i joins).map (·.name) = joins.map fun j => j.relation.table.value := by
  induction joins generalizing i with
  | nil => rfl
  | cons j joins ih => exact congrArg _ (ih _)

/-- The references have the names of the relations. -/
theorem names_references (q : Joins) :
    q.references.map (·.name) = q.relations.map fun r => r.table.value := by
  rw [references, relations, List.map_cons, names_joinReferences, List.map_cons, List.map_map]
  rfl

theorem derived_joinReferences (joins : List Join) (i : Nat) :
    ∀ r ∈ joinReferences i joins, r.derived = false := by
  induction joins generalizing i with
  | nil => nofun
  | cons j joins ih => exact List.forall_mem_cons.mpr ⟨rfl, ih _⟩

theorem derived_references (q : Joins) : ∀ r ∈ q.references, r.derived = false :=
  List.forall_mem_cons.mpr ⟨rfl, derived_joinReferences _ _⟩

/-- The references lead to the tables of the relations. -/
theorem entries_eq (q : Joins) (overrides : ColumnOverrides) (c : Catalog) :
    q.entries overrides c =
      q.references.filterMap fun r => Scope.entry? (Scope.ofCatalog overrides c) r.name := by
  simp only [Scope.entry_ofCatalog]
  calc q.entries overrides c
      = (q.relations.map fun r => r.table.value).filterMap
          fun name => (c.named? name).map (Scope.Entry.ofTable overrides) := by
        rw [List.filterMap_map]
        rfl
    _ = (q.references.map (·.name)).filterMap
          fun name => (c.named? name).map (Scope.Entry.ofTable overrides) := by
        rw [names_references]
    _ = _ := by
        rw [List.filterMap_map]
        rfl

theorem AllThere.isSome (h : q.AllThere c) (overrides : ColumnOverrides) :
    ∀ r ∈ q.references, (Scope.entry? (Scope.ofCatalog overrides c) r.name).isSome := by
  intro r hr
  have hname : r.name ∈ q.relations.map fun r => r.table.value := by
    rw [← names_references]
    exact List.mem_map_of_mem hr
  obtain ⟨relation, hrelation, heq⟩ := List.mem_map.mp hname
  rw [Scope.entry_ofCatalog, Option.isSome_map, ← heq]
  exact h relation hrelation

/-! ## The scope -/

/-- The scope holds the tables of the references that count, and misses nothing. -/
theorem AllThere.holds (h : q.AllThere c) (overrides : ColumnOverrides) :
    ∃ seen, (q.scope overrides c).Holds
      ((RelationRef.counted [] q.references).filterMap
        fun r => Scope.entry? (Scope.ofCatalog overrides c) r.name) seen := by
  have hholds := Scope.holds_empty.foldl (Scope.keyed_ofCatalog overrides c)
    (fun r hr => ⟨q.derived_references r hr, h.isSome overrides r hr⟩)
  rw [scope, Scope.narrow, q.references_eq]
  exact hholds

/-- Every relation has its table. -/
theorem AllThere.length_entries (h : q.AllThere c) (overrides : ColumnOverrides) :
    (q.entries overrides c).length = q.relations.length := by
  refine List.filterMap_length_eq_length.mpr fun r hr => ?_
  rw [Option.isSome_map]
  exact h r hr

/-- The scope has one entry for each reference exactly where each one counts. -/
theorem AllThere.eachCounts_iff (h : q.AllThere c) (overrides : ColumnOverrides) :
    RelationRef.EachCounts q.references ↔
      (q.scope overrides c).entries = q.entries overrides c := by
  obtain ⟨seen, hholds⟩ := h.holds overrides
  rw [hholds.entries, entries_eq, ← RelationRef.counted_eq_self_iff]
  constructor
  · intro hcounted
    rw [hcounted]
  · intro hentries
    have hsublist := RelationRef.counted_sublist [] q.references
    have hlength := congrArg List.length hentries
    rw [List.filterMap_length_eq_length.mpr (h.isSome overrides),
      List.filterMap_length_eq_length.mpr fun r hr => h.isSome overrides r (hsublist.subset hr)]
      at hlength
    exact hsublist.eq_of_length hlength

/-- The first reference always counts. -/
theorem AllThere.entries_ne_nil (h : q.AllThere c) (overrides : ColumnOverrides) :
    (q.scope overrides c).entries ≠ [] := by
  obtain ⟨seen, hholds⟩ := h.holds overrides
  have hcounts : (q.first.reference 3).Counts [] :=
    ⟨_, List.mem_cons_self, List.not_mem_nil⟩
  have hsome := h.isSome overrides (q.first.reference 3) List.mem_cons_self
  obtain ⟨e, he⟩ := Option.isSome_iff_exists.mp hsome
  rw [hholds.entries, references, RelationRef.counted, if_pos hcounts]
  intro hnil
  have hnone := List.filterMap_eq_nil_iff.mp hnil _ List.mem_cons_self
  rw [he] at hnone
  cases hnone

theorem lookupAny_of_two {s : Scope} {column : String}
    (h : 2 ≤ s.entries.countP fun e => (e.column? column).isSome) :
    s.lookupAny column = .error (.ambiguous column) := by
  rw [← List.length_filterMap_eq_countP] at h
  unfold Scope.lookupAny
  split
  · next heq =>
      rw [heq] at h
      simp at h
  · rfl
  · next heq =>
      rw [heq] at h
      simp at h

/-! ## The analysis -/

/-- The columns of a list of relations. -/
def columnsOf (entries : List Scope.Entry) : List ResultColumn :=
  entries.flatMap fun e => e.columns.map .ofScope

theorem AllThere.expandAll_eq (h : q.AllThere c) (overrides : ColumnOverrides)
    (position : Position) :
    expandAll (q.scope overrides c) position =
      Pure.pure (columnsOf (q.scope overrides c).entries) := by
  obtain ⟨seen, hholds⟩ := h.holds overrides
  have hempty : (q.scope overrides c).isEmpty = false := by
    rw [Scope.isEmpty, List.isEmpty_eq_false_iff]
    exact h.entries_ne_nil overrides
  have hopaque : (q.scope overrides c).hasOpaque = false := by
    rw [Scope.hasOpaque, hholds.opaqueNames]
    rfl
  unfold expandAll
  rw [hempty, hopaque]
  rfl

theorem AllThere.resolveProjection_eq (h : q.AllThere c) (overrides : ColumnOverrides) :
    resolveProjection .query (q.scope overrides c) [q.item] =
      Pure.pure (columnsOf (q.scope overrides c).entries) := by
  have hitem : resolveItem .query (q.scope overrides c) 1 q.item =
      Pure.pure (columnsOf (q.scope overrides c).entries) := h.expandAll_eq overrides _
  rw [resolveProjection, resolveItems, hitem]
  show (⟨columnsOf _ ++ [], []⟩ : Noted (List ResultColumn)) = ⟨columnsOf _, []⟩
  rw [List.append_nil]

/-- The passes give the columns of the scope and note nothing. -/
theorem AllThere.resolve_eq (h : q.AllThere c) {a : Analyzer} (hcatalog : a.catalog = some c)
    {b : Block} (hquery : b.query = Query.ofTokens b.sql q.tokens) (hhints : b.columnHints = []) :
    a.resolve b q.tokens = Pure.pure (columnsOf (q.scope a.overrides c).entries, []) := by
  obtain ⟨seen, hholds⟩ := h.holds a.overrides
  exact Analyzer.resolve_of_segment hcatalog (hquery.trans (q.query b.sql)) (q.split _)
    hholds.missing (q.validate _) (h.resolveProjection_eq a.overrides) hhints

end Grammar.Joins

/-- A star over joined tables gives the columns of the relations in its scope, in order and without
a note, and these are the tables of all references exactly where each reference brings a name that
none before it has.  A column that two of them have is ambiguous. -/
theorem Analyzer.analyze_joins (a : Analyzer) {c : Catalog} {b : Block} {q : Grammar.Joins}
    (hcatalog : a.catalog = some c) (htokens : tokenizeAt b.sql b.position = .ok q.tokens)
    (hparse : Query.parse b.sql b.position = .ok b.query) (hhints : b.columnHints = [])
    (hthere : q.AllThere c) :
    (RelationRef.EachCounts q.references ↔
        (q.scope a.overrides c).entries = q.entries a.overrides c) ∧
      (q.entries a.overrides c).length = q.relations.length ∧
      (a.analyze b).columns =
        (q.scope a.overrides c).entries.flatMap (fun e => e.columns.map .ofScope) ∧
      (a.analyze b).diagnostics = [] ∧
      ∀ column, 2 ≤ (q.scope a.overrides c).entries.countP (fun e => (e.column? column).isSome) →
        (q.scope a.overrides c).lookupAny column = .error (.ambiguous column) := by
  have hquery : b.query = Query.ofTokens b.sql q.tokens := by
    rw [Query.parse, htokens] at hparse
    exact (Except.ok.inj hparse).symm
  have hresolve := hthere.resolve_eq hcatalog hquery hhints
  refine ⟨hthere.eachCounts_iff _, hthere.length_entries _, ?_, ?_,
    fun column => Grammar.Joins.lookupAny_of_two⟩
  · rw [analyze, htokens]
    exact congrArg (·.value.1) hresolve
  · rw [analyze, htokens]
    exact congrArg (fun found => distinct b.path found.notes) hresolve

/-- The statement `SELECT * FROM users JOIN users u`. -/
def Grammar.Joins.twice : Grammar.Joins where
  select := ⟨.keyword, "SELECT", ⟨0, 6⟩, ⟨1, 1⟩⟩
  star := ⟨.star, "*", ⟨7, 8⟩, ⟨1, 8⟩⟩
  source := ⟨.keyword, "FROM", ⟨9, 13⟩, ⟨1, 10⟩⟩
  first := ⟨⟨.identifier, "users", ⟨14, 19⟩, ⟨1, 15⟩⟩, none, .inl ⟨rfl, by decide +kernel⟩⟩
  rest := [⟨⟨.keyword, "JOIN", ⟨20, 24⟩, ⟨1, 21⟩⟩,
    ⟨⟨.identifier, "users", ⟨25, 30⟩, ⟨1, 26⟩⟩,
      some ⟨none, ⟨.identifier, "u", ⟨31, 32⟩, ⟨1, 32⟩⟩, nofun, .inl ⟨rfl, by decide +kernel⟩,
        by decide +kernel⟩, .inl ⟨rfl, by decide +kernel⟩⟩, .of_text rfl⟩]
  hselect := .of_text rfl
  hstar := rfl
  hsource := .of_text rfl

/-- The table comes twice where its second reference has an alias. -/
theorem Analyzer.columns_of_twice :
    (ofUsers.analyze (.plain "SELECT * FROM users JOIN users u")).columns.map (·.name) =
        ["id", "name", "id", "name"] ∧
      (ofUsers.analyze (.plain "SELECT * FROM users JOIN users u")).diagnostics = [] := by
  have h := ofUsers.analyze_joins (b := .plain "SELECT * FROM users JOIN users u") (q := .twice)
    rfl (by decide +kernel) (by decide +kernel) rfl (by decide +kernel)
  refine ⟨?_, h.2.2.2.1⟩
  rw [h.2.2.1]
  decide +kernel

/-- The table comes once where its first reference has an alias, though the two references are
seen under different names; in the other order it comes twice. -/
theorem Analyzer.columns_of_aliasFirst :
    eqIgnoreCase "u" "users" = false ∧
      (ofUsers.analyze (.plain "SELECT * FROM users u JOIN users")).columns.map (·.name) =
        ["id", "name"] ∧
      (ofUsers.analyze (.plain "SELECT * FROM users JOIN users u")).columns.map (·.name) =
        ["id", "name", "id", "name"] := by
  rw [analyze_plain_ofList, analyze_plain_ofList]
  decide +kernel

end TypedSql

import Mathlib.Data.List.Nodup
import TypedSql.Analysis.Statement
import TypedSql.Proofs.Diagnostic.Distinct
import TypedSql.Proofs.Reference.Items
import TypedSql.Proofs.Reference.Selection
import TypedSql.Proofs.Report.PassNotes
import TypedSql.Proofs.Scope.Lookup

/-!
# The errors of references

References are looked up twice: when the projected items are typed, and in the scan for
identifiers.  The scan finds all of them, typing some of them, and both say the same of a
reference.  As each issue is kept once, every bad reference is one error, and nothing else is.

Main statements: `Selection.mem_resolve_notes`, `Analyzer.errors_of_selection`.
-/

namespace TypedSql

open Diagnostic Query Text Token

/-! ## Annotations -/

theorem Diagnostic.OfType.aside {d : Diagnostic} (h : d.OfType) : d.Aside := by
  obtain ⟨position, rest, rfl⟩ := h
  exact .of_append _ 10 (by decide +kernel) (by decide +kernel) (by decide +kernel)

namespace Analyzer

theorem annotateColumn_notes (columns : List ResultColumn) (hint : TypeHint) :
    ∀ d ∈ (annotateColumn columns hint).notes, d.Aside := by
  intro d hd
  unfold annotateColumn at hd
  split at hd
  · cases List.mem_singleton.mp hd
    rw [String.append_assoc]
    exact .of_append _ 1 (by decide +kernel) (by decide +kernel) (by decide +kernel)
  · split at hd
    · cases hd
    · cases List.mem_singleton.mp hd
      rw [String.append_assoc, String.append_assoc, String.append_assoc]
      exact OfType.aside ⟨_, _, rfl⟩

theorem annotateColumns_notes (columns : List ResultColumn) (hints : List TypeHint) :
    ∀ d ∈ (annotateColumns columns hints).notes, d.Aside := by
  induction hints generalizing columns with
  | nil => exact nofun
  | cons hint rest ih =>
      intro d hd
      rw [annotateColumns] at hd
      rcases List.mem_append.mp hd with hd | hd
      · exact annotateColumn_notes columns hint d hd
      · exact ih _ d hd

end Analyzer

/-! ## The error of a reference -/

namespace Grammar

/-- What is wrong with a reference where the columns of `t` are there under the two names of the
statement. -/
def ColumnRef.error? (path : String) (q : Selection) (t : Table) (r : ColumnRef) :
    Option Diagnostic :=
  if eqIgnoreCase r.qualifier.value q.table.value ||
      eqIgnoreCase r.qualifier.value q.aliasName.value then
    if t.hasColumn r.column.value then none
    else
      some (.error .unknownColumn
        ("unknown column '" ++ r.column.value ++ "' in '" ++ r.qualifier.value ++ "'") path
        r.qualifier.position none)
  else
    some (.error .unknownRelation ("unknown table or alias '" ++ r.qualifier.value ++ "'") path
      r.qualifier.position none)

section Error

variable {path : String} {q : Selection} {t : Table} {r : ColumnRef} {d : Diagnostic}

/-- Such an error is one, stands at the qualifier, and is about a name that is not found. -/
theorem ColumnRef.of_error? (h : r.error? path q t = some d) :
    d.isError = true ∧ d.position = r.qualifier.position ∧ d.path = path ∧
      (d.message = (Scope.LookupError.unknownRelation r.qualifier.value).message ∨
        d.message =
          (Scope.LookupError.unknownColumn r.qualifier.value r.column.value).message) := by
  unfold error? at h
  split at h
  · split at h
    · cases h
    · cases h
      exact ⟨rfl, rfl, rfl, .inr rfl⟩
  · cases h
    exact ⟨rfl, rfl, rfl, .inl rfl⟩

/-- The collector's path is put in. -/
theorem ColumnRef.error?_stamp (path : String) (q : Selection) (t : Table) (r : ColumnRef) :
    (r.error? "" q t).map (Diagnostic.stamp path) = r.error? path q t := by
  unfold error?
  split
  · split <;> rfl
  · rfl

end Error

namespace Selection

/-- The scope that the statement sees. -/
def scope (q : Selection) (overrides : ColumnOverrides) (c : Catalog) : Scope :=
  (Scope.ofCatalog overrides c).narrow q.tokens

variable {q : Selection} {overrides : ColumnOverrides} {c : Catalog} {t : Table}

theorem scope_eq (q : Selection) (overrides : ColumnOverrides) (c : Catalog) :
    q.scope overrides c = (Scope.ofCatalog overrides c).addReference .empty q.reference := by
  rw [scope, Scope.narrow, q.references]
  rfl

theorem entry_table (htable : c.named? q.table.value = some t) :
    Scope.entry? (Scope.ofCatalog overrides c) q.reference.name =
      some (Scope.Entry.ofTable overrides t) := by
  show Scope.entry? (Scope.ofCatalog overrides c) q.table.value = _
  rw [Scope.entry_ofCatalog, htable]
  rfl

theorem missing_scope (htable : c.named? q.table.value = some t) :
    (q.scope overrides c).missing = [] := by
  rw [scope_eq]
  exact Scope.missing_addReference_empty rfl (entry_table htable)

/-- The scan notes exactly the error of a reference. -/
theorem notes_eq (htable : c.named? q.table.value = some t) (r : ColumnRef) :
    r.notes (q.scope overrides c) = (r.error? "" q t).toList := by
  have hname : eqIgnoreCase (Scope.Entry.ofTable overrides t).name q.reference.name = true := by
    rw [Scope.Entry.name_ofTable]
    exact Catalog.name_of_named? htable
  have hlookup := Scope.lookupIn_addReference (r := q.reference) rfl (entry_table htable) hname rfl
    r.qualifier.value r.column.value
  rw [← scope_eq] at hlookup
  have hlookup : (q.scope overrides c).lookup (some r.qualifier.value) r.column.value = _ := hlookup
  have hcolumn := Scope.Entry.isSome_column?_ofTable overrides t r.column.value
  unfold ColumnRef.notes Identifier.check ColumnRef.error?
  rw [hlookup]
  show _ = Option.toList (if (eqIgnoreCase r.qualifier.value q.reference.name ||
    eqIgnoreCase r.qualifier.value q.aliasName.value) = true then _ else _)
  cases eqIgnoreCase r.qualifier.value q.reference.name ||
      eqIgnoreCase r.qualifier.value q.aliasName.value with
  | false => rfl
  | true =>
      rw [if_pos rfl, if_pos rfl]
      cases hfound : (Scope.Entry.ofTable overrides t).column? r.column.value with
      | none =>
          rw [hfound] at hcolumn
          rw [← hcolumn]
          rfl
      | some column =>
          rw [hfound] at hcolumn
          rw [← hcolumn]
          rfl

/-! ## All notes -/

/-- The one segment of the statement. -/
def segment (q : Selection) (overrides : ColumnOverrides) (c : Catalog) : Segment :=
  ⟨[⟨0, q.tokens.length⟩], q.scope overrides c, false⟩

variable {b : Block}

theorem checkSegment_notes (q : Selection) (overrides : ColumnOverrides) (c : Catalog) (b : Block)
    (columns : List ResultColumn) :
    (Analyzer.checkSegment b q.tokens [] columns (q.segment overrides c)).notes =
      q.refs.flatMap (ColumnRef.notes (q.scope overrides c)) := by
  have hwhole : Range.tokens ⟨0, q.tokens.length⟩ q.tokens = q.tokens := by
    rw [Range.tokens, List.drop_zero, Nat.sub_zero, List.take_length]
  show (Identifier.validate _ _ (Range.tokens ⟨0, q.tokens.length⟩ q.tokens)).notes ++ [] = _
  rw [hwhole, q.validate_notes, List.append_nil]
  rfl

/-- The notes of the passes over a catalog: those of the items, of the parameters, and of the
scan for identifiers. -/
theorem resolveWith_notes (hquery : b.query = Query.ofTokens b.sql q.tokens)
    (htable : c.named? q.table.value = some t) :
    (Analyzer.resolveWith overrides c b q.tokens []).notes =
      (resolveProjection .query (q.scope overrides c) (readProjection b.sql q.items)).notes ++
        ((finishParams b q.tokens (paramHints
          ⟨q.tokens, [q.segment overrides c], .ofCatalog overrides c, c⟩
          (readParams q.tokens))).notes ++
        q.refs.flatMap (ColumnRef.notes (q.scope overrides c))) := by
  have hsegments : Segment.split (.ofCatalog overrides c) q.tokens = [q.segment overrides c] :=
    q.split _
  have hmissing : (Analyzer.noteMissing [q.segment overrides c]).notes = [] := by
    show (q.scope overrides c).missing.flatMap _ ++ [] = []
    rw [missing_scope htable]
    rfl
  unfold Analyzer.resolveWith
  rw [hquery, q.query]
  simp only [resolveCtes, Noted.notes_bind, Noted.value_pure, Noted.notes_pure, hsegments,
    hmissing]
  show _ ++ ([] ++ (_ ++ (((Analyzer.checkSegment b q.tokens [] _ (q.segment overrides c)).notes ++
    []) ++ []))) = _
  rw [checkSegment_notes, List.append_nil, List.append_nil]
  rfl

variable {a : Analyzer}

/-- Every note is about a reference of the statement or an aside, and every reference is noted as
in the scan for identifiers. -/
theorem mem_resolve_notes (hcatalog : a.catalog = some c)
    (hquery : b.query = Query.ofTokens b.sql q.tokens) (htable : c.named? q.table.value = some t)
    {p : Position} (hreads : CleanReads b.sql.toList 0 p q.tokens) :
    (∀ d ∈ (a.resolve b q.tokens).notes, Explained (q.scope a.overrides c) q.refs d) ∧
      ∀ d ∈ q.refs.flatMap (ColumnRef.notes (q.scope a.overrides c)),
        d ∈ (a.resolve b q.tokens).notes := by
  have hreturning : Analyzer.returningItems b q.tokens = [] := by
    rw [Analyzer.returningItems, hquery, q.query]
    rfl
  have hnotes : ∃ columns, (a.resolve b q.tokens).notes =
      (Analyzer.resolveWith a.overrides c b q.tokens []).notes ++
        ((Analyzer.annotateColumns columns b.columnHints).notes ++ []) := by
    unfold Analyzer.resolve
    rw [hreturning, hcatalog]
    exact ⟨_, rfl⟩
  obtain ⟨columns, hnotes⟩ := hnotes
  rw [hnotes, resolveWith_notes hquery htable]
  constructor
  · intro d hd
    rcases List.mem_append.mp hd with hd | hd
    · rcases List.mem_append.mp hd with hd | hd
      · have hitems : CleanReads b.sql.toList 0 p ([q.select] ++ (q.items ++
          (q.source :: q.table :: q.asWord :: q.aliasName :: q.tail))) := hreads
        exact (q.hitems.resolve_notes hitems 0 d hd).left
      · rcases List.mem_append.mp hd with hd | hd
        · exact .inr (ofType_finishFrom _ _ _ _ _ d hd).aside
        · exact .inl hd
    · rw [List.append_nil] at hd
      exact .inr (Analyzer.annotateColumns_notes columns b.columnHints d hd)
  · intro d hd
    exact List.mem_append_left _ (List.mem_append_right _ (List.mem_append_right _ hd))

/-- No two references stand at the same position. -/
theorem nodup_positions {cs : List Char} {o : Nat} {p : Position}
    (hreads : CleanReads cs o p q.tokens) :
    (q.refs.map fun r => r.qualifier.position).Nodup := by
  have hpairs := hreads.positions_increase.sublist q.sublist
  rw [List.pairwise_map] at hpairs
  rw [List.nodup_iff_pairwise_ne, List.pairwise_map]
  exact hpairs.imp fun h => h.ne

/-- What is collected of the notes: the errors are those of the references. -/
theorem mem_errors_iff {ds : List Diagnostic} (htable : c.named? q.table.value = some t)
    {cs : List Char} {o : Nat} {p : Position} (hreads : CleanReads cs o p q.tokens)
    (hexplained : ∀ d ∈ ds, Explained (q.scope overrides c) q.refs d)
    (hall : ∀ d ∈ q.refs.flatMap (ColumnRef.notes (q.scope overrides c)), d ∈ ds) {path : String}
    {d : Diagnostic} :
    d ∈ (distinct path ds).filter isError ↔ d ∈ q.refs.filterMap (ColumnRef.error? path q t) := by
  have hnote {e : Diagnostic} (he : e ∈ q.refs.flatMap (ColumnRef.notes (q.scope overrides c))) :
      ∃ r ∈ q.refs, r.error? path q t = some (e.stamp path) := by
    obtain ⟨r, hr, he⟩ := List.mem_flatMap.mp he
    rw [notes_eq htable, Option.mem_toList] at he
    refine ⟨r, hr, ?_⟩
    rw [← ColumnRef.error?_stamp, Option.mem_def.mp he]
    rfl
  rw [List.mem_filter, List.mem_filterMap]
  constructor
  · rintro ⟨hd, herror⟩
    obtain ⟨e, he, rfl⟩ := mem_distinct hd
    rcases hexplained e he with he | haside
    · exact hnote he
    · rw [isError_stamp, haside.warning] at herror
      cases herror
  · rintro ⟨r, hr, hd⟩
    obtain ⟨herror, hposition, -, hmessage⟩ := ColumnRef.of_error? hd
    obtain ⟨e, he, rfl⟩ : ∃ e, r.error? "" q t = some e ∧ e.stamp path = d := by
      rw [← ColumnRef.error?_stamp] at hd
      exact Option.map_eq_some_iff.mp hd
    have hthere : e ∈ ds := by
      refine hall e (List.mem_flatMap.mpr ⟨r, hr, ?_⟩)
      rw [notes_eq htable, he]
      exact List.mem_singleton_self e
    obtain ⟨d', hd', hissue⟩ := exists_mem_distinct path hthere
    obtain ⟨e', he', rfl⟩ := mem_distinct hd'
    -- What was kept for the issue is the same error, as no other reference stands there.
    rcases hexplained e' he' with he' | haside
    · obtain ⟨r', hr', herror'⟩ := hnote he'
      obtain ⟨-, hposition', -, -⟩ := ColumnRef.of_error? herror'
      have hsame : r' = r := by
        refine List.inj_on_of_nodup_map (nodup_positions hreads) hr' hr ?_
        show r'.qualifier.position = r.qualifier.position
        rw [← hposition', ← hposition]
        exact congrArg Issue.position hissue
      subst hsame
      have heq : e.stamp path = e'.stamp path := Option.some.inj (hd.symm.trans herror')
      rw [heq] at herror ⊢
      exact ⟨hd', herror⟩
    · have hsame : (e'.stamp path).message = (e.stamp path).message :=
        congrArg Issue.message hissue
      rw [message_stamp] at hsame
      rcases hmessage with hmessage | hmessage
      · exact absurd (hsame.trans hmessage) (haside.relation _)
      · exact absurd (hsame.trans hmessage) (haside.column _ _)

end Selection

end Grammar

/-- Of a statement of the grammar over a table, every bad reference is one error at its first
token, and there is no other error. -/
theorem Analyzer.errors_of_selection (a : Analyzer) {c : Catalog} {t : Table} {b : Block}
    {q : Grammar.Selection} (hcatalog : a.catalog = some c)
    (hreturn : noBareReturn b.sql.toList = true)
    (htokens : tokenizeAt b.sql b.position = .ok q.tokens)
    (hparse : Query.parse b.sql b.position = .ok b.query)
    (htable : c.named? q.table.value = some t) :
    ((a.analyze b).diagnostics.filter isError).Perm
        (q.refs.filterMap (Grammar.ColumnRef.error? b.path q t)) ∧
      ((∀ r ∈ q.refs, r.error? b.path q t = none) → (a.analyze b).hasErrors = false) := by
  have hreads : CleanReads b.sql.toList 0 b.position q.tokens :=
    (tokenizeAt_eq_ok_iff.mp htokens).clean hreturn
  have hquery : b.query = Query.ofTokens b.sql q.tokens := by
    rw [Query.parse, htokens] at hparse
    exact (Except.ok.inj hparse).symm
  have hdiagnostics : (a.analyze b).diagnostics =
      distinct b.path (a.resolve b q.tokens).notes := by
    rw [analyze, htokens]
  obtain ⟨hexplained, hall⟩ := Grammar.Selection.mem_resolve_notes hcatalog hquery htable hreads
  have hperm : ((a.analyze b).diagnostics.filter isError).Perm
      (q.refs.filterMap (Grammar.ColumnRef.error? b.path q t)) := by
    rw [hdiagnostics]
    have hkept : ((distinct b.path (a.resolve b q.tokens).notes).filter isError).Nodup :=
      ((nodup_issue_distinct b.path _).of_map issue).filter _
    have hwanted : (q.refs.filterMap (Grammar.ColumnRef.error? b.path q t)).Nodup := by
      -- The errors of two references stand at two positions.
      have hpositions := Grammar.Selection.nodup_positions hreads
      rw [List.nodup_iff_pairwise_ne, List.pairwise_map] at hpositions
      rw [List.nodup_iff_pairwise_ne, List.pairwise_filterMap]
      refine hpositions.imp fun hne d hd d' hd' heq => hne ?_
      rw [← (Grammar.ColumnRef.of_error? hd).2.1, ← (Grammar.ColumnRef.of_error? hd').2.1, heq]
    rw [List.perm_ext_iff_of_nodup hkept hwanted]
    exact fun d => Grammar.Selection.mem_errors_iff htable hreads hexplained hall
  refine ⟨hperm, fun hgood => ?_⟩
  have hnone : q.refs.filterMap (Grammar.ColumnRef.error? b.path q t) = [] :=
    List.filterMap_eq_nil_iff.mpr hgood
  rw [hnone, List.perm_nil, List.filter_eq_nil_iff] at hperm
  rw [Analysis.hasErrors, List.any_eq_false]
  exact hperm

/-- The statement `SELECT "B"."x" AS "n" FROM "T" AS "A" WHERE ?`. -/
def Grammar.Selection.sample : Grammar.Selection where
  select := ⟨.keyword, "SELECT", ⟨0, 6⟩, ⟨1, 1⟩⟩
  items := [⟨.quotedIdentifier, "\"B\"", ⟨7, 10⟩, ⟨1, 8⟩⟩, ⟨.dot, ".", ⟨10, 11⟩, ⟨1, 11⟩⟩,
    ⟨.quotedIdentifier, "\"x\"", ⟨11, 14⟩, ⟨1, 12⟩⟩] ++
    [⟨.keyword, "AS", ⟨15, 17⟩, ⟨1, 16⟩⟩, ⟨.quotedIdentifier, "\"n\"", ⟨18, 21⟩, ⟨1, 19⟩⟩]
  source := ⟨.keyword, "FROM", ⟨22, 26⟩, ⟨1, 23⟩⟩
  table := ⟨.quotedIdentifier, "\"T\"", ⟨27, 30⟩, ⟨1, 28⟩⟩
  asWord := ⟨.keyword, "AS", ⟨31, 33⟩, ⟨1, 32⟩⟩
  aliasName := ⟨.quotedIdentifier, "\"A\"", ⟨34, 37⟩, ⟨1, 35⟩⟩
  filter := ⟨.keyword, "WHERE", ⟨38, 43⟩, ⟨1, 39⟩⟩
  condition := [⟨.parameter, "?", ⟨44, 45⟩, ⟨1, 45⟩⟩]
  itemRefs := [⟨⟨.quotedIdentifier, "\"B\"", ⟨7, 10⟩, ⟨1, 8⟩⟩,
    ⟨.quotedIdentifier, "\"x\"", ⟨11, 14⟩, ⟨1, 12⟩⟩⟩]
  conditionRefs := []
  hselect := ⟨rfl, by decide +kernel⟩
  hitems := .single (.operand (.reference rfl ⟨rfl, rfl⟩ rfl)) ⟨rfl, by decide +kernel⟩ rfl
  hsource := ⟨rfl, by decide +kernel⟩
  htable := rfl
  hasWord := ⟨rfl, by decide +kernel⟩
  halias := rfl
  hfilter := ⟨rfl, by decide +kernel⟩
  hcondition := .operand (.parameter rfl)

/-- A block with that statement and without annotations. -/
def Query.Block.sample : Block where
  name := "Sample"
  command := .many
  path := "sample.sql"
  position := .first
  sql := "SELECT \"B\".\"x\" AS \"n\" FROM \"T\" AS \"A\" WHERE ?"
  doc := none
  query := ⟨.select, [⟨.column (some "B") "x", some "n", ⟨1, 8⟩⟩],
    [⟨.positional, ⟨1, 45⟩, false, false⟩], [], false⟩
  paramHints := []
  columnHints := []

/-- A reference to neither the table nor its alias. -/
theorem Analyzer.errors_of_sample :
    ((Analyzer.analyze ⟨some (Catalog.empty.addTable (.bare "T")), .empty⟩
        .sample).diagnostics.filter isError).Perm
      (Grammar.Selection.sample.refs.filterMap
        (Grammar.ColumnRef.error? "sample.sql" .sample (.bare "T"))) :=
  (Analyzer.errors_of_selection _ rfl (by decide +kernel) (by decide +kernel) (by decide +kernel)
    (by decide +kernel)).1

end TypedSql

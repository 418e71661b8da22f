import TypedSql.Proofs.Report.Layout
import TypedSql.Proofs.Report.Overrides

/-!
# A bare name in two passes

The name in `SELECT n FROM t` is looked up twice: as an output column, and among the identifiers of
the statement.  Both passes see the one table of the statement and report a column that it has not
in the same words at the same place.  The check of identifiers has exceptions of its own, and the
words with a meaning of their own that are no keywords are among them, so these are reported as
output columns alone.

Main statement: `Grammar.OneColumn.bare_name_in_both_passes`.
-/

namespace TypedSql

open Diagnostic Query Text Token

/-- A name that no opaque relation can own is reported alike as an output column and as an
identifier. -/
theorem notes_inferColumn {s : Scope} {name : String} (h : s.hasOpaque = false)
    (position : Position) :
    (inferColumn .query s none name position).notes =
      (Identifier.check s none name position).notes := by
  unfold inferColumn Identifier.check
  cases hfound : s.lookup none name with
  | ok d => rfl
  | error e =>
      have hmistake : e.isMistake = true := by
        rw [Scope.lookup, Scope.lookupAny, h] at hfound
        split at hfound
        · cases hfound
        · cases hfound
          rfl
        · cases hfound
          rfl
      simp only [Mode.noteLookup, hmistake, if_true, Noted.notes_bind, Noted.notes_pure,
        List.append_nil]

namespace Grammar.OneColumn

variable (q : OneColumn)

/-! ## The statement -/

theorem places_eq : places q.tokens =
    [⟨0, 0, none, q.select⟩, ⟨1, 0, some q.select, q.column⟩, ⟨2, 0, some q.column, q.source⟩,
      ⟨3, 0, some q.source, q.relation⟩] := by
  have hrelation {kind : Kind} (h : kind ∉ [Kind.star, .identifier, .quotedIdentifier, .keyword]) :
      q.relation.kind ≠ kind := (JoinToken.name q.hrelation).kind_ne h
  show placesAt 0 none 0 q.tokens = _
  rw [tokens, placesAt_cons (by rw [q.hselect.1]; decide) (by rw [q.hselect.1]; decide),
    placesAt_cons (q.column_kind_ne (by decide)) (q.column_kind_ne (by decide)),
    placesAt_cons (by rw [q.hsource.1]; decide) (by rw [q.hsource.1]; decide),
    placesAt_cons (hrelation (by decide)) (hrelation (by decide))]
  rfl

theorem statementStart_eq : statementStart q.tokens = 0 :=
  statementStart_select q.select_isWord _

/-- The statement is one segment. -/
theorem split (base : Scope) :
    Segment.split base q.tokens = [⟨[⟨0, q.tokens.length⟩], base.narrow q.tokens, false⟩] := by
  refine split_of_outside q.statementStart_eq ?_ ?_ base
  · rintro t ⟨⟩
    rw [q.hselect.isAnyWord]
    decide
  · exact outside_of_joinTokens q.joinToken fun t ht =>
      (q.joinToken t ht).isAnyWord (by decide) (by decide)

theorem items_query (sql : String) : (Query.ofTokens sql q.tokens).items = [q.item] := by
  rw [tokens, ofTokens_select q.select_isWord]
  exact q.items_eq sql

/-! ## The check of identifiers -/

/-- Without a name behind it that says more, a token marks nothing. -/
theorem rangesAt_of_next {i d : Nat} {before : Option Token} {t : Token} {rest : List Place}
    (hbefore : QuietBefore before) (hopen : t.kind ≠ .leftParen)
    (hindex : nextIsWord "BY" rest = false) (hdot : nextIsKind .dot rest = false) :
    Identifier.rangesAt ⟨i, d, before, t⟩ rest = [] := by
  simp only [Identifier.rangesAt, hbefore.introduced, hindex, hdot, if_neg hopen, Bool.and_false,
    Bool.false_eq_true, if_false, List.append_nil]

variable {q}

/-- Only the name of the table is left out of the check. -/
theorem skippedRanges_eq (hbare : q.column.IsBareName) :
    Identifier.skippedRanges q.tokens = [Identifier.single 3] := by
  have hby {t : Token} (h : t.isAnyWord ["BY"] = false) : t.isWord "BY" = false :=
    isWord_of_isAnyWord h (by decide)
  have hselect : Identifier.rangesAt ⟨0, 0, none, q.select⟩ [⟨1, 0, some q.select, q.column⟩,
      ⟨2, 0, some q.column, q.source⟩, ⟨3, 0, some q.source, q.relation⟩] = [] :=
    rangesAt_of_next (by rintro t ⟨⟩) (by rw [q.hselect.1]; decide)
      (hby (q.hcolumn.isAnyWord (by decide)))
      (beq_eq_false_iff_ne.mpr (q.column_kind_ne (by decide)))
  have hcolumn : Identifier.rangesAt ⟨1, 0, some q.select, q.column⟩
      [⟨2, 0, some q.column, q.source⟩, ⟨3, 0, some q.source, q.relation⟩] = [] := by
    refine rangesAt_of_next (.some (quiet_of_keyword q.hselect (by decide)))
      (q.column_kind_ne (by decide)) ?_ ?_
    · exact (q.hsource.isWord "BY").trans (by decide)
    · exact beq_eq_false_iff_ne.mpr (by rw [q.hsource.1]; decide)
  have hsource : Identifier.rangesAt ⟨2, 0, some q.column, q.source⟩
      [⟨3, 0, some q.source, q.relation⟩] = [] :=
    rangesAt_of_next (.some (quiet_of_bareName hbare)) (by rw [q.hsource.1]; decide)
      (hby (q.hrelation.isAnyWord (by decide)))
      (beq_eq_false_iff_ne.mpr ((JoinToken.name q.hrelation).kind_ne (by decide)))
  have hrelation : Identifier.rangesAt ⟨3, 0, some q.source, q.relation⟩ [] = [] :=
    rangesAt_of_next (.some (quiet_of_keyword q.hsource (by decide)))
      ((JoinToken.name q.hrelation).kind_ne (by decide)) rfl rfl
  rw [Identifier.skippedRanges, q.references_eq, q.places_eq]
  simp only [Identifier.rangesOf, hselect, hcolumn, hsource, hrelation]
  rfl

/-- Of the statement only its name is checked, unless it is a word with a meaning of its own. -/
theorem notes_validate (hbare : q.column.IsBareName) (s : Scope) (known : List String) :
    (Identifier.validate s known q.tokens).notes =
      if q.column.isAnyWord Identifier.contextWords then []
      else (Identifier.checkBare s known q.column).notes := by
  have hkeyword {i d : Nat} {before : Option Token} {t : Token} {word : String}
      (h : t.IsKeyword word) :
      Identifier.isCandidate [Identifier.single 3] ⟨i, d, before, t⟩ = false := by
    refine isCandidate_of_checked ?_ _
    show t.isIdentifier = false
    rw [isIdentifier, h.1]
    rfl
  have hrelation : Identifier.isCandidate [Identifier.single 3]
      ⟨3, 0, some q.source, q.relation⟩ = false := isCandidate_of_isSkipped (isSkipped_single 3)
  have hcolumn : Identifier.isCandidate [Identifier.single 3] ⟨1, 0, some q.select, q.column⟩ =
      !q.column.isAnyWord Identifier.contextWords := by
    have hdot : (q.select.kind == .dot) = false := by
      rw [q.hselect.1]
      rfl
    have hidentifier : q.column.isIdentifier = true := by
      rw [isIdentifier, hbare.1]
      rfl
    have hskipped : Identifier.isSkipped [Identifier.single 3] 1 = false :=
      isSkipped_single_of_ne (by decide)
    simp only [Identifier.isCandidate, hskipped, Option.any_some, hdot, hidentifier, hbare.1,
      beq_self_eq_true, Bool.not_false, Bool.true_and]
  have hrest : Identifier.checkPlaces s known [Identifier.single 3]
      [⟨2, 0, some q.column, q.source⟩, ⟨3, 0, some q.source, q.relation⟩] = Pure.pure () := by
    rw [checkPlaces_cons (hkeyword q.hsource), checkPlaces_cons hrelation]
    exact Identifier.checkPlaces.eq_1 ..
  have hparen : nextIsKind .leftParen [⟨2, 0, some q.column, q.source⟩,
      ⟨3, 0, some q.source, q.relation⟩] = false :=
    beq_eq_false_iff_ne.mpr (by rw [q.hsource.1]; decide)
  have hdot : nextIsKind .dot [⟨2, 0, some q.column, q.source⟩,
      ⟨3, 0, some q.source, q.relation⟩] = false :=
    beq_eq_false_iff_ne.mpr (by rw [q.hsource.1]; decide)
  rw [Identifier.validate, q.statementStart_eq, List.drop_zero]
  show (Identifier.checkPlaces s known (Identifier.skippedRanges q.tokens) (places q.tokens)).notes
    = _
  rw [skippedRanges_eq hbare, q.places_eq, checkPlaces_cons (hkeyword q.hselect),
    Identifier.checkPlaces, hcolumn, hparen, hdot, hrest]
  cases q.column.isAnyWord Identifier.contextWords with
  | true => rfl
  | false => exact List.append_nil _

/-! ## Both passes -/

/-- What is noted of the output columns of the statement. -/
def projectionNotes (q : OneColumn) (base : Scope) (sql : String) : List Diagnostic :=
  (resolveProjection .query (base.narrow q.tokens) (Query.ofTokens sql q.tokens).items).notes

/-- What the check of identifiers notes of the statement, where these names are known. -/
def identifierNotes (q : OneColumn) (base : Scope) (known : List String) : List Diagnostic :=
  (Identifier.validate (base.narrow q.tokens) known q.tokens).notes

variable {c : Catalog} {t : Table} {known : List String}

/-- As an output column a name is reported where the table has no column of that name. -/
theorem projectionNotes_eq (overrides : ColumnOverrides) (ht : c.named? q.relation.value = some t)
    (sql : String) :
    q.projectionNotes (.ofCatalog overrides c) sql =
        (Identifier.check ((Scope.ofCatalog overrides c).narrow q.tokens) none q.column.value
          q.column.position).notes ∧
      q.projectionNotes (.ofCatalog overrides c) sql =
        if t.hasColumn q.column.value then []
        else
          let missing : Scope.LookupError := .noSuchColumn q.column.value
          (Noted.error missing.code q.column.position missing.message).notes := by
  have hentry : Scope.entry? (Scope.ofCatalog overrides c) q.relation.value =
      some (.ofTable overrides t) := by
    rw [Scope.entry_ofCatalog, ht]
    rfl
  have hscope := q.narrow_eq hentry
  have hnotes : q.projectionNotes (.ofCatalog overrides c) sql =
      (Identifier.check ((Scope.ofCatalog overrides c).narrow q.tokens) none q.column.value
        q.column.position).notes := by
    have hopaque : ((Scope.ofCatalog overrides c).narrow q.tokens).hasOpaque = false := by
      rw [hscope]
      rfl
    have hitem (s : Scope) : (resolveItem .query s (0 + 1) q.item).notes =
        (inferColumn .query s none q.column.value q.column.position).notes ++ [] := rfl
    rw [projectionNotes, q.items_query, resolveProjection, resolveItems, Noted.notes_bind, hitem,
      notes_inferColumn hopaque]
    show ((_ ++ []) ++ []) = _
    rw [List.append_nil, List.append_nil]
  refine ⟨hnotes, ?_⟩
  rw [hnotes, Identifier.check, hscope, Scope.lookup_addEntry_empty,
    ← Scope.Entry.isSome_column?_ofTable overrides]
  cases (Scope.Entry.ofTable overrides t).column? q.column.value <;> rfl

/-- The two passes over `SELECT n FROM t`, in the scope of its one segment, where `n` is neither an
alias nor a common table expression, and no name of the row number that the table leaves without a
column.  As an output column `n` is reported as an error exactly where the table has no column of
that name.  The check of identifiers notes the very same, unless `n` is a word with a meaning of its
own, of which it notes nothing. -/
theorem bare_name_in_both_passes (overrides : ColumnOverrides) (hbare : q.column.IsBareName)
    (ht : c.named? q.relation.value = some t)
    (hknown : known.contains q.column.normalized = false)
    (hrow : Identifier.rowNumbers.contains q.column.normalized = true →
      t.hasColumn q.column.value = true) (sql : String) :
    let base := Scope.ofCatalog overrides c
    Segment.split base q.tokens = [⟨[⟨0, q.tokens.length⟩], base.narrow q.tokens, false⟩] ∧
      ((q.projectionNotes base sql).any isError = true ↔ t.hasColumn q.column.value = false) ∧
      (q.column.isAnyWord Identifier.contextWords = false →
        q.identifierNotes base known = q.projectionNotes base sql) ∧
      (q.column.isAnyWord Identifier.contextWords = true → q.identifierNotes base known = []) := by
  intro base
  obtain ⟨hlookup, hnotes⟩ := projectionNotes_eq overrides ht sql
  have hchecked : q.identifierNotes base known = _ := notes_validate hbare _ known
  refine ⟨q.split base, ?_, fun hcontext => ?_, fun hcontext => ?_⟩
  · rw [hnotes]
    cases t.hasColumn q.column.value with
    | true => exact iff_of_false Bool.false_ne_true (Bool.false_ne_true ∘ Eq.symm)
    | false => exact iff_of_true rfl rfl
  · rw [hchecked, hcontext, if_neg Bool.false_ne_true, Identifier.checkBare, hknown, Bool.false_or]
    cases hnumber : Identifier.rowNumbers.contains q.column.normalized with
    | true =>
        rw [hnotes, hrow hnumber]
        rfl
    | false =>
        rw [hlookup]
        rfl
  · rw [hchecked, hcontext, if_pos rfl]

/-- The scope of one table of users. -/
def usersScope : Scope :=
  .ofCatalog .empty (Catalog.empty.addTable { Table.bare "users" with
    columns := [.plain "id" "INTEGER", .plain "name" "TEXT"] })

/-- A name that the table of users has not is reported by both passes, and a context word that it
has not only as an output column. -/
theorem bare_name_in_both_passes_of_users :
    let email := ofWords "email" "users" 0 .first (by decide) (by decide)
    let row := ofWords "row" "users" 0 .first (by decide) (by decide)
    ((email.projectionNotes usersScope "SELECT email FROM users").any isError = true ∧
        email.identifierNotes usersScope [] =
          email.projectionNotes usersScope "SELECT email FROM users") ∧
      (row.projectionNotes usersScope "SELECT row FROM users").any isError = true ∧
        row.identifierNotes usersScope [] = [] := by
  intro email row
  let users : Table := { Table.bare "users" with
    columns := [.plain "id" "INTEGER", .plain "name" "TEXT"] }
  have hthere : (Catalog.empty.addTable users).named? "users" = some users := by decide
  have hnew (name : String) : ([] : List String).contains name = false := rfl
  have hemail := bare_name_in_both_passes (q := email) .empty ⟨rfl, by decide⟩ hthere (hnew _)
    (by decide) "SELECT email FROM users"
  have hrow := bare_name_in_both_passes (q := row) .empty ⟨rfl, by decide⟩ hthere (hnew _)
    (by decide) "SELECT row FROM users"
  exact ⟨⟨hemail.2.1.mpr (by decide), hemail.2.2.1 (by decide)⟩, hrow.2.1.mpr (by decide),
    hrow.2.2.2 (by decide)⟩

/-- The two passes do not report the same names of the table of users: a word with a meaning of its
own is no candidate of the check, and only the check knows the row number. -/
theorem not_same_names_in_both_passes :
    let row := ofWords "row" "users" 0 .first (by decide) (by decide)
    let rowid := ofWords "rowid" "users" 0 .first (by decide) (by decide)
    ¬ ((row.projectionNotes usersScope "SELECT row FROM users").any isError = true ↔
        (row.identifierNotes usersScope []).any isError = true) ∧
      ¬ ((rowid.projectionNotes usersScope "SELECT rowid FROM users").any isError = true ↔
        (rowid.identifierNotes usersScope []).any isError = true) := by
  decide +kernel

end Grammar.OneColumn

end TypedSql

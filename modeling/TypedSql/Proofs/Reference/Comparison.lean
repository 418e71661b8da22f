import TypedSql.Proofs.Reference.Filtered

/-!
# A column compared with a parameter

In `SELECT 1 AS "k" FROM "t" WHERE …` a column is compared with a parameter, which stands behind
the operator or in front of it.  The two sides are read in different ways, backwards from the
parameter and forwards, and both readings find the column, with `NOT` in front of the operator or
without.

Main definition: `Grammar.Comparison`.  Main statements: `Comparison.comparedBefore?_eq`,
`Comparison.comparedBehind?_eq`.
-/

namespace TypedSql

open Query Text Token

namespace Grammar

/-! ## The words of a comparison -/

/-- The words that take part in a comparison. -/
def comparisonWords : List String := ["NOT", "LIKE", "GLOB", "IS"]

/-- A part of a comparison, except the parameter: one of its words, a name, a dot or a mark. -/
def IsComparing (t : Token) : Prop :=
  t.isAnyWord comparisonWords = true ∨ t.kind ∈ [Kind.quotedIdentifier, .dot, .operator]

namespace IsComparing

variable {t : Token} (h : IsComparing t)
include h

theorem kind_ne {kind : Kind}
    (hkind : kind ∉ [Kind.keyword, .identifier, .quotedIdentifier, .dot, .operator]) :
    t.kind ≠ kind := by
  rintro rfl
  rcases h with h | h
  · rcases kind_of_isAnyWord h with h | h <;> rw [h] at hkind <;> exact hkind (by decide)
  · exact hkind (List.mem_append_right [Kind.keyword, .identifier] h)

/-- Such a token is no word but those. -/
theorem isAnyWord {words : List String}
    (hwords : (words.all fun w => !comparisonWords.any (eqIgnoreCase w)) = true) :
    t.isAnyWord words = false := by
  rcases h with h | h
  · exact isAnyWord_of_ne h hwords
  · refine isAnyWord_of_kind ?_ ?_ words <;> rintro hkind <;> rw [hkind] at h <;>
      exact absurd h (by decide)

omit h

theorem of_isComparison (h : Neighbor.isComparison t = true) : IsComparing t := by
  rw [Neighbor.isComparison, Bool.or_eq_true, Bool.and_eq_true, beq_iff_eq] at h
  rcases h with ⟨hkind, -⟩ | hword
  · exact .inr (by rw [hkind]; decide)
  · refine .inl ?_
    rw [comparisonWords, Token.isAnyWord, List.any_cons, Bool.or_eq_true]
    exact .inr hword

theorem outside {xs : List Token} (h : ∀ t ∈ xs, IsComparing t) {words : List String}
    (hwords : (words.all fun w => !comparisonWords.any (eqIgnoreCase w)) = true) :
    Outside (fun t => t.isAnyWord words = false) xs :=
  .of_forall fun t ht => ⟨(h t ht).isAnyWord hwords, (h t ht).kind_ne (by decide),
    (h t ht).kind_ne (by decide)⟩

end IsComparing

/-- The token is no parameter and begins no macro, and it is not what a limit or an item of a list
stands behind. -/
structure SaysNothing (t : Token) : Prop where
  isAnyWord : t.isAnyWord ["LIMIT", "OFFSET", "sqlc"] = false
  kind_ne : ∀ kind ∈ [Kind.parameter, .leftParen, .comma], t.kind ≠ kind

/-! ## The condition -/

/-- A column of the relation, an operator with or without `NOT`, and a parameter. -/
structure Comparison extends Filtered where
  qualifier : Token
  dot : Token
  column : Token
  notWord : Option Token
  op : Token
  mark : Token
  hqualifier : qualifier.kind = .quotedIdentifier
  hsame : qualifier.value = table.value
  hdot : dot.kind = .dot
  hcolumn : column.kind = .quotedIdentifier
  hnotWord : ∀ t ∈ notWord, t.IsKeyword "NOT"
  hop : Neighbor.isComparison op = true
  hmark : mark.Is .parameter "?"

namespace Comparison

variable (q : Comparison)

/-- The column behind its qualifier. -/
def reference : List Token := [q.qualifier, q.dot, q.column]

/-- The operator, with `NOT` in front of it or not. -/
def operator : List Token := q.notWord.toList ++ [q.op]

/-- What stands before the parameter in the condition, and what stands behind it. -/
inductive Around : List Token → List Token → Prop
  | right : Around (q.reference ++ q.operator) []
  | left : Around [] (q.operator ++ q.reference)

theorem comparing_reference : ∀ t ∈ q.reference, IsComparing t := by
  intro t ht
  simp only [reference, List.mem_cons, List.not_mem_nil, or_false] at ht
  rcases ht with rfl | rfl | rfl
  · exact .inr (by rw [q.hqualifier]; decide)
  · exact .inr (by rw [q.hdot]; decide)
  · exact .inr (by rw [q.hcolumn]; decide)

theorem comparing_operator : ∀ t ∈ q.operator, IsComparing t := by
  intro t ht
  rcases List.mem_append.mp ht with ht | ht
  · exact .inl (by rw [(q.hnotWord t (Option.mem_toList.mp ht)).isAnyWord]; decide)
  · cases List.mem_singleton.mp ht
    exact .of_isComparison q.hop

theorem op_isWord : q.op.isWord "NOT" = false := by
  have hop := q.hop
  rw [Neighbor.isComparison, Bool.or_eq_true, Bool.and_eq_true, beq_iff_eq] at hop
  rcases hop with ⟨hkind, -⟩ | hword
  · rw [isWord, hkind]
    rfl
  · exact isWord_of_ne hword (by decide)

/-- Read backwards, the condition leads from the parameter to the column. -/
theorem comparedBefore?_eq (before : List Token) :
    Neighbor.comparedBefore? (before ++ (q.reference ++ q.operator)).reverse =
      some ⟨some q.table.value, q.column.value⟩ := by
  have hreverse : (before ++ (q.reference ++ q.operator)).reverse =
      q.op :: (q.notWord.toList ++ q.column :: q.dot :: q.qualifier :: before.reverse) := by
    rw [reference, operator]
    cases q.notWord <;> simp
  rw [hreverse, Neighbor.comparedBefore?_cons q.op_isWord, if_pos q.hop,
    Neighbor.skip_optional q.hnotWord (isWord_quoted q.hcolumn _),
    Neighbor.columnBefore?_eq q.hqualifier q.hdot q.hcolumn, q.hsame]

/-- Read forwards, the condition leads from the parameter to the column. -/
theorem comparedBehind?_eq :
    Neighbor.comparedBehind? (q.operator ++ q.reference) =
      some ⟨some q.table.value, q.column.value⟩ := by
  -- Forwards, a second `NOT` behind the operator would be passed over, as in `IS NOT`.
  have hcolumn : skip "NOT" q.reference = q.reference := by
    have hno : startsWith "NOT" q.reference = false := isWord_quoted q.hqualifier _
    rw [skip, hno, if_neg Bool.false_ne_true]
  have hoperator : q.operator ++ q.reference = q.notWord.toList ++ q.op :: q.reference :=
    List.append_assoc ..
  rw [hoperator, Neighbor.comparedBehind?, Neighbor.skip_optional q.hnotWord q.op_isWord]
  simp only [q.hop, if_true, hcolumn]
  rw [reference, Neighbor.columnFrom?_eq q.hqualifier q.hdot q.hcolumn, q.hsame]

/-- Behind `WHERE` nothing is compared yet. -/
theorem comparedBefore?_tokens : Neighbor.comparedBefore? q.toFiltered.tokens.reverse = none := by
  have hreverse : q.toFiltered.tokens.reverse =
      q.filter :: (q.projection ++ [q.source, q.table]).reverse := by
    simp [Filtered.tokens]
  have hnot : q.filter.isWord "NOT" = false := (q.hfilter.isWord "NOT").trans (by decide)
  have hfilter : Neighbor.isComparison q.filter = false := by
    have hkind : (q.filter.kind == Kind.operator) = false := by
      rw [q.hfilter.1]
      rfl
    rw [Neighbor.isComparison, hkind, Bool.false_and, Bool.false_or, q.hfilter.isAnyWord]
    decide
  rw [hreverse, Neighbor.comparedBefore?_cons hnot, hfilter, if_neg Bool.false_ne_true]

namespace Around

variable {q} {xs ys : List Token} (h : q.Around xs ys)
include h

theorem comparing :
    ∀ t ∈ xs ++ ys, IsComparing t := by
  have hreference := q.comparing_reference
  have hoperator := q.comparing_operator
  cases h with
  | right =>
      rw [List.append_nil]
      exact List.forall_mem_append.mpr ⟨hreference, hoperator⟩
  | left =>
      rw [List.nil_append]
      exact List.forall_mem_append.mpr ⟨hoperator, hreference⟩

/-- No word of the condition steers the analysis. -/
theorem outside {words : List String}
    (hwords : (words.all fun w => !comparisonWords.any (eqIgnoreCase w)) = true) :
    Outside (fun t => t.isAnyWord words = false) (xs ++ q.mark :: ys) := by
  obtain ⟨hxs, hys⟩ := List.forall_mem_append.mp h.comparing
  have hmark {kind : Kind} (hkind : kind ≠ .parameter) : q.mark.kind ≠ kind := by
    rw [q.hmark.1]
    exact hkind.symm
  exact (IsComparing.outside hxs hwords).append
    (.cons (isAnyWord_of_kind (hmark (by decide)) (hmark (by decide)) words) (hmark (by decide))
      (hmark (by decide)) (IsComparing.outside hys hwords))

/-- Nothing but the comparison says anything of the parameter. -/
theorem others : ∀ t ∈ q.toFiltered.tokens ++ (xs ++ ys), SaysNothing t := by
  refine List.forall_mem_append.mpr ⟨fun t ht => ?_, fun t ht => ?_⟩
  · have hof := q.toFiltered.ofWords t ht
    refine ⟨hof.isAnyWord (by decide), fun kind hkind => hof.kind_ne ?_⟩
    revert kind
    decide
  · have hcomparing := h.comparing t ht
    refine ⟨hcomparing.isAnyWord (by decide), fun kind hkind => hcomparing.kind_ne ?_⟩
    revert kind
    decide

/-- What stands behind the parameter is no cast. -/
theorem isOperator :
    ∀ t ∈ ys.head?, t.isOperator "::" = false := by
  have hword {t : Token} (hkind : t.kind = .keyword ∨ t.kind = .identifier) :
      t.isOperator "::" = false := by
    rw [Token.isOperator]
    rcases hkind with hkind | hkind <;> rw [hkind] <;> rfl
  have hop : q.op.isOperator "::" = false := by
    have hop := q.hop
    rw [Neighbor.isComparison, Bool.or_eq_true, Bool.and_eq_true, List.contains_iff_mem] at hop
    rcases hop with ⟨-, htext⟩ | hop
    · have hne : q.op.text ≠ "::" := by
        intro heq
        rw [heq] at htext
        exact absurd htext (by decide)
      rw [Token.isOperator, beq_eq_false_iff_ne.mpr hne, Bool.and_false]
    · exact hword (kind_of_isAnyWord hop)
  cases h with
  | right =>
      intro t ht
      cases ht
  | left =>
      intro t ht
      rw [operator, List.append_assoc] at ht
      cases hnot : q.notWord with
      | none =>
          rw [hnot] at ht
          cases ht
          exact hop
      | some word =>
          rw [hnot] at ht
          cases ht
          exact hword (.inl (q.hnotWord _ hnot).1)

end Around

end Comparison

end Grammar

end TypedSql

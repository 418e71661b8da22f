import TypedSql.Proofs.Reference.Joins

/-!
# One column of one relation

A statement `SELECT c FROM r` has one item, names one relation and is its own first arm.

Main definition: `Grammar.OneColumn`.  Main statements: `OneColumn.items_eq`,
`OneColumn.references_eq`.
-/

namespace TypedSql.Grammar

open Query Text Token

/-- A statement `SELECT c FROM r`. -/
structure OneColumn where
  select : Token
  column : Token
  source : Token
  relation : Token
  hselect : select.IsKeyword "SELECT"
  hcolumn : column.IsNaming
  hsource : source.IsKeyword "FROM"
  hrelation : relation.IsNaming

namespace OneColumn

variable (q : OneColumn)

/-- The relation as a list of one. -/
def listed : Listed := ⟨q.relation, none, q.hrelation⟩

/-- The tokens of the statement. -/
def tokens : List Token := [q.select, q.column, q.source, q.relation]

/-- The one item of the statement. -/
def item : Item := ⟨.column none q.column.value, none, q.column.position⟩

theorem joinToken : ∀ t ∈ q.tokens, JoinToken t := by
  intro t ht
  simp only [tokens, List.mem_cons, List.not_mem_nil, or_false] at ht
  rcases ht with rfl | rfl | rfl | rfl
  · exact .word q.hselect (by decide)
  · exact .name q.hcolumn
  · exact .word q.hsource (by decide)
  · exact .name q.hrelation

theorem select_isWord : q.select.isWord "SELECT" = true := by
  rw [q.hselect.isWord]
  decide

theorem column_kind_ne {kind : Kind}
    (h : kind ∉ [Kind.star, .identifier, .quotedIdentifier, .keyword]) : q.column.kind ≠ kind :=
  (JoinToken.name q.hcolumn).kind_ne h

theorem outside_column {p : Token → Prop} (h : p q.column) : Outside p [q.column] :=
  .token h (q.column_kind_ne (by decide)) (q.column_kind_ne (by decide))

/-- The column is all that the statement projects. -/
theorem projectionTokens_eq : projectionTokens q.tokens = [q.column] := by
  refine projectionTokens_from (List.cons_ne_nil q.column []) ?_ ?_ q.hsource _
  · rintro t ⟨⟩
    exact q.hcolumn.isAnyWord (by decide)
  · exact q.outside_column ⟨q.column_kind_ne (by decide), q.hcolumn.isAnyWord (by decide)⟩

theorem items_eq (sql : String) : readProjection sql (projectionTokens q.tokens) = [q.item] := by
  have hone : Outside NoComma [q.column] := q.outside_column (q.column_kind_ne (by decide))
  have hstar : q.column.kind ≠ .star := by
    rcases q.hcolumn.kind with h | h | h <;> rw [h] <;> decide
  have hshape : Shape.ofTokens sql [q.column] = .column none q.column.value := by
    simp only [Shape.ofTokens, if_neg hstar, q.hcolumn.isName, if_true]
  have hitem : Item.ofTokens sql [q.column] =
      ⟨Shape.ofTokens sql [q.column], none, q.column.position⟩ := rfl
  rw [q.projectionTokens_eq, readProjection, hone.commaPieces_eq (by simp), List.map_singleton,
    hitem, hshape]
  rfl

/-- The statement names its relation. -/
theorem references_eq : RelationRef.ofTokens q.tokens = [q.listed.reference 3] := by
  have hplaces : places q.tokens = ⟨0, 0, none, q.select⟩ :: ⟨1, 0, some q.select, q.column⟩ ::
      placesAt 2 (some q.column) 0 (q.source :: (q.listed.tokens ++ [])) := by
    show placesAt 0 none 0 q.tokens = _
    rw [tokens, placesAt_cons (by rw [q.hselect.1]; decide) (by rw [q.hselect.1]; decide),
      placesAt_cons (q.column_kind_ne (by decide)) (q.column_kind_ne (by decide))]
    rfl
  have hselect : RelationRef.opensClause ⟨0, 0, none, q.select⟩ = false := by
    have hword : RelationRef.clauseWords.any (eqIgnoreCase "SELECT") = false := by decide
    rw [RelationRef.opensClause, Place.isTopWord, q.hselect.isAnyWord, hword]
    rfl
  have hcolumn : RelationRef.opensClause ⟨1, 0, some q.select, q.column⟩ = false := by
    rw [RelationRef.opensClause, Place.isTopWord, q.hcolumn.isAnyWord (by decide)]
    rfl
  have hnone : q.column.isAnyWord ["DISTINCT"] = false := q.hcolumn.isAnyWord (by decide)
  have hdistinct : (some q.column).any (·.isWord "DISTINCT") = false :=
    isWord_of_isAnyWord hnone (by decide)
  have hend : BeforeJoin [] := beforeJoin_joinTokens []
  rw [RelationRef.ofTokens, hplaces, RelationRef.ofPlaces, hselect, if_neg Bool.false_ne_true,
    RelationRef.ofPlaces, hcolumn, if_neg Bool.false_ne_true,
    ofPlaces_clause q.hsource (by decide) hdistinct q.listed (List.forall_mem_nil _) hend]
  exact congrArg (List.cons _) RelationRef.ofPlaces.eq_1

/-- No compound operator ends the statement before its end. -/
theorem firstArm_eq : firstArm q.tokens = q.tokens := by
  have hpass : Outside (fun t => t.isAnyWord Segment.compoundWords = false) q.tokens :=
    outside_of_joinTokens q.joinToken fun t ht =>
      (q.joinToken t ht).isAnyWord (by decide) (by decide)
  have hfound := hpass.findTopLevel?_append []
  rw [List.append_nil] at hfound
  rw [firstArm, hfound]
  rfl

end OneColumn

end TypedSql.Grammar

import TypedSql.Proofs.Report.ParamTokens

/-!
# Lists and nullable parameters

`sqlc.slice(x)` stands for a list of values, and `sqlc.narg(x)` for a value that can be NULL.  The
type of a parameter comes from a list, a comparison, an insertion, a limit, a cast or an
annotation, and each of these can bring a type that is a list already, or one that is none.  The
two marks are put on last, on whatever the others gave, so they hold of every result.

Main definitions: `TypeInfo.IsListIfKnown`, `Query.Param.MarkedIn`.  Main statement:
`Analyzer.marks_of_params`.
-/

namespace TypedSql

open Query Token

/-! ## Marked types -/

/-- Nothing is known of the value, or it is a list. -/
def TypeInfo.IsListIfKnown (type : TypeInfo) : Prop :=
  type = .unresolved ∨ ∃ item nullable, type = .resolved (.list item) nullable

namespace TypeInfo

theorem isListIfKnown_toList (type : TypeInfo) : type.toList.IsListIfKnown := by
  cases type with
  | resolved value nullable => exact .inr ⟨value, false, rfl⟩
  | unresolved => exact .inl rfl

theorem isListIfKnown_of_isList {type : TypeInfo} (h : type.type?.any ValueType.isList = true) :
    type.IsListIfKnown := by
  cases type with
  | unresolved => exact .inl rfl
  | resolved value nullable =>
      cases value with
      | list item => exact .inr ⟨item, nullable, rfl⟩
      | int64 | float64 | string | bytes | bool => cases h

/-- Whether a value can be NULL says nothing about what it is. -/
theorem IsListIfKnown.withNullable {type : TypeInfo} (h : type.IsListIfKnown) (nullable : Bool) :
    (type.withNullable nullable).IsListIfKnown := by
  rcases h with rfl | ⟨item, before, rfl⟩
  · exact .inl rfl
  · exact .inr ⟨item, nullable, rfl⟩

theorem isNullable_withNullable (type : TypeInfo) : (type.withNullable true).isNullable = true := by
  cases type <;> rfl

end TypeInfo

section Marked

variable {p : Param}

/-- A list stays as it is, and any other known type becomes the list of it. -/
theorem isListIfKnown_markedType (h : p.variadic = true) (type : TypeInfo) :
    (markedType p type).IsListIfKnown := by
  let listed := if p.variadic && !type.type?.any ValueType.isList then type.toList else type
  have hlisted : listed.IsListIfKnown := by
    by_cases hlist : type.type?.any ValueType.isList = true
    · have hsame : listed = type := by
        simp only [listed, hlist, Bool.not_true, Bool.and_false, Bool.false_eq_true, if_false]
      rw [hsame]
      exact TypeInfo.isListIfKnown_of_isList hlist
    · have hmade : listed = type.toList := by
        simp only [listed, h, Bool.not_eq_true _ ▸ hlist, Bool.not_false, Bool.and_self, if_true]
      rw [hmade]
      exact type.isListIfKnown_toList
  show (if p.forceNullable then listed.withNullable true else listed).IsListIfKnown
  split
  · exact hlisted.withNullable true
  · exact hlisted

theorem isNullable_markedType (h : p.forceNullable = true) (type : TypeInfo) :
    (markedType p type).isNullable = true := by
  rw [markedType, if_pos h]
  exact TypeInfo.isNullable_withNullable _

end Marked

/-! ## Marked results -/

/-- The result is marked as the parameter is: it is variadic alike, a list where it is variadic and
its type is known, and nullable where the parameter is forced to be. -/
structure Query.Param.MarkedIn (p : Param) (r : ResultParam) : Prop where
  variadic : r.variadic = p.variadic
  list : r.variadic = true → r.type.IsListIfKnown
  nullable : p.forceNullable = true → r.type.isNullable = true

/-- Whatever type a parameter has from its hint or an annotation, its result is marked. -/
theorem marked_finishFrom (annotations : List TypeHint) (tokens : List Token) (number : Nat)
    (used : List String) (params : List (Param × Option Hint)) :
    List.Forall₂ Param.MarkedIn (params.map Prod.fst)
      (finishFrom annotations tokens number used params).value := by
  -- The number and the used names decide the name alone, and no mark looks at it.
  induction params generalizing number used with
  | nil => exact .nil
  | cons param rest ih =>
      exact .cons ⟨rfl, fun h => isListIfKnown_markedType h _, fun h => isNullable_markedType h _⟩
        (ih _ _)

namespace Analyzer

/-- The parameters of a block whose statement can be read have one result each, in order, and every
result is marked as its parameter is, with or without a catalog, whatever is given for columns from
outside and whatever annotations say.  A block whose statement cannot be read has no results. -/
theorem marks_of_params (a : Analyzer) (b : Block) :
    (∃ e, tokenizeAt b.sql b.position = .error e ∧ (a.analyze b).params = []) ∨
      ∃ tokens, tokenizeAt b.sql b.position = .ok tokens ∧
        List.Forall₂ Param.MarkedIn b.query.params (a.analyze b).params := by
  cases htokens : tokenizeAt b.sql b.position with
  | error e =>
      refine .inl ⟨e, rfl, ?_⟩
      rw [analyze, htokens]
  | ok tokens =>
      have hfirsts : (b.query.params.zip (a.hints b tokens)).map Prod.fst = b.query.params :=
        List.map_fst_zip (Nat.le_of_eq (a.length_hints b tokens).symm)
      have hmarked := marked_finishFrom b.paramHints tokens 1 []
        (b.query.params.zip (a.hints b tokens))
      rw [hfirsts] at hmarked
      refine .inr ⟨tokens, rfl, ?_⟩
      rw [a.params_analyze htokens]
      exact hmarked

end Analyzer

end TypedSql

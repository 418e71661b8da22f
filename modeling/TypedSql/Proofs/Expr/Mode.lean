import TypedSql.Analysis.Projection

/-!
# Items with aliases

Where an expression stands changes what is noted of it, but not its type.  So an item with an alias
gives the same column in the main statement and in a common table expression.

Main definition: `Query.Item.Aliased`.  Main statements: `Expr.value_infer`,
`resolveProjection_of_aliased`.
-/

namespace TypedSql

open Diagnostic Query

variable {mode mode' : Mode} {s : Scope}

theorem value_inferColumn (mode mode' : Mode) (s : Scope) (qualifier : Option String)
    (name : String) (position : Position) :
    (inferColumn mode s qualifier name position).value =
      (inferColumn mode' s qualifier name position).value := by
  unfold inferColumn
  cases s.lookup qualifier name <;> rfl

mutual

/-- What is known of an expression does not depend on where it stands. -/
theorem Expr.value_infer (mode mode' : Mode) (s : Scope) (e : Expr) :
    (e.infer mode s).value = (e.infer mode' s).value := by
  cases e with
  | column qualifier name position =>
      rw [Expr.infer, Expr.infer]
      exact value_inferColumn mode mode' s qualifier name position
  | literal type => rw [Expr.infer, Expr.infer]
  | cast operand typeName =>
      rw [Expr.infer, Expr.infer]
      show Inferred.mk _ _ _ _ = Inferred.mk _ _ _ _
      rw [Expr.value_infer mode mode' s operand]
  | aggregate function position operands =>
      cases function with
      | count => rw [Expr.infer, Expr.infer]
      | _ =>
          rw [Expr.infer, Expr.infer]
          · show (inferAggregate _ _ (Expr.inferAll mode s operands).value).value = _
            rw [Expr.value_inferAll mode mode' s operands]
            rfl
          all_goals rintro ⟨⟩
  | other => rw [Expr.infer, Expr.infer]

theorem Expr.value_inferAll (mode mode' : Mode) (s : Scope) (es : List Expr) :
    (Expr.inferAll mode s es).value = (Expr.inferAll mode' s es).value := by
  cases es with
  | nil => rw [Expr.inferAll, Expr.inferAll]
  | cons e rest =>
      rw [Expr.inferAll, Expr.inferAll]
      show (e.infer mode s).value :: (Expr.inferAll mode s rest).value = _
      rw [Expr.value_infer mode mode' s e, Expr.value_inferAll mode mode' s rest]
      rfl

end

/-- The item is no star, and it has an alias. -/
def Query.Item.Aliased (i : Item) : Prop := i.isStar = false ∧ i.asName.isSome

instance (i : Item) : Decidable i.Aliased := inferInstanceAs (Decidable (_ ∧ _))

/-- Such an item gives one column under its alias, wherever it stands. -/
theorem resolveItem_of_aliased {i : Item} (h : i.Aliased) (s : Scope) :
    ∃ column : ResultColumn, some column.name = i.asName ∧
      ∀ mode number, (resolveItem mode s number i).value = [column] := by
  obtain ⟨hstar, hname⟩ := h
  obtain ⟨name, has⟩ := Option.isSome_iff_exists.mp hname
  rw [has]
  unfold Item.isStar at hstar
  cases hshape : i.shape with
  | star table =>
      rw [hshape] at hstar
      cases hstar
  | column table column =>
      let found := (inferColumn .query s table column i.position).value
      refine ⟨⟨name, found.relation, found.type⟩, rfl, fun mode number => ?_⟩
      unfold resolveItem
      rw [hshape, has]
      show [ResultColumn.mk name (inferColumn mode s table column i.position).value.relation
        (inferColumn mode s table column i.position).value.type] = _
      rw [value_inferColumn mode .query]
  | expression text =>
      let tokens := (Token.tokenizeAt text i.position).toOption.getD []
      let found := ((Expr.ofTokens tokens).infer .query s).value
      refine ⟨⟨name, found.relation, found.type⟩, rfl, fun mode number => ?_⟩
      unfold resolveItem
      rw [hshape, has]
      show [ResultColumn.mk name ((Expr.ofTokens tokens).infer mode s).value.relation
        ((Expr.ofTokens tokens).infer mode s).value.type] = _
      rw [Expr.value_infer mode .query]

/-- Items with aliases give one column each, under their aliases and wherever they stand. -/
theorem resolveProjection_of_aliased {items : List Item} (h : ∀ i ∈ items, i.Aliased) (s : Scope) :
    ∃ columns : List ResultColumn, (columns.map fun c => some c.name) = items.map (·.asName) ∧
      ∀ mode, (resolveProjection mode s items).value = columns := by
  have hitems : ∃ columns : List ResultColumn,
      (columns.map fun c => some c.name) = items.map (·.asName) ∧
        ∀ mode count, (resolveItems mode s count items).value = columns := by
    induction items with
    | nil => exact ⟨[], rfl, fun _ _ => rfl⟩
    | cons i rest ih =>
        obtain ⟨column, hname, hcolumn⟩ := resolveItem_of_aliased (h i List.mem_cons_self) s
        obtain ⟨columns, hnames, hcolumns⟩ := ih fun j hj => h j (List.mem_cons_of_mem _ hj)
        refine ⟨column :: columns, ?_, fun mode count => ?_⟩
        · rw [List.map_cons, List.map_cons, hname, hnames]
        · show (resolveItem mode s (count + 1) i).value ++ (resolveItems mode s _ rest).value = _
          rw [hcolumn, hcolumns]
          rfl
  obtain ⟨columns, hnames, hcolumns⟩ := hitems
  exact ⟨columns, hnames, fun mode => hcolumns mode 0⟩

end TypedSql

import Mathlib.Data.List.Nodup
import TypedSql.Proofs.Scope.Lookup

/-!
# The columns that a relation keeps

A relation has each name once.  Of the columns that are put into it under one name, in any case,
the first one stays and the others are lost.

Main definition: `firstsBy`.  Main statements: `firstsBy_eq_self_iff`,
`Scope.Entry.columns_pushAll_bare`, `Scope.Entry.column?_pushAll_bare`,
`Scope.Entry.column?_ofTable`.
-/

namespace TypedSql

open Text

/-! ## The first of each name -/

section firstsBy

variable {α β : Type} {name : α → String} {xs : List α}

/-- The members of a list that have the name of none before them, in any case. -/
def firstsBy (name : α → String) : List α → List α
  | [] => []
  | x :: xs => x :: (firstsBy name xs).filter fun y => !eqIgnoreCase (name x) (name y)

theorem firstsBy_sublist (name : α → String) (xs : List α) :
    List.Sublist (firstsBy name xs) xs := by
  induction xs with
  | nil => exact .slnil
  | cons x xs ih => exact (List.filter_sublist.trans ih).cons_cons x

theorem nodup_firstsBy (name : α → String) (xs : List α) :
    ((firstsBy name xs).map fun x => lowerCase (name x)).Nodup := by
  induction xs with
  | nil => exact List.nodup_nil
  | cons x xs ih =>
      rw [firstsBy, List.map_cons, List.nodup_cons]
      refine ⟨fun hmem => ?_, ih.sublist (List.filter_sublist.map _)⟩
      obtain ⟨y, hy, hname⟩ := List.mem_map.mp hmem
      have hother := (List.mem_filter.mp hy).2
      rw [eqIgnoreCase_iff.mpr hname.symm] at hother
      exact Bool.false_ne_true hother

/-- Nothing is lost exactly where all names differ. -/
theorem firstsBy_eq_self_iff :
    firstsBy name xs = xs ↔ (xs.map fun x => lowerCase (name x)).Nodup := by
  constructor
  · intro h
    rw [← h]
    exact nodup_firstsBy name xs
  · intro h
    induction xs with
    | nil => rfl
    | cons x xs ih =>
        rw [List.map_cons, List.nodup_cons] at h
        rw [firstsBy, ih h.2, List.filter_eq_self.mpr]
        intro y hy
        rw [Bool.not_eq_true', ← Bool.not_eq_true, eqIgnoreCase_iff]
        intro heq
        exact h.1 (heq ▸ List.mem_map_of_mem (f := fun x => lowerCase (name x)) hy)

theorem length_firstsBy_eq_iff :
    (firstsBy name xs).length = xs.length ↔ (xs.map fun x => lowerCase (name x)).Nodup := by
  rw [← firstsBy_eq_self_iff]
  exact ⟨(firstsBy_sublist name xs).eq_of_length, congrArg List.length⟩

theorem firstsBy_map (f : β → α) (ys : List β) :
    firstsBy name (ys.map f) = (firstsBy (fun y => name (f y)) ys).map f := by
  induction ys with
  | nil => rfl
  | cons y ys ih =>
      rw [List.map_cons, firstsBy, ih, List.filter_map]
      rfl

/-- What is found under a name is not lost. -/
theorem find?_firstsBy (word : String) :
    (firstsBy name xs).find? (fun x => eqIgnoreCase (name x) word) =
      xs.find? fun x => eqIgnoreCase (name x) word := by
  induction xs with
  | nil => rfl
  | cons x xs ih =>
      rw [firstsBy, List.find?_cons, List.find?_cons, List.find?_filter]
      cases hx : eqIgnoreCase (name x) word with
      | true => rfl
      | false =>
          have hpred : (fun y => decide ((!eqIgnoreCase (name x) (name y)) = true ∧
              eqIgnoreCase (name y) word = true)) = fun y => eqIgnoreCase (name y) word := by
            funext y
            -- What has the name does not have the name of the member in front.
            cases hy : eqIgnoreCase (name y) word with
            | false => simp
            | true =>
                have hother : eqIgnoreCase (name x) (name y) = false := by
                  rw [← hx, eqIgnoreCase, eqIgnoreCase, eqIgnoreCase_iff.mp hy]
                simp [hother]
          rw [hpred]
          exact ih

end firstsBy

/-! ## Relations -/

namespace Scope.Entry

/-- The column that is pushed is there, unless one of its name was. -/
theorem columns_push (e : Entry) (name : String) (type : TypeInfo) :
    (e.push name type).columns =
      e.columns ++ if (e.column? name).isSome then [] else [⟨name, e.name, type⟩] := by
  unfold push
  split
  · next hthere =>
      rw [if_pos (mem_keys_index.mp hthere)]
      exact (List.append_nil _).symm
  · next hnew => rw [if_neg (mt mem_keys_index.mpr hnew)]

/-- Of the columns that are pushed, the first of each name that is not there yet come to those
that are. -/
theorem columns_pushAll_eq (e : Entry) (columns : List (String × TypeInfo)) :
    (e.pushAll columns).columns = e.columns ++
      ((firstsBy Prod.fst columns).filter fun c => !(e.column? c.1).isSome).map
        fun c => ⟨c.1, e.name, c.2⟩ := by
  induction columns generalizing e with
  | nil => exact (List.append_nil _).symm
  | cons c cs ih =>
      have hname : (e.push c.1 c.2).name = e.name := name_pushAll e [c]
      show ((e.push c.1 c.2).pushAll cs).columns = _
      rw [ih, hname, columns_push, firstsBy, List.filter_cons, List.filter_filter,
        List.append_assoc]
      simp only [isSome_column?_push, Bool.not_or]
      cases (e.column? c.1).isSome with
      | true => rfl
      | false => rfl

/-- A relation keeps the first of the columns of each name. -/
theorem columns_pushAll_bare (name : String) (columns : List (String × TypeInfo)) :
    ((bare name).pushAll columns).columns =
      (firstsBy Prod.fst columns).map fun c => ⟨c.1, name, c.2⟩ := by
  have hall (cs : List (String × TypeInfo)) :
      (cs.filter fun c => !((bare name).column? c.1).isSome) = cs :=
    List.filter_eq_self.mpr fun _ _ => rfl
  rw [columns_pushAll_eq, hall]
  exact List.nil_append _

/-- Of the columns that are put into a relation, the first one of a name is found under it. -/
theorem column?_pushAll_bare (name : String) (columns : List (String × TypeInfo)) (word : String) :
    ((bare name).pushAll columns).column? word =
      (columns.find? fun c => eqIgnoreCase c.1 word).map fun c => ⟨c.1, name, c.2⟩ := by
  rw [column?_eq_find?, columns_pushAll_bare, List.find?_map]
  congr 1
  exact find?_firstsBy word

/-- The column of a table under a name, with its type or the one that is given for it. -/
theorem column?_ofTable (overrides : ColumnOverrides) (t : Table) (column : String) :
    (ofTable overrides t).column? column = (t.column? column).map fun d =>
      ⟨d.name, t.name, (overrides.get? (ColumnOverrides.key t.name d.name)).getD
        (Affinity.columnType d.declaration d.notNull)⟩ := by
  rw [ofTable, column?_pushAll_bare, List.find?_map, Option.map_map]
  rfl

end Scope.Entry

end TypedSql

import Mathlib.Data.List.Forall2
import Mathlib.Data.List.SplitOn
import Mathlib.Data.List.TakeWhile

/-!
# Lists

Facts about parts of lists, and what the functions on lists and options give for arguments that are
related member by member.
-/

namespace TypedSql.Lists

/-! ## Parts -/

theorem drop_take_min {α : Type} (cs : List α) (n m : Nat) :
    (cs.take m).drop (min n m) = (cs.drop n).take (m - n) := by
  rw [List.drop_take]
  rcases Nat.le_total n m with h | h
  · rw [Nat.min_eq_left h]
  · rw [Nat.min_eq_right h, Nat.sub_self, Nat.sub_eq_zero_of_le h, List.take_zero, List.take_zero]

theorem take_reverse_append {α : Type} (xs ys : List α) :
    (xs ++ ys).reverse.take ys.length = ys.reverse := by
  rw [List.reverse_append, ← @List.length_reverse _ ys, List.take_left]

/-- What a part of a list begins with. -/
theorem getElem?_of_cons_eq_take {α : Type} {xs ys : List α} {x : α} {i stop : Nat}
    (h : x :: ys = (xs.drop i).take (stop - i)) :
    i < stop ∧ xs[i]? = some x ∧ ys = (xs.drop (i + 1)).take (stop - (i + 1)) := by
  have hlt : i < stop := by
    refine Nat.lt_of_not_le fun hge => ?_
    rw [Nat.sub_eq_zero_of_le hge, List.take_zero] at h
    cases h
  have hsucc : stop - i = stop - (i + 1) + 1 := by omega
  cases hdrop : xs.drop i with
  | nil =>
      rw [hdrop, List.take_nil] at h
      cases h
  | cons y rest =>
      rw [hdrop, hsucc, List.take_succ_cons] at h
      cases h
      refine ⟨hlt, ?_, ?_⟩
      · rw [← List.head?_drop, hdrop]
        rfl
      · rw [← List.tail_drop, hdrop]
        rfl

theorem dropWhile_takeWhile_append {α : Type} (p : α → Bool) (xs : List α) (n : Nat) :
    (xs.takeWhile p ++ (xs.dropWhile p).take n).dropWhile p = (xs.dropWhile p).take n := by
  induction xs with
  | nil => simp
  | cons x xs ih =>
      by_cases hx : p x = true
      · rw [List.takeWhile_cons_of_pos hx, List.dropWhile_cons_of_pos hx, List.cons_append,
          List.dropWhile_cons_of_pos hx, ih]
      · rw [List.takeWhile_cons_of_neg hx, List.dropWhile_cons_of_neg hx, List.nil_append]
        cases n with
        | zero => rfl
        | succ n => rw [List.take_succ_cons, List.dropWhile_cons_of_neg hx]

/-- A weaker condition is met no later. -/
theorem findIdx?_le {α : Type} {p q : α → Bool} (hpq : ∀ x, q x = true → p x = true) {xs : List α}
    {v : Nat} (hv : xs.findIdx? q = some v) : ∃ s ≤ v, xs.findIdx? p = some s := by
  induction xs generalizing v with
  | nil => cases hv
  | cons x xs ih =>
      rw [List.findIdx?_cons] at hv ⊢
      by_cases hp : p x = true
      · exact ⟨0, Nat.zero_le v, if_pos hp⟩
      · rw [if_neg fun hq => hp (hpq x hq)] at hv
        obtain ⟨w, hw, rfl⟩ := Option.map_eq_some_iff.mp hv
        obtain ⟨s, hs, hfound⟩ := ih hw
        exact ⟨s + 1, Nat.succ_le_succ hs, by rw [if_neg hp, hfound]; rfl⟩

/-- The separator is in none of the pieces. -/
theorem not_mem_of_mem_splitOn {α : Type} [DecidableEq α] {a : α} {cs piece : List α}
    (h : piece ∈ cs.splitOn a) : a ∉ piece := by
  induction cs generalizing piece with
  | nil =>
      rw [List.splitOn_nil] at h
      cases List.mem_singleton.mp h
      exact List.not_mem_nil
  | cons c cs ih =>
      rw [List.splitOn_cons_eq_if_modifyHead] at h
      split at h
      · rcases List.mem_cons.mp h with rfl | h
        · exact List.not_mem_nil
        · exact ih h
      · next hc =>
          cases hpieces : cs.splitOn a with
          | nil => exact absurd hpieces (List.splitOnP_ne_nil _ cs)
          | cons first pieces =>
              rw [hpieces] at h ih
              rcases List.mem_cons.mp h with rfl | h
              · refine List.not_mem_cons_of_ne_of_not_mem ?_ (ih List.mem_cons_self)
                rintro rfl
                exact hc (beq_self_eq_true a)
              · exact ih (List.mem_cons_of_mem _ h)

theorem zipWith_map_congr {α β γ δ ε : Type} {xs : List α} {f : ε → β → γ} {g : ε → δ → γ}
    {k : α → β} {l : α → δ} (h : ∀ e, ∀ x ∈ xs, f e (k x) = g e (l x)) (es : List ε) :
    List.zipWith f es (xs.map k) = List.zipWith g es (xs.map l) := by
  induction xs generalizing es with
  | nil => rw [List.map_nil, List.map_nil, List.zipWith_nil_right, List.zipWith_nil_right]
  | cons x xs ih =>
      cases es with
      | nil => rfl
      | cons e es =>
          rw [List.map_cons, List.map_cons, List.zipWith_cons_cons, List.zipWith_cons_cons,
            h e x List.mem_cons_self, ih fun e y hy => h e y (List.mem_cons_of_mem _ hy)]

end TypedSql.Lists

/-! ## Related lists and options -/

namespace TypedSql.Memberwise

open List

variable {α β γ δ : Type} {R : α → β → Prop} {S : γ → δ → Prop}

/-! ### Options -/

theorem map_rel {f : α → γ} {g : β → δ} {a : Option α} {b : Option β} (h : Option.Rel R a b)
    (hfg : ∀ a b, R a b → S (f a) (g b)) : Option.Rel S (a.map f) (b.map g) := by
  cases h with
  | none => exact .none
  | some h => exact .some (hfg _ _ h)

theorem bind_rel {f : α → Option γ} {g : β → Option δ} {a : Option α} {b : Option β}
    (h : Option.Rel R a b) (hfg : ∀ a b, R a b → Option.Rel S (f a) (g b)) :
    Option.Rel S (a.bind f) (b.bind g) := by
  cases h with
  | none => exact .none
  | some h => exact hfg _ _ h

theorem or_rel {a c : Option α} {b d : Option β} (h : Option.Rel R a b) (h' : Option.Rel R c d) :
    Option.Rel R (a.or c) (b.or d) := by
  cases h with
  | none => exact h'
  | some h => exact .some h

theorem getD_rel {a : Option α} {b : Option β} {x : α} {y : β} (h : Option.Rel R a b)
    (hxy : R x y) : R (a.getD x) (b.getD y) := by
  cases h with
  | none => exact hxy
  | some h => exact h

theorem eq_some_of_rel {a : α} {b : Option β} (h : Option.Rel R (some a) b) :
    ∃ b', b = some b' ∧ R a b' := by
  cases h with
  | some h => exact ⟨_, rfl, h⟩

theorem eq_none_of_rel {b : Option β} (h : Option.Rel R none b) : b = none := by
  cases h
  rfl

theorem and_rel {P : α → Prop} {a : Option α} {b : Option β} (h : Option.Rel R a b)
    (hP : ∀ x, a = some x → P x) : Option.Rel (fun x y => R x y ∧ P x) a b := by
  cases h with
  | none => exact .none
  | some h => exact .some ⟨h, hP _ rfl⟩

theorem isSome_eq {a : Option α} {b : Option β} (h : Option.Rel R a b) : a.isSome = b.isSome := by
  cases h <;> rfl

theorem any_option_eq {p : α → Bool} {q : β → Bool} {a : Option α} {b : Option β}
    (h : Option.Rel R a b) (hpq : ∀ a b, R a b → p a = q b) : a.any p = b.any q := by
  cases h with
  | none => rfl
  | some h => exact hpq _ _ h

theorem all_option_eq {p : α → Bool} {q : β → Bool} {a : Option α} {b : Option β}
    (h : Option.Rel R a b) (hpq : ∀ a b, R a b → p a = q b) : a.all p = b.all q := by
  cases h with
  | none => rfl
  | some h => exact hpq _ _ h

theorem filter_rel {p : α → Bool} {q : β → Bool} {a : Option α} {b : Option β}
    (h : Option.Rel R a b) (hpq : ∀ a b, R a b → p a = q b) :
    Option.Rel R (a.filter p) (b.filter q) := by
  cases h with
  | none => exact .none
  | @some a b h =>
      rw [Option.filter_some, Option.filter_some, hpq a b h]
      split
      · exact .some h
      · exact .none

/-! ### Lists -/

variable {as : List α} {bs : List β} {p : α → Bool} {q : β → Bool}

theorem dropWhile_rel (h : Forall₂ R as bs) (hpq : ∀ a b, R a b → p a = q b) :
    Forall₂ R (as.dropWhile p) (bs.dropWhile q) := by
  induction h with
  | nil => exact .nil
  | @cons a b as bs hab h ih =>
      rw [dropWhile_cons, dropWhile_cons, hpq a b hab]
      split
      · exact ih
      · exact .cons hab h

theorem find?_rel (h : Forall₂ R as bs) (hpq : ∀ a b, R a b → p a = q b) :
    Option.Rel R (as.find? p) (bs.find? q) := by
  induction h with
  | nil => exact .none
  | @cons a b as bs hab h ih =>
      rw [find?_cons, find?_cons, hpq a b hab]
      split
      · exact .some hab
      · exact ih

theorem findIdx?_eq (h : Forall₂ R as bs) (hpq : ∀ a b, R a b → p a = q b) :
    as.findIdx? p = bs.findIdx? q := by
  induction h with
  | nil => rfl
  | @cons a b as bs hab h ih => rw [findIdx?_cons, findIdx?_cons, hpq a b hab, ih]

theorem findIdx_eq (h : Forall₂ R as bs) (hpq : ∀ a b, R a b → p a = q b) :
    as.findIdx p = bs.findIdx q := by
  induction h with
  | nil => rfl
  | @cons a b as bs hab h ih => rw [findIdx_cons, findIdx_cons, hpq a b hab, ih]

theorem any_eq (h : Forall₂ R as bs) (hpq : ∀ a b, R a b → p a = q b) : as.any p = bs.any q := by
  induction h with
  | nil => rfl
  | @cons a b as bs hab h ih => rw [any_cons, any_cons, hpq a b hab, ih]

theorem all_eq (h : Forall₂ R as bs) (hpq : ∀ a b, R a b → p a = q b) : as.all p = bs.all q := by
  induction h with
  | nil => rfl
  | @cons a b as bs hab h ih => rw [all_cons, all_cons, hpq a b hab, ih]

theorem forall_mem_rel {p : α → Prop} {q : β → Prop} (h : Forall₂ R as bs)
    (hpq : ∀ a b, R a b → p a → q b) (hp : ∀ a ∈ as, p a) : ∀ b ∈ bs, q b := by
  induction h with
  | nil => nofun
  | cons hab _ ih =>
      obtain ⟨ha, has⟩ := forall_mem_cons.mp hp
      exact forall_mem_cons.mpr ⟨hpq _ _ hab ha, ih has⟩

theorem map_eq {f : α → γ} {g : β → γ} (h : Forall₂ R as bs) (hfg : ∀ a b, R a b → f a = g b) :
    as.map f = bs.map g := by
  induction h with
  | nil => rfl
  | @cons a b as bs hab h ih => rw [map_cons, map_cons, hfg a b hab, ih]

theorem head?_rel (h : Forall₂ R as bs) : Option.Rel R as.head? bs.head? := by
  cases h with
  | nil => exact .none
  | cons hab => exact .some hab

theorem getLast?_rel (h : Forall₂ R as bs) : Option.Rel R as.getLast? bs.getLast? := by
  rw [← head?_reverse, ← head?_reverse]
  exact head?_rel (rel_reverse h)

theorem getLastD_rel {a : α} {b : β} (h : Forall₂ R as bs) (hab : R a b) :
    R (as.getLastD a) (bs.getLastD b) := by
  rw [getLastD_eq_getLast?, getLastD_eq_getLast?]
  exact getD_rel (getLast?_rel h) hab

theorem getElem?_rel (h : Forall₂ R as bs) (i : Nat) : Option.Rel R as[i]? bs[i]? := by
  induction h generalizing i with
  | nil => exact .none
  | cons hab _ ih =>
      cases i with
      | zero => exact .some hab
      | succ i => simpa using ih i

theorem set_rel (h : Forall₂ R as bs) (i : Nat) {a : α} {b : β} (hab : R a b) :
    Forall₂ R (as.set i a) (bs.set i b) := by
  induction h generalizing i with
  | nil => exact .nil
  | cons hcd h ih =>
      cases i with
      | zero => exact .cons hab h
      | succ i => exact .cons hcd (ih i)

theorem modify_rel {f : α → α} {g : β → β} (h : Forall₂ R as bs) (i : Nat)
    (hfg : ∀ a b, R a b → R (f a) (g b)) : Forall₂ R (as.modify i f) (bs.modify i g) := by
  induction h generalizing i with
  | nil => simp
  | cons hab h ih =>
      cases i with
      | zero => exact .cons (hfg _ _ hab) h
      | succ i => exact .cons hab (ih i)

theorem dropLast_rel (h : Forall₂ R as bs) : Forall₂ R as.dropLast bs.dropLast := by
  rw [dropLast_eq_take, dropLast_eq_take, h.length_eq]
  exact forall₂_take _ h

theorem zip_rel {cs : List γ} {ds : List δ} (h : Forall₂ R as bs) (h' : Forall₂ S cs ds) :
    Forall₂ (fun x y => R x.1 y.1 ∧ S x.2 y.2) (as.zip cs) (bs.zip ds) := by
  induction h generalizing cs ds with
  | nil => exact .nil
  | cons hab _ ih =>
      cases h' with
      | nil => exact .nil
      | cons hcd h' => exact .cons ⟨hab, hcd⟩ (ih h')

theorem findSome?_rel {f : α → Option γ} {g : β → Option δ} (h : Forall₂ R as bs)
    (hfg : ∀ a b, R a b → Option.Rel S (f a) (g b)) :
    Option.Rel S (as.findSome? f) (bs.findSome? g) := by
  induction h with
  | nil => exact .none
  | @cons a b as bs hab h ih =>
      rw [findSome?_cons, findSome?_cons]
      have hhead := hfg a b hab
      generalize f a = x at hhead ⊢
      generalize g b = y at hhead ⊢
      cases hhead with
      | none => exact ih
      | some h => exact .some h

/-- Parts of two lists that stand behind equally long beginnings are related. -/
theorem append_rel_iff {as' : List α} {bs' : List β} (hlength : as.length = bs.length) :
    Forall₂ R (as ++ as') (bs ++ bs') ↔ Forall₂ R as bs ∧ Forall₂ R as' bs' := by
  constructor
  · intro h
    have htake := forall₂_take as.length h
    have hdrop := forall₂_drop as.length h
    rw [take_left, hlength, take_left] at htake
    rw [drop_left, hlength, drop_left] at hdrop
    exact ⟨htake, hdrop⟩
  · rintro ⟨h, h'⟩
    exact rel_append h h'

end TypedSql.Memberwise

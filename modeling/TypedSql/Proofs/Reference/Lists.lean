import TypedSql.Analysis.Neighbor
import TypedSql.Proofs.Reference.Scan

/-!
# Lists in parentheses

What stands in a parenthesized list is found in two ways: forwards, by the commas outside its
groups, and backwards from a token in it, by its opening parenthesis.  Over a balanced list both
scans pass, so each item is found as it was written, wherever the list stands.

Main definitions: `Separated`, `Separated.ItemOf`.  Main statements: `Separated.length_pieces`,
`Separated.split`, `inListOpen?_eq`, `inListLength?_eq`.
-/

namespace TypedSql

open Text Token

namespace Token

/-- A token in the first line of a text of ASCII characters. -/
def inLine (kind : Kind) (text : String) (column : Nat) : Token :=
  ⟨kind, text, ⟨column - 1, column - 1 + text.utf8ByteSize⟩, ⟨1, column⟩⟩

/-- A parenthesis or a comma. -/
def Delimits (t : Token) : Prop := t.kind ∈ [Kind.leftParen, .rightParen, .comma]

theorem delimits_of_kind {t : Token} {kind : Kind} (h : t.kind = kind)
    (hkind : kind ∈ [Kind.leftParen, .rightParen, .comma]) : t.Delimits := by
  subst h
  exact hkind

namespace Delimits

variable {t : Token} (h : t.Delimits)
include h

theorem kind_ne {kind : Kind} (hkind : kind ∉ [Kind.leftParen, .rightParen, .comma]) :
    t.kind ≠ kind := by
  rintro rfl
  exact hkind h

theorem isAnyWord (words : List String) : t.isAnyWord words = false :=
  isAnyWord_of_kind (h.kind_ne (by decide)) (h.kind_ne (by decide)) words

theorem isWord (word : String) : t.isWord word = false :=
  isWord_of_isAnyWord (h.isAnyWord [word]) List.mem_cons_self

theorem isComparison : Neighbor.isComparison t = false := by
  rw [Neighbor.isComparison, h.isAnyWord, beq_eq_false_iff_ne.mpr (h.kind_ne (by decide))]
  rfl

end Delimits

end Token

namespace Neighbor

variable {before inner after : List Token} {o c : Token}

/-- A token right behind the parenthesis of a list, or behind a comma in it, finds the parenthesis.
The list is an `IN` list if the word stands in front of it. -/
theorem inListOpen?_eq (ho : o.kind = .leftParen) (hinner : Balanced inner)
    (hitem : ∀ t ∈ inner.getLast?, t.kind = .comma) (after : List Token) :
    inListOpen? (before ++ o :: inner ++ after) (before ++ o :: inner).length =
      if startsWith "IN" before.reverse then some before.length else none := by
  have htake : (before ++ o :: inner ++ after).take (before ++ o :: inner).length =
      before ++ o :: inner := List.take_left
  have hreverse : (before ++ o :: inner).reverse = inner.reverse ++ o :: before.reverse := by
    simp
  have hfirst : (startsWithKind .leftParen (inner.reverse ++ o :: before.reverse) ||
      startsWithKind .comma (inner.reverse ++ o :: before.reverse)) = true := by
    rw [startsWithKind, startsWithKind, List.head?_append, List.head?_reverse]
    cases hlast : inner.getLast? with
    | none => simp [ho]
    | some t => simp [hitem t hlast]
  have hbefore : (before ++ o :: inner ++ after).take before.length = before := by
    rw [List.append_assoc, List.take_left]
  unfold inListOpen?
  rw [htake, hreverse, if_pos hfirst, hinner.opening?_append, opening?_last ho, List.length_reverse,
    Option.bind_some, hbefore]

/-- In front of such a token stands the parenthesis or a comma. -/
theorem getLast?_opened (ho : o.kind = .leftParen) (hitem : ∀ t ∈ inner.getLast?, t.kind = .comma) :
    ∀ t ∈ (before ++ o :: inner).getLast?, t.Delimits := by
  intro t ht
  rw [List.getLast?_append, List.getLast?_cons] at ht
  cases hlast : inner.getLast? with
  | none =>
      rw [hlast] at ht
      cases ht
      exact delimits_of_kind ho (by decide)
  | some u =>
      rw [hlast] at ht
      cases ht
      exact delimits_of_kind (hitem _ hlast) (by decide)

/-- The token at the index is an item of its own, in a list with no `IN` in front of it. -/
structure OwnItem (tokens : List Token) (i : Nat) : Prop where
  behind : ∀ t ∈ (tokens.take i).getLast?, t.Delimits
  before : ∀ t ∈ (tokens.drop (i + 1)).head?, t.Delimits
  outside : inListOpen? tokens i = none

theorem OwnItem.of_group {mark : Token} (ho : o.kind = .leftParen) (hinner : Balanced inner)
    (hitem : ∀ t ∈ inner.getLast?, t.kind = .comma) (hin : startsWith "IN" before.reverse = false)
    (hafter : ∀ t ∈ after.head?, t.Delimits) :
    OwnItem (before ++ o :: inner ++ mark :: after) (before ++ o :: inner).length := by
  refine ⟨?_, ?_, ?_⟩
  · rw [List.take_left]
    exact getLast?_opened ho hitem
  · rw [List.drop_length_add_append]
    exact hafter
  · rw [inListOpen?_eq ho hinner hitem, hin, if_neg Bool.false_ne_true]

theorem skip_of_delimits {ts : List Token} (h : ∀ t ∈ ts.head?, t.Delimits) (word : String) :
    skip word ts = ts := by
  cases ts with
  | nil => rfl
  | cons t ts =>
      have hno : startsWith word (t :: ts) = false := (h t rfl).isWord word
      rw [skip, hno, if_neg Bool.false_ne_true]

/-- The token in front of a parameter decides, unless it is `NOT`. -/
theorem comparedBefore?_cons {op : Token} (h : op.isWord "NOT" = false) (rest : List Token) :
    comparedBefore? (op :: rest) =
      if isComparison op then columnBefore? (skip "NOT" rest) else none := by
  have hno : startsWith "NOT" (op :: rest) = false := h
  simp only [comparedBefore?, hno, Bool.false_and, Bool.false_eq_true, if_false]

/-- Nothing is compared with what a parenthesis or a comma stands before. -/
theorem comparedBefore?_eq_none {ts : List Token} (h : ∀ t ∈ ts.head?, t.Delimits) :
    comparedBefore? ts = none := by
  cases ts with
  | nil => rfl
  | cons t ts =>
      rw [comparedBefore?_cons ((h t rfl).isWord "NOT"), (h t rfl).isComparison,
        if_neg Bool.false_ne_true]

theorem comparedBehind?_eq_none {ts : List Token} (h : ∀ t ∈ ts.head?, t.Delimits) :
    comparedBehind? ts = none := by
  rw [comparedBehind?, skip_of_delimits h]
  cases ts with
  | nil => rfl
  | cons t ts => simp only [(h t rfl).isComparison, Bool.false_eq_true, if_false]

/-- The list that such a token finds is as long as its commas say. -/
theorem inListLength?_eq (ho : o.kind = .leftParen) (hc : c.kind = .rightParen)
    (hinner : Balanced inner) (hitem : ∀ t ∈ inner.getLast?, t.kind = .comma)
    (hwhole : Balanced (inner ++ after)) (hin : startsWith "IN" before.reverse = true)
    (rest : List Token) :
    inListLength? (before ++ o :: inner ++ (after ++ c :: rest)) (before ++ o :: inner).length =
      some (splitTopLevelCommas (inner ++ after)).length := by
  have hdrop : (before ++ o :: inner ++ (after ++ c :: rest)).drop before.length =
      o :: (inner ++ after ++ c :: rest) := by
    rw [List.append_assoc, List.drop_left]
    simp
  rw [inListLength?, inListOpen?_eq ho hinner hitem, if_pos hin, Option.bind_some, hdrop,
    hwhole.group? ho hc]
  rfl

end Neighbor

namespace Grammar

/-! ## Pieces of places -/

section Pieces

variable {xs ys : List Token} {comma : Token}

theorem places_shift (r : Range) (ps qs : List Place) :
    (r.shift ps.length).places (ps ++ qs) = r.places qs := by
  show ((ps ++ qs).drop (r.start + ps.length)).take (r.stop + ps.length - (r.start + ps.length)) = _
  rw [Nat.add_comm r.start, List.drop_length_add_append, Nat.add_comm r.stop,
    Nat.add_sub_add_left]
  rfl

theorem placePieces_single (h : Outside NoComma xs) (hne : xs ≠ []) (i : Nat)
    (before : Option Token) (d : Nat) :
    placePieces (placesAt i before d xs) = [placesAt i before d xs] := by
  have hwhole :
      (Range.mk 0 xs.length).places (placesAt i before d xs) = placesAt i before d xs := by
    show ((placesAt i before d xs).drop 0).take (xs.length - 0) = _
    rw [List.drop_zero, Nat.sub_zero, List.take_of_length_le (Nat.le_of_eq (length_placesAt ..))]
  rw [placePieces, map_token_placesAt, h.splitTopLevelCommas_eq hne, List.map_singleton, hwhole]

theorem placePieces_append (h : Outside NoComma xs) (hne : xs ≠ []) (hcomma : comma.kind = .comma)
    (i : Nat) (before : Option Token) (d : Nat) :
    placePieces (placesAt i before d (xs ++ comma :: ys)) =
      placesAt i before d xs :: placePieces (placesAt (i + xs.length + 1) (some comma) d ys) := by
  let mark : Place := ⟨i + xs.length, d, xs.getLast?.or before, comma⟩
  have hplaces : placesAt i before d (xs ++ comma :: ys) =
      (placesAt i before d xs ++ [mark]) ++ placesAt (i + xs.length + 1) (some comma) d ys := by
    rw [placesAt_append h.balanced, placesAt_cons (by rw [hcomma]; decide) (by rw [hcomma]; decide),
      List.append_cons]
  have hfirst : (Range.mk 0 xs.length).places (placesAt i before d (xs ++ comma :: ys)) =
      placesAt i before d xs := by
    show ((placesAt i before d (xs ++ comma :: ys)).drop 0).take (xs.length - 0) = _
    rw [List.drop_zero, Nat.sub_zero, placesAt_append h.balanced,
      List.take_left' (length_placesAt ..)]
  have hlength : (xs ++ [comma]).length = (placesAt i before d xs ++ [mark]).length := by
    simp [length_placesAt]
  rw [placePieces, map_token_placesAt, h.splitTopLevelCommas_append hne hcomma, List.map_cons,
    hfirst, List.map_map, placePieces, map_token_placesAt]
  congr 1
  refine List.map_congr_left fun r _ => ?_
  show (r.shift (xs ++ [comma]).length).places (placesAt i before d (xs ++ comma :: ys)) = _
  rw [hplaces, hlength, places_shift]

end Pieces

/-! ## Items with commas between them -/

/-- The tokens are items with commas between them; `P` says which tokens are which item. -/
inductive Separated {α : Type} (P : List Token → α → Prop) : List Token → List α → Prop
  | nil : Separated P [] []
  | single {xs : List Token} {a : α} (hx : P xs a) : Separated P xs [a]
  | more {xs ys : List Token} {a b : α} {as : List α} {comma : Token} (hx : P xs a)
      (hcomma : comma.Is .comma ",") (hy : Separated P ys (b :: as)) :
      Separated P (xs ++ comma :: ys) (a :: b :: as)

namespace Separated

variable {α : Type} {P : List Token → α → Prop} {ts : List Token} {as : List α}

/-- The items can be told apart: none is empty or has a comma outside its groups. -/
def Apart (P : List Token → α → Prop) : Prop := ∀ xs a, P xs a → xs ≠ [] ∧ Outside NoComma xs

theorem balanced_comma {comma : Token} (h : comma.kind = .comma) : Balanced [comma] :=
  .token (by rw [h]; decide) (by rw [h]; decide)

/-- What holds of the tokens outside the groups of each item, and of commas, holds outside the
groups of the list. -/
theorem outside {p : Token → Prop} (h : Separated P ts as) (hP : ∀ xs a, P xs a → Outside p xs)
    (hp : ∀ comma, comma.Is .comma "," → p comma) : Outside p ts := by
  induction h with
  | nil => exact .nil
  | single hx => exact hP _ _ hx
  | more hx hcomma _ ih =>
      exact (hP _ _ hx).append
        (.cons (hp _ hcomma) (by rw [hcomma.1]; decide) (by rw [hcomma.1]; decide) ih)

theorem balanced (h : Separated P ts as) (hP : Apart P) : Balanced ts :=
  (h.outside (p := fun _ => True) (fun xs a hx => (hP xs a hx).2.imp fun _ _ => trivial)
    fun _ _ => trivial).balanced

theorem forall_mem {p : Token → Prop} (h : Separated P ts as) (hP : ∀ xs a, P xs a → ∀ t ∈ xs, p t)
    (hp : ∀ comma, comma.Is .comma "," → p comma) : ∀ t ∈ ts, p t := by
  induction h with
  | nil => nofun
  | single hx => exact hP _ _ hx
  | more hx hcomma _ ih =>
      intro t ht
      rcases List.mem_append.mp ht with ht | ht
      · exact hP _ _ hx t ht
      · rcases List.mem_cons.mp ht with rfl | ht
        · exact hp _ hcomma
        · exact ih t ht

/-- There are as many pieces as items. -/
theorem length_pieces (h : Separated P ts as) (hP : Apart P) :
    (splitTopLevelCommas ts).length = as.length := by
  induction h with
  | nil => rfl
  | single hx =>
      obtain ⟨hne, houtside⟩ := hP _ _ hx
      rw [houtside.splitTopLevelCommas_eq hne]
      rfl
  | more hx hcomma _ ih =>
      obtain ⟨hne, houtside⟩ := hP _ _ hx
      rw [houtside.splitTopLevelCommas_append hne hcomma.1, List.length_cons, List.length_map, ih]
      rfl

/-- Item number `j` stands behind the items before it, each with its comma, and nothing or a comma
stands behind it. -/
structure ItemOf (P : List Token → α → Prop) (ts : List Token) (as : List α) (j : Nat) (a : α)
    (xs earlier later : List Token) : Prop where
  tokens_eq : ts = earlier ++ (xs ++ later)
  item : P xs a
  behind : ∀ t ∈ later.head?, t.kind = .comma
  before : j = 0 ∧ earlier = [] ∨ 0 < j ∧ ∃ before comma, comma.Is .comma "," ∧
    earlier = before ++ [comma] ∧ Separated P before (as.take j)

namespace ItemOf

variable {xs ys earlier later : List Token} {a b : α} {j : Nat} {comma : Token}

theorem single (hx : P xs a) : ItemOf P xs [a] 0 a xs [] [] :=
  ⟨by simp, hx, nofun, .inl ⟨rfl, rfl⟩⟩

theorem first (hx : P xs a) (hcomma : comma.Is .comma ",") (ys : List Token) (as : List α) :
    ItemOf P (xs ++ comma :: ys) (a :: as) 0 a xs [] (comma :: ys) := by
  refine ⟨rfl, hx, ?_, .inl ⟨rfl, rfl⟩⟩
  rintro t ⟨⟩
  exact hcomma.1

theorem more {zs : List Token} {b' : α} (hx : P xs a) (hcomma : comma.Is .comma ",")
    (h : ItemOf P ys (b :: as) j b' zs earlier later) :
    ItemOf P (xs ++ comma :: ys) (a :: b :: as) (j + 1) b' zs (xs ++ comma :: earlier) later := by
  refine ⟨by rw [h.tokens_eq]; simp, h.item, h.behind, .inr ⟨Nat.succ_pos j, ?_⟩⟩
  rcases h.before with ⟨rfl, rfl⟩ | ⟨hpos, before, comma', hcomma', rfl, hbefore⟩
  · exact ⟨xs, comma, hcomma, rfl, .single hx⟩
  · obtain ⟨k, rfl⟩ := Nat.exists_eq_succ_of_ne_zero (Nat.ne_of_gt hpos)
    exact ⟨xs ++ comma :: before, comma', hcomma', by simp, .more hx hcomma hbefore⟩

variable (h : ItemOf P ts as j a xs earlier later)
include h

theorem balanced (hP : Apart P) : Balanced earlier := by
  rcases h.before with ⟨-, rfl⟩ | ⟨-, before, comma, hcomma, rfl, hbefore⟩
  · exact .nil
  · exact (hbefore.balanced hP).append (balanced_comma hcomma.1)

theorem last : ∀ t ∈ earlier.getLast?, t.kind = .comma := by
  rcases h.before with ⟨-, rfl⟩ | ⟨-, before, comma, hcomma, rfl, -⟩
  · nofun
  · intro t ht
    rw [List.getLast?_concat] at ht
    cases ht
    exact hcomma.1

end ItemOf

/-- Every item stands in the list. -/
theorem split (h : Separated P ts as) {j : Nat} {a : α} (hj : as[j]? = some a) :
    ∃ xs earlier later, ItemOf P ts as j a xs earlier later := by
  induction h generalizing j with
  | nil => cases hj
  | @single xs b hx =>
      cases j with
      | zero =>
          cases hj
          exact ⟨xs, [], [], .single hx⟩
      | succ j => cases hj
  | @more xs ys b d ds comma hx hcomma hy ih =>
      cases j with
      | zero =>
          cases hj
          exact ⟨xs, [], comma :: ys, .first hx hcomma ys (d :: ds)⟩
      | succ j =>
          obtain ⟨zs, earlier, later, hitem⟩ := ih hj
          exact ⟨zs, xs ++ comma :: earlier, later, hitem.more hx hcomma⟩

/-- A token that is no comma stands in an item. -/
theorem exists_itemOf (h : Separated P ts as) {i : Nat} {t : Token} (ht : ts[i]? = some t)
    (hne : t.kind ≠ .comma) :
    ∃ j a xs earlier later k, xs[k]? = some t ∧ i = earlier.length + k ∧
      ItemOf P ts as j a xs earlier later := by
  induction h generalizing i with
  | nil => cases ht
  | @single xs a hx => exact ⟨0, a, xs, [], [], i, ht, by simp, .single hx⟩
  | @more xs ys a b as comma hx hcomma hy ih =>
      rw [List.getElem?_append] at ht
      split at ht
      · exact ⟨0, a, xs, [], comma :: ys, i, ht, by simp, .first hx hcomma ys (b :: as)⟩
      · next hi =>
          cases hk : i - xs.length with
          | zero =>
              rw [hk] at ht
              cases ht
              exact absurd hcomma.1 hne
          | succ m =>
              rw [hk, List.getElem?_cons_succ] at ht
              obtain ⟨j, d, zs, earlier, later, k, hzs, hm, hitem⟩ := ih ht
              refine ⟨j + 1, d, zs, xs ++ comma :: earlier, later, k, hzs, ?_, hitem.more hx hcomma⟩
              simp only [List.length_append, List.length_cons]
              omega

end Separated

end Grammar

end TypedSql

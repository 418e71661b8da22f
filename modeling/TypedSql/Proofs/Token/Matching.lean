import Mathlib.Data.List.Induction
import TypedSql.Proofs.Token.Groups

/-!
# Matching parentheses

Two searches look for a matching parenthesis, one forwards from the one that opens and one backwards
from the one that closes.  Both find two parentheses with a balanced list between them, so each
takes back what the other does.  The depths see the same: both parentheses have the depth of what
stands around them, and all that is between them lies deeper.

The searches are also written with a counter that starts at zero and would get stuck below it; it
never does.

Main definitions: `Encloses`, `Opens`, `countedSearch`.  Main statement: `matching_parens`.
-/

namespace TypedSql.Token

/-- The parenthesis at index `i` opens a group, the one at index `j` closes it, and what stands
between them is balanced. -/
def Encloses (tokens : List Token) (i j : Nat) : Prop :=
  ∃ before openParen inner closeParen after,
    tokens = before ++ openParen :: (inner ++ closeParen :: after) ∧
      openParen.kind = .leftParen ∧ closeParen.kind = .rightParen ∧ Balanced inner ∧
      before.length = i ∧ i + inner.length + 1 = j

/-! ## Forwards -/

/-- The search for the parenthesis that closes a group finds exactly that one. -/
theorem matchingParen?_eq_some_iff {tokens : List Token} {i j : Nat} :
    matchingParen? tokens i = some j ↔ Encloses tokens i j := by
  constructor
  · intro h
    unfold matchingParen? at h
    split at h
    · next t ts hdrop =>
        obtain ⟨hopen, hclosing⟩ := Option.ite_none_right_eq_some.mp h
        obtain ⟨inner, closeParen, after, rfl, hclose, hinner, hindex⟩ :=
          exists_of_closing? hclosing
        have hlength := congrArg List.length hdrop
        rw [List.length_drop, List.length_cons] at hlength
        refine ⟨tokens.take i, t, inner, closeParen, after, ?_, hopen, hclose,
          hinner.balanced_of_zero, List.length_take_of_le (by omega), by omega⟩
        rw [← hdrop, List.take_append_drop]
    · cases h
  · rintro ⟨before, openParen, inner, closeParen, after, rfl, hopen, hclose, hinner, rfl, rfl⟩
    unfold matchingParen?
    rw [List.drop_left]
    show (if openParen.kind = .leftParen then _ else none) = _
    rw [if_pos hopen, hinner.closing?_append, closing?_last hclose]
    congr 1
    omega

/-! ## Backwards -/

/-- The list opens `inner` parentheses that are closed behind it, and is balanced behind each of
them and in front of the first one. -/
inductive Opens : Nat → List Token → Prop
  | balanced {xs : List Token} (hx : Balanced xs) : Opens 0 xs
  | opening {inner : Nat} {xs ys : List Token} {openParen : Token} (hx : Opens inner xs)
      (hopen : openParen.kind = .leftParen) (hy : Balanced ys) :
      Opens (inner + 1) (xs ++ openParen :: ys)

theorem Opens.append {inner : Nat} {xs ys : List Token} (hx : Opens inner xs) (hy : Balanced ys) :
    Opens inner (xs ++ ys) := by
  cases hx with
  | balanced hx => exact .balanced (hx.append hy)
  | opening hx hopen hz =>
      rw [List.append_assoc, List.cons_append]
      exact .opening hx hopen (hz.append hy)

/-- A parenthesis behind the list closes the last one that the list opens. -/
theorem Opens.concat_close {inner : Nat} {closeParen : Token} {xs : List Token}
    (hx : Opens (inner + 1) xs) (hclose : closeParen.kind = .rightParen) :
    Opens inner (xs ++ [closeParen]) := by
  cases hx with
  | opening hx hopen hy =>
      rw [List.append_assoc, List.cons_append]
      exact hx.append (.group hopen hclose hy)

theorem Opens.balanced_of_zero {xs : List Token} (h : Opens 0 xs) : Balanced xs := by
  cases h with
  | balanced h => exact h

/-- What the search backwards passes over opens all parentheses but the one that is found. -/
theorem exists_of_opening? {inner i : Nat} {tokens : List Token}
    (h : opening? inner tokens.reverse = some i) :
    ∃ before openParen xs, tokens = before ++ openParen :: xs ∧ openParen.kind = .leftParen ∧
      Opens inner xs ∧ before.length = i := by
  -- The last token is the first one that the search reads.
  induction tokens using List.reverseRecOn generalizing inner with
  | nil => cases h
  | append_singleton ts t ih =>
      rw [List.reverse_append, List.reverse_singleton, List.singleton_append] at h
      by_cases hclose : t.kind = .rightParen
      · rw [opening?_close hclose] at h
        obtain ⟨before, openParen, xs, rfl, hopen, hxs, hbefore⟩ := ih h
        exact ⟨before, openParen, xs ++ [t], by simp, hopen, hxs.concat_close hclose, hbefore⟩
      · by_cases hopen : t.kind = .leftParen
        · cases inner with
          | zero =>
              rw [opening?_last hopen, List.length_reverse] at h
              exact ⟨ts, t, [], rfl, hopen, .balanced .nil, Option.some.inj h⟩
          | succ inner =>
              rw [opening?_open hopen] at h
              obtain ⟨before, openParen, xs, rfl, hfirst, hxs, hbefore⟩ := ih h
              exact ⟨before, openParen, xs ++ [t], by simp, hfirst, .opening hxs hopen .nil,
                hbefore⟩
        · rw [opening?_other hopen hclose] at h
          obtain ⟨before, openParen, xs, rfl, hfirst, hxs, hbefore⟩ := ih h
          exact ⟨before, openParen, xs ++ [t], by simp, hfirst, hxs.append (.token hopen hclose),
            hbefore⟩

/-- The search for the parenthesis that opens a group finds exactly that one. -/
theorem matchingOpenParen?_eq_some_iff {tokens : List Token} {i j : Nat} :
    matchingOpenParen? tokens j = some i ↔ Encloses tokens i j := by
  constructor
  · intro h
    unfold matchingOpenParen? at h
    split at h
    · next t ts hdrop =>
        obtain ⟨hclose, hopening⟩ := Option.ite_none_right_eq_some.mp h
        obtain ⟨before, openParen, inner, htake, hopen, hinner, hbefore⟩ :=
          exists_of_opening? hopening
        have hlength := congrArg List.length hdrop
        have hfront := congrArg List.length htake
        rw [List.length_drop, List.length_cons] at hlength
        rw [List.length_take_of_le (by omega), List.length_append, List.length_cons] at hfront
        refine ⟨before, openParen, inner, t, ts, ?_, hopen, hclose, hinner.balanced_of_zero,
          hbefore, by omega⟩
        rw [← List.cons_append, ← List.append_assoc, ← htake, ← hdrop, List.take_append_drop]
    · cases h
  · rintro ⟨before, openParen, inner, closeParen, after, rfl, hopen, hclose, hinner, rfl, rfl⟩
    have hsplit : before ++ openParen :: (inner ++ closeParen :: after) =
        (before ++ openParen :: inner) ++ closeParen :: after := by simp
    have hlength : before.length + inner.length + 1 = (before ++ openParen :: inner).length := by
      rw [List.length_append, List.length_cons, Nat.add_assoc]
    unfold matchingOpenParen?
    rw [hsplit, hlength, List.drop_left, List.take_left]
    show (if closeParen.kind = .rightParen then _ else none) = _
    rw [if_pos hclose, List.reverse_append, List.reverse_cons, List.append_assoc,
      hinner.opening?_append, List.singleton_append, opening?_last hopen, List.length_reverse]

/-! ## Depths -/

/-- The depths of two parentheses and of what stands between them. -/
theorem Encloses.depths {tokens : List Token} {i j : Nat} (h : Encloses tokens i j) :
    ∃ d, (depths tokens)[i]? = some d ∧ (depths tokens)[j]? = some d ∧
      ∀ k, i < k → k < j → ∃ e, (depths tokens)[k]? = some e ∧ d + 1 ≤ e := by
  obtain ⟨before, openParen, inner, closeParen, after, rfl, hopen, hclose, hinner, rfl, rfl⟩ := h
  let d := depthAfter 0 before
  have hother : openParen.kind ≠ .rightParen := by
    rw [hopen]
    decide
  have hdepths : Token.depths (before ++ openParen :: (inner ++ closeParen :: after)) =
      Token.depths before ++ d :: (depthsFrom (d + 1) inner ++ d :: depthsFrom d after) := by
    rw [Token.depths, depthsFrom_append, depthsFrom_cons, if_neg hother, depthBehind_open hopen,
      depthsFrom_append, hinner.depthAfter, depthsFrom_cons, if_pos hclose,
      depthBehind_close hclose, Nat.add_sub_cancel, Token.depths]
  have hbefore : (Token.depths before).length = before.length := length_depthsFrom 0 before
  have hlength := length_depthsFrom (d + 1) inner
  refine ⟨d, ?_, ?_, fun k hik hkj => ?_⟩
  · rw [hdepths, List.getElem?_append_right (by omega), hbefore, Nat.sub_self,
      List.getElem?_cons_zero]
  · rw [hdepths, List.getElem?_append_right (by omega), hbefore,
      show before.length + inner.length + 1 - before.length = inner.length + 1 by omega,
      List.getElem?_cons_succ, List.getElem?_append_right (by omega), hlength, Nat.sub_self,
      List.getElem?_cons_zero]
  · obtain ⟨m, rfl⟩ : ∃ m, k = before.length + (m + 1) := ⟨k - before.length - 1, by omega⟩
    have hm : m < (depthsFrom (d + 1) inner).length := by omega
    refine ⟨(depthsFrom (d + 1) inner)[m], ?_, ?_⟩
    · rw [hdepths, List.getElem?_append_right (by omega), hbefore, Nat.add_sub_cancel_left,
        List.getElem?_cons_succ, List.getElem?_append_left hm, List.getElem?_eq_getElem hm]
    · have hmem : (depthsFrom (d + 1) inner)[m] ∈ (withDepthsFrom (d + 1) inner).map Prod.fst := by
        rw [map_fst_withDepthsFrom]
        exact List.getElem_mem hm
      obtain ⟨dt, hdt, heq⟩ := List.mem_map.mp hmem
      have hle := hinner.depth_le hdt
      rwa [heq] at hle

/-! ## Counts -/

/-- How many tokens of that kind the list has. -/
def countKind (kind : Kind) (tokens : List Token) : Nat := tokens.countP fun t => t.kind == kind

theorem countKind_cons (kind : Kind) (t : Token) (ts : List Token) :
    countKind kind (t :: ts) = countKind kind ts + if t.kind = kind then 1 else 0 := by
  rw [countKind, List.countP_cons, ← countKind]
  simp only [beq_iff_eq]

theorem countKind_append (kind : Kind) (xs ys : List Token) :
    countKind kind (xs ++ ys) = countKind kind xs + countKind kind ys := List.countP_append

/-- A balanced list has as many parentheses of one kind as of the other. -/
theorem Balanced.countKind_eq {xs : List Token} (h : Balanced xs) :
    countKind .rightParen xs = countKind .leftParen xs := by
  induction h with
  | nil => rfl
  | token hopen hclose =>
      rw [countKind_cons, countKind_cons, if_neg hopen, if_neg hclose]
      rfl
  | append _ _ hx hy => rw [countKind_append, countKind_append, hx, hy]
  | group hopen hclose _ hx =>
      simp only [countKind_cons, countKind_append, hopen, hclose, hx]
      rfl

/-- A search that finds nothing never sees more parentheses closed than opened. -/
theorem countKind_le_of_closing? {inner i : Nat} {tokens front : List Token}
    (h : closing? inner i tokens = none) (hfront : front <+: tokens) :
    countKind .rightParen front ≤ inner + countKind .leftParen front := by
  induction tokens generalizing inner i front with
  | nil =>
      rw [List.prefix_nil.mp hfront]
      exact Nat.zero_le _
  | cons t ts ih =>
      cases front with
      | nil => exact Nat.zero_le _
      | cons u us =>
          obtain ⟨rfl, hus⟩ := List.cons_prefix_cons.mp hfront
          rw [countKind_cons, countKind_cons]
          by_cases hopen : u.kind = .leftParen
          · rw [closing?_open hopen] at h
            have := ih h hus
            simp only [hopen, if_true, reduceCtorEq, if_false]
            omega
          · by_cases hclose : u.kind = .rightParen
            · cases inner with
              | zero =>
                  rw [closing?_last hclose] at h
                  cases h
              | succ inner =>
                  rw [closing?_close hclose] at h
                  have := ih h hus
                  simp only [hclose, if_true, reduceCtorEq, if_false]
                  omega
            · rw [closing?_other hopen hclose] at h
              have := ih h hus
              rw [if_neg hopen, if_neg hclose]
              omega

/-- A parenthesis is closed nowhere exactly if, from it on, never as many are closed as are
opened. -/
theorem matchingParen?_eq_none_iff {tokens : List Token} {i : Nat} {t : Token}
    (ht : tokens[i]? = some t) (hopen : t.kind = .leftParen) :
    matchingParen? tokens i = none ↔ ∀ k, i < k → k < tokens.length →
      countKind .rightParen ((Range.mk i (k + 1)).tokens tokens) ≠
        countKind .leftParen ((Range.mk i (k + 1)).tokens tokens) := by
  obtain ⟨hi, rfl⟩ := List.getElem?_eq_some_iff.mp ht
  constructor
  · intro h k hik hk
    have hdrop := List.drop_eq_getElem_cons hi
    have hsearch : closing? 0 (i + 1) (tokens.drop (i + 1)) = none := by
      rw [matchingParen?, hdrop] at h
      simpa [hopen] using h
    have hle := countKind_le_of_closing? hsearch (List.take_prefix (k - i) _)
    have hslice : (Range.mk i (k + 1)).tokens tokens =
        tokens[i] :: (tokens.drop (i + 1)).take (k - i) := by
      rw [Range.tokens, hdrop, show k + 1 - i = k - i + 1 by omega, List.take_succ_cons]
    rw [hslice, countKind_cons, countKind_cons]
    simp only [hopen, if_true, reduceCtorEq, if_false]
    omega
  · intro h
    cases hmatch : matchingParen? tokens i with
    | none => rfl
    | some j =>
        have hlt := lt_of_matchingParen? hmatch
        obtain ⟨before, openParen, inner, closeParen, after, rfl, hleft, hright, hinner, rfl,
          rfl⟩ := matchingParen?_eq_some_iff.mp hmatch
        have hslice : (Range.mk before.length (before.length + inner.length + 1 + 1)).tokens
            (before ++ openParen :: (inner ++ closeParen :: after)) =
              openParen :: (inner ++ [closeParen]) := by
          rw [Range.tokens, List.drop_left,
            show before.length + inner.length + 1 + 1 - before.length = inner.length + 1 + 1 by
              omega,
            List.take_succ_cons, List.take_length_add_append]
          rfl
        have hbalanced := (Balanced.group hleft hright hinner).countKind_eq
        rw [← hslice] at hbalanced
        exact absurd hbalanced (h _ hlt.1 hlt.2)

/-! ## Counters -/

/-- A search through tokens with their indices by a counter, where `up` raises it and `down` lowers
it: the index at which it gets back to zero.  Without an answer the counter would have been lowered
at zero. -/
def countedSearch (up down : Kind) : Nat → List (Token × Nat) → Option (Option Nat)
  | _, [] => some none
  | counter, (t, i) :: rest =>
      if t.kind = up then countedSearch up down (counter + 1) rest
      else if t.kind = down then
        if counter = 0 then none
        else if counter - 1 = 0 then some (some i)
        else countedSearch up down (counter - 1) rest
      else countedSearch up down counter rest

/-- `matchingParen?` by a counter that starts at zero in front of the parenthesis. -/
def countedParen? (tokens : List Token) (i : Nat) : Option (Option Nat) :=
  if tokens[i]?.any (·.kind == .leftParen) then
    countedSearch .leftParen .rightParen 0 (tokens.zipIdx.drop i)
  else some none

/-- `matchingOpenParen?` by a counter that starts at zero behind the parenthesis. -/
def countedOpenParen? (tokens : List Token) (j : Nat) : Option (Option Nat) :=
  if tokens[j]?.any (·.kind == .rightParen) then
    countedSearch .rightParen .leftParen 0 (tokens.zipIdx.take (j + 1)).reverse
  else some none

section Counted

variable {up down : Kind} {t : Token} {counter i : Nat} {rest : List (Token × Nat)}

theorem countedSearch_up (h : t.kind = up) :
    countedSearch up down counter ((t, i) :: rest) =
      countedSearch up down (counter + 1) rest := by
  rw [countedSearch, if_pos h]

theorem countedSearch_down (hne : down ≠ up) (h : t.kind = down) :
    countedSearch up down (counter + 1) ((t, i) :: rest) =
      if counter = 0 then some (some i) else countedSearch up down counter rest := by
  rw [countedSearch, if_neg (h ▸ hne), if_pos h, if_neg (Nat.succ_ne_zero _), Nat.add_sub_cancel]

theorem countedSearch_other (hup : t.kind ≠ up) (hdown : t.kind ≠ down) :
    countedSearch up down counter ((t, i) :: rest) = countedSearch up down counter rest := by
  rw [countedSearch, if_neg hup, if_neg hdown]

end Counted

/-- The counter holds one more than the number of parentheses that are open besides the one whose
match is looked for. -/
theorem countedSearch_forwards (inner i : Nat) (tokens : List Token) :
    countedSearch .leftParen .rightParen (inner + 1) (tokens.zipIdx i) =
      some (closing? inner i tokens) := by
  induction tokens generalizing inner i with
  | nil => rfl
  | cons t ts ih =>
      rw [List.zipIdx_cons]
      by_cases hopen : t.kind = .leftParen
      · rw [countedSearch_up hopen, closing?_open hopen, ih]
      · by_cases hclose : t.kind = .rightParen
        · rw [countedSearch_down (by decide) hclose]
          cases inner with
          | zero => rw [if_pos rfl, closing?_last hclose]
          | succ inner => rw [if_neg (Nat.succ_ne_zero _), closing?_close hclose, ih]
        · rw [countedSearch_other hopen hclose, closing?_other hopen hclose, ih]

theorem countedSearch_backwards (inner : Nat) (tokens : List Token) :
    countedSearch .rightParen .leftParen (inner + 1) tokens.zipIdx.reverse =
      some (opening? inner tokens.reverse) := by
  induction tokens using List.reverseRecOn generalizing inner with
  | nil => rfl
  | append_singleton ts t ih =>
      have hlast : (ts ++ [t]).zipIdx.reverse = (t, ts.length) :: ts.zipIdx.reverse := by
        rw [List.zipIdx_append, List.reverse_append]
        simp
      rw [hlast, List.reverse_append, List.reverse_singleton, List.singleton_append]
      by_cases hclose : t.kind = .rightParen
      · rw [countedSearch_up hclose, opening?_close hclose, ih]
      · by_cases hopen : t.kind = .leftParen
        · rw [countedSearch_down (by decide) hopen]
          cases inner with
          | zero => rw [if_pos rfl, opening?_last hopen, List.length_reverse]
          | succ inner => rw [if_neg (Nat.succ_ne_zero _), opening?_open hopen, ih]
        · rw [countedSearch_other hclose hopen, opening?_other hopen hclose, ih]

theorem drop_zipIdx {tokens : List Token} {i : Nat} (hi : i ≤ tokens.length) :
    tokens.zipIdx.drop i = (tokens.drop i).zipIdx i := by
  conv_lhs => rw [← List.take_append_drop i tokens, List.zipIdx_append]
  rw [List.drop_left' (by rw [List.length_zipIdx, List.length_take_of_le hi]),
    List.length_take_of_le hi, Nat.zero_add]

theorem take_zipIdx {tokens : List Token} {n : Nat} (hn : n ≤ tokens.length) :
    tokens.zipIdx.take n = (tokens.take n).zipIdx := by
  conv_lhs => rw [← List.take_append_drop n tokens, List.zipIdx_append]
  rw [List.take_left' (by rw [List.length_zipIdx, List.length_take_of_le hn])]

/-- The counter is never lowered at zero, and the search by it finds what the search does. -/
theorem countedParen?_eq (tokens : List Token) (i : Nat) :
    countedParen? tokens i = some (matchingParen? tokens i) := by
  unfold countedParen? matchingParen?
  cases ht : tokens[i]? with
  | none =>
      rw [List.drop_eq_nil_of_le (List.getElem?_eq_none_iff.mp ht)]
      rfl
  | some t =>
      obtain ⟨hi, rfl⟩ := List.getElem?_eq_some_iff.mp ht
      have hdrop := List.drop_eq_getElem_cons hi
      have hindexed : tokens.zipIdx.drop i =
          (tokens[i], i) :: (tokens.drop (i + 1)).zipIdx (i + 1) := by
        rw [drop_zipIdx (Nat.le_of_lt hi), hdrop, List.zipIdx_cons]
      rw [hdrop, hindexed]
      by_cases hopen : tokens[i].kind = .leftParen
      · rw [countedSearch_up hopen, countedSearch_forwards]
        simp [hopen]
      · simp [hopen]

/-- As `countedParen?_eq`, for the search backwards. -/
theorem countedOpenParen?_eq (tokens : List Token) (j : Nat) :
    countedOpenParen? tokens j = some (matchingOpenParen? tokens j) := by
  unfold countedOpenParen? matchingOpenParen?
  cases ht : tokens[j]? with
  | none =>
      rw [List.drop_eq_nil_of_le (List.getElem?_eq_none_iff.mp ht)]
      rfl
  | some t =>
      obtain ⟨hj, rfl⟩ := List.getElem?_eq_some_iff.mp ht
      have hindexed : (tokens.zipIdx.take (j + 1)).reverse =
          (tokens[j], j) :: (tokens.take j).zipIdx.reverse := by
        rw [take_zipIdx (Nat.succ_le_of_lt hj), List.take_succ_eq_append_getElem hj,
          List.zipIdx_append, List.reverse_append, List.length_take_of_le (Nat.le_of_lt hj)]
        simp
      rw [List.drop_eq_getElem_cons hj, hindexed]
      by_cases hclose : tokens[j].kind = .rightParen
      · rw [countedSearch_up hclose, countedSearch_backwards]
        simp [hclose]
      · simp [hclose]

/-! ## Both directions -/

/-- The two searches are inverse to each other.  What they find are the ends of a balanced group, of
equal depth with only deeper tokens between them.  Neither counter is ever lowered at zero, and a
search that finds nothing has started at a parenthesis behind which no prefix is balanced. -/
theorem matching_parens (tokens : List Token) (i j : Nat) :
    (matchingParen? tokens i = some j ↔ matchingOpenParen? tokens j = some i) ∧
    (matchingParen? tokens i = some j →
      i < j ∧ ∃ d, (depths tokens)[i]? = some d ∧ (depths tokens)[j]? = some d ∧
        ∀ k, i < k → k < j → ∃ e, (depths tokens)[k]? = some e ∧ d + 1 ≤ e) ∧
    countedParen? tokens i = some (matchingParen? tokens i) ∧
    countedOpenParen? tokens j = some (matchingOpenParen? tokens j) ∧
    ∀ t, tokens[i]? = some t → t.kind = .leftParen →
      (matchingParen? tokens i = none ↔ ∀ k, i < k → k < tokens.length →
        countKind .rightParen ((Range.mk i (k + 1)).tokens tokens) ≠
          countKind .leftParen ((Range.mk i (k + 1)).tokens tokens)) := by
  refine ⟨matchingParen?_eq_some_iff.trans matchingOpenParen?_eq_some_iff.symm, fun h => ?_,
    countedParen?_eq tokens i, countedOpenParen?_eq tokens j,
    fun t ht hopen => matchingParen?_eq_none_iff ht hopen⟩
  exact ⟨(lt_of_matchingParen? h).1, (matchingParen?_eq_some_iff.mp h).depths⟩

end TypedSql.Token

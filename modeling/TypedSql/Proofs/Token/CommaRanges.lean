import Mathlib.Logic.Basic
import TypedSql.Proofs.Token.Balanced
import TypedSql.Proofs.Token.CommaPieces

/-!
# The ranges between commas

A list of tokens is a part without a comma at depth 0, or such a part, the comma behind it and a
list again.  Behind that comma the depths start over at zero: a comma at depth 0 leaves nothing
open, and what was closed without being opened does not count.  So the ranges between the commas
follow each other, leave out the commas only, and each of them looks on its own as it looks in the
list.

Main statements: `induction_on_commas`, `flatten_commaPieces_sublist`, `splitTopLevelCommas_exact`.
-/

namespace TypedSql.Token

variable {tokens xs ys : List Token} {t comma : Token} {r : Range}

theorem NoTopComma.concat (h : NoTopComma xs) (ht : ¬ (depthAfter 0 xs = 0 ∧ t.kind = .comma)) :
    NoTopComma (xs ++ [t]) := by
  intro dt hdt hd hcomma
  rw [withDepthsFrom_append] at hdt
  rcases List.mem_append.mp hdt with hdt | hdt
  · exact h dt hdt hd hcomma
  · rw [withDepthsFrom, depthsFrom_cons] at hdt
    cases List.mem_singleton.mp hdt
    have hother : t.kind ≠ .rightParen := by
      rw [hcomma]
      decide
    exact ht ⟨(if_neg hother).symm.trans hd, hcomma⟩

/-- Induction on the parts between the commas at depth 0. -/
@[elab_as_elim]
theorem induction_on_commas {motive : List Token → Prop} (tokens : List Token)
    (last : ∀ xs, NoTopComma xs → motive xs)
    (more : ∀ xs comma ys, NoTopComma xs → depthAfter 0 xs = 0 → comma.kind = .comma →
      motive ys → motive (xs ++ comma :: ys)) : motive tokens := by
  -- The induction runs over what stands behind the part that has been read so far.
  suffices h : ∀ ts xs, NoTopComma xs → motive (xs ++ ts) from
    h tokens [] (fun _ hdt => absurd hdt List.not_mem_nil)
  intro ts
  induction ts with
  | nil =>
      intro xs hxs
      rw [List.append_nil]
      exact last xs hxs
  | cons t ts ih =>
      intro xs hxs
      by_cases ht : depthAfter 0 xs = 0 ∧ t.kind = .comma
      · exact more xs t ts hxs ht.1 ht.2 (ih [] (fun _ hdt => absurd hdt List.not_mem_nil))
      · rw [List.append_cons]
        exact ih (xs ++ [t]) (hxs.concat ht)

/-- Behind a comma at depth 0 the depths start over. -/
theorem depths_append_comma (hdepth : depthAfter 0 xs = 0) (hcomma : comma.kind = .comma) :
    depths (xs ++ comma :: ys) = depths xs ++ 0 :: depths ys := by
  have hother : comma.kind ≠ .rightParen := by
    rw [hcomma]
    decide
  rw [depths, depthsFrom_append, hdepth, depthsFrom_cons, if_neg hother,
    depthBehind_zero (by rw [hcomma]; decide)]
  rfl

theorem length_depths (tokens : List Token) : (depths tokens).length = tokens.length :=
  length_depthsFrom 0 tokens

/-! ## Order -/

theorem bounds_of_mem_splitTopLevelCommas (hr : r ∈ splitTopLevelCommas tokens) :
    r.start < r.stop ∧ r.stop ≤ tokens.length := by
  have hbounds := bounds_of_mem_splitFrom hr
  rw [show (withDepths tokens).length = tokens.length from length_withDepthsFrom 0 tokens,
    Nat.zero_add] at hbounds
  exact hbounds

theorem pairwise_rangeOrNone {R : Range → Range → Prop} (start stop : Nat) :
    (rangeOrNone start stop).Pairwise R := by
  unfold rangeOrNone
  split
  · exact List.pairwise_singleton R _
  · exact .nil

/-- Behind every range stands a comma before the next one begins. -/
theorem pairwise_splitTopLevelCommas (tokens : List Token) :
    (splitTopLevelCommas tokens).Pairwise fun r s => r.stop < s.start := by
  induction tokens using induction_on_commas with
  | last xs hxs =>
      rw [hxs.splitTopLevelCommas_eq]
      exact pairwise_rangeOrNone 0 xs.length
  | more xs comma ys hxs hdepth hcomma ih =>
      rw [hxs.splitTopLevelCommas_append hdepth hcomma]
      refine List.pairwise_append.mpr ⟨pairwise_rangeOrNone 0 xs.length,
        ih.map _ fun r s hrs => Nat.add_lt_add_right hrs _, fun r hr s hs => ?_⟩
      obtain ⟨rfl, -⟩ := mem_rangeOrNone hr
      obtain ⟨s, -, rfl⟩ := List.mem_map.mp hs
      show xs.length < s.start + (xs.length + 1)
      omega

/-! ## What is left out -/

/-- The index lies in the range. -/
def Range.Contains (r : Range) (k : Nat) : Prop := r.start ≤ k ∧ k < r.stop

theorem Range.contains_shift {n k : Nat} : (r.shift n).Contains (k + n) ↔ r.Contains k := by
  show r.start + n ≤ k + n ∧ k + n < r.stop + n ↔ r.start ≤ k ∧ k < r.stop
  omega

theorem contains_rangeOrNone {start stop k : Nat} :
    (∃ r ∈ rangeOrNone start stop, r.Contains k) ↔ start ≤ k ∧ k < stop := by
  constructor
  · rintro ⟨r, hr, hk⟩
    obtain ⟨rfl, -⟩ := mem_rangeOrNone hr
    exact hk
  · intro hk
    refine ⟨⟨start, stop⟩, ?_, hk⟩
    rw [rangeOrNone, if_pos (by omega)]
    exact List.mem_singleton_self _

/-- The token at the index is a comma at depth 0. -/
def IsTopComma (tokens : List Token) (k : Nat) : Prop :=
  (∃ t, tokens[k]? = some t ∧ t.kind = .comma) ∧ (depths tokens)[k]? = some 0

theorem NoTopComma.not_isTopComma (h : NoTopComma xs) (k : Nat) : ¬ IsTopComma xs k := by
  rintro ⟨⟨t, ht, hcomma⟩, hdepth⟩
  have hmem : (0, t) ∈ withDepthsFrom 0 xs :=
    List.mem_of_getElem? (List.getElem?_zip_eq_some.mpr ⟨hdepth, ht⟩)
  exact h _ hmem rfl hcomma

section Append

variable (hdepth : depthAfter 0 xs = 0) (hcomma : comma.kind = .comma)
include hdepth hcomma

theorem isTopComma_append_left {k : Nat} (hk : k < xs.length) :
    IsTopComma (xs ++ comma :: ys) k ↔ IsTopComma xs k := by
  unfold IsTopComma
  rw [depths_append_comma hdepth hcomma, List.getElem?_append_left hk,
    List.getElem?_append_left (by rwa [length_depths])]

theorem isTopComma_append_comma : IsTopComma (xs ++ comma :: ys) xs.length := by
  refine ⟨⟨comma, ?_, hcomma⟩, ?_⟩
  · rw [List.getElem?_append_right (Nat.le_refl _), Nat.sub_self, List.getElem?_cons_zero]
  · rw [depths_append_comma hdepth hcomma, ← length_depths xs,
      List.getElem?_append_right (Nat.le_refl _), Nat.sub_self, List.getElem?_cons_zero]

theorem isTopComma_append_right (k : Nat) :
    IsTopComma (xs ++ comma :: ys) (k + (xs.length + 1)) ↔ IsTopComma ys k := by
  unfold IsTopComma
  rw [depths_append_comma hdepth hcomma, List.append_cons, List.append_cons (depths xs),
    List.getElem?_append_right (by simp), List.getElem?_append_right (by simp [length_depths])]
  simp [length_depths]

end Append

/-- A token lies in no range exactly if it is a comma at depth 0. -/
theorem not_contains_iff_isTopComma (tokens : List Token) (k : Nat) :
    (k < tokens.length ∧ ¬ ∃ r ∈ splitTopLevelCommas tokens, r.Contains k) ↔
      IsTopComma tokens k := by
  induction tokens using induction_on_commas generalizing k with
  | last xs hxs =>
      rw [hxs.splitTopLevelCommas_eq, contains_rangeOrNone]
      have := hxs.not_isTopComma k
      constructor
      · omega
      · exact fun h => absurd h this
  | more xs comma ys hxs hdepth hcomma ih =>
      have hparts : (∃ r ∈ splitTopLevelCommas (xs ++ comma :: ys), r.Contains k) ↔
          k < xs.length ∨ ∃ r ∈ splitTopLevelCommas ys, (r.shift (xs.length + 1)).Contains k := by
        simp only [hxs.splitTopLevelCommas_append hdepth hcomma, List.mem_append, or_and_right,
          exists_or, contains_rangeOrNone, Nat.zero_le, true_and, List.mem_map,
          exists_exists_and_eq_and]
      rw [hparts, List.length_append, List.length_cons]
      rcases Nat.lt_trichotomy k xs.length with hk | rfl | hk
      · rw [isTopComma_append_left hdepth hcomma hk]
        constructor
        · exact fun h => absurd (.inl hk) h.2
        · exact fun h => absurd h (hxs.not_isTopComma k)
      · refine iff_of_true ⟨by omega, ?_⟩ (isTopComma_append_comma hdepth hcomma)
        rintro (h | ⟨r, -, hr⟩)
        · exact Nat.lt_irrefl _ h
        · have : r.start + (xs.length + 1) ≤ xs.length := hr.1
          omega
      · obtain ⟨m, rfl⟩ : ∃ m, k = m + (xs.length + 1) := ⟨k - (xs.length + 1), by omega⟩
        rw [isTopComma_append_right hdepth hcomma, ← ih]
        simp only [Range.contains_shift]
        have hlt : m + (xs.length + 1) < xs.length + (ys.length + 1) ↔ m < ys.length := by omega
        have hge : ¬ m + (xs.length + 1) < xs.length := by omega
        rw [hlt, or_iff_right hge]

/-! ## The ranges on their own -/

theorem Range.tokens_shift_comma (r : Range) (xs : List Token) (comma : Token) (ys : List Token) :
    (r.shift (xs.length + 1)).tokens (xs ++ comma :: ys) = r.tokens ys := by
  have hshift := r.tokens_shift (xs ++ [comma]) ys
  rwa [List.length_append, List.length_singleton, ← List.append_cons] at hshift

/-- What has been cut out at a range has the depths that it has in the list, and no comma of it
stands at depth 0. -/
theorem depths_of_mem_splitTopLevelCommas (hr : r ∈ splitTopLevelCommas tokens) :
    depths (r.tokens tokens) = ((depths tokens).drop r.start).take (r.stop - r.start) ∧
      NoTopComma (r.tokens tokens) := by
  induction tokens using induction_on_commas generalizing r with
  | last xs hxs =>
      rw [hxs.splitTopLevelCommas_eq] at hr
      obtain ⟨rfl, -⟩ := mem_rangeOrNone hr
      rw [Range.tokens_self]
      refine ⟨?_, hxs⟩
      rw [List.drop_zero, Nat.sub_zero, ← length_depths xs, List.take_length]
  | more xs comma ys hxs hdepth hcomma ih =>
      rw [hxs.splitTopLevelCommas_append hdepth hcomma] at hr
      rw [depths_append_comma hdepth hcomma]
      rcases List.mem_append.mp hr with hr | hr
      · obtain ⟨rfl, -⟩ := mem_rangeOrNone hr
        rw [Range.tokens_whole]
        refine ⟨?_, hxs⟩
        rw [List.drop_zero, Nat.sub_zero, ← length_depths xs, List.take_left]
      · obtain ⟨s, hs, rfl⟩ := List.mem_map.mp hr
        have hdrop : (depths xs ++ 0 :: depths ys).drop (s.start + (xs.length + 1)) =
            (depths ys).drop s.start := by
          rw [← length_depths xs, Nat.add_left_comm, List.drop_length_add_append,
            List.drop_succ_cons]
        rw [Range.tokens_shift_comma]
        show _ = ((depths xs ++ 0 :: depths ys).drop (s.start + (xs.length + 1))).take
          (s.stop + (xs.length + 1) - (s.start + (xs.length + 1))) ∧ _
        rw [hdrop, Nat.add_sub_add_right]
        exact ih hs

theorem tokens_rangeOrNone (xs ys : List Token) :
    ((rangeOrNone 0 xs.length).map fun r => r.tokens (xs ++ ys)).flatten = xs := by
  unfold rangeOrNone
  split
  · rw [List.map_singleton, List.flatten_singleton, Range.tokens_whole]
  · next h => rw [List.eq_nil_of_length_eq_zero (Nat.eq_zero_of_not_pos h)]; rfl

/-- The pieces are parts of the list that do not overlap. -/
theorem flatten_commaPieces_sublist (tokens : List Token) :
    (commaPieces tokens).flatten.Sublist tokens := by
  induction tokens using induction_on_commas with
  | last xs hxs =>
      have hpiece := tokens_rangeOrNone xs []
      rw [List.append_nil] at hpiece
      have hwhole : (commaPieces xs).flatten = xs := by
        rw [commaPieces, hxs.splitTopLevelCommas_eq, hpiece]
      exact hwhole.symm ▸ List.Sublist.refl xs
  | more xs comma ys hxs hdepth hcomma ih =>
      have hbehind : ((splitTopLevelCommas ys).map (Range.shift (xs.length + 1))).map
          (fun r => r.tokens (xs ++ comma :: ys)) = commaPieces ys := by
        rw [List.map_map]
        exact List.map_congr_left fun r _ => r.tokens_shift_comma xs comma ys
      rw [commaPieces, hxs.splitTopLevelCommas_append hdepth hcomma, List.map_append,
        List.flatten_append, tokens_rangeOrNone, hbehind]
      exact (List.Sublist.refl xs).append (ih.cons comma)

/-- Splitting at commas is exact: the ranges have a token each, lie in the list one behind the
other, and leave out the commas at depth 0 and nothing else.  What lies in a range has the depths
that it has in the list, and is one range when it is split on its own. -/
theorem splitTopLevelCommas_exact (tokens : List Token) :
    (∀ r ∈ splitTopLevelCommas tokens, r.start < r.stop ∧ r.stop ≤ tokens.length) ∧
    (splitTopLevelCommas tokens).Pairwise (fun r s => r.stop < s.start) ∧
    (∀ k, (k < tokens.length ∧ ¬ ∃ r ∈ splitTopLevelCommas tokens, r.Contains k) ↔
      IsTopComma tokens k) ∧
    ∀ r ∈ splitTopLevelCommas tokens,
      depths (r.tokens tokens) = ((depths tokens).drop r.start).take (r.stop - r.start) ∧
      splitTopLevelCommas (r.tokens tokens) = [⟨0, (r.tokens tokens).length⟩] ∧
      commaPieces (r.tokens tokens) = [r.tokens tokens] := by
  refine ⟨fun r hr => bounds_of_mem_splitTopLevelCommas hr, pairwise_splitTopLevelCommas tokens,
    not_contains_iff_isTopComma tokens, fun r hr => ?_⟩
  obtain ⟨hdepths, hpiece⟩ := depths_of_mem_splitTopLevelCommas hr
  have hne : r.tokens tokens ≠ [] := ne_nil_of_mem_commaPieces (List.mem_map_of_mem hr)
  have hsplit : splitTopLevelCommas (r.tokens tokens) = [⟨0, (r.tokens tokens).length⟩] := by
    rw [hpiece.splitTopLevelCommas_eq, rangeOrNone_of_ne_nil hne]
  refine ⟨hdepths, hsplit, ?_⟩
  rw [commaPieces, hsplit, List.map_singleton, Range.tokens_self]

end TypedSql.Token

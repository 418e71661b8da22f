import TypedSql.Proofs.Token.Cut

/-!
# Reading any cut again

A lone carriage return keeps the two dashes in front of it from being a comment.  Where a text is
cut between them, the dashes begin a comment after all, and it goes on to the end of the cut.  So
whatever the text holds, a cut gives again the first ones of the tokens that were cut out: all of
them, or those before such a comment.

Main statement: `Reads.prefix_of_sourceText`.
-/

namespace TypedSql.Token

open Text

/-- Where a line breaks off in a lone carriage return, it still does in a cut, or goes on to the
end of the cut. -/
theorem lineBody?_take_of_none {cs : List Char} (h : lineBody? cs = none) (m : Nat) :
    lineBody? (cs.take m) = none ∨ lineBody? (cs.take m) = some (cs.take m).length := by
  have hle := countWhile_le (fun c => !isLineEnd c) cs
  obtain ⟨tail, hdrop, htail⟩ : ∃ tail, cs.drop (countWhile (fun c => !isLineEnd c) cs) =
      '\r' :: tail ∧ ∀ more, tail ≠ '\n' :: more := by
    rw [drop_countWhile]
    unfold lineBody? at h
    split at h
    · cases h
    · next tail hcrlf heq => exact ⟨tail, heq, hcrlf⟩
    · cases h
  unfold lineBody?
  rw [← drop_countWhile, countWhile_take, List.drop_take]
  by_cases hm : m ≤ countWhile (fun c => !isLineEnd c) cs
  · right
    rw [Nat.min_eq_right hm, Nat.sub_self, List.take_zero, List.length_take, Nat.min_eq_left]
    omega
  · left
    obtain ⟨k, hk⟩ : ∃ k, m - countWhile (fun c => !isLineEnd c) cs = k + 1 :=
      ⟨m - countWhile (fun c => !isLineEnd c) cs - 1, by omega⟩
    rw [Nat.min_eq_left (by omega), hk, hdrop, List.take_succ_cons]
    split
    · next heq =>
        injection heq with _ heq
        have hhead := congrArg List.head? heq
        rw [List.head?_take] at hhead
        split at hhead
        · cases hhead
        · obtain ⟨more, hmore⟩ := List.head?_eq_some_iff.mp hhead
          exact absurd hmore (htail more)
    · rfl
    · next hcr => exact absurd rfl (hcr _)

/-- In front of a token, trivia is read alike in a text that is cut behind it, unless it goes on to
the end of the cut. -/
theorem triviaLength_take_or {cs : List Char} {m : Nat} (hm : triviaLength cs < m)
    (hopen : ¬ ['/', '*'] <+: cs.drop (triviaLength cs)) :
    triviaLength (cs.take m) = triviaLength cs ∨
      (cs.take m).length ≤ triviaLength (cs.take m) := by
  fun_induction triviaLength cs generalizing m with
  | case1 cs h =>
      by_cases hdashes : ['-', '-'] <+: cs
      · obtain ⟨tail, rfl⟩ := hdashes
        have hspace (cs : List Char) : ¬ 0 < countWhile isSpace ('-' :: cs) := by
          rw [countWhile, List.takeWhile_cons_of_neg (by decide)]
          exact Nat.lt_irrefl 0
        have hpiece (cs : List Char) :
            triviaPiece? ('-' :: '-' :: cs) = (lineBody? cs).map (· + 2) := if_neg (hspace _)
        have hline : lineBody? tail = none := by
          rw [show ['-', '-'] ++ tail = '-' :: '-' :: tail from rfl, hpiece] at h
          exact Option.map_eq_none_iff.mp h
        -- Of the two dashes the cut keeps one, or both.
        rcases m with _ | _ | m
        · exact absurd hm (Nat.not_lt_zero _)
        · exact .inl (triviaLength_of_none (if_neg (hspace _)))
        · have hcut := hpiece (tail.take m)
          rcases lineBody?_take_of_none hline m with hnone | hall
          · rw [hnone] at hcut
            exact .inl (triviaLength_of_none hcut)
          · rw [hall] at hcut
            exact .inr ((triviaLength_of_some hcut).symm ▸ Nat.le_add_right _ _)
      · exact .inl (triviaLength_of_none (triviaPiece?_take_none h hdashes hopen m))
  | case2 cs n h ih =>
      have hfits : triviaLength cs < m := by
        rw [triviaLength_of_some h]
        exact hm
      have htake := triviaPiece?_take h hfits
      rw [← List.drop_drop] at hopen
      rw [triviaLength_of_some htake, List.drop_take]
      rcases ih (m := m - n) (by omega) hopen with hsame | hall
      · rw [hsame]
        exact .inl rfl
      · right
        rw [List.length_take, List.length_drop] at hall
        rw [List.length_take]
        omega

namespace Reads

variable {cs : List Char} {o : Nat} {p : Position}

/-- A token in front of a cut is read again, or nothing is. -/
theorem prefix_of_cut {gap piece more rest : List Char} {form : Form} {kept : List Token}
    (hgap : triviaLength (gap ++ (piece ++ (more ++ rest))) = gap.length)
    (hopen : ¬ ['/', '*'] <+: piece ++ (more ++ rest))
    (hform : firstForm? (piece ++ (more ++ rest)) = some (form, piece.length))
    (hclosed : QuoteClosed (more ++ rest))
    (hkept : PlainReads more (o + byteLength gap + byteLength piece) ((p.after gap).after piece)
      kept) :
    ∃ again, again <+: (⟨form.kind (String.ofList piece), String.ofList piece,
        ⟨o + byteLength gap, o + byteLength gap + byteLength piece⟩, p.after gap⟩ :: kept) ∧
      PlainReads (gap ++ (piece ++ more)) o p again := by
  have hpos := (firstForm?_bounds hform).1
  have hprefix : piece ++ more <+: piece ++ (more ++ rest) := ⟨rest, by simp⟩
  have hcut : gap ++ (piece ++ more) =
      (gap ++ (piece ++ (more ++ rest))).take (gap ++ (piece ++ more)).length := by
    rw [show gap ++ (piece ++ (more ++ rest)) = (gap ++ (piece ++ more)) ++ rest by simp,
      List.take_left]
  have hpieceCut : piece ++ more = (piece ++ (more ++ rest)).take (piece ++ more).length := by
    rw [show piece ++ (more ++ rest) = (piece ++ more) ++ rest by simp, List.take_left]
  have hbehind : triviaLength (gap ++ (piece ++ (more ++ rest))) <
      (gap ++ (piece ++ more)).length := by
    rw [hgap, List.length_append, List.length_append]
    omega
  have htrivia := triviaLength_take_or hbehind (by rw [hgap, List.drop_left]; exact hopen)
  rw [← hcut, hgap] at htrivia
  rcases htrivia with hsame | hall
  · refine ⟨_, List.prefix_refl _,
      .token rfl hsame trivial (fun hs => hopen (hs.trans hprefix)) ?_ hkept⟩
    rw [hpieceCut]
    exact firstForm?_take hform hclosed (by simp)
  · exact ⟨[], List.nil_prefix, .done hall⟩

/-- The text that ends with the last one of the first tokens gives the first ones of them. -/
theorem cut_prefix {first : Token} {ts us : List Token}
    (h : PlainReads cs o p (first :: ts ++ us)) :
    ∃ body rest again, cs = body ++ rest ∧ again <+: first :: ts ∧ PlainReads body o p again ∧
      ((first :: ts).getLast (by simp)).span.stop = o + byteLength body := by
  induction ts generalizing first cs o p with
  | nil =>
      cases h with
      | @token _ gap piece more _ _ form _ hcs hgap _ hopen hform hrest =>
          have hdone : PlainReads [] (o + byteLength gap + byteLength piece)
              ((p.after gap).after piece) [] := .done (Nat.zero_le _)
          obtain ⟨again, hagain, hreads⟩ := @prefix_of_cut o p gap piece [] more form []
            (hcs ▸ hgap) hopen hform hrest.quoteClosed hdone
          refine ⟨gap ++ (piece ++ []), more, again, by simp [hcs], hagain, hreads, ?_⟩
          simp [byteLength_append, Nat.add_assoc]
  | cons second ts ih =>
      cases h with
      | @token _ gap piece more _ _ form _ hcs hgap _ hopen hform hrest =>
          -- The rest is cut first; the first token is read from what is left of it.
          obtain ⟨body, rest, kept, rfl, hkept, hbody, hstop⟩ := ih hrest
          obtain ⟨again, hagain, hreads⟩ := prefix_of_cut (hcs ▸ hgap) hopen hform hrest.quoteClosed
            hbody
          refine ⟨gap ++ (piece ++ body), rest, again, by simp [hcs],
            hagain.trans (List.cons_prefix_cons.mpr ⟨rfl, hkept⟩), hreads, ?_⟩
          rw [List.getLast_cons (by simp), hstop]
          simp [byteLength_append, Nat.add_assoc]

/-- The text from the first to the last of some tokens gives the first ones of them again. -/
theorem prefix_of_sourceText {sql : String} {before after ts : List Token} {first : Token}
    (h : PlainReads sql.toList 0 p (before ++ (first :: ts ++ after))) :
    ∃ again, again <+: first :: ts ∧
      tokenizeAt (Token.sourceText sql (first :: ts)) first.position =
        .ok (again.map (back first.span.start)) := by
  obtain ⟨front, behind, hsql, hstart, hposition, hbehind⟩ := h.drop
  obtain ⟨body, rest, again, rfl, hagain, hbody, hstop⟩ := hbehind.cut_prefix
  rw [Nat.zero_add] at hstart hstop hbody
  refine ⟨again, hagain, tokenizeAt_eq_ok_iff.mpr ?_⟩
  rw [sourceText_eq hsql hstart hstop, String.toList_ofList, hstart, hposition]
  exact Reads.rebase (o := 0) hbody

end Reads

end TypedSql.Token

import TypedSql.Proofs.Token.CommaPieces

/-!
# Groups that are found

What the reader takes for the inside of a group is balanced, whatever list the group stands in, and
so are the pieces between its commas.  In a balanced list every parenthesis is closed in the list,
and it stays closed where the list is read from some place on only: the tokens that are left begin
anywhere, in the middle of a group too, but every group that begins among them ends among them.

Main definitions: `Closes`, `ClosesAll`.  Main statements: `balanced_inner_of_group?`,
`balanced_of_mem_commaPieces`, `Balanced.closesAll`.
-/

namespace TypedSql.Token

/-! ## The inside of a group -/

/-- The list closes `inner` parentheses that were opened in front of it, and is balanced in front of
each of them and behind the last one. -/
inductive Closes : Nat → List Token → Prop
  | balanced {xs : List Token} (hx : Balanced xs) : Closes 0 xs
  | closing {inner : Nat} {xs ys : List Token} {closeParen : Token} (hx : Balanced xs)
      (hclose : closeParen.kind = .rightParen) (hy : Closes inner ys) :
      Closes (inner + 1) (xs ++ closeParen :: ys)

theorem Closes.append {inner : Nat} {xs ys : List Token} (hx : Balanced xs) (hy : Closes inner ys) :
    Closes inner (xs ++ ys) := by
  cases hy with
  | balanced hy => exact .balanced (hx.append hy)
  | closing hy hclose hz =>
      rw [← List.append_assoc]
      exact .closing (hx.append hy) hclose hz

/-- A parenthesis in front of the list is the first that the list closes. -/
theorem Closes.open_cons {inner : Nat} {openParen : Token} {ys : List Token}
    (hopen : openParen.kind = .leftParen) (hy : Closes (inner + 1) ys) :
    Closes inner (openParen :: ys) := by
  cases hy with
  | @closing _ xs zs closeParen hx hclose hz =>
      have hgroup : Closes inner ((openParen :: (xs ++ [closeParen])) ++ zs) :=
        .append (.group hopen hclose hx) hz
      rwa [List.cons_append, List.append_assoc] at hgroup

theorem Closes.balanced_of_zero {xs : List Token} (h : Closes 0 xs) : Balanced xs := by
  cases h with
  | balanced h => exact h

/-- What the search for a closing parenthesis passes over closes all parentheses but this one. -/
theorem exists_of_closing? {inner i j : Nat} {tokens : List Token}
    (h : closing? inner i tokens = some j) :
    ∃ xs closeParen after, tokens = xs ++ closeParen :: after ∧ closeParen.kind = .rightParen ∧
      Closes inner xs ∧ i + xs.length = j := by
  induction tokens generalizing inner i with
  | nil => cases h
  | cons t ts ih =>
      by_cases hopen : t.kind = .leftParen
      · rw [closing?_open hopen] at h
        obtain ⟨xs, closeParen, after, rfl, hclose, hxs, hindex⟩ := ih h
        exact ⟨t :: xs, closeParen, after, rfl, hclose, hxs.open_cons hopen,
          by rw [List.length_cons]; omega⟩
      · by_cases hclose : t.kind = .rightParen
        · cases inner with
          | zero =>
              rw [closing?_last hclose] at h
              exact ⟨[], t, ts, rfl, hclose, .balanced .nil, Option.some.inj h⟩
          | succ inner =>
              rw [closing?_close hclose] at h
              obtain ⟨xs, closeParen, after, rfl, hlast, hxs, hindex⟩ := ih h
              exact ⟨t :: xs, closeParen, after, rfl, hlast, .closing .nil hclose hxs,
                by rw [List.length_cons]; omega⟩
        · rw [closing?_other hopen hclose] at h
          obtain ⟨xs, closeParen, after, rfl, hlast, hxs, hindex⟩ := ih h
          exact ⟨t :: xs, closeParen, after, rfl, hlast, .append (.token hopen hclose) hxs,
            by rw [List.length_cons]; omega⟩

/-- A group stands between its parentheses and is balanced. -/
theorem exists_of_group? {tokens : List Token} {g : Group} (h : group? tokens = some g) :
    ∃ openParen closeParen, tokens = openParen :: (g.inner ++ closeParen :: g.rest) ∧
      openParen.kind = .leftParen ∧ closeParen.kind = .rightParen ∧ Balanced g.inner := by
  obtain ⟨close, hclose, -⟩ := Option.map_eq_some_iff.mp h
  cases tokens with
  | nil => cases hclose
  | cons t ts =>
      change (if t.kind = .leftParen then closing? 0 (0 + 1) ts else none) = some close at hclose
      obtain ⟨hopen, hclosing⟩ := Option.ite_none_right_eq_some.mp hclose
      obtain ⟨inner, closeParen, after, rfl, hlast, hinner, rfl⟩ := exists_of_closing? hclosing
      cases (hinner.balanced_of_zero.group? hopen hlast after).symm.trans h
      exact ⟨t, closeParen, rfl, hopen, hlast, hinner.balanced_of_zero⟩

/-- The inside of a group is balanced. -/
theorem balanced_inner_of_group? {tokens : List Token} {g : Group} (h : group? tokens = some g) :
    Balanced g.inner := by
  obtain ⟨-, -, -, -, -, hinner⟩ := exists_of_group? h
  exact hinner

/-! ## The pieces between commas -/

theorem Pieced.outside_of_mem {xs piece : List Token} {pieces : List (List Token)}
    (h : Pieced xs pieces) (hpiece : piece ∈ pieces) : Outside NoComma piece := by
  induction h with
  | last hx =>
      rw [List.mem_singleton.mp hpiece]
      exact hx
  | more hx _ _ ih =>
      rcases List.mem_cons.mp hpiece with rfl | hpiece
      · exact hx
      · exact ih hpiece

/-- The pieces between the commas of a balanced list are balanced. -/
theorem balanced_of_mem_commaPieces {xs piece : List Token} (h : Balanced xs)
    (hpiece : piece ∈ commaPieces xs) : Balanced piece := by
  obtain ⟨pieces, hpieces⟩ := h.exists_pieced
  rw [hpieces.commaPieces_eq] at hpiece
  exact (hpieces.outside_of_mem (List.mem_filter.mp hpiece).1).balanced

/-! ## Groups that begin anywhere -/

/-- Every group that begins in the list ends in it. -/
def ClosesAll (tokens : List Token) : Prop :=
  ∀ before openParen after, tokens = before ++ openParen :: after →
    openParen.kind = .leftParen → ∃ g, group? (openParen :: after) = some g

/-- What holds of a list holds of what is left of it from some place on. -/
theorem ClosesAll.of_suffix {xs ys : List Token} (h : ClosesAll xs) (hsuffix : ys <:+ xs) :
    ClosesAll ys := by
  obtain ⟨front, rfl⟩ := hsuffix
  rintro before openParen after rfl hopen
  exact h (front ++ before) openParen after (List.append_assoc ..).symm hopen

/-- A member of two lists one behind the other stands in the first or in the second. -/
theorem split_append_cases {xs ys before after : List Token} {t : Token}
    (h : xs ++ ys = before ++ t :: after) :
    (∃ behind, xs = before ++ t :: behind ∧ after = behind ++ ys) ∨
      ∃ front, ys = front ++ t :: after := by
  obtain ⟨front, -, hys⟩ | ⟨behind, hxs, hbehind⟩ := List.append_eq_append_iff.mp h
  · exact .inr ⟨front, hys⟩
  · cases behind with
    | nil => exact .inr ⟨[], hbehind.symm⟩
    | cons u behind =>
        obtain ⟨rfl, hafter⟩ := List.cons.inj hbehind
        exact .inl ⟨behind, hxs, hafter⟩

/-- A group of a balanced list is found whatever stands behind the list. -/
theorem Balanced.exists_group? {xs before after : List Token} {openParen : Token}
    (h : Balanced xs) (hsplit : xs = before ++ openParen :: after)
    (hopen : openParen.kind = .leftParen) (rest : List Token) :
    ∃ g, Token.group? (openParen :: (after ++ rest)) = some g := by
  induction h generalizing before after rest with
  | nil => simp at hsplit
  | @token t hother _ =>
      have hmem : openParen ∈ [t] := hsplit ▸ by simp
      cases List.mem_singleton.mp hmem
      exact absurd hopen hother
  | @append xs ys _ _ hx hy =>
      rcases split_append_cases hsplit with ⟨behind, hxs, rfl⟩ | ⟨front, hys⟩
      · rw [List.append_assoc]
        exact hx hxs (ys ++ rest)
      · exact hy hys rest
  | @group first last xs hfirst hlast hxs hx =>
      cases before with
      | nil =>
          obtain ⟨rfl, rfl⟩ := List.cons.inj hsplit
          rw [List.append_assoc]
          exact ⟨_, hxs.group? hfirst hlast rest⟩
      | cons t before =>
          rcases split_append_cases (List.cons.inj hsplit).2 with ⟨behind, hxs, rfl⟩ | ⟨front, h⟩
          · rw [List.append_assoc]
            exact hx hxs ([last] ++ rest)
          · -- The parenthesis that closes the group opens none.
            have hmem : openParen ∈ [last] := h ▸ by simp
            cases List.mem_singleton.mp hmem
            rw [hlast] at hopen
            cases hopen

/-- Every parenthesis of a balanced list is closed. -/
theorem Balanced.closesAll {xs : List Token} (h : Balanced xs) : ClosesAll xs := by
  intro before openParen after hsplit hopen
  have hgroup := h.exists_group? hsplit hopen []
  rwa [List.append_nil] at hgroup

end TypedSql.Token

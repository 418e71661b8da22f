import TypedSql.Proofs.Token.FormLead
import TypedSql.Proofs.Lists

/-!
# Forms on a cut text

A form that accepts a piece still accepts it when the text is cut behind the piece, and a form that
accepts nothing does not begin to.  The forms of doubled quotes are the exception: in `'''` nothing
is closed, but in its first two characters something is.

Main statements: `Form.length?_take` and `Form.length?_take_none`.
-/

namespace TypedSql.Token

theorem countWhile_take (p : Char → Bool) (cs : List Char) (m : Nat) :
    countWhile p (cs.take m) = min (countWhile p cs) m := by
  induction cs generalizing m with
  | nil => simp [countWhile]
  | cons c cs ih =>
      cases m with
      | zero => simp [countWhile]
      | succ m =>
          have ih := ih m
          unfold countWhile at ih ⊢
          rw [List.take_succ_cons, List.takeWhile_cons, List.takeWhile_cons]
          split
          · rw [List.length_cons, List.length_cons, ih, Nat.add_min_add_right]
          · simp

theorem doubledTail?_pos {q : Char} {cs : List Char} {n : Nat} (h : doubledTail? q cs = some n) :
    0 < n := by
  fun_cases doubledTail? q cs with
  | case1 => cases h
  | case2 => rw [doubledTail?, if_pos rfl] at h; cases h; omega
  | case3 c hc => rw [doubledTail?, if_neg hc] at h; cases h
  | case4 cs =>
      rw [doubledTail?, if_pos rfl, if_pos rfl] at h
      obtain ⟨k, -, rfl⟩ := Option.map_eq_some_iff.mp h
      omega
  | case5 d cs hd => rw [doubledTail?, if_pos rfl, if_neg hd] at h; cases h; omega
  | case6 c d cs hc =>
      rw [doubledTail?, if_neg hc] at h
      obtain ⟨k, -, rfl⟩ := Option.map_eq_some_iff.mp h
      omega

theorem doubledTail?_take {q : Char} {cs : List Char} {n m : Nat}
    (h : doubledTail? q cs = some n) (hm : n ≤ m) : doubledTail? q (cs.take m) = some n := by
  fun_induction doubledTail? q cs generalizing n m with
  | case1 => cases h
  | case2 =>
      cases h
      obtain ⟨m, rfl⟩ : ∃ k, m = k + 1 := ⟨m - 1, by omega⟩
      simp [doubledTail?]
  | case3 => cases h
  | case4 cs ih =>
      obtain ⟨k, hk, rfl⟩ := Option.map_eq_some_iff.mp h
      obtain ⟨m, rfl⟩ : ∃ j, m = j + 2 := ⟨m - 2, by omega⟩
      have := ih hk (m := m) (by omega)
      simp [doubledTail?, this]
  | case5 d cs hd =>
      cases h
      obtain ⟨m, rfl⟩ : ∃ j, m = j + 1 := ⟨m - 1, by omega⟩
      cases m <;> simp [doubledTail?, hd]
  | case6 c d cs hc ih =>
      obtain ⟨k, hk, rfl⟩ := Option.map_eq_some_iff.mp h
      obtain ⟨m, rfl⟩ : ∃ j, m = j + 1 := ⟨m - 1, by omega⟩
      have hpos := doubledTail?_pos hk
      obtain ⟨m, rfl⟩ : ∃ j, m = j + 1 := ⟨m - 1, by omega⟩
      have := ih hk (m := m + 1) (by omega)
      rw [List.take_succ_cons] at this
      simp [doubledTail?, hc, this]

theorem plainTail?_take {q : Char} {cs : List Char} {n m : Nat}
    (h : plainTail? q cs = some n) (hm : n ≤ m) : plainTail? q (cs.take m) = some n := by
  induction cs generalizing n m with
  | nil => cases h
  | cons c cs ih =>
      rw [plainTail?] at h
      split at h
      · next hc =>
          cases h
          obtain ⟨m, rfl⟩ : ∃ k, m = k + 1 := ⟨m - 1, by omega⟩
          simp [plainTail?, hc]
      · next hc =>
          obtain ⟨k, hk, rfl⟩ := Option.map_eq_some_iff.mp h
          obtain ⟨m, rfl⟩ : ∃ k, m = k + 1 := ⟨m - 1, by omega⟩
          simp [plainTail?, hc, ih hk (m := m) (by omega)]

theorem plainTail?_take_none {q : Char} {cs : List Char} (h : plainTail? q cs = none) (m : Nat) :
    plainTail? q (cs.take m) = none := by
  induction cs generalizing m with
  | nil => simp [plainTail?]
  | cons c cs ih =>
      cases m with
      | zero => rfl
      | succ m =>
          rw [plainTail?] at h
          split at h
          · cases h
          · next hc => simp [plainTail?, hc, ih (Option.map_eq_none_iff.mp h)]

theorem digits?_take {cs : List Char} {n m : Nat} (h : digits? cs = some n) (hm : n ≤ m) :
    digits? (cs.take m) = some n := by
  have hn := (digits?_bounds h).1
  simp only [digits?] at h ⊢
  split at h
  · cases h
  · cases h
    rw [countWhile_take, Nat.min_eq_left hm, if_neg (by omega)]

theorem digits?_take_min {cs : List Char} {n m : Nat} (h : digits? cs = some n) (hm : 0 < m) :
    digits? (cs.take m) = some (min n m) := by
  have hn := (digits?_bounds h).1
  simp only [digits?] at h ⊢
  split at h
  · cases h
  · cases h
    rw [countWhile_take, if_neg (by omega)]

theorem digits?_take_none {cs : List Char} (h : digits? cs = none) (m : Nat) :
    digits? (cs.take m) = none := by
  simp only [digits?] at h ⊢
  split at h
  · next hz => rw [countWhile_take, hz, if_pos (by omega)]
  · cases h

theorem exponent?_take {cs : List Char} {n m : Nat} (h : exponent? cs = some n) (hm : n ≤ m) :
    exponent? (cs.take m) = some n := by
  unfold exponent? at h
  split at h
  · next e sign rest =>
      split at h
      · next he =>
          split at h
          · next hsign =>
              obtain ⟨k, hk, rfl⟩ := Option.map_eq_some_iff.mp h
              obtain ⟨m, rfl⟩ : ∃ j, m = j + 2 := ⟨m - 2, by omega⟩
              simp [exponent?, he, hsign, digits?_take hk (m := m) (by omega)]
          · next hsign =>
              obtain ⟨k, hk, rfl⟩ := Option.map_eq_some_iff.mp h
              have hpos := (digits?_bounds hk).1
              obtain ⟨m, rfl⟩ : ∃ j, m = j + 2 := ⟨m - 2, by omega⟩
              have := digits?_take hk (m := m + 1) (by omega)
              rw [List.take_succ_cons] at this
              simp [exponent?, he, hsign, this]
      · cases h
  · cases h

theorem exponent?_take_none {cs : List Char} (h : exponent? cs = none) (m : Nat) :
    exponent? (cs.take m) = none := by
  match cs, m with
  | [], m => simp [exponent?]
  | [e], m => cases m <;> simp [exponent?]
  | e :: sign :: rest, 0 => rfl
  | e :: sign :: rest, 1 => rfl
  | e :: sign :: rest, m + 2 =>
      rw [List.take_succ_cons, List.take_succ_cons]
      unfold exponent? at h ⊢
      dsimp only at h ⊢
      split
      · next he =>
          rw [if_pos he] at h
          split
          · next hsign =>
              rw [if_pos hsign, Option.map_eq_none_iff] at h
              rw [digits?_take_none h]
              rfl
          · next hsign =>
              rw [if_neg hsign, Option.map_eq_none_iff] at h
              have := digits?_take_none h (m + 1)
              rw [List.take_succ_cons] at this
              rw [this]
              rfl
      · rfl

theorem exponentLength_take {cs : List Char} {m : Nat} (h : exponentLength cs ≤ m) :
    exponentLength (cs.take m) = exponentLength cs := by
  unfold exponentLength at *
  cases hc : exponent? cs with
  | none => rw [exponent?_take_none hc]
  | some n => rw [exponent?_take hc (by simpa [hc] using h)]

/-- A form accepts a piece whether the text goes on behind it or not. -/
theorem Form.length?_take {f : Form} {cs : List Char} {n m : Nat} (h : f.length? cs = some n)
    (hm : n ≤ m) : f.length? (cs.take m) = some n := by
  have hn := (Form.length?_bounds h).1
  obtain ⟨m, rfl⟩ : ∃ k, m = k + 1 := ⟨m - 1, by omega⟩
  unfold Form.length? at h
  split at h
  · -- a text
    obtain ⟨k, hk, rfl⟩ := Option.map_eq_some_iff.mp h
    simp [Form.length?, doubledTail?_take hk (m := m) (by omega)]
  · -- a blob
    split at h
    · next hx =>
        obtain ⟨k, hk, rfl⟩ := Option.map_eq_some_iff.mp h
        obtain ⟨m, rfl⟩ : ∃ j, m = j + 1 := ⟨m - 1, by omega⟩
        simp [Form.length?, hx, doubledTail?_take hk (m := m) (by omega)]
    · cases h
  · -- a name in double quotes
    obtain ⟨k, hk, rfl⟩ := Option.map_eq_some_iff.mp h
    simp [Form.length?, doubledTail?_take hk (m := m) (by omega)]
  · -- a name in backquotes
    obtain ⟨k, hk, rfl⟩ := Option.map_eq_some_iff.mp h
    simp [Form.length?, plainTail?_take hk (m := m) (by omega)]
  · -- a name in brackets
    obtain ⟨k, hk, rfl⟩ := Option.map_eq_some_iff.mp h
    simp [Form.length?, plainTail?_take hk (m := m) (by omega)]
  · -- a hexadecimal number
    split at h
    · cases h
    · next rest hz =>
        cases h
        obtain ⟨m, rfl⟩ : ∃ j, m = j + 1 := ⟨m - 1, by omega⟩
        have hcount : countWhile isHexDigit (rest.take m) = countWhile isHexDigit rest := by
          rw [countWhile_take]; omega
        simp [Form.length?, hcount, hz]
  · -- digits, a point, perhaps more digits and an exponent
    obtain ⟨k, hk, h⟩ := Option.bind_eq_some_iff.mp h
    split at h
    · next rest hdrop =>
        cases h
        have hrest : (cs.take (m + 1)).drop k = '.' :: rest.take (m - k) := by
          rw [List.drop_take, hdrop]
          obtain ⟨j, hj⟩ : ∃ j, m + 1 - k = j + 1 := ⟨m - k, by omega⟩
          rw [hj, List.take_succ_cons]
          congr 2
          omega
        have hcount : countWhile Char.isDigit (rest.take (m - k)) =
            countWhile Char.isDigit rest := by
          rw [countWhile_take]; omega
        have htail : exponentLength ((rest.take (m - k)).drop (countWhile Char.isDigit rest)) =
            exponentLength (rest.drop (countWhile Char.isDigit rest)) := by
          rw [List.drop_take]
          exact exponentLength_take (by omega)
        simp only [Form.length?, digits?_take hk (by omega : k ≤ m + 1), Option.bind_some, hrest,
          hcount, htail]
    · cases h
  · -- a point with digits behind it
    next rest =>
      obtain ⟨k, hk, rfl⟩ := Option.map_eq_some_iff.mp h
      have htail : exponentLength ((rest.take m).drop k) = exponentLength (rest.drop k) := by
        rw [List.drop_take]
        exact exponentLength_take (by omega)
      simp [Form.length?, digits?_take hk (by omega : k ≤ m), htail]
  · -- digits with an exponent
    obtain ⟨k, hk, h⟩ := Option.bind_eq_some_iff.mp h
    obtain ⟨j, hj, rfl⟩ := Option.map_eq_some_iff.mp h
    have htail : exponent? ((cs.take (m + 1)).drop k) = some j := by
      rw [List.drop_take]
      exact exponent?_take hj (by omega)
    simp [Form.length?, digits?_take hk (by omega : k ≤ m + 1), htail]
  · -- digits
    exact digits?_take h hm
  · -- a place
    next rest =>
      cases h
      have hcount : countWhile Char.isDigit (rest.take m) = countWhile Char.isDigit rest := by
        rw [countWhile_take]; omega
      simp [Form.length?, hcount]
  · -- a named parameter
    next sigil rest =>
      split at h
      · next hsigil =>
          cases h
          have hcount : countWhile isNameChar (rest.take m) = countWhile isNameChar rest := by
            rw [countWhile_take]; omega
          simp only [List.take_succ_cons, Form.length?, hcount]
          rw [if_pos hsigil]
      · cases h
  · -- a word
    next c rest =>
      split at h
      · next hc =>
          cases h
          have hcount : countWhile isNameChar (rest.take m) = countWhile isNameChar rest := by
            rw [countWhile_take]; omega
          simp [Form.length?, hc, hcount]
      · cases h
  · -- a mark
    next first more =>
      split at h
      · next hp =>
          cases h
          have hprefix : first :: more <+: cs.take (m + 1) :=
            List.prefix_take_iff.mpr ⟨List.isPrefixOf_iff_prefix.mp hp, by simpa using hm⟩
          simp only [Form.length?]
          rw [if_pos (List.isPrefixOf_iff_prefix.mpr hprefix)]
      · cases h
  · -- no form of the text
    cases h

@[simp] theorem Form.length?_nil (f : Form) : f.length? [] = none := by cases f <;> rfl

/-- A form that accepts nothing accepts nothing of a cut text, unless its quotes are doubled. -/
theorem Form.length?_take_none {f : Form} {cs : List Char} (h : f.length? cs = none)
    (hf : f ≠ .text ∧ f ≠ .blob ∧ f ≠ .doubleQuoted) (m : Nat) : f.length? (cs.take m) = none := by
  cases cs with
  | nil => simp
  | cons c rest =>
  cases m with
  | zero => exact f.length?_nil
  | succ m =>
  rw [List.take_succ_cons]
  cases f with
  | text => exact absurd rfl hf.1
  | blob => exact absurd rfl hf.2.1
  | doubleQuoted => exact absurd rfl hf.2.2
  | backquoted =>
      by_cases hc : c = '\x60'
      · subst hc
        simp only [Form.length?, Option.map_eq_none_iff] at h ⊢
        exact plainTail?_take_none h m
      · simp [Form.length?, hc]
  | bracketed =>
      by_cases hc : c = '['
      · subst hc
        simp only [Form.length?, Option.map_eq_none_iff] at h ⊢
        exact plainTail?_take_none h m
      · simp [Form.length?, hc]
  | hexadecimal =>
      rcases rest with _ | ⟨d, rest⟩
      · simp [Form.length?]
      · rcases m with _ | m
        · simp [Form.length?]
        · rw [List.take_succ_cons]
          by_cases hc : c = '0' ∧ d = 'x'
          · obtain ⟨rfl, rfl⟩ := hc
            simp only [Form.length?, countWhile_take] at h ⊢
            split at h
            · next hz => rw [hz, if_pos (by omega)]
            · cases h
          · exact length?_hexadecimal_of_ne hc _
  | pointed =>
      rw [← List.take_succ_cons]
      simp only [Form.length?] at h ⊢
      cases hk : digits? (c :: rest) with
      | none => rw [digits?_take_none hk]; rfl
      | some k =>
          rw [hk, Option.bind_some] at h
          rw [digits?_take_min hk (by omega), Option.bind_some, Lists.drop_take_min]
          split at h
          · cases h
          · next hdot =>
              split
              · next behind heq =>
                  have hhead := congrArg List.head? heq
                  rw [List.head?_take] at hhead
                  split at hhead
                  · cases hhead
                  · obtain ⟨more, hmore⟩ := List.head?_eq_some_iff.mp hhead
                    exact absurd hmore (hdot more)
              · rfl
  | leadingPoint =>
      by_cases hc : c = '.'
      · subst hc
        simp only [Form.length?, Option.map_eq_none_iff] at h ⊢
        exact digits?_take_none h m
      · simp [Form.length?, hc]
  | exponential =>
      rw [← List.take_succ_cons]
      simp only [Form.length?] at h ⊢
      cases hk : digits? (c :: rest) with
      | none => rw [digits?_take_none hk]; rfl
      | some k =>
          rw [hk, Option.bind_some, Option.map_eq_none_iff] at h
          rw [digits?_take_min hk (by omega), Option.bind_some, Lists.drop_take_min,
            exponent?_take_none h]
          rfl
  | digits => exact digits?_take_none h (m + 1)
  | place =>
      by_cases hc : c = '?'
      · subst hc
        simp [Form.length?] at h
      · simp [Form.length?, hc]
  | named =>
      simp only [Form.length?, countWhile_take] at h ⊢
      split at h
      · cases h
      · next hsigil => rw [if_neg (fun hs => hsigil ⟨hs.1, fun hz => hs.2 (by omega)⟩)]
  | word =>
      simp only [Form.length?] at h ⊢
      split at h
      · cases h
      · next hc => rw [if_neg hc]
  | mark kind first more =>
      rw [← List.take_succ_cons]
      simp only [Form.length?] at h ⊢
      split at h
      · cases h
      · next hp =>
          rw [if_neg (fun hq => hp (List.isPrefixOf_iff_prefix.mpr
            ((List.isPrefixOf_iff_prefix.mp hq).trans (List.take_prefix _ _))))]

end TypedSql.Token

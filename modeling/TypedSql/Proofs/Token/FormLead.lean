import TypedSql.Token.Form

/-!
# The first characters of forms

The first character of a text tells most forms apart.  Every form has a lead, a character that
stands for all those its pieces can begin with, and a form only accepts a text with its lead.

Main definitions: `leadOf`, `Form.lead`, `Form.isAlone`.  Main statements: `leadOf_eq_lead`,
`Form.eq_of_isAlone`.
-/

namespace TypedSql.Token

open Text

/-- The character that stands for all first characters of the same forms: `x` for letters, `0` for
digits, and a colon for the signs before a name. -/
def leadOf (c : Char) : Char :=
  if c.isDigit then '0' else if isNameStart c then 'x' else if c = '@' ∨ c = '$' then ':' else c

/-- The character that stands for the first characters of the pieces that a form accepts. -/
def Form.lead : Form → Char
  | .text => '\''
  | .blob | .word => 'x'
  | .doubleQuoted => '"'
  | .backquoted => '\x60'
  | .bracketed => '['
  | .hexadecimal | .pointed | .exponential | .digits => '0'
  | .leadingPoint => '.'
  | .place => '?'
  | .named => ':'
  | .mark _ first _ => first

theorem leadOf_of_isDigit {c : Char} (h : c.isDigit = true) : leadOf c = '0' := if_pos h

/-- No digit begins a name. -/
theorem isDigit_of_isNameStart {c : Char} (h : isNameStart c = true) : c.isDigit = false := by
  cases hdigit : c.isDigit with
  | false => rfl
  | true =>
      have hbounds : 48 ≤ c.toNat ∧ c.toNat ≤ 57 := by
        simpa [Char.isDigit, UInt32.le_iff_toNat_le] using hdigit
      have hmem : c.toNat ∈ List.range' 48 10 := List.mem_range'_1.mpr (by omega)
      have hnone : ∀ n ∈ List.range' 48 10, isNameStart (Char.ofNat n) = false := by decide
      have hthis := hnone c.toNat hmem
      rw [Char.ofNat_toNat, h] at hthis
      cases hthis

theorem leadOf_of_isNameStart {c : Char} (h : isNameStart c = true) : leadOf c = 'x' := by
  rw [leadOf, isDigit_of_isNameStart h, if_neg Bool.false_ne_true, if_pos h]

theorem digits?_cons_none {c : Char} {cs : List Char} (h : c.isDigit = false) :
    digits? (c :: cs) = none := by
  simp [digits?, countWhile, h]

theorem leadOf_of_digits? {c : Char} {cs : List Char} {n : Nat} (h : digits? (c :: cs) = some n) :
    leadOf c = '0' := by
  cases hc : c.isDigit with
  | true => exact leadOf_of_isDigit hc
  | false =>
      rw [digits?_cons_none hc] at h
      cases h

/-- The kind and the characters of a fixed spelling. -/
def Form.mark? : Form → Option (Kind × List Char)
  | .mark kind first more => some (kind, first :: more)
  | _ => none

/-- What all marks are checked for holds of each. -/
theorem mark_of_all {p : Kind × List Char → Bool} (hall : (forms.all fun f => f.mark?.all p) = true)
    {kind : Kind} {first : Char} {more : List Char} (h : Form.mark kind first more ∈ forms) :
    p (kind, first :: more) = true :=
  List.all_eq_true.mp hall _ h

/-- No mark begins with a digit or a letter, or with a sign before a name but the colon. -/
theorem leadOf_mark {kind : Kind} {first : Char} {more : List Char}
    (h : Form.mark kind first more ∈ forms) : leadOf first = first := by
  have hall : (forms.all fun f => leadOf f.lead == f.lead) = true := by decide
  exact beq_iff_eq.mp (List.all_eq_true.mp hall _ h)

/-- A form only accepts a text with its lead. -/
theorem leadOf_eq_lead {f : Form} {c : Char} {cs : List Char} {n : Nat} (hf : f ∈ forms)
    (h : f.length? (c :: cs) = some n) : leadOf c = f.lead := by
  unfold Form.length? at h
  split at h
  case h_2 x rest heq =>
    cases heq
    split at h
    · next hx => rcases hx with rfl | rfl <;> decide
    · cases h
  case h_7 =>
    obtain ⟨m, hm, -⟩ := Option.bind_eq_some_iff.mp h
    exact leadOf_of_digits? hm
  case h_9 =>
    obtain ⟨m, hm, -⟩ := Option.bind_eq_some_iff.mp h
    exact leadOf_of_digits? hm
  case h_10 => exact leadOf_of_digits? h
  case h_12 sigil rest heq =>
    cases heq
    split at h
    · next hsigil => rcases hsigil.1 with rfl | rfl | rfl <;> decide
    · cases h
  case h_13 first rest heq =>
    cases heq
    split at h
    · next hfirst => exact leadOf_of_isNameStart hfirst
    · cases h
  case h_14 kind first more =>
    split at h
    · next hprefix =>
        obtain ⟨tail, htail⟩ := List.isPrefixOf_iff_prefix.mp hprefix
        cases htail
        exact leadOf_mark hf
    · cases h
  case h_15 => cases h
  all_goals
    next heq =>
      cases heq
      decide

/-- Two forms that accept a piece of the same text have the same lead. -/
theorem lead_eq_of_length? {f g : Form} {cs : List Char} {n m : Nat} (hf : f ∈ forms)
    (hg : g ∈ forms) (hn : f.length? cs = some n) (hm : g.length? cs = some m) :
    f.lead = g.lead := by
  cases cs with
  | nil =>
      have := Form.length?_bounds hn
      rw [List.length_nil] at this
      omega
  | cons c cs => rw [← leadOf_eq_lead hf hn, leadOf_eq_lead hg hm]

/-- No other form has the lead of this one. -/
def Form.isAlone (f : Form) : Bool := forms.all fun g => g.lead != f.lead || g == f

/-- A text with the lead of a form that is alone is accepted by this form or by none. -/
theorem Form.eq_of_isAlone {f g : Form} {c : Char} {cs : List Char} {n : Nat} (hf : f ∈ forms)
    (h : f.length? (c :: cs) = some n) (hg : g.isAlone = true) (hc : leadOf c = g.lead) :
    f = g := by
  have hone := List.all_eq_true.mp hg f hf
  have hlead : f.lead = g.lead := (leadOf_eq_lead hf h).symm.trans hc
  rw [hlead, bne_self_eq_false, Bool.false_or] at hone
  exact beq_iff_eq.mp hone

/-- A hexadecimal number begins with `0x`. -/
theorem length?_hexadecimal_of_ne {c d : Char} (h : ¬ (c = '0' ∧ d = 'x')) (rest : List Char) :
    Form.hexadecimal.length? (c :: d :: rest) = none := by
  by_cases hc : c = '0'
  · subst hc
    have hd : d ≠ 'x' := fun hd => h ⟨rfl, hd⟩
    simp [Form.length?, hd]
  · simp [Form.length?, hc]

theorem mem_of_firstForm? {cs : List Char} {f : Form} {n : Nat} (h : firstForm? cs = some (f, n)) :
    f ∈ forms ∧ f.length? cs = some n := by
  obtain ⟨g, hg, hlength⟩ := List.exists_of_findSome?_eq_some h
  obtain ⟨k, hk, heq⟩ := Option.map_eq_some_iff.mp hlength
  cases heq
  exact ⟨hg, hk⟩

/-- The reader takes the piece of a form that is alone. -/
theorem firstForm?_of_isAlone {f : Form} {c : Char} {cs : List Char} {n : Nat} (hf : f ∈ forms)
    (h : f.length? (c :: cs) = some n) (halone : f.isAlone = true) :
    firstForm? (c :: cs) = some (f, n) := by
  cases hfirst : firstForm? (c :: cs) with
  | none =>
      have hnone := List.findSome?_eq_none_iff.mp hfirst f hf
      rw [h] at hnone
      cases hnone
  | some found =>
      obtain ⟨g, m⟩ := found
      obtain ⟨hg, hm⟩ := mem_of_firstForm? hfirst
      cases Form.eq_of_isAlone hg hm halone (leadOf_eq_lead hf h)
      rw [h] at hm
      cases hm
      rfl

end TypedSql.Token

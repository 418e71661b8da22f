import TypedSql.Proofs.Token.Cut

/-!
# Tokens are longest matches

The reader takes the first form that accepts a piece of the text, and the forms overlap: `.5` begins
with a point, `->>` with `->` and with a minus sign, `x'0f'` with a word.  Their order decides well:
of two forms that accept, the one that is tried first takes the longer piece.  Most forms never
meet, as the first character of the text tells them apart; the few that do are compared one by one.

Main definitions: `Form.Prevails`, `Form.goesBefore`, `IsLongest`.  Main statements:
`Form.prevails_of_goesBefore`, `forms_goBefore`, `longest_of_tokenizeAt`.
-/

namespace TypedSql.Token

open Text

/-- Wherever both forms accept, the first one takes the longer piece. -/
def Form.Prevails (f g : Form) : Prop :=
  ∀ ⦃cs n m⦄, f.length? cs = some n → g.length? cs = some m → m < n

/-! ## Forms that meet -/

/-- The quote behind the letter of a blob ends a word. -/
theorem blob_prevails_word : Form.Prevails .blob .word := by
  intro cs n m hn hm
  match cs with
  | [] => cases hm
  | [x] => simp [Form.length?] at hn
  | x :: q :: rest =>
      by_cases hq : q = '\''
      · subst hq
        have hstop : countWhile isNameChar ('\'' :: rest) = 0 := by
          rw [countWhile, List.takeWhile_cons_of_neg (by decide)]
          rfl
        simp only [Form.length?, hstop] at hn hm
        split at hn
        · obtain ⟨k, -, rfl⟩ := Option.map_eq_some_iff.mp hn
          split at hm
          · cases hm
            omega
          · cases hm
        · cases hn
      · simp [Form.length?, hq] at hn

/-- A hexadecimal number begins with one digit and the letter x. -/
theorem hexadecimal_eq_some {cs : List Char} {n : Nat}
    (h : Form.hexadecimal.length? cs = some n) :
    digits? cs = some 1 ∧ (cs.drop 1).head? = some 'x' ∧ 1 < n := by
  match cs with
  | [] => cases h
  | [c] => simp [Form.length?] at h
  | c :: d :: rest =>
      by_cases hc : c = '0' ∧ d = 'x'
      · obtain ⟨rfl, rfl⟩ := hc
        simp only [Form.length?] at h
        split at h
        · cases h
        · cases h
          exact ⟨rfl, rfl, by omega⟩
      · rw [length?_hexadecimal_of_ne hc] at h
        cases h

/-- Behind its digits a number with a point goes on with the point. -/
theorem pointed_eq_some {cs : List Char} {n : Nat} (h : Form.pointed.length? cs = some n) :
    ∃ k, digits? cs = some k ∧ (cs.drop k).head? = some '.' ∧ k < n := by
  obtain ⟨k, hk, h⟩ := Option.bind_eq_some_iff.mp h
  split at h
  · next rest hdrop =>
      cases h
      exact ⟨k, hk, by rw [hdrop]; rfl, by omega⟩
  · cases h

theorem exponent?_eq_some {cs : List Char} {n : Nat} (h : exponent? cs = some n) :
    (cs.head? = some 'e' ∨ cs.head? = some 'E') ∧ 0 < n := by
  unfold exponent? at h
  split at h
  · next e sign rest =>
      split at h
      · next he =>
          refine ⟨he.imp (congrArg some) (congrArg some), ?_⟩
          split at h
          · obtain ⟨k, -, rfl⟩ := Option.map_eq_some_iff.mp h
            omega
          · obtain ⟨k, -, rfl⟩ := Option.map_eq_some_iff.mp h
            omega
      · cases h
  · cases h

/-- Behind its digits a number with an exponent goes on with the letter e. -/
theorem exponential_eq_some {cs : List Char} {n : Nat} (h : Form.exponential.length? cs = some n) :
    ∃ k, digits? cs = some k ∧
      ((cs.drop k).head? = some 'e' ∨ (cs.drop k).head? = some 'E') ∧ k < n := by
  obtain ⟨k, hk, h⟩ := Option.bind_eq_some_iff.mp h
  obtain ⟨j, hj, rfl⟩ := Option.map_eq_some_iff.mp h
  obtain ⟨he, hpos⟩ := exponent?_eq_some hj
  exact ⟨k, hk, he, by omega⟩

theorem leadingPoint_prevails_dot : Form.Prevails .leadingPoint (.mark .dot '.' []) := by
  intro cs n m hn hm
  match cs with
  | [] => cases hn
  | c :: rest =>
      by_cases hc : c = '.'
      · subst hc
        obtain ⟨k, hk, rfl⟩ := Option.map_eq_some_iff.mp hn
        have hpos := (digits?_bounds hk).1
        cases hm
        show 1 < 1 + k + _
        omega
      · simp [Form.length?, hc] at hn

/-- A second colon begins no name. -/
theorem named_prevails_colons : Form.Prevails .named (.mark .operator ':' [':']) := by
  intro cs n m hn hm
  simp only [Form.length?] at hm
  split at hm
  · next hprefix =>
      obtain ⟨rest, rfl⟩ := List.isPrefixOf_iff_prefix.mp hprefix
      have hstop : countWhile isNameChar (':' :: rest) = 0 := by
        rw [countWhile, List.takeWhile_cons_of_neg (by decide)]
        rfl
      simp [Form.length?, hstop] at hn
  · cases hm

/-- Of two marks at the same place the longer one is no part of the shorter one. -/
theorem mark_prevails {kind kind' : Kind} {first first' : Char} {more more' : List Char}
    (h : (first :: more).isPrefixOf (first' :: more') = false) :
    Form.Prevails (.mark kind first more) (.mark kind' first' more') := by
  intro cs n m hn hm
  simp only [Form.length?] at hn hm
  split at hn
  · next hthis =>
      split at hm
      · next hother =>
          cases hn
          cases hm
          have hthis := List.isPrefixOf_iff_prefix.mp hthis
          have hother := List.isPrefixOf_iff_prefix.mp hother
          have hlonger : ¬ (first :: more).length ≤ (first' :: more').length := fun hle =>
            Bool.eq_false_iff.mp h
              (List.isPrefixOf_iff_prefix.mpr (List.prefix_of_prefix_length_le hthis hother hle))
          simp only [List.length_cons] at hlonger
          omega
      · cases hm
  · cases hn

/-! ## The order of the forms -/

/-- The first form may be tried before the other one: they never meet, or it takes more. -/
def Form.goesBefore (f g : Form) : Bool :=
  match f, g with
  | .blob, .word => true
  | .hexadecimal, .pointed | .hexadecimal, .exponential | .hexadecimal, .digits => true
  | .pointed, .exponential | .pointed, .digits | .exponential, .digits => true
  | .leadingPoint, .mark .dot '.' [] => true
  | .named, .mark .operator ':' [':'] => true
  | .mark _ first more, .mark _ first' more' => !(first :: more).isPrefixOf (first' :: more')
  | _, _ => f.lead != g.lead

theorem Form.prevails_of_goesBefore {f g : Form} (hf : f ∈ forms) (hg : g ∈ forms)
    (h : f.goesBefore g = true) : f.Prevails g := by
  -- Two numbers that go on differently behind their digits do not meet.
  have hmeet {cs : List Char} {k k' : Nat} (hk : digits? cs = some k) (hk' : digits? cs = some k') :
      k = k' := Option.some.inj (hk.symm.trans hk')
  unfold goesBefore at h
  split at h
  · exact blob_prevails_word
  · intro cs n m hn hm
    obtain ⟨hk, hx, -⟩ := hexadecimal_eq_some hn
    obtain ⟨k, hk', hpoint, -⟩ := pointed_eq_some hm
    cases hmeet hk hk'
    cases hx.symm.trans hpoint
  · intro cs n m hn hm
    obtain ⟨hk, hx, -⟩ := hexadecimal_eq_some hn
    obtain ⟨k, hk', he, -⟩ := exponential_eq_some hm
    cases hmeet hk hk'
    rcases he with he | he <;> cases hx.symm.trans he
  · intro cs n m hn hm
    obtain ⟨hk, -, hlonger⟩ := hexadecimal_eq_some hn
    cases hmeet hk hm
    exact hlonger
  · intro cs n m hn hm
    obtain ⟨k, hk, hpoint, -⟩ := pointed_eq_some hn
    obtain ⟨k', hk', he, -⟩ := exponential_eq_some hm
    cases hmeet hk hk'
    rcases he with he | he <;> cases hpoint.symm.trans he
  · intro cs n m hn hm
    obtain ⟨k, hk, -, hlonger⟩ := pointed_eq_some hn
    cases hmeet hk hm
    exact hlonger
  · intro cs n m hn hm
    obtain ⟨k, hk, -, hlonger⟩ := exponential_eq_some hn
    cases hmeet hk hm
    exact hlonger
  · exact leadingPoint_prevails_dot
  · exact named_prevails_colons
  · exact mark_prevails (by simpa using h)
  · intro cs n m hn hm
    exact absurd (lead_eq_of_length? hf hg hn hm) (bne_iff_ne.mp h)

/-- The order of the forms puts the longer piece first, for every two of them. -/
theorem forms_goBefore : forms.Pairwise fun f g => f.goesBefore g = true := by decide

/-- The first form that accepts takes more than any other form does. -/
theorem lt_of_firstForm? {cs : List Char} {f g : Form} {n m : Nat}
    (h : firstForm? cs = some (f, n)) (hg : g ∈ forms) (hm : g.length? cs = some m) :
    g = f ∧ m = n ∨ m < n := by
  obtain ⟨earlier, f', later, hforms, hf', hearlier⟩ := List.findSome?_eq_some_iff.mp h
  obtain ⟨k, hn, heq⟩ := Option.map_eq_some_iff.mp hf'
  cases heq
  have horder := forms_goBefore
  rw [hforms, List.pairwise_append, List.pairwise_cons] at horder
  rw [hforms] at hg
  rcases List.mem_append.mp hg with hbefore | hg
  · have hnone := Option.map_eq_none_iff.mp (hearlier g hbefore)
    rw [hm] at hnone
    cases hnone
  · rcases List.mem_cons.mp hg with rfl | hbehind
    · exact .inl ⟨rfl, Option.some.inj (hm.symm.trans hn)⟩
    · have hf : f ∈ forms := (mem_of_firstForm? h).1
      have hgforms : g ∈ forms := hforms ▸ List.mem_append_right _ (List.mem_cons_of_mem _ hbehind)
      exact .inr (Form.prevails_of_goesBefore hf hgforms (horder.2.1.1 g hbehind) hn hm)

/-! ## The tokens of a text -/

/-- A token is what the first accepting form takes where the token stands. -/
theorem Reads.form_of_mem {good : List Char → Prop} {cs : List Char} {o : Nat} {p : Position}
    {tokens : List Token} {t : Token} (h : Reads good cs o p tokens) (ht : t ∈ tokens) :
    ∃ before after form, cs = before ++ (t.text.toList ++ after) ∧
      t.span.start = o + byteLength before ∧
      firstForm? (t.text.toList ++ after) = some (form, t.text.toList.length) ∧
      t.kind = form.kind t.text := by
  induction h with
  | done => cases ht
  | @token cs gap piece more o p form tokens hcs _ _ _ hform _ ih =>
      cases ht with
      | head => exact ⟨gap, more, form, by simp [hcs], rfl, by simpa using hform, rfl⟩
      | tail _ ht =>
          obtain ⟨before, after, form', hmore, hstart, hform', hkind⟩ := ih ht
          refine ⟨gap ++ piece ++ before, after, form', by simp [hcs, hmore], ?_, hform', hkind⟩
          rw [hstart, byteLength_append, byteLength_append]
          omega

/-- Where the token stands in the text some form accepts it, none accepts a longer piece, and every
form that accepts a piece of this length gives it the kind of the token. -/
structure IsLongest (sql : String) (t : Token) : Prop where
  startsRest : t.text.toList <+: dropBytes t.span.start sql.toList
  accepted : ∃ form ∈ forms,
    form.length? (dropBytes t.span.start sql.toList) = some t.text.toList.length ∧
      form.kind t.text = t.kind
  longest : ∀ form ∈ forms, ∀ n,
    form.length? (dropBytes t.span.start sql.toList) = some n → n ≤ t.text.toList.length
  kind : ∀ form ∈ forms,
    form.length? (dropBytes t.span.start sql.toList) = some t.text.toList.length →
      form.kind t.text = t.kind

/-- Every token of a text is a longest match. -/
theorem longest_of_tokenizeAt {sql : String} {origin : Position} {tokens : List Token}
    (h : tokenizeAt sql origin = .ok tokens) : ∀ t ∈ tokens, IsLongest sql t := by
  intro t ht
  obtain ⟨before, after, form, hsql, hstart, hfirst, hkind⟩ :=
    (tokenizeAt_eq_ok_iff.mp h).form_of_mem ht
  have hrest : dropBytes t.span.start sql.toList = t.text.toList ++ after := by
    rw [hstart, Nat.zero_add, hsql, dropBytes_byteLength]
  obtain ⟨hmem, hlength⟩ := mem_of_firstForm? hfirst
  refine ⟨?_, ⟨form, hmem, ?_, hkind.symm⟩, fun other hother n hn => ?_, fun other hother hn => ?_⟩
  · rw [hrest]
    exact List.prefix_append _ _
  · rw [hrest, hlength]
  · rw [hrest] at hn
    rcases lt_of_firstForm? hfirst hother hn with ⟨-, rfl⟩ | hlt
    · exact Nat.le_refl _
    · exact Nat.le_of_lt hlt
  · rw [hrest] at hn
    rcases lt_of_firstForm? hfirst hother hn with ⟨rfl, -⟩ | hlt
    · exact hkind.symm
    · exact absurd hlt (Nat.lt_irrefl _)

/-- Forms that meet, without white space between them. -/
theorem longest_of_crowded :
    let sql := "x'0f'->>.5e+1::a<>0x1F"
    let tokens : List Token :=
      [⟨.blob, "x'0f'", ⟨0, 5⟩, ⟨1, 1⟩⟩, ⟨.operator, "->>", ⟨5, 8⟩, ⟨1, 6⟩⟩,
        ⟨.float, ".5e+1", ⟨8, 13⟩, ⟨1, 9⟩⟩, ⟨.operator, "::", ⟨13, 15⟩, ⟨1, 14⟩⟩,
        ⟨.identifier, "a", ⟨15, 16⟩, ⟨1, 16⟩⟩, ⟨.operator, "<>", ⟨16, 18⟩, ⟨1, 17⟩⟩,
        ⟨.integer, "0x1F", ⟨18, 22⟩, ⟨1, 19⟩⟩]
    tokenizeAt sql .first = .ok tokens ∧ ∀ t ∈ tokens, IsLongest sql t := by
  intro sql tokens
  have htokens : tokenizeAt sql .first = .ok tokens := by
    rw [tokenizeAt_ofList]
    decide +kernel
  exact ⟨htokens, longest_of_tokenizeAt htokens⟩

end TypedSql.Token

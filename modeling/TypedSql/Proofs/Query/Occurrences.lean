import Mathlib.Data.List.Pairwise
import TypedSql.Proofs.Query.Origin
import TypedSql.Proofs.Text.Case

/-!
# Parameters and their occurrences

The tokens of a statement are scanned from left to right.  Where a macro begins, its six tokens are
one occurrence of a parameter; elsewhere a parameter token is one.  A name, in any case, or a number
that occurs again is the parameter of its first occurrence, with the position and the marks of that
one; every `?` is a parameter of its own.

Main definitions: `Occurrences`, `KeepsFirst`.  Main statement: `readParams_keeps_first`.
-/

namespace TypedSql.Query

open Text Token

/-! ## The scan -/

/-- The names of the macros, and whether their parameter is variadic and whether it is forced to be
nullable. -/
def macroNames : List (String × Bool × Bool) :=
  [("arg", false, false), ("narg", false, true), ("slice", true, false)]

/-- The tokens are one macro, and write this parameter. -/
inductive IsMacro : List Token → Param → Prop
  | mk {head dot function openParen argument closeParen : Token} {variadic forceNullable : Bool}
      (hhead : head.isWord "sqlc" = true) (hdot : dot.kind = .dot)
      (hfunction : (lowerCase function.text, variadic, forceNullable) ∈ macroNames)
      (hopen : openParen.kind = .leftParen)
      (hargument : argument.isName = true ∨ argument.kind = .string)
      (hclose : closeParen.kind = .rightParen) :
      IsMacro [head, dot, function, openParen, argument, closeParen]
        ⟨.named argument.value, head.position, variadic, forceNullable⟩

/-- The occurrences of parameters in the tokens, each with the number of its first token, where the
tokens are scanned from left to right and the first one has number `i`. -/
inductive Occurrences : Nat → List Token → List (Nat × Param) → Prop
  | nil {i : Nat} : Occurrences i [] []
  | call {i : Nat} {piece rest : List Token} {p : Param} {more : List (Nat × Param)}
      (hpiece : IsMacro piece p) (hrest : Occurrences (i + 6) rest more) :
      Occurrences i (piece ++ rest) ((i, p) :: more)
  | mark {i : Nat} {t : Token} {rest : List Token} {more : List (Nat × Param)}
      (ht : t.kind = .parameter) (hrest : Occurrences (i + 1) rest more) :
      Occurrences i (t :: rest) ((i, .ofToken t) :: more)
  | other {i : Nat} {t : Token} {rest : List Token} {more : List (Nat × Param)}
      (ht : t.kind ≠ .parameter)
      (hnone : ∀ piece behind p, t :: rest = piece ++ behind → ¬ IsMacro piece p)
      (hrest : Occurrences (i + 1) rest more) : Occurrences i (t :: rest) more

theorem macroFlags?_eq_some_iff {name : String} {variadic forceNullable : Bool} :
    macroFlags? name = some (variadic, forceNullable) ↔
      (lowerCase name, variadic, forceNullable) ∈ macroNames := by
  unfold macroFlags? macroNames
  split
  · next h => simp [h, eq_comm]
  · next h => simp [h, eq_comm]
  · next h => simp [h, eq_comm]
  · next harg hnarg hslice =>
      simp only [List.mem_cons, Prod.mk.injEq, List.not_mem_nil, or_false, reduceCtorEq, false_iff]
      rintro (⟨h, -⟩ | ⟨h, -⟩ | ⟨h, -⟩)
      · exact harg h
      · exact hnarg h
      · exact hslice h

/-- The reader finds the macro that the tokens begin with. -/
theorem macroParam?_eq_some_iff {tokens : List Token} {p : Param} :
    macroParam? tokens = some p ↔ ∃ piece rest, tokens = piece ++ rest ∧ IsMacro piece p := by
  constructor
  · intro h
    unfold macroParam? at h
    split at h
    · next head dot function openParen argument closeParen rest =>
        split at h
        · next hshape =>
            simp only [Bool.and_eq_true, Bool.or_eq_true, beq_iff_eq] at hshape
            obtain ⟨⟨⟨⟨hhead, hdot⟩, hopen⟩, hclose⟩, hargument⟩ := hshape
            obtain ⟨flags, hflags, rfl⟩ := Option.map_eq_some_iff.mp h
            exact ⟨_, rest, rfl, .mk hhead hdot (macroFlags?_eq_some_iff.mp hflags) hopen hargument
              hclose⟩
        · cases h
    · cases h
  · rintro ⟨_, rest, rfl, @⟨head, dot, function, openParen, argument, closeParen, variadic,
      forceNullable, hhead, hdot, hfunction, hopen, hargument, hclose⟩⟩
    have hname : (argument.isName || argument.kind == .string) = true := by
      rw [Bool.or_eq_true, beq_iff_eq]
      exact hargument
    simp only [List.cons_append, List.nil_append, macroParam?, hhead, hdot, hopen, hclose, hname,
      macroFlags?_eq_some_iff.mpr hfunction, beq_self_eq_true, Bool.and_self, if_true,
      Option.map_some]

theorem IsMacro.length {piece : List Token} {p : Param} (h : IsMacro piece p) :
    piece.length = 6 := by
  cases h
  rfl

/-- Where a parameter token stands, no macro begins. -/
theorem not_isMacro_of_parameter {t : Token} {rest piece behind : List Token} {p : Param}
    (ht : t.kind = .parameter) (hsplit : t :: rest = piece ++ behind) : ¬ IsMacro piece p := by
  rintro ⟨hhead, -, -, -, -, -⟩
  obtain ⟨rfl, -⟩ := List.cons.inj hsplit
  rcases kind_of_isAnyWord (isAnyWord_of_isWord hhead) with hkind | hkind <;>
    exact absurd (ht.symm.trans hkind) (by decide)

/-- Macros that the same tokens begin with are the same. -/
theorem isMacro_inj {piece piece' rest rest' : List Token} {p p' : Param} (h : IsMacro piece p)
    (h' : IsMacro piece' p') (hsame : piece ++ rest = piece' ++ rest') : p = p' ∧ rest = rest' := by
  obtain ⟨rfl, rfl⟩ := List.append_inj hsame (h.length.trans h'.length.symm)
  have hp := macroParam?_eq_some_iff.mpr ⟨piece, rest, rfl, h⟩
  have hp' := macroParam?_eq_some_iff.mpr ⟨piece, rest, rfl, h'⟩
  exact ⟨Option.some.inj (hp.symm.trans hp'), rfl⟩

/-- The occurrence begins with a token of the list and stands where this token does; its number
says which token it is, where the first one has number `i`. -/
def StartsAt (i : Nat) (tokens : List Token) (o : Nat × Param) : Prop :=
  ∃ k t, o.1 = i + k ∧ tokens[k]? = some t ∧ o.2.position = t.position

namespace StartsAt

variable {i : Nat} {tokens : List Token} {o : Nat × Param}

theorem le (h : StartsAt i tokens o) : i ≤ o.1 := by
  obtain ⟨k, t, hk, -⟩ := h
  omega

theorem append (front : List Token) (h : StartsAt (i + front.length) tokens o) :
    StartsAt i (front ++ tokens) o := by
  obtain ⟨k, t, hk, ht, hposition⟩ := h
  refine ⟨front.length + k, t, by omega, ?_, hposition⟩
  rw [List.getElem?_append_right (Nat.le_add_right _ _), Nat.add_sub_cancel_left]
  exact ht

end StartsAt

namespace Occurrences

variable {i : Nat} {tokens : List Token} {all : List (Nat × Param)}

/-- What the reader finds are the occurrences of the scan. -/
theorem exists_of_paramPlaces (i : Nat) (tokens : List Token) :
    ∃ all, Occurrences i tokens all ∧ all.map Prod.snd = paramPlaces tokens := by
  fun_induction paramPlaces tokens generalizing i with
  | case1 => exact ⟨[], .nil, rfl⟩
  | case2 t ts p hp ih =>
      obtain ⟨piece, rest, htokens, hpiece⟩ := macroParam?_eq_some_iff.mp hp
      obtain ⟨more, hmore, hplaces⟩ := ih (i + 6)
      have hrest : ts.drop (macroSize - 1) = rest := by
        have hdrop : (t :: ts).drop 6 = rest := by
          rw [htokens, ← hpiece.length, List.drop_left]
        exact hdrop
      rw [hrest] at hmore
      rw [htokens]
      exact ⟨(i, p) :: more, .call hpiece hmore, congrArg (List.cons p) hplaces⟩
  | case3 t ts hp hkind ih =>
      obtain ⟨more, hmore, hplaces⟩ := ih (i + 1)
      exact ⟨(i, .ofToken t) :: more, .mark hkind hmore, congrArg (List.cons _) hplaces⟩
  | case4 t ts hp hkind ih =>
      obtain ⟨more, hmore, hplaces⟩ := ih (i + 1)
      refine ⟨more, .other hkind (fun piece behind p hsplit hpiece => ?_) hmore, hplaces⟩
      have hfound := macroParam?_eq_some_iff.mpr ⟨piece, behind, hsplit, hpiece⟩
      rw [hp] at hfound
      cases hfound

/-- There is one way to scan. -/
theorem unique {others : List (Nat × Param)} (h : Occurrences i tokens all)
    (hothers : Occurrences i tokens others) : others = all := by
  -- What the tokens begin with decides the step, so the other scan takes the same one.
  induction h generalizing others with
  | nil =>
      generalize hnil : ([] : List Token) = tokens at hothers
      cases hothers with
      | nil => rfl
      | call hpiece _ =>
          cases hpiece
          cases hnil
      | mark | other => cases hnil
  | @call i piece rest p more hpiece _ ih =>
      generalize hsame : piece ++ rest = tokens at hothers
      cases hothers with
      | nil =>
          cases hpiece
          cases hsame
      | call hpiece' hrest' =>
          obtain ⟨rfl, rfl⟩ := isMacro_inj hpiece hpiece' hsame
          rw [ih hrest']
      | mark ht => exact absurd hpiece (not_isMacro_of_parameter ht hsame.symm)
      | other _ hnone => exact absurd hpiece (hnone _ _ _ hsame.symm)
  | @mark i t rest more ht _ ih =>
      generalize hsame : t :: rest = tokens at hothers
      cases hothers with
      | nil => cases hsame
      | call hpiece _ => exact absurd hpiece (not_isMacro_of_parameter ht hsame)
      | mark _ hrest' =>
          cases hsame
          rw [ih hrest']
      | other ht' =>
          cases hsame
          exact absurd ht ht'
  | @other i t rest more ht hnone _ ih =>
      generalize hsame : t :: rest = tokens at hothers
      cases hothers with
      | nil => cases hsame
      | call hpiece _ => exact absurd hpiece (hnone _ _ _ hsame)
      | mark ht' =>
          cases hsame
          exact absurd ht' ht
      | other _ _ hrest' =>
          cases hsame
          exact ih hrest'

/-- The numbers of the occurrences are those of their first tokens, and they increase. -/
theorem numbers (h : Occurrences i tokens all) :
    (∀ o ∈ all, StartsAt i tokens o) ∧ all.Pairwise fun o q => o.1 < q.1 := by
  induction h with
  | nil => exact ⟨List.forall_mem_nil _, .nil⟩
  | @call i piece rest p more hpiece _ ih =>
      have hlength := hpiece.length
      have hfirst : StartsAt i (piece ++ rest) (i, p) := by
        cases hpiece
        exact ⟨0, _, rfl, rfl, rfl⟩
      have hlater := ih.1
      rw [← hlength] at hlater
      refine ⟨List.forall_mem_cons.mpr ⟨hfirst, fun o ho => (hlater o ho).append piece⟩,
        List.pairwise_cons.mpr ⟨fun o ho => ?_, ih.2⟩⟩
      have hle : i + piece.length ≤ o.1 := (hlater o ho).le
      show i < o.1
      omega
  | @mark i t rest more ht _ ih =>
      exact ⟨List.forall_mem_cons.mpr ⟨⟨0, t, rfl, rfl, rfl⟩, fun o ho => (ih.1 o ho).append [t]⟩,
        List.pairwise_cons.mpr ⟨fun o ho => (ih.1 o ho).le, ih.2⟩⟩
  | @other i t rest more ht hnone _ ih => exact ⟨fun o ho => (ih.1 o ho).append [t], ih.2⟩

end Occurrences

/-! ## The marks without a name -/

theorem binding_ofText_eq_positional_iff {text : String} :
    Binding.ofText text = .positional ↔ text = "?" := by
  constructor
  · intro h
    rw [← String.toList_inj]
    unfold Binding.ofText at h
    split at h
    · cases h
    · next sigil rest heq =>
        split at h
        · next hmark =>
            rw [heq, hmark.1, hmark.2]
            rfl
        · split at h <;> cases h
  · rintro rfl
    decide

/-- The token is a `?` alone. -/
def isMark (t : Token) : Bool := t.kind == .parameter && t.text == "?"

/-- The parameter is a value without a name. -/
def isPositional (p : Param) : Bool := p.binding == .positional

theorem isPositional_ofToken {t : Token} (ht : t.kind = .parameter) :
    isPositional (.ofToken t) = isMark t := by
  rw [Bool.eq_iff_iff, isPositional, isMark, beq_iff_eq, ht, beq_self_eq_true, Bool.true_and,
    beq_iff_eq]
  exact binding_ofText_eq_positional_iff

/-- No token of a macro is a `?`. -/
theorem IsMacro.filter_isMark {piece : List Token} {p : Param} (h : IsMacro piece p) :
    piece.filter isMark = [] := by
  obtain @⟨head, dot, function, openParen, argument, closeParen, variadic, forceNullable, hhead,
    hdot, hfunction, hopen, hargument, hclose⟩ := h
  have hkind {t : Token} (ht : t.kind ≠ .parameter) : isMark t = false := by
    rw [isMark, beq_eq_false_iff_ne.mpr ht, Bool.false_and]
  have hfirst : isMark head = false := by
    refine hkind ?_
    rcases kind_of_isAnyWord (isAnyWord_of_isWord hhead) with h | h <;> rw [h] <;> decide
  -- The reader does not look at the kind of this token, but its text is a name.
  have hname : isMark function = false := by
    have htext : function.text ≠ "?" := by
      intro htext
      rw [htext] at hfunction
      revert hfunction
      cases variadic <;> cases forceNullable <;> decide
    rw [isMark, beq_eq_false_iff_ne.mpr htext, Bool.and_false]
  have hvalue : isMark argument = false := by
    refine hkind fun h => ?_
    rw [isName, isIdentifier, h] at hargument
    rcases hargument with h | h <;> cases h
  simp only [List.filter_cons, hfirst, hkind (t := dot) (by rw [hdot]; decide), hname,
    hkind (t := openParen) (by rw [hopen]; decide), hvalue,
    hkind (t := closeParen) (by rw [hclose]; decide), Bool.false_eq_true, if_false,
    List.filter_nil]

/-- The positional parameters among the occurrences are the tokens `?`. -/
theorem Occurrences.filter_isPositional {i : Nat} {tokens : List Token} {all : List (Nat × Param)}
    (h : Occurrences i tokens all) :
    (all.map Prod.snd).filter isPositional = (tokens.filter isMark).map .ofToken := by
  induction h with
  | nil => rfl
  | @call i piece rest p more hpiece _ ih =>
      have hnamed : isPositional p = false := by
        cases hpiece
        rfl
      rw [List.map_cons, List.filter_cons, hnamed, if_neg Bool.false_ne_true, ih,
        List.filter_append, hpiece.filter_isMark, List.nil_append]
  | @mark i t rest more ht _ ih =>
      rw [List.map_cons, List.filter_cons, isPositional_ofToken ht, ih, List.filter_cons]
      split <;> rfl
  | @other i t rest more ht hnone _ ih =>
      have hno : isMark t = false := by
        rw [isMark, beq_eq_false_iff_ne.mpr ht, Bool.false_and]
      rw [ih, List.filter_cons, hno, if_neg Bool.false_ne_true]

/-! ## The first occurrences -/

theorem Binding.sameValue_comm (a b : Binding) : a.sameValue b = b.sameValue a := by
  cases a with
  | positional => cases b <;> rfl
  | named name =>
      cases b with
      | named other =>
          rw [Binding.sameValue, Binding.sameValue, Bool.eq_iff_iff, eqIgnoreCase_iff,
            eqIgnoreCase_iff]
          exact eq_comm
      | positional | numbered => rfl
  | numbered number =>
      cases b with
      | numbered other => exact BEq.comm
      | positional | named => rfl

/-- Of the occurrences that are `o` or have its value, `q` is the first one. -/
def IsFirstLike (all : List (Nat × Param)) (o q : Nat × Param) : Prop :=
  ∃ before after, all = before ++ q :: after ∧
    (q = o ∨ q.2.binding.sameValue o.2.binding = true) ∧
    ∀ e ∈ before, e ≠ o ∧ e.2.binding.sameValue o.2.binding = false

/-- What is kept of the occurrences: in their order, no value twice, and for every occurrence the
first one of its value. -/
structure KeepsFirst (all kept : List (Nat × Param)) : Prop where
  inOrder : kept.Sublist all
  distinct : kept.Pairwise fun o q => o.2.binding.sameValue q.2.binding = false
  first : ∀ o ∈ all, ∃ q ∈ kept, IsFirstLike all o q

theorem IsFirstLike.append {all : List (Nat × Param)} {o q : Nat × Param} (h : IsFirstLike all o q)
    (more : List (Nat × Param)) : IsFirstLike (all ++ more) o q := by
  obtain ⟨before, after, rfl, hq, hbefore⟩ := h
  exact ⟨before, after ++ more, by simp, hq, hbefore⟩

/-- A parameter that is added keeps what was kept, and is kept itself if it brings a new value. -/
theorem KeepsFirst.addParam {all kept : List (Nat × Param)} (h : KeepsFirst all kept)
    {o : Nat × Param} (hnew : ∀ e ∈ all, e.1 < o.1) :
    ∃ kept', kept'.map Prod.snd = Query.addParam (kept.map Prod.snd) o.2 ∧
      KeepsFirst (all ++ [o]) kept' := by
  have hold : ∀ e ∈ all, e ≠ o := by
    rintro e he rfl
    exact Nat.lt_irrefl _ (hnew e he)
  unfold Query.addParam
  split
  · next hany =>
      obtain ⟨p, hp, hsame⟩ := List.any_eq_true.mp hany
      obtain ⟨r, hr, rfl⟩ := List.mem_map.mp hp
      refine ⟨kept, rfl, h.inOrder.trans (List.sublist_append_left _ _), h.distinct,
        fun e he => ?_⟩
      rcases List.mem_append.mp he with he | he
      · obtain ⟨q, hq, hfirst⟩ := h.first e he
        exact ⟨q, hq, hfirst.append _⟩
      · -- The first occurrence of the value is that of the parameter which has it already.
        cases List.mem_singleton.mp he
        obtain ⟨q, hq, before, after, rfl, hlike, hbefore⟩ := h.first r (h.inOrder.subset hr)
        refine ⟨q, hq, before, after ++ [o], by simp, .inr ?_, fun e he => ?_⟩
        · rcases hlike with rfl | hlike
          · exact hsame
          · exact Binding.sameValue_trans hlike hsame
        · refine ⟨hold e (List.mem_append_left _ he), Bool.eq_false_iff.mpr fun heo => ?_⟩
          rw [Binding.sameValue_comm] at hsame
          have her := Binding.sameValue_trans heo hsame
          rw [(hbefore e he).2] at her
          cases her
  · next hany =>
      have hnone : ∀ r ∈ kept, r.2.binding.sameValue o.2.binding = false := fun r hr =>
        Bool.eq_false_iff.mpr fun hsame =>
          hany (List.any_eq_true.mpr ⟨r.2, List.mem_map_of_mem hr, hsame⟩)
      refine ⟨kept ++ [o], by simp, h.inOrder.append (List.Sublist.refl _), ?_, fun e he => ?_⟩
      · refine List.pairwise_append.mpr
          ⟨h.distinct, List.pairwise_singleton _ _, fun r hr e he => ?_⟩
        cases List.mem_singleton.mp he
        exact hnone r hr
      · rcases List.mem_append.mp he with he | he
        · obtain ⟨q, hq, hfirst⟩ := h.first e he
          exact ⟨q, List.mem_append_left _ hq, hfirst.append _⟩
        · cases List.mem_singleton.mp he
          refine ⟨o, List.mem_append_right _ he, all, [], rfl, .inl rfl, fun e he => ?_⟩
          refine ⟨hold e he, Bool.eq_false_iff.mpr fun heo => ?_⟩
          -- An earlier occurrence of the value would have its parameter.
          obtain ⟨q, hq, -, -, -, hlike, -⟩ := h.first e he
          have hqo : q.2.binding.sameValue o.2.binding = true := by
            rcases hlike with rfl | hlike
            · exact heo
            · exact Binding.sameValue_trans hlike heo
          rw [hnone q hq] at hqo
          cases hqo

/-- Along occurrences in their order, adding one parameter after the other keeps the first of each
value. -/
theorem keepsFirst_foldl {all kept more : List (Nat × Param)} (h : KeepsFirst all kept)
    (hnumbers : (all ++ more).Pairwise fun o q => o.1 < q.1) :
    ∃ kept', kept'.map Prod.snd = (more.map Prod.snd).foldl Query.addParam (kept.map Prod.snd) ∧
      KeepsFirst (all ++ more) kept' := by
  induction more generalizing all kept with
  | nil => exact ⟨kept, rfl, by rwa [List.append_nil]⟩
  | cons o more ih =>
      have hnew : ∀ e ∈ all, e.1 < o.1 := fun e he =>
        (List.pairwise_append.mp hnumbers).2.2 e he o List.mem_cons_self
      obtain ⟨next, hnext, hkeeps⟩ := h.addParam hnew
      rw [List.append_cons] at hnumbers ⊢
      rw [List.map_cons, List.foldl_cons, ← hnext]
      exact ih hkeeps hnumbers

/-! ## The parameters of a statement -/

/-- Parameters of different values have no name in common, in any case. -/
theorem nodup_names {params : List Param}
    (h : params.Pairwise fun p q => p.binding.sameValue q.binding = false) :
    ((params.filterMap fun p => p.binding.name?).map lowerCase).Nodup := by
  have hname {b : Binding} {name : String} (h : b.name? = some name) : b = .named name := by
    cases b <;> cases h
    rfl
  refine List.pairwise_map.mpr (List.pairwise_filterMap.mpr (h.imp ?_))
  intro p q hne name hp other hq hsame
  rw [hname hp, hname hq, Binding.sameValue, eqIgnoreCase_iff.mpr hsame] at hne
  cases hne

/-- Nor have they a number in common. -/
theorem nodup_numbers {params : List Param}
    (h : params.Pairwise fun p q => p.binding.sameValue q.binding = false) :
    (params.filterMap fun p => p.binding.number?).Nodup := by
  have hnumber {b : Binding} {number : Nat} (h : b.number? = some number) :
      b = .numbered number := by
    cases b <;> cases h
    rfl
  refine List.pairwise_filterMap.mpr (h.imp ?_)
  rintro p q hne number hp _ hq rfl
  rw [hnumber hp, hnumber hq, Binding.sameValue, beq_self_eq_true] at hne
  cases hne

/-- A `?` is never the value of another parameter, so adding parameters drops none. -/
theorem filter_isPositional_foldl (params places : List Param) :
    (places.foldl addParam params).filter isPositional =
      params.filter isPositional ++ places.filter isPositional := by
  induction places generalizing params with
  | nil => exact (List.append_nil _).symm
  | cons p places ih =>
      have hstep : (addParam params p).filter isPositional =
          params.filter isPositional ++ [p].filter isPositional := by
        unfold addParam
        split
        · next hany =>
            obtain ⟨q, -, hsame⟩ := List.any_eq_true.mp hany
            have hno : isPositional p = false := by
              rw [isPositional, beq_eq_false_iff_ne]
              intro hp
              rw [hp, Binding.sameValue_comm] at hsame
              exact Bool.false_ne_true hsame
            rw [List.filter_singleton, hno, cond_false, List.append_nil]
        · exact List.filter_append ..
      rw [List.foldl_cons, ih, hstep, List.append_assoc, ← List.filter_append]
      rfl

/-- The scan of a list of tokens from left to right finds its occurrences of parameters, in the
order of their tokens and each where its first token stands.  The parameters of the list are the
first occurrences, in this order: the tokens `?` all of them, and of those with a name, in any case,
or a number one each, which is the first with its position and its marks. -/
theorem readParams_keeps_first (tokens : List Token) :
    ∃ all kept : List (Nat × Param),
      Occurrences 0 tokens all ∧ (∀ others, Occurrences 0 tokens others → others = all) ∧
        (∀ o ∈ all, StartsAt 0 tokens o) ∧ (all.Pairwise fun o q => o.1 < q.1) ∧
        readParams tokens = kept.map Prod.snd ∧ KeepsFirst all kept ∧
        (readParams tokens).filter isPositional = (tokens.filter isMark).map .ofToken ∧
        (((readParams tokens).filterMap fun p => p.binding.name?).map lowerCase).Nodup ∧
        ((readParams tokens).filterMap fun p => p.binding.number?).Nodup := by
  obtain ⟨all, hall, hplaces⟩ := Occurrences.exists_of_paramPlaces 0 tokens
  obtain ⟨hstarts, hnumbers⟩ := hall.numbers
  have hnone : KeepsFirst [] [] := ⟨.slnil, .nil, List.forall_mem_nil _⟩
  obtain ⟨kept, hkept, hkeeps⟩ := keepsFirst_foldl hnone hnumbers
  rw [hplaces] at hkept
  have hparams : readParams tokens = kept.map Prod.snd := hkept.symm
  have hdistinct : (readParams tokens).Pairwise fun p q => p.binding.sameValue q.binding = false :=
    hparams ▸ List.pairwise_map.mpr hkeeps.distinct
  refine ⟨all, kept, hall, fun others => hall.unique, hstarts, hnumbers, hparams, hkeeps, ?_,
    nodup_names hdistinct, nodup_numbers hdistinct⟩
  rw [readParams, filter_isPositional_foldl, ← hplaces, hall.filter_isPositional]
  rfl

end TypedSql.Query

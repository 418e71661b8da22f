import TypedSql.Analysis.Expr
import TypedSql.Proofs.Token.Balanced

/-!
# The shapes of expressions

An expression is read by trying one shape after the other.  `ofTokens_eq` says so in one equation;
the other lemmas say for lists that begin or end in some way which shapes they have.
-/

namespace TypedSql.Expr

open Text Token

/-- The case of a word does not count. -/
theorem ofWord?_of_eqIgnoreCase {a b : String} (h : eqIgnoreCase a b = true) :
    Aggregate.ofWord? a = Aggregate.ofWord? b := by
  unfold Aggregate.ofWord?
  rw [eqIgnoreCase_iff.mp h]

theorem ofWord?_of_isWord {t : Token} {word : String} (h : t.isWord word = true) :
    Aggregate.ofWord? t.text = Aggregate.ofWord? word := by
  rw [isWord, Bool.and_eq_true] at h
  exact ofWord?_of_eqIgnoreCase h.2

/-- What the tokens write, by the shapes in the order in which they are tried. -/
theorem ofTokens_eq (tokens : List Token) :
    ofTokens tokens =
      (((columnParts? tokens).bind fun parts =>
          tokens.head?.map fun first => column parts.1 parts.2 first.position).or
        (((literalType? tokens).map literal).or
          (((castParts? tokens).map fun parts =>
              cast (ofTokens parts.1) parts.2).or
            (((aggregateParts? tokens).map fun parts =>
                aggregate parts.1 parts.2.1 (parts.2.2.map ofTokens)).or
              ((parenthesized? tokens).map ofTokens))))).getD .other := by
  rw [ofTokens]
  split
  · next hhead hcolumn => rw [hhead, hcolumn]; rfl
  · next hcolumn =>
      have hnone : ((columnParts? tokens).bind fun parts =>
          tokens.head?.map fun first => column parts.1 parts.2 first.position) = none := by
        cases hparts : columnParts? tokens with
        | none => rfl
        | some parts =>
            cases hhead : tokens.head? with
            | none => rfl
            | some first => exact absurd hparts (hcolumn first parts.1 parts.2 hhead)
      rw [hnone, Option.none_or]
      split
      · next h => rw [h]; rfl
      · next h =>
          rw [h, Option.map_none, Option.none_or]
          split
          · next h => rw [h]; rfl
          · next h =>
              rw [h, Option.map_none, Option.none_or]
              split
              · next h =>
                  rw [h]
                  simp only [List.map_subtype, List.unattach_attach]
                  rfl
              · next h =>
                  rw [h, Option.map_none, Option.none_or]
                  split
                  · next h => rw [h]; rfl
                  · next h => rw [h]; rfl

/-! ## Shapes that a list does not have -/

/-- A column is written with names and dots only. -/
theorem columnParts?_of_mem {t : Token} {ts : List Token} (ht : t ∈ ts) (hname : t.isName = false)
    (hdot : t.kind ≠ .dot) : columnParts? ts = none := by
  have hkind : (t.kind == .dot) = false := beq_eq_false_iff_ne.mpr hdot
  unfold columnParts?
  split
  · next name =>
      cases List.mem_singleton.mp ht
      rw [hname]
      rfl
  · next table dot name =>
      simp only [List.mem_cons, List.not_mem_nil, or_false] at ht
      rcases ht with rfl | rfl | rfl
      · simp [hname]
      · simp [hkind]
      · simp [hname]
  · next schema dot table dot' name =>
      simp only [List.mem_cons, List.not_mem_nil, or_false] at ht
      rcases ht with rfl | rfl | rfl | rfl | rfl
      · simp [hname]
      · simp [hkind]
      · simp [hname]
      · simp [hkind]
      · simp [hname]
  · rfl

/-- A constant has a token, and perhaps a sign before it. -/
theorem literalType?_of_length {ts : List Token} (h : 3 ≤ ts.length) : literalType? ts = none := by
  unfold literalType?
  split
  · simp at h
  · simp at h
  · rfl

section

variable {t u : Token} {ts : List Token}

theorem columnParts?_of_second (h : u.kind ≠ .dot) : columnParts? (t :: u :: ts) = none := by
  have hdot : (u.kind == .dot) = false := beq_eq_false_iff_ne.mpr h
  unfold columnParts?
  split
  · next heq => cases heq
  · next heq =>
      cases heq
      rw [hdot, Bool.and_false, Bool.false_and]
      rfl
  · next heq =>
      cases heq
      rw [hdot, Bool.and_false, Bool.false_and, Bool.false_and, Bool.false_and]
      rfl
  · rfl

theorem columnParts?_of_fourth {v w : Token} (h : w.kind ≠ .dot) :
    columnParts? (t :: u :: v :: w :: ts) = none := by
  have hdot : (w.kind == .dot) = false := beq_eq_false_iff_ne.mpr h
  unfold columnParts?
  split
  · next heq => cases heq
  · next heq => cases heq
  · next heq =>
      cases heq
      rw [hdot, Bool.and_false, Bool.false_and]
      rfl
  · rfl

theorem literalType?_of_first (h : t.kind ≠ .operator) : literalType? (t :: u :: ts) = none := by
  have hsign (op : String) : t.isOperator op = false := by
    rw [isOperator, beq_eq_false_iff_ne.mpr h, Bool.false_and]
  unfold literalType?
  split
  · next heq => cases heq
  · next heq =>
      cases heq
      rw [hsign, hsign]
      rfl
  · rfl

theorem castParts?_of_first (h : t.isWord "CAST" = false) : castParts? (t :: ts) = none := by
  rw [castParts?, h]
  rfl

theorem aggregateParts?_of_first (h : Aggregate.ofWord? t.text = none) :
    aggregateParts? (t :: ts) = none := by
  rw [aggregateParts?, h]
  rfl

theorem aggregateParts?_of_second (h : u.kind ≠ .leftParen) :
    aggregateParts? (t :: u :: ts) = none := by
  show ((Aggregate.ofWord? t.text).bind fun function => (matchingParen? (u :: ts) 0).bind _) = none
  rw [matchingParen?_of_ne h]
  cases Aggregate.ofWord? t.text <;> rfl

theorem wholeGroup?_of_first (h : t.kind ≠ .leftParen) : wholeGroup? (t :: ts) = none := by
  rw [wholeGroup?, matchingParen?_of_ne h]
  rfl

theorem parenthesized?_of_first (h : t.kind ≠ .leftParen) : parenthesized? (t :: ts) = none := by
  rw [parenthesized?, wholeGroup?_of_first h]
  rfl

end

/-- The tokens are no cast, no aggregate and no group. -/
structure Unread (ts : List Token) : Prop where
  cast : castParts? ts = none
  aggregate : aggregateParts? ts = none
  group : parenthesized? ts = none

theorem ofTokens_other {ts : List Token} (hcolumn : columnParts? ts = none)
    (hliteral : literalType? ts = none) (h : Unread ts) : ofTokens ts = .other := by
  rw [ofTokens_eq, hcolumn, hliteral, h.cast, h.aggregate, h.group]
  rfl

/-- Each of the shapes has its second token in common with a group. -/
theorem Unread.of_second {t u : Token} (hcast : t.isWord "CAST" = false)
    (ht : t.kind ≠ .leftParen) (hu : u.kind ≠ .leftParen) (ts : List Token) :
    Unread (t :: u :: ts) :=
  ⟨castParts?_of_first hcast, aggregateParts?_of_second hu, parenthesized?_of_first ht⟩

/-! ## Groups -/

section

variable {o c : Token} {xs : List Token}

theorem wholeGroup?_eq (ho : o.kind = .leftParen) (hc : c.kind = .rightParen) (h : Balanced xs) :
    wholeGroup? (o :: (xs ++ [c])) = some xs := by
  have hlength : xs.length + 1 = (o :: (xs ++ [c])).length - 1 := by
    simp only [List.length_cons, List.length_append, List.length_nil]
    omega
  rw [wholeGroup?, h.matchingParen? ho hc, if_pos (congrArg some hlength), List.drop_succ_cons,
    List.drop_zero, List.dropLast_concat]

/-- A group with more behind it is no group as a whole. -/
theorem wholeGroup?_of_behind (ho : o.kind = .leftParen) (hc : c.kind = .rightParen)
    (h : Balanced xs) (t : Token) (ts : List Token) :
    wholeGroup? (o :: (xs ++ c :: t :: ts)) = none := by
  have hlength : xs.length + 1 ≠ (o :: (xs ++ c :: t :: ts)).length - 1 := by
    simp only [List.length_cons, List.length_append]
    omega
  rw [wholeGroup?, h.matchingParen? ho hc, if_neg (fun heq => hlength (Option.some.inj heq))]

/-- The operand of a cast stands before its last `AS`, and the name of the type behind it. -/
theorem castParts?_eq {k a : Token} {type : List Token} (hk : k.isWord "CAST" = true)
    (ho : o.kind = .leftParen) (hc : c.kind = .rightParen) (h : Balanced xs)
    (ha : a.isWord "AS" = true) (htype : Outside (fun t => t.isWord "AS" = false) type) :
    castParts? (k :: o :: (xs ++ a :: (type ++ [c]))) =
      some (xs, spaced (type.map (·.text))) := by
  have hkind : a.kind = .keyword ∨ a.kind = .identifier :=
    @kind_of_isAnyWord a ["AS"] (by rw [isAnyWord, List.any_cons, ha]; rfl)
  have hopen : a.kind ≠ .leftParen := by rcases hkind with h | h <;> rw [h] <;> decide
  have hclose : a.kind ≠ .rightParen := by rcases hkind with h | h <;> rw [h] <;> decide
  have hinner : Balanced (xs ++ a :: type) := h.append ((Balanced.token hopen hclose).append
    htype.balanced)
  have hlist : xs ++ a :: (type ++ [c]) = (xs ++ a :: type) ++ [c] := by simp
  -- From behind, the search passes over the type.
  have hpass : ∀ dt ∈ (withDepthsFrom 0 type).reverse,
      (!(dt.1 == 0 && dt.2.isWord "AS")) = true := by
    intro dt hdt
    by_cases hd : dt.1 = 0
    · rw [htype.of_depth (List.mem_reverse.mp hdt) hd, Bool.and_false]
      rfl
    · rw [beq_eq_false_iff_ne.mpr hd]
      rfl
  have hbefore : (withDepths (xs ++ a :: type)).reverse.dropWhile
      (fun dt => !(dt.1 == 0 && dt.2.isWord "AS")) = (0, a) :: (withDepthsFrom 0 xs).reverse := by
    show (withDepthsFrom 0 (xs ++ a :: type)).reverse.dropWhile _ = _
    rw [h.withDepthsFrom_append, withDepthsFrom_other hopen hclose, List.reverse_append,
      List.reverse_cons, List.append_assoc, List.dropWhile_append_of_pos hpass,
      List.singleton_append, List.dropWhile_cons_of_neg]
    rw [ha]
    exact Bool.false_ne_true
  have hoperand : (withDepthsFrom 0 xs).reverse.reverse.map (·.2) = xs := by
    rw [List.reverse_reverse, withDepthsFrom,
      List.map_snd_zip (Nat.le_of_eq (length_depthsFrom 0 xs).symm)]
  have hdrop : (xs ++ a :: type).drop ((0, a) :: (withDepthsFrom 0 xs).reverse).length = type := by
    rw [List.length_cons, List.length_reverse, length_withDepthsFrom, List.append_cons,
      ← List.length_singleton (a := a), ← List.length_append, List.drop_left]
  rw [castParts?, hlist]
  simp only [hk, if_true, wholeGroup?_eq ho hc hinner, Option.bind_some, hbefore, hoperand, hdrop]

theorem drop_group (behind : List Token) :
    (o :: (xs ++ c :: behind)).drop (xs.length + 1 + 1) = behind := by
  rw [List.drop_succ_cons, List.append_cons, ← List.length_singleton (a := c),
    ← List.length_append, List.drop_left]

/-- Behind a function with something else behind it than `FILTER` and `OVER` no aggregate ends. -/
theorem aggregateParts?_of_behind {f t : Token} (ho : o.kind = .leftParen)
    (hc : c.kind = .rightParen) (h : Balanced xs)
    (ht : t.isAnyWord ["FILTER", "OVER"] = false) (ts : List Token) :
    aggregateParts? (f :: o :: (xs ++ c :: t :: ts)) = none := by
  unfold aggregateParts?
  simp only [h.matchingParen? ho hc, Option.bind_some, drop_group, List.head?_cons,
    Option.all_some, ht, Bool.false_eq_true, if_false]
  cases Aggregate.ofWord? f.text <;> rfl

/-- A group with more behind it has none of the shapes. -/
theorem Unread.of_group (ho : o.kind = .leftParen) (hword : Aggregate.ofWord? o.text = none)
    (hc : c.kind = .rightParen) (h : Balanced xs) (t : Token) (ts : List Token) :
    Unread (o :: (xs ++ c :: t :: ts)) := by
  have hcast : o.isWord "CAST" = false := by
    rw [isWord, ho]
    rfl
  refine ⟨castParts?_of_first hcast, aggregateParts?_of_first hword, ?_⟩
  rw [parenthesized?, wholeGroup?_of_behind ho hc h]
  rfl

/-- Nor has a call with something else behind it than `FILTER` and `OVER`. -/
theorem Unread.of_call {f t : Token} (hf : f.kind ≠ .leftParen) (ho : o.kind = .leftParen)
    (hc : c.kind = .rightParen) (h : Balanced xs) (ht : t.isAnyWord ["FILTER", "OVER"] = false)
    (ts : List Token) : Unread (f :: o :: (xs ++ c :: t :: ts)) := by
  refine ⟨?_, aggregateParts?_of_behind ho hc h ht ts, parenthesized?_of_first hf⟩
  rw [castParts?, wholeGroup?_of_behind ho hc h]
  split <;> rfl

/-- With `FILTER`, `OVER` or nothing behind it, a function is an aggregate whose operands are the
pieces between its commas. -/
theorem aggregateParts?_of_clause {f : Token} {behind : List Token} (ho : o.kind = .leftParen)
    (hc : c.kind = .rightParen) (h : Balanced xs)
    (hbehind : (behind.head?.all fun t => t.isAnyWord ["FILTER", "OVER"]) = true) :
    aggregateParts? (f :: o :: (xs ++ c :: behind)) =
      (Aggregate.ofWord? f.text).map fun function => (function, f.position,
        commaPieces (xs.dropWhile fun t => t.isAnyWord ["DISTINCT", "ALL"])) := by
  have hinner : ((o :: (xs ++ c :: behind)).take (xs.length + 1)).drop 1 = xs := by
    rw [List.take_succ_cons, List.take_left, List.drop_succ_cons, List.drop_zero]
  unfold aggregateParts?
  simp only [h.matchingParen? ho hc, Option.bind_some, drop_group, hbehind, if_true, hinner]
  cases Aggregate.ofWord? f.text <;> rfl

/-- Nothing is left out of operands that do not begin with `DISTINCT` or `ALL`. -/
theorem dropWhile_of_first (hfirst : ∀ t ∈ xs.head?, t.isAnyWord ["DISTINCT", "ALL"] = false) :
    xs.dropWhile (fun t => t.isAnyWord ["DISTINCT", "ALL"]) = xs := by
  cases xs with
  | nil => rfl
  | cons t ts =>
      rw [List.dropWhile_cons_of_neg]
      rw [hfirst t rfl]
      exact Bool.false_ne_true

theorem parenthesized?_eq (ho : o.kind = .leftParen) (hc : c.kind = .rightParen)
    (h : Balanced xs)
    (hfirst : ∀ t ∈ (xs ++ [c]).head?, t.isAnyWord ["SELECT", "WITH", "VALUES"] = false) :
    parenthesized? (o :: (xs ++ [c])) = some xs := by
  have hquery : ((o :: (xs ++ [c])).drop 1).head?.any
      (fun t => t.isAnyWord ["SELECT", "WITH", "VALUES"]) = false := by
    rw [List.drop_succ_cons, List.drop_zero]
    cases hhead : (xs ++ [c]).head? with
    | none => rfl
    | some t => exact hfirst t (Option.mem_def.mpr hhead)
  rw [parenthesized?, wholeGroup?_eq ho hc h, Option.bind_some, hquery]
  rfl

/-! ## Expressions of one shape -/

/-- A group is read as what stands in it, if that is no query. -/
theorem ofTokens_group (ho : o.kind = .leftParen) (hword : Aggregate.ofWord? o.text = none)
    (hc : c.kind = .rightParen) (h : Balanced xs) (hne : xs ≠ [])
    (hfirst : ∀ t ∈ (xs ++ [c]).head?, t.isAnyWord ["SELECT", "WITH", "VALUES"] = false) :
    ofTokens (o :: (xs ++ [c])) = ofTokens xs := by
  have hcolumn : columnParts? (o :: (xs ++ [c])) = none := by
    refine columnParts?_of_mem (List.mem_cons_self) ?_ (by rw [ho]; decide)
    rw [isName, isIdentifier, ho]
    rfl
  have hcast : o.isWord "CAST" = false := by
    rw [isWord, ho]
    rfl
  have hgroup := parenthesized?_eq ho hc h hfirst
  obtain ⟨t, ts, rfl⟩ := List.exists_cons_of_ne_nil hne
  rw [List.cons_append] at hcolumn hgroup ⊢
  rw [ofTokens_eq (o :: t :: (ts ++ [c])), hcolumn, literalType?_of_first (by rw [ho]; decide),
    castParts?_of_first hcast, aggregateParts?_of_first hword, hgroup]
  rfl

/-- A cast is read as a cast of what stands before its last `AS`. -/
theorem ofTokens_cast {k a : Token} {type : List Token} (hk : k.isWord "CAST" = true)
    (ho : o.kind = .leftParen) (hc : c.kind = .rightParen) (h : Balanced xs)
    (ha : a.isWord "AS" = true) (htype : Outside (fun t => t.isWord "AS" = false) type) :
    ofTokens (k :: o :: (xs ++ a :: (type ++ [c]))) =
      .cast (ofTokens xs) (spaced (type.map (·.text))) := by
  have hkind : k.kind ≠ .operator := by
    rcases @kind_of_isAnyWord k ["CAST"] (isAnyWord_of_isWord hk) with h | h <;> rw [h] <;> decide
  rw [ofTokens_eq, columnParts?_of_second (by rw [ho]; decide), literalType?_of_first hkind,
    castParts?_eq hk ho hc h ha htype]
  rfl

/-- A word with a group behind it is read as a function that the word names, if any. -/
theorem ofTokens_call {f : Token} {behind : List Token} (hf : f.kind ≠ .operator)
    (hgroup : f.kind ≠ .leftParen) (hcast : f.isWord "CAST" = false) (ho : o.kind = .leftParen)
    (hc : c.kind = .rightParen) (h : Balanced xs)
    (hbehind : (behind.head?.all fun t => t.isAnyWord ["FILTER", "OVER"]) = true) :
    ofTokens (f :: o :: (xs ++ c :: behind)) =
      ((Aggregate.ofWord? f.text).map fun function => aggregate function f.position
        ((commaPieces (xs.dropWhile fun t => t.isAnyWord ["DISTINCT", "ALL"])).map
          ofTokens)).getD .other := by
  rw [ofTokens_eq, columnParts?_of_second (by rw [ho]; decide), literalType?_of_first hf,
    castParts?_of_first hcast, aggregateParts?_of_clause ho hc h hbehind,
    parenthesized?_of_first hgroup]
  cases Aggregate.ofWord? f.text <;> rfl

end

end TypedSql.Expr

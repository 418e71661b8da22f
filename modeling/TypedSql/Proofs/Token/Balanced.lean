import TypedSql.Proofs.Token.Depths
import TypedSql.Token.Nesting

/-!
# Balanced lists of tokens

In a balanced list every parenthesis is closed, and none is closed that was not opened in it.  A
search for a parenthesis passes over such a list, the depth behind it is the depth before it, and
what stands outside its groups can be told from what stands in them.

Main definitions: `Balanced`, `Outside`.  Main statements: `Balanced.closing?_append`,
`Balanced.opening?_append`, `Balanced.group?`, `Balanced.withDepthsFrom_append`,
`Outside.of_depth`, `Outside.commaPieces_append`.
-/

namespace TypedSql.Token

/-- Every parenthesis of the list is closed in the list, and every closed one was opened there. -/
inductive Balanced : List Token → Prop
  | nil : Balanced []
  | token {t : Token} (hopen : t.kind ≠ .leftParen) (hclose : t.kind ≠ .rightParen) : Balanced [t]
  | append {xs ys : List Token} (hx : Balanced xs) (hy : Balanced ys) : Balanced (xs ++ ys)
  | group {openParen closeParen : Token} {xs : List Token} (hopen : openParen.kind = .leftParen)
      (hclose : closeParen.kind = .rightParen) (hx : Balanced xs) :
      Balanced (openParen :: (xs ++ [closeParen]))

/-- The list is balanced, and every token outside its groups, parentheses included, is one that
`p` holds of. -/
inductive Outside (p : Token → Prop) : List Token → Prop
  | nil : Outside p []
  | token {t : Token} (ht : p t) (hopen : t.kind ≠ .leftParen) (hclose : t.kind ≠ .rightParen) :
      Outside p [t]
  | append {xs ys : List Token} (hx : Outside p xs) (hy : Outside p ys) : Outside p (xs ++ ys)
  | group {openParen closeParen : Token} {xs : List Token} (hopen : openParen.kind = .leftParen)
      (hclose : closeParen.kind = .rightParen) (hpopen : p openParen) (hpclose : p closeParen)
      (hx : Balanced xs) : Outside p (openParen :: (xs ++ [closeParen]))

theorem Outside.balanced {p : Token → Prop} {xs : List Token} (h : Outside p xs) :
    Balanced xs := by
  induction h with
  | nil => exact .nil
  | token _ hopen hclose => exact .token hopen hclose
  | append _ _ hx hy => exact .append hx hy
  | group hopen hclose _ _ hx => exact .group hopen hclose hx

/-- Every token of a balanced list stands outside its groups or in one of them. -/
theorem Balanced.outside {p : Token → Prop} {xs : List Token} (h : Balanced xs)
    (hp : ∀ t ∈ xs, p t) : Outside p xs := by
  induction h with
  | nil => exact .nil
  | token hopen hclose => exact .token (hp _ List.mem_cons_self) hopen hclose
  | append _ _ hx hy =>
      exact .append (hx fun t ht => hp t (List.mem_append_left _ ht))
        (hy fun t ht => hp t (List.mem_append_right _ ht))
  | group hopen hclose hx _ =>
      exact .group hopen hclose (hp _ (by simp)) (hp _ (by simp)) hx

theorem Outside.imp {p q : Token → Prop} {xs : List Token} (h : Outside p xs)
    (hpq : ∀ t, p t → q t) : Outside q xs := by
  induction h with
  | nil => exact .nil
  | token ht hopen hclose => exact .token (hpq _ ht) hopen hclose
  | append _ _ hx hy => exact .append hx hy
  | group hopen hclose hpopen hpclose hx =>
      exact .group hopen hclose (hpq _ hpopen) (hpq _ hpclose) hx

theorem Outside.cons {p : Token → Prop} {t : Token} {xs : List Token} (ht : p t)
    (hopen : t.kind ≠ .leftParen) (hclose : t.kind ≠ .rightParen) (h : Outside p xs) :
    Outside p (t :: xs) :=
  @Outside.append p [t] xs (.token ht hopen hclose) h

/-- Without parentheses every token stands outside of them. -/
theorem Outside.of_forall {p : Token → Prop} {xs : List Token}
    (h : ∀ t ∈ xs, p t ∧ t.kind ≠ .leftParen ∧ t.kind ≠ .rightParen) : Outside p xs := by
  induction xs with
  | nil => exact .nil
  | cons t xs ih =>
      obtain ⟨ht, hopen, hclose⟩ := h t List.mem_cons_self
      exact .cons ht hopen hclose (ih fun u hu => h u (List.mem_cons_of_mem _ hu))

/-! ## Closing parentheses -/

section Closing

variable {t : Token} {inner i : Nat} {rest : List Token}

theorem closing?_open (h : t.kind = .leftParen) :
    closing? inner i (t :: rest) = closing? (inner + 1) (i + 1) rest := by
  rw [closing?, h]

theorem closing?_close (h : t.kind = .rightParen) :
    closing? (inner + 1) i (t :: rest) = closing? inner (i + 1) rest := by
  rw [closing?, h]
  rfl

theorem closing?_last (h : t.kind = .rightParen) : closing? 0 i (t :: rest) = some i := by
  rw [closing?, h]
  rfl

theorem closing?_other (hopen : t.kind ≠ .leftParen) (hclose : t.kind ≠ .rightParen) :
    closing? inner i (t :: rest) = closing? inner (i + 1) rest := by
  rw [closing?]
  split
  · next h => exact absurd h hopen
  · next h => exact absurd h hclose
  · rfl

end Closing

/-- The search for the closing parenthesis passes over a balanced list. -/
theorem Balanced.closing?_append {xs : List Token} (h : Balanced xs) (inner i : Nat)
    (rest : List Token) : closing? inner i (xs ++ rest) = closing? inner (i + xs.length) rest := by
  induction h generalizing inner i rest with
  | nil => rfl
  | token hopen hclose => exact closing?_other hopen hclose
  | append _ _ hx hy =>
      rw [List.append_assoc, hx, hy, List.length_append, Nat.add_assoc]
  | @group openParen closeParen xs hopen hclose _ hx =>
      rw [List.cons_append, closing?_open hopen, List.append_assoc, hx, List.singleton_append,
        closing?_close hclose]
      congr 1
      simp only [List.length_cons, List.length_append, List.length_nil]
      omega

/-- The parenthesis that closes a group stands right behind what is in the group. -/
theorem Balanced.matchingParen? {openParen closeParen : Token} {xs : List Token}
    (hopen : openParen.kind = .leftParen) (hclose : closeParen.kind = .rightParen)
    (h : Balanced xs) (rest : List Token) :
    Token.matchingParen? (openParen :: (xs ++ closeParen :: rest)) 0 = some (xs.length + 1) := by
  show (if openParen.kind = .leftParen then closing? 0 (0 + 1) (xs ++ closeParen :: rest)
    else none) = some (xs.length + 1)
  rw [if_pos hopen, h.closing?_append, closing?_last hclose]
  congr 1
  omega

/-- The group that a list begins with is what its parentheses enclose. -/
theorem Balanced.group? {openParen closeParen : Token} {xs : List Token}
    (hopen : openParen.kind = .leftParen) (hclose : closeParen.kind = .rightParen)
    (h : Balanced xs) (rest : List Token) :
    Token.group? (openParen :: (xs ++ closeParen :: rest)) = some ⟨xs, rest⟩ := by
  have hinner : ((openParen :: (xs ++ closeParen :: rest)).take (xs.length + 1)).drop 1 = xs := by
    rw [List.take_succ_cons, List.drop_succ_cons, List.drop_zero, List.take_left]
  have hrest : (openParen :: (xs ++ closeParen :: rest)).drop (xs.length + 1 + 1) = rest := by
    rw [List.drop_succ_cons, List.drop_length_add_append]
    rfl
  rw [Token.group?, h.matchingParen? hopen hclose, Option.map_some, hinner, hrest]

theorem matchingParen?_of_ne {t : Token} {ts : List Token} (h : t.kind ≠ .leftParen) :
    matchingParen? (t :: ts) 0 = none := by
  show (if t.kind = .leftParen then _ else none) = none
  rw [if_neg h]

/-! ## Opening parentheses -/

section Opening

variable {t : Token} {inner : Nat} {rest : List Token}

theorem opening?_close (h : t.kind = .rightParen) :
    opening? inner (t :: rest) = opening? (inner + 1) rest := by
  rw [opening?, h]

theorem opening?_open (h : t.kind = .leftParen) :
    opening? (inner + 1) (t :: rest) = opening? inner rest := by
  rw [opening?, h]
  rfl

theorem opening?_last (h : t.kind = .leftParen) : opening? 0 (t :: rest) = some rest.length := by
  rw [opening?, h]
  rfl

theorem opening?_other (hopen : t.kind ≠ .leftParen) (hclose : t.kind ≠ .rightParen) :
    opening? inner (t :: rest) = opening? inner rest := by
  rw [opening?]
  split
  · next h => exact absurd h hclose
  · next h => exact absurd h hopen
  · rfl

end Opening

/-- The search for the opening parenthesis passes over a balanced list. -/
theorem Balanced.opening?_append {xs : List Token} (h : Balanced xs) (inner : Nat)
    (before : List Token) : opening? inner (xs.reverse ++ before) = opening? inner before := by
  induction h generalizing inner before with
  | nil => rfl
  | token hopen hclose => exact opening?_other hopen hclose
  | append _ _ hx hy => rw [List.reverse_append, List.append_assoc, hy, hx]
  | group hopen hclose _ hx =>
      rw [List.reverse_cons, List.reverse_append, List.reverse_singleton, List.singleton_append,
        List.append_assoc, List.cons_append, opening?_close hclose, hx, List.singleton_append,
        opening?_open hopen]

/-! ## Depths -/

theorem length_placesFrom (i : Nat) (before : Option Token) (xs : List (Nat × Token)) :
    (placesFrom i before xs).length = xs.length := by
  induction xs generalizing i before with
  | nil => rfl
  | cons x xs ih => rw [placesFrom, List.length_cons, List.length_cons, ih]

/-- The depth behind a balanced list is the depth before it. -/
theorem Balanced.depthAfter {xs : List Token} (h : Balanced xs) (d : Nat) :
    depthAfter d xs = d := by
  induction h generalizing d with
  | nil => rfl
  | token hopen hclose => exact depthBehind_of_ne hopen hclose d
  | append _ _ hx hy => rw [depthAfter_append, hx, hy]
  | group hopen hclose _ hx =>
      rw [depthAfter_cons, depthBehind_open hopen, depthAfter_append, hx, depthAfter_cons,
        depthBehind_close hclose]
      rfl

theorem Balanced.withDepthsFrom_append {xs : List Token} (h : Balanced xs) (d : Nat)
    (rest : List Token) :
    withDepthsFrom d (xs ++ rest) = withDepthsFrom d xs ++ withDepthsFrom d rest := by
  rw [Token.withDepthsFrom_append, h.depthAfter]

theorem withDepthsFrom_group {openParen closeParen : Token} {xs : List Token}
    (hopen : openParen.kind = .leftParen) (hclose : closeParen.kind = .rightParen)
    (h : Balanced xs) (d : Nat) (rest : List Token) :
    withDepthsFrom d (openParen :: (xs ++ closeParen :: rest)) =
      (d, openParen) ::
        (withDepthsFrom (d + 1) xs ++ (d, closeParen) :: withDepthsFrom d rest) := by
  rw [withDepthsFrom_open hopen, h.withDepthsFrom_append, withDepthsFrom_close hclose]

theorem Balanced.depth_le {xs : List Token} (h : Balanced xs) {d : Nat} {dt : Nat × Token}
    (hdt : dt ∈ withDepthsFrom d xs) : d ≤ dt.1 := by
  induction h generalizing d with
  | nil => cases hdt
  | token hopen hclose =>
      rw [withDepthsFrom_other hopen hclose] at hdt
      cases List.mem_singleton.mp hdt
      exact Nat.le_refl d
  | append hx _ ihx ihy =>
      rw [hx.withDepthsFrom_append] at hdt
      exact (List.mem_append.mp hdt).elim ihx ihy
  | group hopen hclose hx ih =>
      rw [withDepthsFrom_group hopen hclose hx] at hdt
      rcases List.mem_cons.mp hdt with rfl | hdt
      · exact Nat.le_refl d
      · rcases List.mem_append.mp hdt with hdt | hdt
        · exact Nat.le_of_succ_le (ih hdt)
        · cases List.mem_singleton.mp hdt
          exact Nat.le_refl d

/-- The tokens at the depth of the list itself are those outside its groups. -/
theorem Outside.of_depth {p : Token → Prop} {xs : List Token} (h : Outside p xs) {d : Nat}
    {dt : Nat × Token} (hdt : dt ∈ withDepthsFrom d xs) (hd : dt.1 = d) : p dt.2 := by
  induction h generalizing d with
  | nil => cases hdt
  | token ht hopen hclose =>
      rw [withDepthsFrom_other hopen hclose] at hdt
      cases List.mem_singleton.mp hdt
      exact ht
  | append hx _ ihx ihy =>
      rw [hx.balanced.withDepthsFrom_append] at hdt
      exact (List.mem_append.mp hdt).elim (fun hdt => ihx hdt hd) fun hdt => ihy hdt hd
  | group hopen hclose hpopen hpclose hx =>
      rw [withDepthsFrom_group hopen hclose hx] at hdt
      rcases List.mem_cons.mp hdt with rfl | hdt
      · exact hpopen
      · rcases List.mem_append.mp hdt with hdt | hdt
        · -- Inside the group the depth is greater.
          have := hx.depth_le hdt
          omega
        · cases List.mem_singleton.mp hdt
          exact hpclose

/-- The first token stands outside all groups. -/
theorem Outside.head {p : Token → Prop} {t : Token} {ts : List Token} (h : Outside p (t :: ts)) :
    p t := by
  have hfirst : (0, t) ∈ withDepthsFrom 0 (t :: ts) := by
    rw [withDepthsFrom, depthsFrom]
    split <;> exact List.mem_cons_self
  exact h.of_depth hfirst rfl

/-- A search outside all groups passes over a list without a hit. -/
theorem Outside.findTopLevel?_append {q : Token → Bool} {xs : List Token}
    (h : Outside (fun t => q t = false) xs) (rest : List Token) :
    findTopLevel? (xs ++ rest) q = (findTopLevel? rest q).map (· + xs.length) := by
  show (withDepthsFrom 0 (xs ++ rest)).findIdx? _ = _
  rw [h.balanced.withDepthsFrom_append, List.findIdx?_append]
  have hnone : (withDepthsFrom 0 xs).findIdx? (fun dt => dt.1 == 0 && q dt.2) = none := by
    rw [List.findIdx?_eq_none_iff]
    intro dt hdt
    by_cases hd : dt.1 = 0
    · rw [h.of_depth hdt hd, Bool.and_false]
    · rw [beq_eq_false_iff_ne.mpr hd, Bool.false_and]
  rw [hnone, length_withDepthsFrom]
  rfl

theorem findTopLevel?_first {q : Token → Bool} {t : Token} (hopen : t.kind ≠ .leftParen)
    (hclose : t.kind ≠ .rightParen) (h : q t = true) (ts : List Token) :
    findTopLevel? (t :: ts) q = some 0 := by
  have hfirst : ((0 : Nat) == 0 && q t) = true := by
    rw [h]
    rfl
  show (withDepthsFrom 0 (t :: ts)).findIdx? _ = some 0
  rw [withDepthsFrom_other hopen hclose, List.findIdx?_cons, if_pos hfirst]

/-! ## Commas -/

/-- The token is no comma. -/
def NoComma (t : Token) : Prop := t.kind ≠ .comma

instance (t : Token) : Decidable t.NoComma := inferInstanceAs (Decidable (t.kind ≠ .comma))

theorem noComma_of_kind {t : Token} {kinds : List Kind} (h : t.kind ∈ kinds)
    (hkinds : (kinds.all fun k => k != .comma && k != .leftParen && k != .rightParen) = true) :
    Outside NoComma [t] := by
  have hthis := List.all_eq_true.mp hkinds t.kind h
  simp only [Bool.and_eq_true, bne_iff_ne] at hthis
  exact .token hthis.1.1 hthis.1.2 hthis.2

theorem splitFrom_pass {start i : Nat} {xs rest : List (Nat × Token)}
    (h : ∀ dt ∈ xs, dt.1 = 0 → NoComma dt.2) :
    splitFrom start i (xs ++ rest) = splitFrom start (i + xs.length) rest := by
  induction xs generalizing i with
  | nil => rfl
  | cons dt xs ih =>
      obtain ⟨d, t⟩ := dt
      have hno : ¬ (d = 0 ∧ t.kind = .comma) := fun hd =>
        h (d, t) List.mem_cons_self hd.1 hd.2
      rw [List.cons_append, splitFrom, if_neg hno,
        ih fun dt hdt => h dt (List.mem_cons_of_mem _ hdt), List.length_cons]
      congr 1
      omega

/-- The range `n` tokens further on. -/
def Range.shift (n : Nat) (r : Range) : Range := ⟨r.start + n, r.stop + n⟩

theorem rangeOrNone_shift (n start stop : Nat) :
    rangeOrNone (start + n) (stop + n) = (rangeOrNone start stop).map (Range.shift n) := by
  unfold rangeOrNone
  by_cases h : start < stop
  · rw [if_pos h, if_pos (by omega)]
    rfl
  · rw [if_neg h, if_neg (by omega)]
    rfl

theorem splitFrom_shift (n start i : Nat) (xs : List (Nat × Token)) :
    splitFrom (start + n) (i + n) xs = (splitFrom start i xs).map (Range.shift n) := by
  induction xs generalizing start i with
  | nil => exact rangeOrNone_shift n start i
  | cons dt xs ih =>
      obtain ⟨d, t⟩ := dt
      rw [splitFrom, splitFrom]
      have hi : i + n + 1 = (i + 1) + n := by omega
      split
      · rw [List.map_append, rangeOrNone_shift, hi, ih]
      · rw [hi, ih]

theorem Range.tokens_shift (r : Range) (xs ys : List Token) :
    (r.shift xs.length).tokens (xs ++ ys) = r.tokens ys := by
  show ((xs ++ ys).drop (r.start + xs.length)).take (r.stop + xs.length - (r.start + xs.length)) = _
  rw [Nat.add_comm r.start, List.drop_length_add_append, Nat.add_comm r.stop,
    Nat.add_sub_add_left]
  rfl

theorem Range.tokens_whole (xs ys : List Token) :
    (Range.mk 0 xs.length).tokens (xs ++ ys) = xs := by
  show ((xs ++ ys).drop 0).take (xs.length - 0) = xs
  rw [List.drop_zero, Nat.sub_zero, List.take_left]

theorem Range.tokens_self (xs : List Token) : (Range.mk 0 xs.length).tokens xs = xs :=
  List.take_length

/-- No comma of the list stands at depth 0. -/
def NoTopComma (xs : List Token) : Prop := ∀ dt ∈ withDepthsFrom 0 xs, dt.1 = 0 → NoComma dt.2

theorem Outside.noTopComma {xs : List Token} (h : Outside NoComma xs) : NoTopComma xs :=
  fun _ hdt hd => h.of_depth hdt hd

theorem NoTopComma.splitTopLevelCommas_eq {xs : List Token} (h : NoTopComma xs) :
    splitTopLevelCommas xs = rangeOrNone 0 xs.length := by
  show splitFrom 0 0 (withDepthsFrom 0 xs) = _
  rw [← List.append_nil (withDepthsFrom 0 xs), splitFrom_pass h, length_withDepthsFrom,
    Nat.zero_add, splitFrom]

/-- The first comma at depth 0 ends the first range. -/
theorem NoTopComma.splitTopLevelCommas_append {xs : List Token} (h : NoTopComma xs)
    (hdepth : depthAfter 0 xs = 0) {comma : Token} (hcomma : comma.kind = .comma)
    (ys : List Token) :
    splitTopLevelCommas (xs ++ comma :: ys) =
      rangeOrNone 0 xs.length ++ (splitTopLevelCommas ys).map (Range.shift (xs.length + 1)) := by
  have hother : withDepthsFrom 0 (comma :: ys) = (0, comma) :: withDepthsFrom 0 ys :=
    withDepthsFrom_other (by rw [hcomma]; decide) (by rw [hcomma]; decide)
  have hshift := splitFrom_shift (xs.length + 1) 0 0 (withDepthsFrom 0 ys)
  rw [Nat.zero_add] at hshift
  show splitFrom 0 0 (withDepthsFrom 0 (xs ++ comma :: ys)) = _
  rw [withDepthsFrom_append, hdepth, splitFrom_pass h, length_withDepthsFrom, Nat.zero_add,
    hother, splitFrom, if_pos ⟨rfl, hcomma⟩, hshift]
  rfl

theorem rangeOrNone_of_ne_nil {xs : List Token} (hne : xs ≠ []) :
    rangeOrNone 0 xs.length = [⟨0, xs.length⟩] := if_pos (List.length_pos_iff.mpr hne)

theorem Outside.splitTopLevelCommas_eq {xs : List Token} (h : Outside NoComma xs) (hne : xs ≠ []) :
    splitTopLevelCommas xs = [⟨0, xs.length⟩] := by
  rw [h.noTopComma.splitTopLevelCommas_eq, rangeOrNone_of_ne_nil hne]

theorem Outside.splitTopLevelCommas_append {xs ys : List Token} {comma : Token}
    (h : Outside NoComma xs) (hne : xs ≠ []) (hcomma : comma.kind = .comma) :
    splitTopLevelCommas (xs ++ comma :: ys) =
      ⟨0, xs.length⟩ :: (splitTopLevelCommas ys).map (Range.shift (xs ++ [comma]).length) := by
  rw [h.noTopComma.splitTopLevelCommas_append (h.balanced.depthAfter 0) hcomma,
    rangeOrNone_of_ne_nil hne, List.length_append, List.length_singleton]
  rfl

/-- A list without commas outside its groups is one piece. -/
theorem Outside.commaPieces_eq {xs : List Token} (h : Outside NoComma xs) (hne : xs ≠ []) :
    commaPieces xs = [xs] := by
  rw [commaPieces, h.splitTopLevelCommas_eq hne, List.map_singleton, Range.tokens_self]

/-- The first comma outside all groups ends the first piece. -/
theorem Outside.commaPieces_append {xs ys : List Token} {comma : Token} (h : Outside NoComma xs)
    (hne : xs ≠ []) (hcomma : comma.kind = .comma) :
    commaPieces (xs ++ comma :: ys) = xs :: commaPieces ys := by
  rw [commaPieces, h.splitTopLevelCommas_append hne hcomma, List.map_cons, Range.tokens_whole,
    List.map_map, commaPieces]
  congr 1
  apply List.map_congr_left
  intro r _
  show (r.shift (xs ++ [comma]).length).tokens (xs ++ comma :: ys) = r.tokens ys
  have hcons : xs ++ comma :: ys = (xs ++ [comma]) ++ ys := List.append_cons xs comma ys
  rw [hcons, Range.tokens_shift]

end TypedSql.Token

/-!
# Trivia

What stands between tokens: white space, line comments and block comments.  White space is blank,
tab, carriage return and line feed.  A line comment ends before a line feed, before a carriage
return with a line feed behind it, or with the text; a lone carriage return after `--` makes the
two signs operators.

Main statement: `trivia_length_le`, every run of trivia is part of the text it was found in.
-/

namespace TypedSql.Token

/-- The number of leading characters that satisfy `p`. -/
def countWhile (p : Char → Bool) (cs : List Char) : Nat := (cs.takeWhile p).length

theorem countWhile_le (p : Char → Bool) (cs : List Char) : countWhile p cs ≤ cs.length :=
  (List.takeWhile_sublist p).length_le

/-- White space between tokens. -/
def isSpace (c : Char) : Bool := c == ' ' || c == '\t' || c == '\r' || c == '\n'

/-- A carriage return or a line feed. -/
def isLineEnd (c : Char) : Bool := c == '\r' || c == '\n'

/-- The length of the comment text that ends with the line, or none where a lone carriage return
breaks it off. -/
def lineBody? (cs : List Char) : Option Nat :=
  match cs.dropWhile fun c => !isLineEnd c with
  | '\r' :: '\n' :: _ => some (countWhile (fun c => !isLineEnd c) cs)
  | '\r' :: _ => none
  | _ => some (countWhile (fun c => !isLineEnd c) cs)

/-- The length of the comment text up to the closing `*/`, both signs included. -/
def blockBody? : List Char → Option Nat
  | [] => none
  | [_] => none
  | c :: d :: cs =>
      if c = '*' ∧ d = '/' then some 2 else (blockBody? (d :: cs)).map (· + 1)

/-- The length of the piece of trivia at the beginning of the text. -/
def triviaPiece? (cs : List Char) : Option Nat :=
  if 0 < countWhile isSpace cs then some (countWhile isSpace cs)
  else match cs with
    | '-' :: '-' :: rest => (lineBody? rest).map (· + 2)
    | '/' :: '*' :: rest => (blockBody? rest).map (· + 2)
    | _ => none

theorem lineBody?_le {cs : List Char} {n : Nat} (h : lineBody? cs = some n) : n ≤ cs.length := by
  have := countWhile_le (fun c => !isLineEnd c) cs
  unfold lineBody? at h
  split at h
  · cases h; exact this
  · cases h
  · cases h; exact this

theorem blockBody?_le {cs : List Char} {n : Nat} (h : blockBody? cs = some n) :
    n ≤ cs.length := by
  induction cs generalizing n with
  | nil => simp [blockBody?] at h
  | cons c cs ih =>
      cases cs with
      | nil => simp [blockBody?] at h
      | cons d cs =>
          simp only [blockBody?] at h
          split at h
          · simp at h; simp; omega
          · obtain ⟨m, hm, rfl⟩ := Option.map_eq_some_iff.mp h
            have := ih hm
            simp at this ⊢
            omega

/-- A piece of trivia has at least one character, and no more than the text. -/
theorem triviaPiece?_bounds {cs : List Char} {n : Nat} (h : triviaPiece? cs = some n) :
    0 < n ∧ n ≤ cs.length := by
  have hspace := countWhile_le isSpace cs
  unfold triviaPiece? at h
  split at h
  · simp at h; omega
  · split at h
    · obtain ⟨m, hm, rfl⟩ := Option.map_eq_some_iff.mp h
      have := lineBody?_le hm
      simp
      omega
    · obtain ⟨m, hm, rfl⟩ := Option.map_eq_some_iff.mp h
      have := blockBody?_le hm
      simp
      omega
    · simp at h

/-- The length of all the trivia at the beginning of the text. -/
def triviaLength (cs : List Char) : Nat :=
  match _h : triviaPiece? cs with
  | none => 0
  | some n => n + triviaLength (cs.drop n)
termination_by cs.length
decreasing_by
  have := triviaPiece?_bounds _h
  simp
  omega

theorem trivia_length_le (cs : List Char) : triviaLength cs ≤ cs.length := by
  induction hn : cs.length using Nat.strongRecOn generalizing cs with
  | ind m ih =>
      subst hn
      unfold triviaLength
      split
      · omega
      · next n h =>
          have hb := triviaPiece?_bounds h
          have := ih (cs.drop n).length (by simp; omega) (cs.drop n) rfl
          simp at this
          omega

end TypedSql.Token

import TypedSql.Token.Nesting

/-!
# Depths from token to token

The depth of a token depends on the tokens in front of it only through the number of parentheses
that they leave open, where one that closes nothing counts for nothing.  So the depths of two lists
one behind the other are those of the first list, and those of the second one from there on.

Main definitions: `depthBehind`, `depthAfter`, `withDepthsFrom`.  Main statements:
`depthsFrom_append`, `withDepthsFrom_append`.
-/

namespace TypedSql.Token

/-- The number of open parentheses behind a token. -/
def depthBehind (d : Nat) (t : Token) : Nat :=
  match t.kind with
  | .leftParen => d + 1
  | .rightParen => d - 1
  | _ => d

/-- The number of open parentheses behind a list. -/
def depthAfter (d : Nat) (tokens : List Token) : Nat := tokens.foldl depthBehind d

/-- Every token with its depth, where `depth` parentheses are open at the beginning. -/
def withDepthsFrom (depth : Nat) (tokens : List Token) : List (Nat × Token) :=
  (depthsFrom depth tokens).zip tokens

section

variable {t : Token} {d : Nat} {rest : List Token}

theorem depthBehind_of_ne (hopen : t.kind ≠ .leftParen) (hclose : t.kind ≠ .rightParen)
    (d : Nat) : depthBehind d t = d := by
  unfold depthBehind
  split <;> simp_all

theorem depthBehind_zero (h : t.kind ≠ .leftParen) : depthBehind 0 t = 0 := by
  unfold depthBehind
  split <;> simp_all

theorem depthBehind_open (h : t.kind = .leftParen) (d : Nat) : depthBehind d t = d + 1 := by
  rw [depthBehind, h]

theorem depthBehind_close (h : t.kind = .rightParen) (d : Nat) : depthBehind d t = d - 1 := by
  rw [depthBehind, h]

theorem depthAfter_cons (d : Nat) (t : Token) (rest : List Token) :
    depthAfter d (t :: rest) = depthAfter (depthBehind d t) rest := rfl

theorem depthAfter_append (d : Nat) (xs ys : List Token) :
    depthAfter d (xs ++ ys) = depthAfter (depthAfter d xs) ys := List.foldl_append

/-- A parenthesis that closes something has the depth behind it, any other token the one in front
of it. -/
theorem depthsFrom_cons (d : Nat) (t : Token) (rest : List Token) :
    depthsFrom d (t :: rest) =
      (if t.kind = .rightParen then d - 1 else d) :: depthsFrom (depthBehind d t) rest := by
  unfold depthBehind
  rw [depthsFrom]
  split <;> simp_all

theorem depthsFrom_append (d : Nat) (xs ys : List Token) :
    depthsFrom d (xs ++ ys) = depthsFrom d xs ++ depthsFrom (depthAfter d xs) ys := by
  induction xs generalizing d with
  | nil => rfl
  | cons t xs ih =>
      rw [List.cons_append, depthsFrom_cons, depthsFrom_cons, ih, List.cons_append,
        depthAfter_cons]

theorem withDepthsFrom_append (d : Nat) (xs ys : List Token) :
    withDepthsFrom d (xs ++ ys) =
      withDepthsFrom d xs ++ withDepthsFrom (depthAfter d xs) ys := by
  rw [withDepthsFrom, depthsFrom_append, List.zip_append (length_depthsFrom d xs)]
  rfl

theorem map_fst_withDepthsFrom (d : Nat) (xs : List Token) :
    (withDepthsFrom d xs).map Prod.fst = depthsFrom d xs :=
  List.map_fst_zip (Nat.le_of_eq (length_depthsFrom d xs))

theorem length_withDepthsFrom (d : Nat) (xs : List Token) :
    (withDepthsFrom d xs).length = xs.length := by
  rw [withDepthsFrom, List.length_zip, length_depthsFrom, Nat.min_self]

theorem withDepthsFrom_open (h : t.kind = .leftParen) :
    withDepthsFrom d (t :: rest) = (d, t) :: withDepthsFrom (d + 1) rest := by
  rw [withDepthsFrom, depthsFrom, h]
  rfl

theorem withDepthsFrom_close (h : t.kind = .rightParen) :
    withDepthsFrom (d + 1) (t :: rest) = (d, t) :: withDepthsFrom d rest := by
  rw [withDepthsFrom, depthsFrom, h]
  rfl

theorem withDepthsFrom_other (hopen : t.kind ≠ .leftParen) (hclose : t.kind ≠ .rightParen) :
    withDepthsFrom d (t :: rest) = (d, t) :: withDepthsFrom d rest := by
  rw [withDepthsFrom, depthsFrom]
  split
  · next h => exact absurd h hopen
  · next h => exact absurd h hclose
  · rfl

end

end TypedSql.Token

import TypedSql.Proofs.Token.Moved
import TypedSql.Schema.File

/-!
# The splitter of schemas

The splitter is a machine that reads one token after the other.  Between two tokens it holds the
statement so far, the number of open parentheses and whether it is in the body of a trigger.  Where
none is open and no body goes on, a semicolon ends the statement and the machine begins afresh, so
that tokens in front of the semicolon and behind it are split by themselves.

Main statements: `statements_append`, `infix_of_mem_statements`, `flatten_statements_sublist`.
-/

namespace TypedSql.Schema

open Token

/-- What the splitter holds between two tokens. -/
structure Cutting where
  /-- The statement so far. -/
  current : List Token
  /-- The number of its open parentheses. -/
  depth : Nat
  /-- It is the body of a trigger. -/
  inBody : Bool

namespace Cutting

/-- What the splitter holds before the first token of a statement. -/
def start : Cutting := ⟨[], 0, false⟩

/-- The token ends the statement: a semicolon outside all parentheses, and in the body of a trigger
only behind `END`. -/
def endsAt (k : Cutting) (t : Token) : Bool :=
  t.kind == .semicolon && k.depth == 0 &&
    !(k.inBody && !k.current.getLast?.any (·.isWord "END"))

/-- What the splitter holds behind a token that does not end the statement. -/
def push (k : Cutting) (t : Token) : Cutting where
  current := k.current ++ [t]
  depth :=
    match t.kind with
    | .leftParen => k.depth + 1
    | .rightParen => k.depth - 1
    | _ => k.depth
  inBody := k.inBody || (t.isWord "BEGIN" && isTrigger k.current)

/-- The statements that are over behind the tokens, and what the splitter holds there. -/
def run (k : Cutting) : List Token → List (List Token) × Cutting
  | [] => ([], k)
  | t :: ts =>
      if k.endsAt t then (nonempty k.current ++ (start.run ts).1, (start.run ts).2)
      else (k.push t).run ts

/-- The statements of the tokens behind some place. -/
def rest (k : Cutting) (ts : List Token) : List (List Token) :=
  splitFrom k.current k.depth k.inBody ts

theorem rest_cons (k : Cutting) (t : Token) (ts : List Token) :
    k.rest (t :: ts) =
      if k.endsAt t then nonempty k.current ++ start.rest ts else (k.push t).rest ts := by
  obtain ⟨current, depth, inBody⟩ := k
  unfold rest
  rw [splitFrom]
  -- Parentheses and semicolons are no words, so that only other tokens can begin a body.
  by_cases hleft : t.kind = .leftParen
  · have hbegin : t.isWord "BEGIN" = false := by rw [isWord, hleft]; rfl
    simp [endsAt, push, hleft, hbegin]
  · by_cases hright : t.kind = .rightParen
    · have hbegin : t.isWord "BEGIN" = false := by rw [isWord, hright]; rfl
      simp [endsAt, push, hright, hbegin]
    · have hdepth : (push ⟨current, depth, inBody⟩ t).depth = depth := by
        unfold push
        split
        · next h => exact absurd h hleft
        · next h => exact absurd h hright
        · rfl
      rw [if_neg hleft, if_neg hright]
      by_cases hsemicolon : t.kind = .semicolon
      · have hbegin : t.isWord "BEGIN" = false := by rw [isWord, hsemicolon]; rfl
        by_cases hzero : depth = 0
        · subst hzero
          by_cases hbody : (inBody && !current.getLast?.any (·.isWord "END")) = true
          · simp [endsAt, push, hsemicolon, hbegin, hbody]
          · simp [endsAt, start, hsemicolon, hbegin, hbody]
        · simp [endsAt, push, hsemicolon, hbegin, hzero]
      · have hends : endsAt ⟨current, depth, inBody⟩ t = false := by simp [endsAt, hsemicolon]
        rw [hends, if_neg Bool.false_ne_true, hdepth]
        by_cases hbegin : (t.isWord "BEGIN" && isTrigger current) = true
        · simp [push, hbegin]
        · simp [push, hbegin, hsemicolon]

/-- The statements over two lists one behind the other: those that are over behind the first one,
and those from there on. -/
theorem rest_append (k : Cutting) (ts us : List Token) :
    k.rest (ts ++ us) = (k.run ts).1 ++ (k.run ts).2.rest us := by
  induction ts generalizing k with
  | nil => rfl
  | cons t ts ih =>
      rw [List.cons_append, rest_cons, run]
      split
      · rw [ih, List.append_assoc]
      · exact ih (k.push t)

theorem flatten_nonempty (tokens : List Token) : (nonempty tokens).flatten = tokens := by
  cases tokens with
  | nil => rfl
  | cons t ts => exact List.append_nil _

theorem eq_of_mem_nonempty {tokens statement : List Token} (h : statement ∈ nonempty tokens) :
    statement = tokens := by
  unfold nonempty at h
  split at h
  · cases h
  · exact List.mem_singleton.mp h

/-- A statement is a part of what is held already and of what is to come. -/
theorem infix_of_mem_rest {k : Cutting} {ts statement : List Token} (h : statement ∈ k.rest ts) :
    statement <:+: k.current ++ ts := by
  induction ts generalizing k with
  | nil =>
      rw [eq_of_mem_nonempty h]
      exact (List.prefix_append _ _).isInfix
  | cons t ts ih =>
      rw [rest_cons] at h
      split at h
      · rcases List.mem_append.mp h with h | h
        · rw [eq_of_mem_nonempty h]
          exact (List.prefix_append _ _).isInfix
        · exact (ih h).trans
            ((List.suffix_cons t ts).trans (List.suffix_append _ _)).isInfix
      · have hinfix := ih h
        rwa [push, List.append_assoc, List.singleton_append] at hinfix

/-- The statements are parts that do not overlap. -/
theorem flatten_rest_sublist (k : Cutting) (ts : List Token) :
    (k.rest ts).flatten.Sublist (k.current ++ ts) := by
  induction ts generalizing k with
  | nil =>
      show (nonempty k.current).flatten.Sublist _
      rw [flatten_nonempty, List.append_nil]
  | cons t ts ih =>
      rw [rest_cons]
      split
      · rw [List.flatten_append, flatten_nonempty]
        exact (List.Sublist.refl _).append ((ih start).cons t)
      · have hpart := ih (k.push t)
        rwa [push, List.append_assoc, List.singleton_append] at hpart

/-- What the splitter holds, further on. -/
def moved (bytes lines : Nat) (k : Cutting) : Cutting :=
  { k with current := allMoved bytes lines k.current }

variable {bytes lines : Nat}

theorem isTrigger_moved (ts : List Token) : isTrigger (allMoved bytes lines ts) = isTrigger ts := by
  unfold isTrigger
  rw [← List.map_take, List.any_map]
  cases ts <;> rfl

theorem endsAt_moved (k : Cutting) (t : Token) :
    (k.moved bytes lines).endsAt (t.moved bytes lines) = k.endsAt t := by
  unfold endsAt Cutting.moved
  simp only [kind_moved, allMoved, List.getLast?_map]
  cases k.current.getLast? <;> rfl

theorem push_moved (k : Cutting) (t : Token) :
    (k.moved bytes lines).push (t.moved bytes lines) = (k.push t).moved bytes lines := by
  unfold push Cutting.moved
  simp only [isTrigger_moved, isWord_moved, kind_moved]
  simp [allMoved]

theorem nonempty_moved (ts : List Token) :
    nonempty (allMoved bytes lines ts) = (nonempty ts).map (allMoved bytes lines) := by
  cases ts <;> rfl

theorem rest_moved (k : Cutting) (ts : List Token) :
    (k.moved bytes lines).rest (allMoved bytes lines ts) =
      (k.rest ts).map (allMoved bytes lines) := by
  induction ts generalizing k with
  | nil => exact nonempty_moved k.current
  | cons t ts ih =>
      show (k.moved bytes lines).rest (t.moved bytes lines :: allMoved bytes lines ts) = _
      rw [rest_cons, rest_cons, endsAt_moved, push_moved]
      split
      · rw [List.map_append, ← ih start]
        exact congrArg (· ++ _) (nonempty_moved k.current)
      · exact ih (k.push t)

end Cutting

/-- Behind the tokens no parenthesis of a statement is open, and no body of a trigger goes on. -/
def EndsWhole (ts : List Token) : Prop :=
  (Cutting.start.run ts).2.depth = 0 ∧ (Cutting.start.run ts).2.inBody = false

instance (ts : List Token) : Decidable (EndsWhole ts) :=
  inferInstanceAs (Decidable (_ ∧ _))

/-- Behind whole statements, a semicolon parts the statements in front of it from those behind
it. -/
theorem statements_append {ts us : List Token} {t : Token} (hwhole : EndsWhole ts)
    (ht : t.kind = .semicolon) : statements (ts ++ t :: us) = statements ts ++ statements us := by
  obtain ⟨hdepth, hbody⟩ := hwhole
  have hends : (Cutting.start.run ts).2.endsAt t = true := by
    simp [Cutting.endsAt, ht, hdepth, hbody]
  have hfirst : statements ts =
      (Cutting.start.run ts).1 ++ nonempty (Cutting.start.run ts).2.current := by
    have happend := Cutting.rest_append .start ts []
    rwa [List.append_nil] at happend
  calc
    statements (ts ++ t :: us) =
        (Cutting.start.run ts).1 ++ (Cutting.start.run ts).2.rest (t :: us) :=
      Cutting.rest_append .start ts (t :: us)
    _ = (Cutting.start.run ts).1 ++
          (nonempty (Cutting.start.run ts).2.current ++ statements us) := by
      rw [Cutting.rest_cons, if_pos hends]
      rfl
    _ = statements ts ++ statements us := by rw [hfirst, List.append_assoc]

/-- Moved tokens have the moved statements. -/
theorem statements_moved (bytes lines : Nat) (ts : List Token) :
    statements (allMoved bytes lines ts) = (statements ts).map (allMoved bytes lines) :=
  Cutting.rest_moved .start ts

/-- A statement is a part of the schema. -/
theorem infix_of_mem_statements {ts statement : List Token} (h : statement ∈ statements ts) :
    statement <:+: ts := Cutting.infix_of_mem_rest (k := .start) h

/-- The tokens of a statement are tokens of the schema. -/
theorem subset_of_mem_statements {ts statement : List Token} (h : statement ∈ statements ts) :
    statement ⊆ ts := (infix_of_mem_statements h).subset

/-- No token of the schema belongs to two statements. -/
theorem flatten_statements_sublist (ts : List Token) : (statements ts).flatten.Sublist ts :=
  Cutting.flatten_rest_sublist .start ts

end TypedSql.Schema

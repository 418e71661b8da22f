import Mathlib.Logic.Function.Iterate
import TypedSql.Proofs.Likeness.Basic
import TypedSql.Proofs.Token.Groups
import TypedSql.Schema.TableBody
import TypedSql.Token.Reader

/-!
# The turns of the reader of column constraints

Behind the type of a column the reader goes over the tokens in a loop: a cursor stands before the
tokens that are left, and every turn reads a constraint, or passes a token or a group.  At a
parenthesis that is never closed a turn leaves the cursor where it is, so that the loop does not
end.  In the body of a table this cannot happen.  The body is the inside of a group; in a piece of
it all parentheses are closed, and they stay closed wherever the cursor stands.

Main definitions: `Reading`, `turn`, `firstReading`.  Main statement: `readColumn_terminates`.
-/

namespace TypedSql.Schema

open Token

/-- What the loop holds between two turns. -/
structure Reading where
  /-- The column with what was read so far. -/
  column : Column
  /-- The tokens from the cursor on. -/
  left : List Token
deriving DecidableEq, Repr

/-- One turn of the loop.  Where a parenthesis is never closed, the cursor stays in front of it. -/
def turn (sql : String) (r : Reading) : Reading :=
  match r.left with
  | [] => r
  | t :: ts =>
      if t.isWord "NOT" && startsWith "NULL" ts then ⟨r.column.withNotNull, ts.drop 1⟩
      else if t.isWord "PRIMARY" && startsWith "KEY" ts then ⟨r.column.withPrimaryKey, ts.drop 1⟩
      else if t.isWord "DEFAULT" then
        ⟨{ r.column with defaultText := (defaultValue sql ts).1 }, (defaultValue sql ts).2⟩
      else if t.kind = .leftParen then
        match group? (t :: ts) with
        | some g => ⟨r.column, g.rest⟩
        | none => r
      else ⟨r.column, ts⟩

/-- The loop before its first turn: the column that a definition names, and the tokens behind its
type, which ends at the first constraint word, in parentheses too. -/
def firstReading (sql : String) (name : Token) (rest : List Token) : Reading where
  column := .plain name.value
    (sourceText sql (rest.takeWhile fun t => !t.isAnyWord constraintWords))
  left := rest.dropWhile fun t => !t.isAnyWord constraintWords

variable {sql : String} {r : Reading}

theorem rest_suffix_of_group? {t : Token} {ts : List Token} {g : Group}
    (h : group? (t :: ts) = some g) : g.rest <:+ ts := by
  obtain ⟨close, -, rfl⟩ := Option.map_eq_some_iff.mp h
  exact List.drop_suffix close ts

/-- The value behind `DEFAULT` is read from the front of the tokens. -/
theorem defaultValue_suffix (sql : String) (tokens : List Token) :
    (defaultValue sql tokens).2 <:+ tokens := by
  unfold defaultValue
  split
  · exact List.suffix_refl _
  · next t ts =>
      have htail : ts <:+ t :: ts := List.suffix_cons t ts
      split
      · split
        · next hg => exact (rest_suffix_of_group? hg).trans htail
        · exact List.suffix_refl _
      · split
        · split
          · exact List.nil_suffix
          · next u us => exact (List.suffix_cons u us).trans htail
        · exact htail

/-- A turn reads the token at the cursor and maybe some behind it, and leaves the others to the
turns that follow; or the token is a parenthesis that is never closed, and nothing changes. -/
theorem turn_cases (sql : String) (column : Column) (t : Token) (ts : List Token) :
    (∃ next, turn sql ⟨column, t :: ts⟩ = next ∧ next.left <:+ ts ∧
      readConstraints sql column (t :: ts) = readConstraints sql next.column next.left) ∨
    (t.kind = .leftParen ∧ group? (t :: ts) = none ∧
      turn sql ⟨column, t :: ts⟩ = ⟨column, t :: ts⟩) := by
  unfold turn
  dsimp only
  by_cases hnot : (t.isWord "NOT" && startsWith "NULL" ts) = true
  · rw [readConstraints, if_pos hnot, if_pos hnot]
    exact .inl ⟨_, rfl, List.drop_suffix 1 ts, rfl⟩
  rw [readConstraints, if_neg hnot, if_neg hnot]
  by_cases hkey : (t.isWord "PRIMARY" && startsWith "KEY" ts) = true
  · rw [if_pos hkey, if_pos hkey]
    exact .inl ⟨_, rfl, List.drop_suffix 1 ts, rfl⟩
  rw [if_neg hkey, if_neg hkey]
  by_cases hdefault : t.isWord "DEFAULT" = true
  · rw [if_pos hdefault, if_pos hdefault]
    exact .inl ⟨_, rfl, defaultValue_suffix sql ts, rfl⟩
  rw [if_neg hdefault, if_neg hdefault]
  by_cases hopen : t.kind = .leftParen
  · rw [if_pos hopen, if_pos hopen]
    cases hg : group? (t :: ts) with
    | none => exact .inr ⟨hopen, rfl, rfl⟩
    | some g => exact .inl ⟨_, rfl, rest_suffix_of_group? hg, rfl⟩
  · rw [if_neg hopen, if_neg hopen]
    exact .inl ⟨_, rfl, List.suffix_refl ts, rfl⟩

/-- A turn changes nothing in what is read in the end. -/
theorem readConstraints_turn (sql : String) (r : Reading) :
    readConstraints sql (turn sql r).column (turn sql r).left =
      readConstraints sql r.column r.left := by
  obtain ⟨column, left⟩ := r
  cases left with
  | nil => rfl
  | cons t ts =>
      rcases turn_cases sql column t ts with ⟨next, hturn, -, hread⟩ | ⟨-, -, hturn⟩
      · rw [hturn, hread]
      · rw [hturn]

/-- A turn never moves the cursor back. -/
theorem turn_suffix (sql : String) (r : Reading) : (turn sql r).left <:+ r.left := by
  obtain ⟨column, left⟩ := r
  cases left with
  | nil => exact List.suffix_refl _
  | cons t ts =>
      rcases turn_cases sql column t ts with ⟨next, hturn, hsuffix, -⟩ | ⟨-, -, hturn⟩
      · rw [hturn]
        exact hsuffix.trans (List.suffix_cons t ts)
      · exact ⟨[], congrArg Reading.left hturn⟩

/-- A turn moves the cursor forwards, unless it stands before a parenthesis that is never
closed. -/
theorem length_turn_lt (h : ClosesAll r.left) (hleft : r.left ≠ []) :
    (turn sql r).left.length < r.left.length := by
  obtain ⟨column, left⟩ := r
  cases left with
  | nil => exact absurd rfl hleft
  | cons t ts =>
      rcases turn_cases sql column t ts with ⟨next, hturn, hsuffix, -⟩ | ⟨hopen, hnone, -⟩
      · rw [hturn]
        exact Nat.lt_succ_of_le hsuffix.length_le
      · obtain ⟨g, hg⟩ := h [] t ts rfl hopen
        cases hnone.symm.trans hg

/-! ## All turns -/

theorem iterate_turn_suffix (sql : String) (r : Reading) (n : Nat) :
    ((turn sql)^[n] r).left <:+ r.left := by
  induction n with
  | zero => exact List.suffix_refl _
  | succ n ih =>
      rw [Function.iterate_succ_apply']
      exact (turn_suffix sql _).trans ih

theorem readConstraints_iterate_turn (sql : String) (r : Reading) (n : Nat) :
    readConstraints sql ((turn sql)^[n] r).column ((turn sql)^[n] r).left =
      readConstraints sql r.column r.left := by
  induction n with
  | zero => rfl
  | succ n ih => rw [Function.iterate_succ_apply', readConstraints_turn, ih]

/-- Where every parenthesis is closed, every turn passes a token, so that none is left in the
end. -/
theorem left_iterate_turn (h : ClosesAll r.left) {n : Nat} (hn : r.left.length ≤ n) :
    ((turn sql)^[n] r).left = [] := by
  induction n generalizing r with
  | zero => exact List.eq_nil_of_length_eq_zero (Nat.le_zero.mp hn)
  | succ n ih =>
      rw [Function.iterate_succ_apply]
      refine ih (h.of_suffix (turn_suffix sql r)) ?_
      by_cases hleft : r.left = []
      · have hturn := (turn_suffix sql r).length_le
        rw [hleft, List.length_nil] at hturn
        omega
      · have hturn : (turn sql r).left.length < r.left.length := length_turn_lt h hleft
        omega

/-- The reader of columns comes to an end in the body of a table.  Whatever piece of the body it
reads, before each of its turns every parenthesis that is left is closed among the tokens that are
left, and the turn moves the cursor forwards; after as many turns as the piece has tokens nothing
is left, and the column is the one that the loop holds then. -/
theorem readColumn_terminates {tokens : List Token} {g : Group} (hgroup : group? tokens = some g)
    {name : Token} {rest : List Token} (hpiece : name :: rest ∈ commaPieces g.inner)
    (source : Source) :
    (∀ n, ClosesAll ((turn source.sql)^[n] (firstReading source.sql name rest)).left ∧
      (((turn source.sql)^[n] (firstReading source.sql name rest)).left ≠ [] →
        ((turn source.sql)^[n + 1] (firstReading source.sql name rest)).left.length <
          ((turn source.sql)^[n] (firstReading source.sql name rest)).left.length)) ∧
    ((turn source.sql)^[rest.length] (firstReading source.sql name rest)).left = [] ∧
    (canName name = true → readColumn source (name :: rest) =
      .ok ((turn source.sql)^[rest.length] (firstReading source.sql name rest)).column) := by
  let first := firstReading source.sql name rest
  have hsuffix : first.left <:+ rest := List.dropWhile_suffix _
  have hpieces : ClosesAll (name :: rest) :=
    (balanced_of_mem_commaPieces (balanced_inner_of_group? hgroup) hpiece).closesAll
  have hfirst : ClosesAll first.left :=
    hpieces.of_suffix (hsuffix.trans (List.suffix_cons name rest))
  have hleft : ((turn source.sql)^[rest.length] first).left = [] :=
    left_iterate_turn hfirst hsuffix.length_le
  refine ⟨fun n => ?_, hleft, fun hname => ?_⟩
  · have hcloses : ClosesAll ((turn source.sql)^[n] first).left :=
      hfirst.of_suffix (iterate_turn_suffix source.sql first n)
    refine ⟨hcloses, fun hne => ?_⟩
    rw [Function.iterate_succ_apply']
    exact length_turn_lt hcloses hne
  · have hread := readConstraints_iterate_turn source.sql first rest.length
    rw [hleft, readConstraints.eq_1] at hread
    rw [readColumn]
    simp only [hname, if_true]
    exact congrArg Except.ok hread.symm

/-- A table body with a constraint word in a type, and a signed group for a default. -/
def nestedWord : String := "(a T(1, CHECK (2)) DEFAULT -(3) NOT NULL, b INTEGER)"

/-- The type ends in its parentheses and the value behind `DEFAULT` with a parenthesis, so that the
loop begins and goes on in the middle of a group. -/
theorem readColumn_terminates_of_nestedWord :
    let source : Source := ⟨"s.sql", nestedWord⟩
    let tokens := tokensOf nestedWord .first
    let inner := (tokens.drop 1).dropLast
    let name : Token := ⟨.identifier, "a", ⟨1, 2⟩, ⟨1, 2⟩⟩
    let rest := (inner.drop 1).take 16
    group? tokens = some ⟨inner, []⟩ ∧ name :: rest ∈ commaPieces inner ∧
      ((turn source.sql)^[16] (firstReading source.sql name rest)).left = [] ∧
      readColumn source (name :: rest) = .ok ⟨"a", "T(1,", true, false, some "-("⟩ := by
  intro source tokens inner name rest
  have hgroup : group? tokens = some ⟨inner, []⟩ := by decide +kernel
  have hpiece : name :: rest ∈ commaPieces inner := by decide +kernel
  have hlength : rest.length = 16 := by decide +kernel
  obtain ⟨-, hleft, hread⟩ := readColumn_terminates hgroup hpiece source
  rw [hlength] at hleft hread
  refine ⟨hgroup, hpiece, hleft, ?_⟩
  rw [hread (by decide +kernel)]
  exact congrArg Except.ok (by decide +kernel)

end TypedSql.Schema

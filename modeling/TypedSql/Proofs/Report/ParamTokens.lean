import TypedSql.Proofs.Report.Located
import TypedSql.Proofs.Report.Layout

/-!
# Parameters and their tokens

A statement is read twice, once for its parameters and once for its analysis, and the two readings
meet only in positions.  As the positions of tokens increase, a parameter finds the one token that
it was read from and no neighbour of it, and every parameter has its result, in order.

Main definitions: `Param.FoundAt`, `Param.AnsweredBy`, `Analyzer.hints`, `Analyzer.baseNames`.  Main
statements: `exists_foundAt`, `answered_finishParams`, `Analyzer.params_of_block`.
-/

namespace TypedSql

open Diagnostic Query Text Token

namespace Query.Param

/-- The parameter was read from the token `t`, behind `before` and in front of `after`, and from its
position it is found there: no other token stands at the position. -/
structure FoundAt (p : Param) (tokens before : List Token) (t : Token) (after : List Token) :
    Prop where
  split : tokens = before ++ t :: after
  /-- The token is a parameter token that writes the parameter, or the first one of its macro. -/
  written : p.WrittenAt (t :: after)
  position : t.position = p.position
  alone : ∀ u ∈ before ++ after, u.position ≠ p.position
  index : paramIndex? tokens p = some before.length

/-- The result is that of the parameter: bound in the same way, and as long as the list that its
token stands in. -/
structure AnsweredBy (tokens : List Token) (p : Param) (r : ResultParam) : Prop where
  binding : r.binding = p.binding
  variadic : r.variadic = p.variadic
  elements : r.elements = (paramIndex? tokens p).bind fun i => Neighbor.inListLength? tokens i

end Query.Param

/-! ## Tokens at the position of a parameter -/

section Position

variable {tokens before after : List Token} {t : Token}

/-- Where positions increase, no two tokens share one. -/
theorem position_ne_of_increase
    (h : (before ++ t :: after).Pairwise fun t u => t.position.Before u.position) :
    ∀ u ∈ before ++ after, u.position ≠ t.position := by
  obtain ⟨-, hafter, hbefore⟩ := List.pairwise_append.mp h
  intro u hu
  rcases List.mem_append.mp hu with hu | hu
  · exact (hbefore u hu t List.mem_cons_self).ne
  · exact ((List.pairwise_cons.mp hafter).1 u hu).ne.symm

/-- A place in the tokens at which a parameter is written is the one that its position leads to. -/
theorem Query.Param.WrittenAt.foundAt {p : Param} (h : p.WrittenAt (t :: after))
    (hpositions : (before ++ t :: after).Pairwise fun t u => t.position.Before u.position) :
    p.FoundAt (before ++ t :: after) before t after := by
  have halone := position_ne_of_increase hpositions
  rw [← h.position] at halone
  refine ⟨rfl, h, h.position.symm, halone, ?_⟩
  have hbefore : before.findIdx? (fun u => u.position == p.position) = none := by
    rw [List.findIdx?_eq_none_iff]
    exact fun u hu => beq_eq_false_iff_ne.mpr (halone u (List.mem_append_left _ hu))
  have hthis : (t.position == p.position) = true := beq_iff_eq.mpr h.position.symm
  rw [paramIndex?, List.findIdx?_append, hbefore, List.findIdx?_cons, hthis]
  simp

/-- Every parameter of a statement is found at the token that it was read from. -/
theorem exists_foundAt (hpositions : tokens.Pairwise fun t u => t.position.Before u.position)
    {p : Param} (hp : p ∈ readParams tokens) :
    ∃ before t after, p.FoundAt tokens before t after := by
  have hplace := (firstPlaces_readParams hpositions).mem p hp
  obtain ⟨before, t, after, rfl, hwritten⟩ := mem_paramPlaces hplace
  exact ⟨before, t, after, hwritten.foundAt hpositions⟩

end Position

/-! ## Names and hints -/

/-- The names of parameters with these base names, where those in `used` came before. -/
def numberedNames (used : List String) : List String → List String
  | [] => []
  | base :: rest => numberedName used base :: numberedNames (lowerCase base :: used) rest

/-- The base names of parameters with their hints, where the first one is number `number`. -/
def baseNamesFrom (number : Nat) : List (Param × Option Hint) → List String
  | [] => []
  | (p, hint) :: rest => baseName p hint number :: baseNamesFrom (number + 1) rest

theorem names_finishFrom (annotations : List TypeHint) (tokens : List Token) (number : Nat)
    (used : List String) (params : List (Param × Option Hint)) :
    (finishFrom annotations tokens number used params).value.map (·.name) =
      numberedNames used (baseNamesFrom number params) := by
  induction params generalizing number used with
  | nil => rfl
  | cons param rest ih =>
      obtain ⟨p, hint⟩ := param
      exact congrArg _ (ih (number + 1) (lowerCase (baseName p hint number) :: used))

namespace Analyzer

/-- The hints of the parameters of a block with these tokens; there are none without a catalog. -/
def hints (a : Analyzer) (b : Block) (tokens : List Token) : List (Option Hint) :=
  match a.catalog with
  | some catalog =>
      let tables := Scope.ofCatalog a.overrides catalog
      let base := (resolveCtes b.query.recursive tables b.query.ctes).value
      paramHints ⟨tokens, Segment.split base tokens, base, catalog⟩ b.query.params
  | none => b.query.params.map fun _ => none

/-- The names that the parameters of a block bring themselves or have from a column. -/
def baseNames (a : Analyzer) (b : Block) : List String :=
  match tokenizeAt b.sql b.position with
  | .error _ => []
  | .ok tokens => baseNamesFrom 1 (b.query.params.zip (a.hints b tokens))

theorem params_resolve (a : Analyzer) (b : Block) (tokens : List Token) :
    (a.resolve b tokens).value.2 = (finishParams b tokens (a.hints b tokens)).value := by
  unfold resolve hints
  cases a.catalog with
  | none => rfl
  | some catalog =>
      show (resolveWith _ _ _ _ _).value.2 = _
      unfold resolveWith
      dsimp only
      split <;> rfl

/-- Where the statement can be read, the results are those of its parameters with their hints. -/
theorem params_analyze (a : Analyzer) {b : Block} {tokens : List Token}
    (h : tokenizeAt b.sql b.position = .ok tokens) :
    (a.analyze b).params = (finishParams b tokens (a.hints b tokens)).value := by
  rw [← params_resolve, analyze, h]

end Analyzer

/-! ## Results -/

theorem answered_finishFrom (annotations : List TypeHint) (tokens : List Token) (number : Nat)
    (used : List String) (params : List (Param × Option Hint)) :
    List.Forall₂ (Param.AnsweredBy tokens) (params.map Prod.fst)
      (finishFrom annotations tokens number used params).value := by
  induction params generalizing number used with
  | nil => exact .nil
  | cons param rest ih => exact .cons ⟨rfl, rfl, rfl⟩ (ih _ _)

/-- Every parameter of a block has its result, whatever is known of it. -/
theorem answered_finishParams {b : Block} {tokens : List Token} {hints : List (Option Hint)}
    (hlength : hints.length = b.query.params.length) :
    List.Forall₂ (Param.AnsweredBy tokens) b.query.params (finishParams b tokens hints).value := by
  have hfirsts : (b.query.params.zip hints).map Prod.fst = b.query.params :=
    List.map_fst_zip (Nat.le_of_eq hlength.symm)
  have hanswered := answered_finishFrom b.paramHints tokens 1 [] (b.query.params.zip hints)
  rwa [hfirsts] at hanswered

namespace Analyzer

theorem length_hints (a : Analyzer) (b : Block) (tokens : List Token) :
    (a.hints b tokens).length = b.query.params.length := by
  unfold hints
  split
  · rw [paramHints, List.length_map]
  · rw [List.length_map]

/-- In a block of a query file whose statement can be read, the positions of the tokens increase,
so that every parameter is found at the one token that it was read from; and with or without a
catalog the analysis gives a result for every parameter, in order. -/
theorem params_of_block (a : Analyzer) {path source : String} {b : Block} {tokens : List Token}
    (hb : b ∈ (File.parse path source).blocks)
    (htokens : tokenizeAt b.sql b.position = .ok tokens) :
    (tokens.Pairwise fun t u => t.position.Before u.position) ∧
      (∀ p ∈ b.query.params, ∃ before t after, p.FoundAt tokens before t after) ∧
      List.Forall₂ (Param.AnsweredBy tokens) b.query.params (a.analyze b).params := by
  have hpositions := (tokenizeAt_eq_ok_iff.mp htokens).positions_increase
  have hquery : b.query = Query.ofTokens b.sql tokens := by
    obtain ⟨s, -, hs⟩ := mem_readSections hb
    obtain ⟨command, first, rest, -, rfl⟩ := block_of_readSection hs
    have hparse : Query.parse s.sql ⟨first.number, 1⟩ = .ok (Query.ofTokens s.sql tokens) :=
      congrArg (Except.map _) htokens
    show (Query.parse s.sql ⟨first.number, 1⟩).toOption.getD .unread = _
    rw [hparse]
    rfl
  have hparams : b.query.params = readParams tokens := by
    rw [hquery]
    rfl
  refine ⟨hpositions, fun p hp => exists_foundAt hpositions (hparams ▸ hp), ?_⟩
  rw [a.params_analyze htokens]
  exact answered_finishParams (a.length_hints b tokens)

/-- A statement with parameters behind a text of two lines, several on a line, one of them a macro
and one that comes again. -/
def crowdedText : String :=
  "SELECT '\n' || :a, ?2 FROM users WHERE name = :A\n  AND id IN (sqlc.slice('ids'), ?)"

/-- The block of a file that holds the statement alone. -/
def crowded : Block :=
  ⟨"Find", .many, "q.sql", ⟨2, 1⟩, crowdedText, none,
    (Query.parse crowdedText ⟨2, 1⟩).toOption.getD .unread, [], []⟩

/-- Its four parameters are found, and each has its result. -/
theorem params_of_crowded :
    let tokens := tokensOf crowded.sql crowded.position
    crowded.query.params.map (fun p => (p.binding, p.position)) =
        [(.named "a", ⟨3, 6⟩), (.numbered 2, ⟨3, 10⟩), (.named "ids", ⟨4, 14⟩),
          (.positional, ⟨4, 33⟩)] ∧
      (∀ p ∈ crowded.query.params, ∃ before t after, p.FoundAt tokens before t after) ∧
      List.Forall₂ (Param.AnsweredBy tokens) crowded.query.params
        (ofUsers.analyze crowded).params := by
  intro tokens
  have hb : crowded ∈ (File.parse "q.sql" ("-- name: Find :many\n" ++ crowdedText)).blocks := by
    decide +kernel
  have htokens : tokenizeAt crowded.sql crowded.position = .ok tokens := by decide +kernel
  exact ⟨by decide +kernel, (ofUsers.params_of_block hb htokens).2⟩

end Analyzer

end TypedSql

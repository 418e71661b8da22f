import TypedSql.Scope.Narrow

/-!
# Segments

The main statement falls into segments, each with a scope of its own.  The arms of a compound
`SELECT` see only the relations that they name; the target of `INSERT … SELECT` is kept apart from
the query; and the `ORDER BY` or `LIMIT` of a compound `SELECT` sees the relations of the first
arm.  Any other statement is one segment.
-/

namespace TypedSql

open Token

/-- A part of the main statement with its scope. -/
structure Segment where
  /-- Where it stands among the tokens of the whole statement. -/
  ranges : List Range
  scope : Scope
  /-- It orders or limits a compound `SELECT`, whose output names it can use. -/
  ordering : Bool
deriving DecidableEq

namespace Segment

/-- The range holds the index. -/
def inRange (index : Nat) (r : Range) : Bool := decide (r.start ≤ index) && decide (index < r.stop)

/-- The segment holds the token at the index. -/
def contains (s : Segment) (index : Nat) : Bool := s.ranges.any (inRange index)

def compoundWords : List String := ["UNION", "INTERSECT", "EXCEPT"]

/-- The place and the list behind it begin with two words, outside all parentheses. -/
def isPhrase (first second : String) (p : Place) (rest : List Place) : Bool :=
  p.isTopWord [first] && nextIsWord second rest

/-- The index of the first place at which `p` holds of the place and the places behind it, or
`stop`.  The list may go on behind the range that is searched; `stop` ends the search. -/
def searchFrom (stop : Nat) (p : Place → List Place → Bool) : List Place → Nat
  | [] => stop
  | q :: rest =>
      if q.index < stop then if p q rest then q.index else searchFrom stop p rest else stop

/-- What follows the query of `INSERT … SELECT` begins here. -/
def endsInsertedQuery (p : Place) (rest : List Place) : Bool :=
  p.isTopWord ["RETURNING"] || isPhrase "ON" "CONFLICT" p rest

/-- What follows the arms of a compound `SELECT` begins here. -/
def beginsOrdering (p : Place) (rest : List Place) : Bool :=
  p.isTopWord ["LIMIT"] || isPhrase "ORDER" "BY" p rest

/-- The arms of a body between compound operators, each of which may have `ALL` behind it.  The
current arm began at `start`, and the body ends at `stop`. -/
def armsFrom (start stop : Nat) : List Place → List Range
  | [] => [⟨start, stop⟩]
  | p :: rest =>
      if p.isTopWord compoundWords then
        if nextIsWord "ALL" rest then
          ⟨start, p.index⟩ :: armsFrom (p.index + 2) stop (rest.drop 1)
        else ⟨start, p.index⟩ :: armsFrom (p.index + 1) stop rest
      else armsFrom start stop rest
termination_by places => places.length

/-- The arms of the body in a range. -/
def arms (places : List Place) (body : Range) : List Range :=
  armsFrom body.start body.stop (body.places places)

/-- The segments of a select body: its arms, and what orders them if there are several. -/
def ofBody (base : Scope) (tokens : List Token) (body : Range) : List Segment :=
  let all := places tokens
  let segment (arm : Range) : Segment := ⟨[arm], base.narrow (arm.tokens tokens), false⟩
  match (arms all body).reverse with
  | [] => []
  | [only] => [segment only]
  | last :: before =>
      let tail := searchFrom last.stop beginsOrdering (all.drop last.start)
      let segments := (before.reverse ++ [Range.mk last.start tail]).map segment
      if tail < last.stop then
        let scope := (segments.head?.map (·.scope)).getD .empty
        segments ++ [⟨[⟨tail, last.stop⟩], scope, true⟩]
      else segments

/-- The index of the query of `INSERT … SELECT`. -/
def insertedQuery? (places : List Place) (start : Nat) : Option Nat :=
  let statement := places.drop start
  if nextIs (fun t => t.isAnyWord ["INSERT", "REPLACE"]) statement then
    (statement.find? fun p => p.isTopWord ["SELECT"]).map (·.index)
  else none

/-- The segments of the main statement.  Output columns belong to the first one. -/
def split (base : Scope) (tokens : List Token) : List Segment :=
  let all := places tokens
  let start := statementStart tokens
  match insertedQuery? all start with
  | none => ofBody base tokens ⟨start, tokens.length⟩
  | some query =>
      let tail := searchFrom tokens.length endsInsertedQuery (all.drop query)
      let target := base.narrow (Range.tokens ⟨start, query⟩ tokens)
      ⟨[⟨start, query⟩, ⟨tail, tokens.length⟩], target, false⟩ ::
        ofBody base tokens ⟨query, tail⟩

end Segment

end TypedSql

import TypedSql.Analysis.Infer
import TypedSql.Query.Basic
import TypedSql.Scope.Narrow

/-!
# Identifiers

Every identifier of a segment that can only be a column is looked up in the scope of the segment.
Names of other things are left out: functions, aliases, types, common table expressions and
relations.  So are subqueries, whose names belong to relations that the scope does not hold.
-/

namespace TypedSql.Identifier

open Diagnostic Query Token Text

/-- The words behind which a name is never a column. -/
def nameIntroducers : List String := ["AS", "COLLATE", "NULLS", "OVER", "WINDOW"]

/-- The names of a row's implicit number, in lower case. -/
def rowNumbers : List String := ["rowid", "oid", "_rowid_"]

/-- The words with a meaning of their own that are no keywords. -/
def contextWords : List String :=
  ["ABORT", "CURRENT", "EXCLUDE", "FAIL", "FOLLOWING", "GROUPS", "INDEXED", "NO", "OTHERS",
   "PRECEDING", "RANGE", "REPLACE", "ROLLBACK", "ROW", "ROWS", "TIES", "UNBOUNDED"]

/-! ## What is left out -/

/-- The range of one index. -/
def single (index : Nat) : Range := ⟨index, index + 1⟩

/-- The ranges that a group is left out of: a subquery, the columns of `USING`, the type of a
cast. -/
def groupRanges (p : Place) (rest : List Place) : List Range :=
  match groupPlaces? (p :: rest) with
  | none => []
  | some (inner, _) =>
      let close := p.index + inner.length + 1
      let isSubquery := nextIs (fun t => t.isAnyWord ["SELECT", "WITH", "VALUES"]) rest
      let whole :=
        if isSubquery || p.before.any (·.isWord "USING") then [Range.mk p.index (close + 1)]
        else []
      let castType :=
        if p.before.any (·.isWord "CAST") then
          match inner.reverse.find? fun q => q.depth == p.depth + 1 && q.token.isWord "AS" with
          | some q => [Range.mk q.index (close + 1)]
          | none => []
        else []
      whole ++ castType

/-- The ranges of the tokens at a place, and behind it, that are no columns. -/
def rangesAt (p : Place) (rest : List Place) : List Range :=
  let introduced :=
    if p.before.any fun t => t.isAnyWord nameIntroducers || t.isOperator "::" then [single p.index]
    else []
  let indexName :=
    if p.token.isWord "INDEXED" && nextIsWord "BY" rest then [single (p.index + 2)] else []
  let ofMacro :=
    if p.token.isWord "sqlc" && nextIsKind .dot rest then [Range.mk p.index (p.index + macroWidth)]
    else []
  let ofGroup := if p.token.kind = .leftParen then groupRanges p rest else []
  introduced ++ indexName ++ ofMacro ++ ofGroup
where
  /-- The number of tokens of a parameter macro. -/
  macroWidth : Nat := 6

/-- The ranges of all places in a list that are no columns. -/
def rangesOf : List Place → List Range
  | [] => []
  | p :: rest => rangesAt p rest ++ rangesOf rest

/-- The ranges of the tokens that are no columns, those of relations and aliases included. -/
def skippedRanges (tokens : List Token) : List Range :=
  (RelationRef.ofTokens tokens).flatMap (fun r => r.tokens.map single) ++ rangesOf (places tokens)

/-- One of the ranges holds the index. -/
def isSkipped (ranges : List Range) (index : Nat) : Bool :=
  ranges.any fun r => decide (r.start ≤ index) && decide (index < r.stop)

/-! ## What is looked up -/

/-- The parts of a dotted name behind the first one; a star can be a part. -/
def dottedParts : List Place → List Token
  | dot :: part :: rest =>
      if dot.token.kind = .dot && (part.token.isName || part.token.kind == .star) then
        part.token :: dottedParts rest
      else []
  | _ => []

/-- Notes that a name is not found.  A column that may belong to an opaque relation is not
noted. -/
def check (s : Scope) (qualifier : Option String) (column : String) (position : Position) :
    Noted Unit :=
  match s.lookup qualifier column with
  | .ok _ => Pure.pure ()
  | .error e => if e.isMistake then .error e.code position e.message else Pure.pure ()

/-- Checks a dotted name that begins with `first`.  A star, and a column of the row that an
insertion would have put, is no column of the scope. -/
def checkDotted (s : Scope) (first : Token) (parts : List Token) : Noted Unit :=
  match (first :: parts).reverse with
  | column :: qualifier :: _ =>
      if column.kind == .star || qualifier.isWord "excluded" then Pure.pure ()
      else check s (some qualifier.value) column.value first.position
  | _ => Pure.pure ()

/-- Checks a name without dots, unless it is one of the `known` names or the row number. -/
def checkBare (s : Scope) (known : List String) (t : Token) : Noted Unit :=
  if known.contains t.normalized || rowNumbers.contains t.normalized then Pure.pure ()
  else check s none t.value t.position

/-- The place can hold a column: an identifier that is not left out, not behind a dot, and no
context word. -/
def isCandidate (skipped : List Range) (p : Place) : Bool :=
  !isSkipped skipped p.index && !p.before.any (·.kind == .dot) && p.token.isIdentifier &&
    !(p.token.kind == .identifier && p.token.isAnyWord contextWords)

/-- Checks the identifiers of a list. -/
def checkPlaces (s : Scope) (known : List String) (skipped : List Range) :
    List Place → Noted Unit
  | [] => Pure.pure ()
  | p :: rest =>
      if !isCandidate skipped p || nextIsKind .leftParen rest then
        checkPlaces s known skipped rest
      else if nextIsKind .dot rest then
        let parts := dottedParts rest
        .bind (checkDotted s p.token parts) fun _ =>
          checkPlaces s known skipped (rest.drop (2 * parts.length))
      else
        .bind (checkBare s known p.token) fun _ => checkPlaces s known skipped rest
termination_by places => places.length

/-- Checks the identifiers of a part of a statement, where the names in `known` are aliases and
common table expressions, in lower case. -/
def validate (s : Scope) (known : List String) (tokens : List Token) : Noted Unit :=
  let main := tokens.drop (statementStart tokens)
  checkPlaces s known (skippedRanges main) (places main)

/-- The names that a statement itself makes: aliases of its items and names of its common table
expressions, in lower case. -/
def knownNames (query : Query) (returning : List Item) : List String :=
  ((query.items ++ returning).filterMap (·.asName)).map lowerCase ++
    query.ctes.map fun cte => lowerCase cte.name

end TypedSql.Identifier

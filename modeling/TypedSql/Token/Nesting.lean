import TypedSql.Token.Basic

/-!
# Parentheses in a list of tokens

Statements are never turned into trees.  They are read as flat lists of tokens, and these
functions find the parenthesis that matches another one, the depth of every token, the first token
of some kind outside all parentheses, and the pieces between commas.
-/

namespace TypedSql.Token

/-- A half-open range of token indices. -/
structure Range where
  start : Nat
  stop : Nat
deriving DecidableEq, Repr

/-- The tokens in a range. -/
def Range.tokens (r : Range) (tokens : List Token) : List Token :=
  (tokens.drop r.start).take (r.stop - r.start)

/-- The index of the first `)` that closes none of the parentheses opened in the list, where
`inner` parentheses are open and the list begins at index `i`. -/
def closing? (inner i : Nat) : List Token → Option Nat
  | [] => none
  | t :: ts =>
      match t.kind with
      | .leftParen => closing? (inner + 1) (i + 1) ts
      | .rightParen => if inner = 0 then some i else closing? (inner - 1) (i + 1) ts
      | _ => closing? inner (i + 1) ts

/-- The index of the `)` that matches the `(` at index `i`. -/
def matchingParen? (tokens : List Token) (i : Nat) : Option Nat :=
  match tokens.drop i with
  | t :: ts => if t.kind = .leftParen then closing? 0 (i + 1) ts else none
  | [] => none

/-- As `closing?`, going backwards: the list holds the tokens before some place, last one first,
so that the head of the list has the length of the tail as its index. -/
def opening? (inner : Nat) : List Token → Option Nat
  | [] => none
  | t :: ts =>
      match t.kind with
      | .rightParen => opening? (inner + 1) ts
      | .leftParen => if inner = 0 then some ts.length else opening? (inner - 1) ts
      | _ => opening? inner ts

/-- The index of the `(` that matches the `)` at index `j`. -/
def matchingOpenParen? (tokens : List Token) (j : Nat) : Option Nat :=
  match tokens.drop j with
  | t :: _ => if t.kind = .rightParen then opening? 0 (tokens.take j).reverse else none
  | [] => none

/-- The depth before each token where `depth` parentheses are open at the beginning. -/
def depthsFrom (depth : Nat) : List Token → List Nat
  | [] => []
  | t :: ts =>
      match t.kind with
      | .leftParen => depth :: depthsFrom (depth + 1) ts
      | .rightParen => (depth - 1) :: depthsFrom (depth - 1) ts
      | _ => depth :: depthsFrom depth ts

/-- The number of open parentheses before each token; a `)` counts with the tokens outside its
group, and one that closes nothing leaves the depth at zero. -/
def depths (tokens : List Token) : List Nat := depthsFrom 0 tokens

/-- Every token with its depth. -/
def withDepths (tokens : List Token) : List (Nat × Token) := (depths tokens).zip tokens

/-- The index of the first token outside all parentheses that satisfies `p`. -/
def findTopLevel? (tokens : List Token) (p : Token → Bool) : Option Nat :=
  (withDepths tokens).findIdx? fun dt => dt.1 == 0 && p dt.2

/-- The range from `start` to `stop`, unless it is empty. -/
def rangeOrNone (start stop : Nat) : List Range := if start < stop then [⟨start, stop⟩] else []

/-- The pieces between depth-0 commas, where the current piece began at `start` and the list
begins at index `i`. -/
def splitFrom (start i : Nat) : List (Nat × Token) → List Range
  | [] => rangeOrNone start i
  | (d, t) :: rest =>
      if d = 0 ∧ t.kind = .comma then rangeOrNone start i ++ splitFrom (i + 1) (i + 1) rest
      else splitFrom start (i + 1) rest

/-- The pieces between the commas outside all parentheses, without the empty ones. -/
def splitTopLevelCommas (tokens : List Token) : List Range := splitFrom 0 0 (withDepths tokens)

/-- The tokens of the pieces between the commas outside all parentheses. -/
def commaPieces (tokens : List Token) : List (List Token) :=
  (splitTopLevelCommas tokens).map fun r => r.tokens tokens

/-- The text from the first to the last token. -/
def sourceText (sql : String) (tokens : List Token) : String :=
  match tokens.head?, tokens.getLast? with
  | some first, some last => Text.slice sql first.span.start last.span.stop
  | _, _ => ""

/-- The words that begin a main statement. -/
def statementVerbs : List String := ["SELECT", "INSERT", "UPDATE", "DELETE", "REPLACE", "VALUES"]

/-- The index where the main statement begins, behind the `WITH` clause if there is one. -/
def statementStart (tokens : List Token) : Nat :=
  match tokens with
  | [] => 0
  | t :: ts =>
      if t.isWord "WITH" then
        match findTopLevel? ts fun u => u.isAnyWord statementVerbs with
        | some i => i + 1
        | none => tokens.length
      else 0

/-- The words that end the list of projected items. -/
def projectionTerminators : List String :=
  ["FROM", "WHERE", "GROUP", "HAVING", "ORDER", "LIMIT", "UNION", "INTERSECT", "EXCEPT",
   "WINDOW", "RETURNING"]

@[simp] theorem length_depthsFrom (d : Nat) (tokens : List Token) :
    (depthsFrom d tokens).length = tokens.length := by
  induction tokens generalizing d with
  | nil => rfl
  | cons t ts ih => simp only [depthsFrom]; split <;> simp [ih]

/-- A matching parenthesis stands behind the place where the search began. -/
theorem le_of_closing? {inner i j : Nat} {tokens : List Token}
    (h : closing? inner i tokens = some j) : i ≤ j ∧ j < i + tokens.length := by
  induction tokens generalizing inner i with
  | nil => simp [closing?] at h
  | cons t ts ih =>
      simp only [closing?] at h
      split at h
      · have := ih h; simp; omega
      · split at h
        · simp at h; simp; omega
        · have := ih h; simp; omega
      · have := ih h; simp; omega

theorem lt_of_matchingParen? {tokens : List Token} {i j : Nat}
    (h : matchingParen? tokens i = some j) : i < j ∧ j < tokens.length := by
  unfold matchingParen? at h
  split at h
  · next t ts ht =>
      split at h
      · have := le_of_closing? h
        have hl := congrArg List.length ht
        simp at hl
        omega
      · simp at h
  · simp at h

/-! ## Parenthesized groups

The group at the beginning of a list of tokens, and what stands behind it. -/

/-- A group and the tokens behind its closing parenthesis. -/
structure Group where
  inner : List Token
  rest : List Token
deriving DecidableEq, Repr

/-- The group that the list begins with. -/
def group? (tokens : List Token) : Option Group :=
  (matchingParen? tokens 0).map fun close =>
    ⟨(tokens.take close).drop 1, tokens.drop (close + 1)⟩

/-- The value of the first token of every piece between top-level commas. -/
def leadingValues (tokens : List Token) : List String :=
  (commaPieces tokens).filterMap fun piece => piece.head?.map value

/-- The list begins with `word`. -/
def startsWith (word : String) (tokens : List Token) : Bool := tokens.head?.any (·.isWord word)

/-- The list begins with a token of that kind. -/
def startsWithKind (kind : Kind) (tokens : List Token) : Bool :=
  tokens.head?.any (·.kind == kind)

/-- The tokens behind `word`, or all of them where the list does not begin with it. -/
def skip (word : String) (tokens : List Token) : List Token :=
  if startsWith word tokens then tokens.drop 1 else tokens

theorem length_rest_of_group? {tokens : List Token} {g : Group} (h : group? tokens = some g) :
    g.rest.length < tokens.length := by
  obtain ⟨close, hc, rfl⟩ := Option.map_eq_some_iff.mp h
  have := lt_of_matchingParen? hc
  simp
  omega

theorem length_skip_le (word : String) (tokens : List Token) :
    (skip word tokens).length ≤ tokens.length := by
  unfold skip
  split <;> simp

theorem skip_suffix (word : String) (tokens : List Token) : skip word tokens <:+ tokens := by
  unfold skip
  split
  · exact List.drop_suffix _ _
  · exact List.suffix_refl _

/-! ## Tokens in their place

Some readers have to know where in its list a token stands: at which index, at which depth, behind
which token.  A place is a token with this knowledge, so that a rest of the list still has it. -/

/-- A token of a list with its index, its depth and the token before it. -/
structure Place where
  index : Nat
  depth : Nat
  before : Option Token
  token : Token
deriving DecidableEq, Repr

/-- The places of tokens with depths, where the first one has index `i` and stands behind
`before`. -/
def placesFrom (i : Nat) (before : Option Token) : List (Nat × Token) → List Place
  | [] => []
  | (depth, t) :: rest => ⟨i, depth, before, t⟩ :: placesFrom (i + 1) (some t) rest

/-- The tokens of a list in their places. -/
def places (tokens : List Token) : List Place := placesFrom 0 none (withDepths tokens)

/-- The places in a range. -/
def Range.places (r : Range) (places : List Place) : List Place :=
  (places.drop r.start).take (r.stop - r.start)

/-- The places in the group that the list begins with, and those behind it. -/
def groupPlaces? (places : List Place) : Option (List Place × List Place) :=
  (matchingParen? (places.map (·.token)) 0).map fun close =>
    ((places.take close).drop 1, places.drop (close + 1))

/-- The pieces between top-level commas. -/
def placePieces (places : List Place) : List (List Place) :=
  (splitTopLevelCommas (places.map (·.token))).map fun r => r.places places

/-- The list begins with a token that satisfies `p`. -/
def nextIs (p : Token → Bool) (places : List Place) : Bool := places.head?.any fun q => p q.token

/-- The list begins with a token of that kind. -/
def nextIsKind (kind : Kind) (places : List Place) : Bool := nextIs (fun t => t.kind == kind) places

/-- The list begins with that word. -/
def nextIsWord (word : String) (places : List Place) : Bool :=
  nextIs (fun t => t.isWord word) places

/-- The tokens outside all parentheses at which the place stands are among `words`. -/
def Place.isTopWord (p : Place) (words : List String) : Bool :=
  p.depth == 0 && p.token.isAnyWord words

theorem length_rest_of_groupPlaces? {places inner rest : List Place}
    (h : groupPlaces? places = some (inner, rest)) : rest.length < places.length := by
  obtain ⟨close, hc, he⟩ := Option.map_eq_some_iff.mp h
  have hb := lt_of_matchingParen? hc
  simp at he hb
  rw [← he.2]
  simp
  omega

end TypedSql.Token

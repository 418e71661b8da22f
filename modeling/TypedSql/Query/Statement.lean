import TypedSql.Query.Basic
import TypedSql.Token.Basic
import TypedSql.Token.Nesting
import TypedSql.Token.Reader

/-!
# Statements

A statement is read as its verb, its projected items, its parameters and its common table
expressions.  Reading its tokens can fail; reading a query from them cannot.
-/

namespace TypedSql.Query

open Text

/-! ## Parameters

Parameters are read from left to right.  A parameter is a token of its own, or one of the macros
`sqlc.arg(x)`, `sqlc.narg(x)` and `sqlc.slice(x)`.  A name or a number that comes again is the
parameter that is already there; every `?` is a parameter of its own. -/

/-- The number that the text writes, if it fits into 64 bits. -/
def paramNumber? (digits : List Char) : Option Nat :=
  if digits.isEmpty || !digits.all Char.isDigit then none
  else
    let n := digits.foldl (fun n c => 10 * n + (c.toNat - 48)) 0
    if n < 18446744073709551616 then some n else none

/-- The binding that a parameter token writes. -/
def Binding.ofText (text : String) : Binding :=
  match text.toList with
  | [] => .named ""
  | sigil :: rest =>
      if sigil = '?' ∧ rest = [] then .positional
      else
        match if sigil = '?' ∨ sigil = '$' then paramNumber? rest else none with
        | some n => .numbered n
        | none => .named (String.ofList rest)

/-- The parameter that a token writes. -/
def Param.ofToken (t : Token) : Param := ⟨.ofText t.text, t.position, false, false⟩

/-- The flags, variadic and nullable, of the macro of that name. -/
def macroFlags? (name : String) : Option (Bool × Bool) :=
  match lowerCase name with
  | "arg" => some (false, false)
  | "narg" => some (false, true)
  | "slice" => some (true, false)
  | _ => none

/-- The number of tokens of a macro. -/
def macroSize : Nat := 6

/-- The parameter that the macro at the beginning of the list writes. -/
def macroParam? (tokens : List Token) : Option Param :=
  match tokens with
  | head :: dot :: function :: openParen :: argument :: closeParen :: _ =>
      if head.isWord "sqlc" && dot.kind == .dot && openParen.kind == .leftParen &&
          closeParen.kind == .rightParen && (argument.isName || argument.kind == .string) then
        (macroFlags? function.text).map fun flags =>
          ⟨.named argument.value, head.position, flags.1, flags.2⟩
      else none
  | _ => none

/-- Every place of a parameter, from left to right. -/
def paramPlaces : List Token → List Param
  | [] => []
  | t :: ts =>
      match macroParam? (t :: ts) with
      | some p => p :: paramPlaces (ts.drop (macroSize - 1))
      | none => if t.kind = .parameter then .ofToken t :: paramPlaces ts else paramPlaces ts
termination_by tokens => tokens.length

/-- Adds a parameter, unless its value is already taken by one that is there. -/
def addParam (params : List Param) (p : Param) : List Param :=
  if params.any fun q => q.binding.sameValue p.binding then params else params ++ [p]

/-- The parameters of a statement, each at its first place. -/
def readParams (tokens : List Token) : List Param := (paramPlaces tokens).foldl addParam []

/-! ## Projected items

An item is a star, a column or an expression, with an alias behind `AS` or right behind the item. -/

/-- The keywords that can end an expression. -/
def valueKeywords : List String :=
  ["NULL", "TRUE", "FALSE", "END", "CURRENT_DATE", "CURRENT_TIME", "CURRENT_TIMESTAMP"]

/-- An alias without `AS` can stand behind the token. -/
def canPrecedeAlias (t : Token) : Bool :=
  match t.kind with
  | .identifier | .quotedIdentifier | .rightParen | .string | .blob | .integer | .float
  | .parameter => true
  | .keyword => t.isAnyWord valueKeywords
  | _ => false

/-- The tokens of an item without its alias, and the alias. -/
def splitAlias (tokens : List Token) : List Token × Option String :=
  match tokens.reverse with
  | last :: before :: first :: rest =>
      if before.isWord "AS" then ((first :: rest).reverse, some last.value)
      else if last.isIdentifier && canPrecedeAlias before then
        ((before :: first :: rest).reverse, some last.value)
      else (tokens, none)
  | [last, before] =>
      if last.isIdentifier && canPrecedeAlias before then ([before], some last.value)
      else (tokens, none)
  | _ => (tokens, none)

/-- What the tokens of an item without its alias are. -/
def Shape.ofTokens (sql : String) (tokens : List Token) : Shape :=
  let expression := Shape.expression (Token.sourceText sql tokens)
  match tokens with
  | [t] =>
      if t.kind = .star then .star none
      else if t.isName then .column none t.value
      else expression
  | [table, dot, last] =>
      if table.isName && dot.kind == .dot && last.kind == .star then .star (some table.value)
      else if table.isName && dot.kind == .dot && last.isName then
        .column (some table.value) last.value
      else expression
  | [_, dot, table, dot', last] =>
      if dot.kind == .dot && dot'.kind == .dot && table.isName && last.isName then
        .column (some table.value) last.value
      else expression
  | _ => expression

/-- The item that the tokens write. -/
def Item.ofTokens (sql : String) (tokens : List Token) : Item :=
  let (body, asName) := splitAlias tokens
  ⟨.ofTokens sql body, asName, (body.head?.map (·.position)).getD .first⟩

/-- The items of a `SELECT` list or a `RETURNING` clause. -/
def readProjection (sql : String) (tokens : List Token) : List Item :=
  (Token.commaPieces tokens).map (Item.ofTokens sql)

open Token

/-! ## The WITH clause

The common table expressions in front of a statement: a name, perhaps names for the columns, and a
body in parentheses.  Reading ends without complaint at the first definition that is not whole. -/

/-- The tokens between the name of a definition and its body, read: the column names and the list
that begins with the body. -/
def cteHead? (tokens : List Token) : Option (Option (List String) × List Token) :=
  let toBody (rest : List Token) : List Token :=
    (skip "AS" rest).dropWhile fun t => t.isAnyWord ["NOT", "MATERIALIZED"]
  if startsWithKind .leftParen tokens then
    (group? tokens).map fun g => (some (leadingValues g.inner), toBody g.rest)
  else some (none, toBody tokens)

/-- The definition named by `name`, whose body is the group `body` at `bodyTokens`. -/
def Cte.ofParts (sql : String) (name : Token) (columns : Option (List String))
    (body : Group) (bodyTokens : List Token) : Cte where
  name := name.value
  columns := columns
  body := sourceText sql body.inner
  bodyPosition :=
    match body.inner.head?, bodyTokens.head? with
    | some first, _ => first.position
    | none, some paren => paren.position.step '('
    | none, none => .first
  position := name.position

theorem length_of_cteHead? {tokens : List Token} {head : Option (List String) × List Token}
    (h : cteHead? tokens = some head) : head.2.length ≤ tokens.length := by
  have drop (rest : List Token) :
      ((skip "AS" rest).dropWhile fun t => t.isAnyWord ["NOT", "MATERIALIZED"]).length
        ≤ rest.length :=
    Nat.le_trans (List.dropWhile_sublist _).length_le (length_skip_le _ _)
  unfold cteHead? at h
  split at h
  · obtain ⟨g, hg, rfl⟩ := Option.map_eq_some_iff.mp h
    have := length_rest_of_group? hg
    have := drop g.rest
    simp only
    omega
  · simp at h
    subst h
    exact drop tokens

/-- The definitions at the beginning of the list. -/
def readCtes (sql : String) : List Token → List Cte
  | [] => []
  | name :: rest =>
      if !name.isName then []
      else
        match _hh : cteHead? rest with
        | none => []
        | some (columns, bodyTokens) =>
            match _hg : group? bodyTokens with
            | none => []
            | some body =>
                let cte := Cte.ofParts sql name columns body bodyTokens
                if startsWithKind .comma body.rest then cte :: readCtes sql (body.rest.drop 1)
                else [cte]
termination_by tokens => tokens.length
decreasing_by
  have := length_of_cteHead? _hh
  have := length_rest_of_group? _hg
  simp at *
  omega

/-- The definitions in front of a statement, and whether they may refer to themselves. -/
def readWithClause (sql : String) (tokens : List Token) : List Cte × Bool :=
  if startsWith "WITH" tokens then
    let rest := tokens.drop 1
    (readCtes sql (skip "RECURSIVE" rest), startsWith "RECURSIVE" rest)
  else ([], false)

/-! ## Statements -/

/-- The tokens of the projected items of a statement that begins with `SELECT`. -/
def projectionTokens (statement : List Token) : List Token :=
  let rest := (statement.drop 1).dropWhile fun t => t.isAnyWord ["DISTINCT", "ALL"]
  match findTopLevel? rest fun t => t.kind == .semicolon || t.isAnyWord projectionTerminators with
  | some stop => rest.take stop
  | none => rest

/-- The query that the tokens of `sql` write. -/
def ofTokens (sql : String) (tokens : List Token) : Query :=
  let (ctes, recursive) := readWithClause sql tokens
  let statement := tokens.drop (statementStart tokens)
  { verb := ((statement.head?.map (·.text)).map Verb.ofWord).getD .other
    items := if startsWith "SELECT" statement then readProjection sql (projectionTokens statement)
      else []
    params := readParams tokens
    ctes := ctes
    recursive := recursive }

/-- The query that a text writes whose first character stands at `origin` in its file. -/
def parse (sql : String) (origin : Position) : Except ReadError Query :=
  (tokenizeAt sql origin).map (ofTokens sql)

end TypedSql.Query

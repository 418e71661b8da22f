import TypedSql.Token.Nesting
import TypedSql.Types.Affinity

/-!
# Expressions

Of an expression only some shapes are read: columns, literals, casts and aggregates, in any number
of parentheses.  Everything else is `other`, and of unknown type.
-/

namespace TypedSql

open Token Text

/-- The functions whose result type is known. -/
inductive Aggregate
  | count
  | sum
  | avg
  | min
  | max
  | coalesce
deriving DecidableEq, Repr

namespace Aggregate

/-- The function in lower case. -/
def name : Aggregate → String
  | count => "count"
  | sum => "sum"
  | avg => "avg"
  | min => "min"
  | max => "max"
  | coalesce => "coalesce"

/-- The function in upper case, as messages have it. -/
def display : Aggregate → String
  | count => "COUNT"
  | sum => "SUM"
  | avg => "AVG"
  | min => "MIN"
  | max => "MAX"
  | coalesce => "COALESCE"

def all : List Aggregate := [count, sum, avg, min, max, coalesce]

/-- The function that a word names, in any case. -/
def ofWord? (word : String) : Option Aggregate := all.find? fun f => f.name == lowerCase word

end Aggregate

/-- An expression, as far as it is read. -/
inductive Expr
  | column (qualifier : Option String) (name : String) (position : Position)
  | literal (type : TypeInfo)
  | cast (operand : Expr) (typeName : String)
  | aggregate (function : Aggregate) (position : Position) (operands : List Expr)
  | other

namespace Expr

/-- The name with or without qualifiers that the tokens write; of the qualifiers the last one
counts. -/
def columnParts? (tokens : List Token) : Option (Option String × String) :=
  match tokens with
  | [name] => if name.isName then some (none, name.value) else none
  | [table, dot, name] =>
      if table.isName && dot.kind == .dot && name.isName then some (some table.value, name.value)
      else none
  | [schema, dot, table, dot', name] =>
      if schema.isName && dot.kind == .dot && table.isName && dot'.kind == .dot && name.isName then
        some (some table.value, name.value)
      else none
  | _ => none

/-- The type of a number. -/
def numberType? (t : Token) : Option TypeInfo :=
  match t.kind with
  | .integer => some (.resolved .int64 false)
  | .float => some (.resolved .float64 false)
  | _ => none

/-- The type of a constant: a literal, a number with a sign, or a word with a fixed value. -/
def literalType? (tokens : List Token) : Option TypeInfo :=
  match tokens with
  | [t] =>
      match t.kind with
      | .string => some (.resolved .string false)
      | .blob => some (.resolved .bytes false)
      | .integer | .float => numberType? t
      | _ =>
          if t.isAnyWord ["TRUE", "FALSE"] then some (.resolved .bool false)
          else if t.isWord "NULL" then some .unresolved
          else if t.isAnyWord ["CURRENT_DATE", "CURRENT_TIME", "CURRENT_TIMESTAMP"] then
            some (.resolved .string false)
          else none
  | [sign, t] => if sign.isOperator "-" || sign.isOperator "+" then numberType? t else none
  | _ => none

/-- The tokens between the parentheses, if the list is one group as a whole. -/
def wholeGroup? (tokens : List Token) : Option (List Token) :=
  if matchingParen? tokens 0 = some (tokens.length - 1) then some ((tokens.drop 1).dropLast)
  else none

/-- The texts with a blank between neighbours. -/
def spaced : List String → String
  | [] => ""
  | [s] => s
  | s :: rest => s ++ " " ++ spaced rest

/-- The operand and the type name of a cast: what stands before and behind the last `AS` outside
all parentheses. -/
def castParts? (tokens : List Token) : Option (List Token × String) :=
  match tokens with
  | head :: rest =>
      if head.isWord "CAST" then
        (wholeGroup? rest).bind fun inner =>
          let before := (withDepths inner).reverse.dropWhile fun dt =>
            !(dt.1 == 0 && dt.2.isWord "AS")
          match before with
          | [] => none
          | _ :: operand =>
              some (operand.reverse.map (·.2),
                spaced ((inner.drop before.length).map (·.text)))
      else none
  | [] => none

/-- The function and the operands of an aggregate.  Only `FILTER` and `OVER` can stand behind the
parentheses. -/
def aggregateParts? (tokens : List Token) : Option (Aggregate × Position × List (List Token)) :=
  match tokens with
  | head :: rest =>
      (Aggregate.ofWord? head.text).bind fun function =>
        (matchingParen? rest 0).bind fun close =>
          let behind := rest.drop (close + 1)
          if behind.head?.all fun t => t.isAnyWord ["FILTER", "OVER"] then
            let inner := ((rest.take close).drop 1).dropWhile fun t =>
              t.isAnyWord ["DISTINCT", "ALL"]
            some (function, head.position, commaPieces inner)
          else none
  | [] => none

/-- The tokens of a parenthesized expression that is no subquery. -/
def parenthesized? (tokens : List Token) : Option (List Token) :=
  (wholeGroup? tokens).bind fun inner =>
    if (tokens.drop 1).head?.any fun t => t.isAnyWord ["SELECT", "WITH", "VALUES"] then none
    else some inner

/-! ## The parts of an expression are shorter -/

theorem length_of_wholeGroup? {tokens inner : List Token} (h : wholeGroup? tokens = some inner) :
    inner.length < tokens.length := by
  unfold wholeGroup? at h
  split at h
  · next hm =>
      have := lt_of_matchingParen? hm
      simp at h
      subst h
      simp
      omega
  · simp at h

theorem length_of_castParts? {tokens operand : List Token} {name : String}
    (h : castParts? tokens = some (operand, name)) : operand.length < tokens.length := by
  unfold castParts? at h
  split at h
  · next head rest =>
      split at h
      · obtain ⟨inner, hi, h⟩ := Option.bind_eq_some_iff.mp h
        have h1 := length_of_wholeGroup? hi
        simp only at h
        split at h
        · simp at h
        · next p before hb =>
            simp at h
            have h2 := (List.dropWhile_sublist (l := (withDepths inner).reverse)
              fun dt => !(dt.1 == 0 && dt.2.isWord "AS")).length_le
            rw [hb] at h2
            simp [withDepths, depths] at h2
            rw [← h.1]
            simp
            omega
      · simp at h
  · simp at h

theorem length_of_mem_commaPieces {tokens piece : List Token} (h : piece ∈ commaPieces tokens) :
    piece.length ≤ tokens.length := by
  obtain ⟨r, _, rfl⟩ := List.mem_map.mp h
  simp only [Range.tokens, List.length_take, List.length_drop]
  omega

theorem length_of_aggregateParts? {tokens piece : List Token} {function : Aggregate}
    {position : Position} {operands : List (List Token)}
    (h : aggregateParts? tokens = some (function, position, operands)) (hp : piece ∈ operands) :
    piece.length < tokens.length := by
  unfold aggregateParts? at h
  split at h
  · next head rest =>
      obtain ⟨f, _, h⟩ := Option.bind_eq_some_iff.mp h
      obtain ⟨close, hc, h⟩ := Option.bind_eq_some_iff.mp h
      simp only at h
      split at h
      · simp at h
        rw [← h.2.2] at hp
        have h1 := length_of_mem_commaPieces hp
        have h2 := (List.dropWhile_sublist (l := (rest.take close).drop 1)
          fun t => t.isAnyWord ["DISTINCT", "ALL"]).length_le
        simp at h1 h2 ⊢
        omega
      · simp at h
  · simp at h

theorem length_of_parenthesized? {tokens inner : List Token}
    (h : parenthesized? tokens = some inner) : inner.length < tokens.length := by
  obtain ⟨i, hi, h⟩ := Option.bind_eq_some_iff.mp h
  split at h
  · simp at h
  · simp at h
    subst h
    exact length_of_wholeGroup? hi

/-- The expression that the tokens write. -/
def ofTokens (tokens : List Token) : Expr :=
  match tokens.head?, columnParts? tokens with
  | some first, some (qualifier, name) => column qualifier name first.position
  | _, _ =>
      match literalType? tokens with
      | some type => literal type
      | none =>
          match _hc : castParts? tokens with
          | some (operand, typeName) => cast (ofTokens operand) typeName
          | none =>
              match _ha : aggregateParts? tokens with
              | some (function, position, operands) =>
                  aggregate function position
                    (operands.attach.map fun ⟨piece, _hp⟩ => ofTokens piece)
              | none =>
                  match _hg : parenthesized? tokens with
                  | some inner => ofTokens inner
                  | none => other
termination_by tokens.length
decreasing_by
  · exact length_of_castParts? _hc
  · exact length_of_aggregateParts? _ha _hp
  · exact length_of_parenthesized? _hg

end Expr

end TypedSql

import TypedSql.Analysis.InsertTarget
import TypedSql.Analysis.Neighbor
import TypedSql.Analysis.Segment
import TypedSql.Diagnostic.Collector
import TypedSql.Query.File

/-!
# The types of parameters

A parameter takes the type of the column that it is compared with, inserted into, or matched
against in a list.  An annotation overrides that.  Parameters without a name of their own are
named after that column; a name that comes again gets a number.
-/

namespace TypedSql

open Diagnostic Query Token

/-- A parameter with its type. -/
structure ResultParam where
  name : String
  binding : Binding
  type : TypeInfo
  variadic : Bool
  /-- The number of items of the `IN` list that it stands in. -/
  elements : Option Nat
deriving DecidableEq, Repr

/-- The parameter as a JSON object, without members for what it has not. -/
def ResultParam.toJson (p : ResultParam) : Json :=
  .object ([("name", .string p.name), ("style", .string p.binding.style)] ++
    Json.optionalMember "number" .nat p.binding.number? ++ p.type.jsonMembers ++
    [("variadic", .bool p.variadic)] ++ Json.optionalMember "elements" .nat p.elements)

/-- What the surroundings of a parameter say about it. -/
structure Hint where
  type : TypeInfo
  name : Option String
deriving DecidableEq, Repr

/-- What is known when parameters are typed. -/
structure ParamContext where
  tokens : List Token
  segments : List Segment
  /-- All relations. -/
  base : Scope
  catalog : Catalog

namespace ParamContext

/-- The scope of the segment that holds the token at the index. -/
def scopeAt (c : ParamContext) (index : Nat) : Scope :=
  (((c.segments.find? fun s => s.contains index).or c.segments.head?).map (·.scope)).getD c.base

/-- The type of a column that stands near a parameter.  It is looked up in the scope of the
segment, then among all relations, as subqueries name relations that the segment does not, and
then in the catalog. -/
def columnType? (c : ParamContext) (working : Scope) (column : Neighbor.ColumnName) :
    Option TypeInfo :=
  match working.lookup column.qualifier column.name with
  | .ok found => some found.type
  | .error e =>
      let qualified := column.qualifier.bind fun q =>
        (c.base.lookupIn q column.name).toOption.map Scope.Column.type
      let anywhere := match e with
        | .unknownColumn _ _ => none
        | _ => (c.base.lookupAny column.name).toOption.map Scope.Column.type
      let declared := column.qualifier.bind fun q =>
        (c.catalog.column? q column.name).map fun d => Affinity.columnType d.declaration d.notNull
      qualified.or (anywhere.or declared)

/-- The type behind `::` at the beginning of the list, and what follows it. -/
def readCast (behind : List Token) : Option TypeInfo × List Token :=
  match behind with
  | op :: rest =>
      if op.isOperator "::" then
        ((rest.head?.bind fun t => Affinity.named? t.text).map fun type => .resolved type false,
          rest.drop 1)
      else (none, behind)
  | [] => (none, [])

/-- The hint that the column on the right of a comparison gives; a cast stands in for a column
whose type is not known. -/
def hintBehind? (c : ParamContext) (working : Scope) (cast : Option TypeInfo)
    (behind : List Token) : Option Hint :=
  (Neighbor.comparedBehind? behind).bind fun column =>
    ((c.columnType? working column).or cast).map fun type => ⟨type, some column.name⟩

/-- The hint that the column on the left of a comparison gives. -/
def hintBefore? (c : ParamContext) (working : Scope) (before : List Token) : Option Hint :=
  (Neighbor.comparedBefore? before).bind fun column =>
    (c.columnType? working column).map fun type => ⟨type, some column.name⟩

/-- What the surroundings of the parameter at the index say about it. -/
def hint? (c : ParamContext) (targets : List InsertTarget) (index : Nat) (variadic : Bool) :
    Option Hint :=
  let working := c.scopeAt index
  let before := (c.tokens.take index).reverse
  let isMacro := startsWith "sqlc" (c.tokens.drop index)
  let behind := c.tokens.drop (index + if isMacro then macroSize else 1)
  match before.head?.filter fun t => t.isAnyWord ["LIMIT", "OFFSET"] with
  | some word => some ⟨.resolved .int64 false, some (Text.lowerCase word.text)⟩
  | none =>
      match Neighbor.inListColumn? c.tokens index with
      | some column =>
          (c.columnType? working column).map fun type =>
            ⟨if variadic then type.toList else type, some column.name⟩
      | none =>
          let (cast, behind) := readCast behind
          match (c.hintBefore? working before).or (c.hintBehind? working cast behind) with
          | some hint => some hint
          | none =>
              match targets.find? fun target => target.index == index with
              | some target =>
                  (c.columnType? working ⟨some target.table, target.column⟩).map fun type =>
                    ⟨type, some target.column⟩
              | none => cast.map fun type => ⟨type, none⟩

end ParamContext

/-- The index of the token that stands at the position of a parameter. -/
def paramIndex? (tokens : List Token) (p : Param) : Option Nat :=
  tokens.findIdx? fun t => t.position == p.position

/-- The hints of the parameters of a statement. -/
def paramHints (c : ParamContext) (params : List Param) : List (Option Hint) :=
  let targets := InsertTarget.ofTokens c.catalog c.tokens
  params.map fun p => (paramIndex? c.tokens p).bind fun i => c.hint? targets i p.variadic

/-- The name that a parameter has before repeats are numbered: its own, that of its column, or
its number. -/
def baseName (p : Param) (hint : Option Hint) (number : Nat) : String :=
  (p.binding.name?.or (hint.bind (·.name))).getD
    ("arg" ++ toString (p.binding.number?.getD number))

/-- The name, with its number behind it where `used` has it already. -/
def numberedName (used : List String) (name : String) : String :=
  let count := used.count (Text.lowerCase name)
  if count = 0 then name else name ++ "_" ++ toString (count + 1)

/-- The type that an annotation gives to the parameter of that name, or else `type`. -/
def annotatedType (annotations : List TypeHint) (name : String) (type : TypeInfo) :
    Noted TypeInfo :=
  match TypeHint.find? name annotations with
  | none => Pure.pure type
  | some a =>
      match Affinity.named? a.typeName with
      | some named => Pure.pure (.resolved named a.nullable)
      | none => do
          .warning .untypedExpression a.position
            ("unknown type '" ++ a.typeName ++ "' for parameter '" ++ a.name ++ "'")
          return type

/-- The type of a parameter as its macro wants it: a list, or nullable. -/
def markedType (p : Param) (type : TypeInfo) : TypeInfo :=
  let type := if p.variadic && !type.type?.any ValueType.isList then type.toList else type
  if p.forceNullable then type.withNullable true else type

/-- The parameters with their hints as results, where the first one is number `number` and the
names in `used` are taken. -/
def finishFrom (annotations : List TypeHint) (tokens : List Token) (number : Nat)
    (used : List String) : List (Param × Option Hint) → Noted (List ResultParam)
  | [] => Pure.pure []
  | (p, hint) :: rest => do
      let base := baseName p hint number
      let name := numberedName used base
      let type ← annotatedType annotations name ((hint.map (·.type)).getD .unresolved)
      let elements := (paramIndex? tokens p).bind fun i => Neighbor.inListLength? tokens i
      let result : ResultParam := ⟨name, p.binding, markedType p type, p.variadic, elements⟩
      let more ← finishFrom annotations tokens (number + 1) (Text.lowerCase base :: used) rest
      return result :: more

/-- The parameters of a block with the given hints. -/
def finishParams (b : Block) (tokens : List Token) (hints : List (Option Hint)) :
    Noted (List ResultParam) :=
  finishFrom b.paramHints tokens 1 [] (b.query.params.zip hints)

end TypedSql

import TypedSql.Analysis.Expr
import TypedSql.Diagnostic.Collector
import TypedSql.Scope.Basic

/-!
# The types of expressions

An expression gets its type from the scope and from its shape.  What cannot be typed is unresolved;
it never ends the analysis.
-/

namespace TypedSql

open Diagnostic

/-- Where an expression stands. -/
inductive Mode
  /-- In the main statement: bad names are errors. -/
  | query
  /-- In a common table expression: bad names are warnings. -/
  | cte
deriving DecidableEq, Repr

/-- What is known of an expression. -/
structure Inferred where
  type : TypeInfo
  /-- The relation that the value comes from, or nothing. -/
  relation : String
  /-- The column that the value comes from. -/
  column : Option String
  /-- The name that an aggregate has without an alias. -/
  aggregateName : Option String
deriving DecidableEq, Repr

namespace Inferred

/-- Only the type is known. -/
def typed (type : TypeInfo) : Inferred := ⟨type, "", none, none⟩

/-- Nothing is known. -/
def unresolved : Inferred := typed .unresolved

/-- The first known type of the operands, with the given nullability. -/
def combine (operands : List Inferred) (nullable : Bool) : TypeInfo :=
  .ofOption (operands.findSome? fun o => o.type.type?) nullable

/-- The value of an operand can be NULL. -/
def isNullable (i : Inferred) : Bool := i.type.isNullable

end Inferred

/-- The code of a lookup error. -/
def Scope.LookupError.code : Scope.LookupError → Code
  | unknownRelation _ => .unknownRelation
  | unknownColumn _ _ | noSuchColumn _ => .unknownColumn
  | ambiguous _ => .ambiguousColumn
  | unmapped _ => .unmappedExpression

/-- The name is wrong; a column that may belong to an opaque relation is not. -/
def Scope.LookupError.isMistake : Scope.LookupError → Bool
  | unmapped _ => false
  | _ => true

/-- Notes that a name was not found.  In a common table expression every note is milder. -/
def Mode.noteLookup (mode : Mode) (e : Scope.LookupError) (position : Position) : Noted Unit :=
  match mode, e.isMistake with
  | .query, true => .error e.code position e.message
  | .query, false => .warning e.code position e.message
  | .cte, true => .warning e.code position e.message
  | .cte, false => Pure.pure ()

/-- What a name stands for. -/
def inferColumn (mode : Mode) (s : Scope) (qualifier : Option String) (name : String)
    (position : Position) : Noted Inferred :=
  match s.lookup qualifier name with
  | .ok c => Pure.pure ⟨c.type, c.relation, some c.name, none⟩
  | .error e => do
      mode.noteLookup e position
      return { Inferred.unresolved with column := some name }

/-- The type of a cast: the named type, which is NULL with its operand. -/
def castType (typeName : String) (operand : Inferred) : TypeInfo :=
  .ofOption (Affinity.named? typeName) operand.isNullable

/-- The type of a sum or a mean.  An operand of a type that is no number is noted. -/
def totalType (function : Aggregate) (position : Position) (operand : Inferred) :
    Noted TypeInfo :=
  match operand.type.type? with
  | none => Pure.pure .unresolved
  | some type =>
      if type.isNumeric then
        Pure.pure (.resolved (if function = .sum then type else .float64) true)
      else do
        .warning .untypedExpression position
          (function.display ++ " over non-numeric column '" ++
            operand.column.getD "expression" ++ "' of type " ++ type.display)
        return .unresolved

/-- The type of an aggregate over operands, the first of which is `first`. -/
def aggregateType (function : Aggregate) (position : Position) (first : Inferred)
    (operands : List Inferred) : Noted TypeInfo :=
  match function with
  | .count => Pure.pure (.resolved .int64 false)
  | .sum | .avg => totalType function position first
  | .coalesce => Pure.pure (Inferred.combine operands (operands.all Inferred.isNullable))
  | .min | .max => Pure.pure (Inferred.combine operands (operands.any Inferred.isNullable))

/-- What is known of an aggregate over operands. -/
def inferAggregate (function : Aggregate) (position : Position) (operands : List Inferred) :
    Noted Inferred :=
  match operands with
  | [] => Pure.pure .unresolved
  | first :: rest => do
      let type ← aggregateType function position first operands
      let name := match first.column with
        | some column => function.name ++ "_" ++ column
        | none => function.name
      return ⟨type, if rest.isEmpty then first.relation else "", none, some name⟩

mutual

/-- What is known of an expression. -/
def Expr.infer (mode : Mode) (s : Scope) : Expr → Noted Inferred
  | .column qualifier name position => inferColumn mode s qualifier name position
  | .literal type => Pure.pure (.typed type)
  | .cast operand typeName =>
      .bind (operand.infer mode s) fun o =>
        Pure.pure ⟨castType typeName o, o.relation, o.column, none⟩
  | .aggregate .count _ _ =>
      Pure.pure { Inferred.typed (.resolved .int64 false) with
        aggregateName := some Aggregate.count.name }
  | .aggregate function position operands =>
      .bind (Expr.inferAll mode s operands) (inferAggregate function position)
  | .other => Pure.pure .unresolved

/-- What is known of several expressions. -/
def Expr.inferAll (mode : Mode) (s : Scope) : List Expr → Noted (List Inferred)
  | [] => Pure.pure []
  | e :: rest =>
      .bind (e.infer mode s) fun i =>
        .bind (Expr.inferAll mode s rest) fun is => Pure.pure (i :: is)

end

end TypedSql

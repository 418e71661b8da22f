import TypedSql.Json.Basic
import TypedSql.Text.Basic
import TypedSql.Types.ValueType

/-!
# Types of columns

What is known of a column or a parameter: its type and whether it can be NULL, or nothing.  Of a
value of unknown type it is assumed that it can be NULL.
-/

namespace TypedSql

/-- A type and whether the value can be NULL, or nothing. -/
inductive TypeInfo
  | resolved (type : ValueType) (nullable : Bool)
  | unresolved
deriving DecidableEq, Repr

namespace TypeInfo

instance : Inhabited TypeInfo := ⟨unresolved⟩

/-- The type where there is one, and nothing otherwise. -/
def ofOption (type : Option ValueType) (nullable : Bool) : TypeInfo :=
  match type with
  | some t => resolved t nullable
  | none => unresolved

def isResolved : TypeInfo → Bool
  | resolved _ _ => true
  | unresolved => false

/-- The value can be NULL. -/
def isNullable : TypeInfo → Bool
  | resolved _ nullable => nullable
  | unresolved => true

/-- The type is not nullable only where it is known and was made so. -/
theorem isNullable_ofOption {type : Option ValueType} {nullable : Bool}
    (h : (ofOption type nullable).isNullable = false) : nullable = false := by
  cases type with
  | none => cases h
  | some t => exact h

def type? : TypeInfo → Option ValueType
  | resolved t _ => some t
  | unresolved => none

/-- The same type with the given nullability. -/
def withNullable (nullable : Bool) : TypeInfo → TypeInfo
  | resolved t _ => resolved t nullable
  | unresolved => unresolved

/-- The list of such values, which is not NULL itself. -/
def toList : TypeInfo → TypeInfo
  | resolved t _ => resolved (.list t) false
  | unresolved => unresolved

/-- The type, with a question mark where the value can be NULL. -/
def display : TypeInfo → String
  | resolved t false => t.display
  | resolved t true => t.display ++ "?"
  | unresolved => "unknown"

/-- The members that describe the type in a JSON object. -/
def jsonMembers : TypeInfo → List (String × Json)
  | resolved t nullable =>
      [("kind", .string "resolved"), ("type", .string t.display), ("nullable", .bool nullable)]
  | unresolved => [("kind", .string "unresolved")]

def toJson (t : TypeInfo) : Json := .object t.jsonMembers

/-- The resolved type of that name and nullability. -/
def resolvedOfJson? (type nullable : Json) : Option TypeInfo := do
  return resolved (← ValueType.parse? (← type.asString?)) (← nullable.asBool?)

/-- The type that a JSON object describes, or an array of the values of its members in their
order. -/
def ofJson? : Json → Option TypeInfo
  | .array [.string "unresolved"] => some unresolved
  | .array [.string "resolved", type, nullable] => resolvedOfJson? type nullable
  | j => do
      match ← (← j.member? "kind").asString? with
      | "unresolved" => return unresolved
      | "resolved" => resolvedOfJson? (← j.member? "type") (← j.member? "nullable")
      | _ => none

end TypeInfo

end TypedSql

namespace TypedSql.Affinity

open Text

/-! ## Declared types

Columns are declared with any text as their type.  What they hold is read off parts of that text,
in a fixed order: `INT` wins over everything else. -/

/-- The parts that decide, in lower case, with the type that they stand for. -/
def rules : List (List String × ValueType) :=
  [(["int"], .int64),
   (["char", "clob", "text"], .string),
   (["blob"], .bytes),
   (["real", "floa", "doub"], .float64),
   (["bool"], .bool),
   (["numeric", "decimal"], .string)]

/-- The type of the values of a column that is declared with this text. -/
def resolve? (declaration : String) : Option ValueType :=
  (rules.find? fun rule => mentionsAny rule.1 declaration).map (·.2)

/-- The type of a column with this declaration. -/
def columnType (declaration : String) (notNull : Bool) : TypeInfo :=
  .ofOption (resolve? declaration) !notNull

/-- The type that an annotation or a cast names: a value type, or else a declared type. -/
def named? (name : String) : Option ValueType :=
  (ValueType.parse? name).or (resolve? name)

end TypedSql.Affinity

/-!
# JSON values

Objects keep their members in the order in which they were written, so that a value prints the
way it was built.  Numbers that are natural numbers are values; any other number is kept as it is
spelled.
-/

namespace TypedSql

/-- A JSON value. -/
inductive Json
  | null
  | bool (value : Bool)
  | nat (value : Nat)
  /-- A number with a sign, a fraction or an exponent, as written. -/
  | number (spelling : String)
  | string (value : String)
  | array (items : List Json)
  | object (members : List (String × Json))

namespace Json

instance : Inhabited Json := ⟨null⟩

/-- The value, or `null` where there is none. -/
def ofOption {α : Type} (f : α → Json) : Option α → Json
  | none => null
  | some a => f a

/-- The array of the encodings. -/
def ofList {α : Type} (f : α → Json) (items : List α) : Json := array (items.map f)

/-- A member that is left out where there is no value. -/
def optionalMember {α : Type} (name : String) (f : α → Json) :
    Option α → List (String × Json)
  | none => []
  | some a => [(name, f a)]

/-- The first member of that name. -/
def member? (name : String) : Json → Option Json
  | object members => members.lookup name
  | _ => none

def asString? : Json → Option String
  | string s => some s
  | _ => none

def asNat? : Json → Option Nat
  | nat n => some n
  | _ => none

def asBool? : Json → Option Bool
  | bool b => some b
  | _ => none

def asArray? : Json → Option (List Json)
  | array items => some items
  | _ => none

end Json

end TypedSql

import TypedSql.Text.Basic
import TypedSql.Text.CharClass

/-!
# Value types

The types that generated code maps to its own: what a database stores, truth values, and lists for
parameters that take several values.  A type is written as a name, with `list<…>` around the type
of the items; reading also accepts other common names and `[]` in front of a type.
-/

namespace TypedSql

open Text

/-- The type of a value. -/
inductive ValueType
  | int64
  | float64
  | string
  | bytes
  | bool
  | list (item : ValueType)
deriving DecidableEq, Repr

namespace ValueType

/-- The type as text. -/
def display : ValueType → String
  | int64 => "int64"
  | float64 => "float64"
  | string => "string"
  | bytes => "bytes"
  | bool => "bool"
  | list item => "list<" ++ item.display ++ ">"

def isNumeric : ValueType → Bool
  | int64 | float64 => true
  | _ => false

def isList : ValueType → Bool
  | list _ => true
  | _ => false

/-- The type of the items of a list; any other type is its own. -/
def item : ValueType → ValueType
  | list item => item
  | t => t

/-- A declared column type that stands for this type.  Lists have none. -/
def declaration : ValueType → String
  | int64 => "INTEGER"
  | float64 => "REAL"
  | string => "TEXT"
  | bytes => "BLOB"
  | bool => "BOOLEAN"
  | list _ => ""

/-- The names that are no lists, in lower case. -/
def names : List (String × ValueType) :=
  [("int64", int64), ("i64", int64), ("int", int64), ("integer", int64),
   ("float64", float64), ("f64", float64), ("float", float64), ("double", float64),
   ("real", float64),
   ("string", string), ("str", string), ("text", string),
   ("bytes", bytes), ("blob", bytes),
   ("bool", bool), ("boolean", bool)]

/-- The text between `list<` and a closing `>`, or behind `[]`. -/
def itemText? (text : List Char) : Option (List Char) :=
  match text with
  | '[' :: ']' :: rest => some rest
  | 'l' :: 'i' :: 's' :: 't' :: '<' :: rest =>
      if rest.getLast? = some '>' then some rest.dropLast else none
  | _ => none

theorem length_of_itemText? {text inner : List Char} (h : itemText? text = some inner) :
    inner.length < text.length := by
  unfold itemText? at h
  split at h
  · simp at h; subst h; simp only [List.length_cons]; omega
  · split at h
    · simp at h; subst h; simp only [List.length_dropLast, List.length_cons]; omega
    · simp at h
  · simp at h

/-- The type that the text names.  The error is the name that is no type, without the blanks
around it. -/
def parseChars (text : List Char) : Except (List Char) ValueType :=
  let name := trim text
  let lower := name.map Char.toLower
  match _h : itemText? lower with
  | some inner => (parseChars inner).map list
  | none =>
      match names.lookup (String.ofList lower) with
      | some t => .ok t
      | none => .error name
termination_by text.length
decreasing_by
  have h1 := length_of_itemText? _h
  have h2 := length_trim_le text
  simp [lower, name] at h1
  omega

/-- The type that the text names, or the name that is no type. -/
def parse (text : String) : Except String ValueType :=
  match parseChars text.toList with
  | .ok t => .ok t
  | .error name => .error (String.ofList name)

/-- The type that the text names, if it names one. -/
def parse? (text : String) : Option ValueType := (parse text).toOption

/-- What is wrong with a name that is no type. -/
def unknownMessage (name : String) : String := "unknown type '" ++ name ++ "'"

end ValueType

end TypedSql

import TypedSql.Json.Basic

/-!
# Reading JSON

A strict reader: the whole text is one value, white space is blank, tab, line feed and carriage
return, a text has no raw control character, and `\u` escapes of surrogates stand in pairs.

Every reader takes the remaining characters and returns what it read with the characters after
it.  A value is nested no deeper than its text is long, which bounds the recursion.
-/

namespace TypedSql.Json

/-- White space between the parts of a value. -/
def isSpace (c : Char) : Bool := c == ' ' || c == '\t' || c == '\n' || c == '\r'

/-- The characters after the white space. -/
def skipSpace (cs : List Char) : List Char := cs.dropWhile isSpace

/-- The value of a hexadecimal digit. -/
def hexValue? (c : Char) : Option Nat :=
  if c.isDigit then some (c.toNat - 48)
  else if 'a' ≤ c ∧ c ≤ 'f' then some (c.toNat - 87)
  else if 'A' ≤ c ∧ c ≤ 'F' then some (c.toNat - 55)
  else none

/-- The number that four hexadecimal digits write. -/
def hexQuad? (a b c d : Char) : Option Nat := do
  let a ← hexValue? a
  let b ← hexValue? b
  let c ← hexValue? c
  let d ← hexValue? d
  return ((a * 16 + b) * 16 + c) * 16 + d

/-- The character that a one-letter escape stands for. -/
def shortEscape? : Char → Option Char
  | '"' => some '"'
  | '\\' => some '\\'
  | '/' => some '/'
  | 'b' => some '\x08'
  | 'f' => some '\x0c'
  | 'n' => some '\n'
  | 'r' => some '\r'
  | 't' => some '\t'
  | _ => none

/-- The character that a pair of surrogates stands for. -/
def surrogatePair (high low : Nat) : Char :=
  Char.ofNat (0x10000 + (high - 0xd800) * 0x400 + (low - 0xdc00))

/-- A text after its opening quote. -/
def readText : List Char → Option (List Char × List Char)
  | [] => none
  | '"' :: rest => some ([], rest)
  | '\\' :: 'u' :: a :: b :: c :: d :: '\\' :: 'u' :: e :: f :: g :: h :: rest => do
      let high ← hexQuad? a b c d
      if 0xdc00 ≤ high ∧ high < 0xe000 then none
      else if 0xd800 ≤ high ∧ high < 0xdc00 then
        let low ← hexQuad? e f g h
        if 0xdc00 ≤ low ∧ low < 0xe000 then
          let (text, after) ← readText rest
          return (surrogatePair high low :: text, after)
        else none
      else
        let (text, after) ← readText ('\\' :: 'u' :: e :: f :: g :: h :: rest)
        return (Char.ofNat high :: text, after)
  | '\\' :: 'u' :: a :: b :: c :: d :: rest => do
      let n ← hexQuad? a b c d
      if 0xd800 ≤ n ∧ n < 0xe000 then none
      else
        let (text, after) ← readText rest
        return (Char.ofNat n :: text, after)
  | '\\' :: e :: rest => do
      let c ← shortEscape? e
      let (text, after) ← readText rest
      return (c :: text, after)
  | c :: rest =>
      if c.toNat < 32 then none
      else do
        let (text, after) ← readText rest
        return (c :: text, after)

/-- The natural number that ASCII digits write. -/
def natOfDigits (cs : List Char) : Nat := cs.foldl (fun n c => 10 * n + (c.toNat - 48)) 0

/-- The fraction of a number, with its point. -/
def readFraction : List Char → Option (List Char × List Char)
  | '.' :: rest =>
      match rest.takeWhile Char.isDigit with
      | [] => none
      | digits => some ('.' :: digits, rest.dropWhile Char.isDigit)
  | rest => some ([], rest)

/-- The exponent of a number. -/
def readExponent : List Char → Option (List Char × List Char)
  | [] => some ([], [])
  | e :: rest =>
      if e == 'e' || e == 'E' then
        let sign := (rest.take 1).filter fun c => c == '+' || c == '-'
        let rest := rest.drop sign.length
        match rest.takeWhile Char.isDigit with
        | [] => none
        | digits => some (e :: sign ++ digits, rest.dropWhile Char.isDigit)
      else some ([], e :: rest)

/-- A number: no leading zeros, and no sign but a minus. -/
def readNumber (cs : List Char) : Option (Json × List Char) := do
  let sign := (cs.take 1).filter fun c => c == '-'
  let cs := cs.drop sign.length
  let whole := match cs with
    | '0' :: _ => ['0']
    | cs => cs.takeWhile Char.isDigit
  if whole.isEmpty then none
  else
    let (fraction, cs) ← readFraction (cs.drop whole.length)
    let (exponent, cs) ← readExponent cs
    if sign.isEmpty && fraction.isEmpty && exponent.isEmpty then
      return (nat (natOfDigits whole), cs)
    else return (number (String.ofList (sign ++ whole ++ fraction ++ exponent)), cs)

/-- A word with a fixed value. -/
def readWord (cs : List Char) : Option (Json × List Char) :=
  match cs with
  | 'n' :: 'u' :: 'l' :: 'l' :: rest => some (null, rest)
  | 't' :: 'r' :: 'u' :: 'e' :: rest => some (bool true, rest)
  | 'f' :: 'a' :: 'l' :: 's' :: 'e' :: rest => some (bool false, rest)
  | _ => none

mutual

/-- A value, at most `fuel` levels deep. -/
def readValue : Nat → List Char → Option (Json × List Char)
  | 0, _ => none
  | fuel + 1, cs =>
      match skipSpace cs with
      | '"' :: rest => do
          let (text, rest) ← readText rest
          return (string (String.ofList text), rest)
      | '[' :: rest =>
          match skipSpace rest with
          | ']' :: rest => some (array [], rest)
          | rest => do
              let (items, rest) ← readItems fuel rest
              return (array items, rest)
      | '\x7b' :: rest =>
          match skipSpace rest with
          | '\x7d' :: rest => some (object [], rest)
          | rest => do
              let (members, rest) ← readMembers fuel rest
              return (object members, rest)
      | c :: rest =>
          if c == '-' || c.isDigit then readNumber (c :: rest) else readWord (c :: rest)
      | [] => none

/-- The items of an array after its opening bracket, and the closing bracket. -/
def readItems : Nat → List Char → Option (List Json × List Char)
  | 0, _ => none
  | fuel + 1, cs => do
      let (item, rest) ← readValue fuel cs
      match skipSpace rest with
      | ',' :: rest =>
          let (items, rest) ← readItems fuel rest
          return (item :: items, rest)
      | ']' :: rest => return ([item], rest)
      | _ => none

/-- The members of an object after its opening brace, and the closing brace. -/
def readMembers : Nat → List Char → Option (List (String × Json) × List Char)
  | 0, _ => none
  | fuel + 1, cs =>
      match skipSpace cs with
      | '"' :: rest => do
          let (name, rest) ← readText rest
          match skipSpace rest with
          | ':' :: rest =>
              let (value, rest) ← readValue fuel rest
              match skipSpace rest with
              | ',' :: rest =>
                  let (members, rest) ← readMembers fuel rest
                  return ((String.ofList name, value) :: members, rest)
              | '\x7d' :: rest => return ([(String.ofList name, value)], rest)
              | _ => none
          | _ => none
      | _ => none

end

/-- The value that the whole text writes. -/
def parse? (text : String) : Option Json :=
  let cs := text.toList
  match readValue (2 * cs.length + 2) cs with
  | some (value, rest) => if (skipSpace rest).isEmpty then some value else none
  | none => none

end TypedSql.Json

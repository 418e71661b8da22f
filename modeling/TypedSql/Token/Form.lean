import TypedSql.Text.CharClass
import TypedSql.Token.Basic
import TypedSql.Token.Trivia

/-!
# The forms of tokens

The token grammar is a list of alternatives, the forms.  Each one accepts a piece at the beginning
of a text or none, and the reader takes the first form that accepts.  `Form.length?_bounds` says
that an accepted piece has at least one character, so reading always moves on.
-/

namespace TypedSql.Token

open Text

/-- An alternative of the token grammar. -/
inductive Form
  /-- A text in single quotes; a quote inside it is doubled. -/
  | text
  /-- The letter x and a text in single quotes. -/
  | blob
  /-- A name in double quotes; a quote inside it is doubled. -/
  | doubleQuoted
  /-- A name in backquotes, without a backquote. -/
  | backquoted
  /-- A name in brackets, without a closing bracket. -/
  | bracketed
  /-- `0x` and hexadecimal digits. -/
  | hexadecimal
  /-- Digits, a point, and perhaps digits and an exponent. -/
  | pointed
  /-- A point and digits, and perhaps an exponent. -/
  | leadingPoint
  /-- Digits and an exponent. -/
  | exponential
  /-- Digits. -/
  | digits
  /-- A question mark and perhaps digits. -/
  | place
  /-- One of `:`, `@` and `$` and a name. -/
  | named
  /-- A letter or underscore, and letters, numbers and underscores. -/
  | word
  /-- A fixed spelling of at least one character. -/
  | mark (kind : Kind) (first : Char) (more : List Char)
deriving DecidableEq, Repr

/-- A character that can continue a word. -/
def isNameChar (c : Char) : Bool := isAlphabetic c || isNumeric c || c == '_'

/-- A character that can begin a word. -/
def isNameStart (c : Char) : Bool := isAlphabetic c || c == '_'

/-- A hexadecimal digit. -/
def isHexDigit (c : Char) : Bool :=
  c.isDigit || (decide ('a' ≤ c) && decide (c ≤ 'f')) || (decide ('A' ≤ c) && decide (c ≤ 'F'))

/-- The length of a quoted piece after its opening quote, the closing quote included.  A doubled
quote belongs to the piece. -/
def doubledTail? (q : Char) : List Char → Option Nat
  | [] => none
  | [c] => if c = q then some 1 else none
  | c :: d :: cs =>
      if c = q then
        if d = q then (doubledTail? q cs).map (· + 2) else some 1
      else (doubledTail? q (d :: cs)).map (· + 1)

/-- The length of a quoted piece after its opening quote, up to the first `q`, which closes it. -/
def plainTail? (q : Char) : List Char → Option Nat
  | [] => none
  | c :: cs => if c = q then some 1 else (plainTail? q cs).map (· + 1)

/-- The length of a run of at least one digit. -/
def digits? (cs : List Char) : Option Nat :=
  let n := countWhile Char.isDigit cs
  if n = 0 then none else some n

/-- The length of an exponent: the letter e, perhaps a sign, and digits. -/
def exponent? (cs : List Char) : Option Nat :=
  match cs with
  | e :: sign :: rest =>
      if e = 'e' ∨ e = 'E' then
        if sign = '+' ∨ sign = '-' then (digits? rest).map (· + 2)
        else (digits? (sign :: rest)).map (· + 1)
      else none
  | _ => none

/-- The length of an exponent, or zero where there is none. -/
def exponentLength (cs : List Char) : Nat := (exponent? cs).getD 0

/-- The length of the piece that a form accepts at the beginning of the text. -/
def Form.length? (f : Form) (cs : List Char) : Option Nat :=
  match f, cs with
  | .text, '\'' :: rest => (doubledTail? '\'' rest).map (· + 1)
  | .blob, x :: '\'' :: rest =>
      if x = 'x' ∨ x = 'X' then (doubledTail? '\'' rest).map (· + 2) else none
  | .doubleQuoted, '"' :: rest => (doubledTail? '"' rest).map (· + 1)
  | .backquoted, '\x60' :: rest => (plainTail? '\x60' rest).map (· + 1)
  | .bracketed, '[' :: rest => (plainTail? ']' rest).map (· + 1)
  | .hexadecimal, '0' :: 'x' :: rest =>
      if countWhile isHexDigit rest = 0 then none else some (countWhile isHexDigit rest + 2)
  | .pointed, cs =>
      (digits? cs).bind fun n =>
        match cs.drop n with
        | '.' :: rest =>
            let m := countWhile Char.isDigit rest
            some (n + 1 + m + exponentLength (rest.drop m))
        | _ => none
  | .leadingPoint, '.' :: rest =>
      (digits? rest).map fun n => 1 + n + exponentLength (rest.drop n)
  | .exponential, cs => (digits? cs).bind fun n => (exponent? (cs.drop n)).map (n + ·)
  | .digits, cs => digits? cs
  | .place, '?' :: rest => some (1 + countWhile Char.isDigit rest)
  | .named, sigil :: rest =>
      if (sigil = ':' ∨ sigil = '@' ∨ sigil = '$') ∧ countWhile isNameChar rest ≠ 0 then
        some (1 + countWhile isNameChar rest)
      else none
  | .word, c :: rest =>
      if isNameStart c then some (1 + countWhile isNameChar rest) else none
  | .mark _ first more, cs =>
      if (first :: more).isPrefixOf cs then some (more.length + 1) else none
  | _, _ => none

/-- The kind of a token of this form with the text `piece`. -/
def Form.kind (f : Form) (piece : String) : Kind :=
  match f with
  | .text => .string
  | .blob => .blob
  | .doubleQuoted | .backquoted | .bracketed => .quotedIdentifier
  | .hexadecimal | .digits => .integer
  | .pointed | .leadingPoint | .exponential => .float
  | .place | .named => .parameter
  | .word => if isKeyword piece then .keyword else .identifier
  | .mark kind _ _ => kind

/-- The forms in the order in which the reader tries them. -/
def forms : List Form :=
  [.text, .blob, .doubleQuoted, .backquoted, .bracketed,
   .hexadecimal, .pointed, .leadingPoint, .exponential, .digits, .place, .named, .word,
   .mark .leftParen '(' [], .mark .rightParen ')' [], .mark .comma ',' [], .mark .dot '.' [],
   .mark .semicolon ';' [], .mark .star '*' [],
   .mark .operator '-' ['>', '>'], .mark .operator ':' [':'], .mark .operator '|' ['|'],
   .mark .operator '<' ['='], .mark .operator '>' ['='], .mark .operator '<' ['>'],
   .mark .operator '!' ['='], .mark .operator '=' ['='], .mark .operator '<' ['<'],
   .mark .operator '>' ['>'], .mark .operator '-' ['>'],
   .mark .operator '=' [], .mark .operator '<' [], .mark .operator '>' [],
   .mark .operator '+' [], .mark .operator '-' [], .mark .operator '/' [],
   .mark .operator '%' [], .mark .operator '&' [], .mark .operator '|' [],
   .mark .operator '~' []]

/-- The first form that accepts a piece of the text, and the length of the piece. -/
def firstForm? (cs : List Char) : Option (Form × Nat) :=
  forms.findSome? fun f => (f.length? cs).map fun n => (f, n)

/-! ## Accepted pieces are not empty and lie in the text -/

theorem doubledTail?_le (q : Char) {cs : List Char} {n : Nat} (h : doubledTail? q cs = some n) :
    n ≤ cs.length := by
  fun_induction doubledTail? q cs generalizing n with
  | case1 => simp at h
  | case2 => simp at h; simp; omega
  | case3 => simp at h
  | case4 _ ih =>
      obtain ⟨m, hm, rfl⟩ := Option.map_eq_some_iff.mp h
      have := ih hm
      simp
      omega
  | case5 => simp at h; simp; omega
  | case6 _ _ _ _ ih =>
      obtain ⟨m, hm, rfl⟩ := Option.map_eq_some_iff.mp h
      have := ih hm
      simp at this ⊢
      omega

theorem plainTail?_le (q : Char) {cs : List Char} {n : Nat} (h : plainTail? q cs = some n) :
    n ≤ cs.length := by
  induction cs generalizing n with
  | nil => simp [plainTail?] at h
  | cons c cs ih =>
      simp only [plainTail?] at h
      split at h
      · simp at h; simp; omega
      · obtain ⟨m, hm, rfl⟩ := Option.map_eq_some_iff.mp h
        have := ih hm
        simp
        omega

theorem digits?_bounds {cs : List Char} {n : Nat} (h : digits? cs = some n) :
    0 < n ∧ n ≤ cs.length := by
  have := countWhile_le Char.isDigit cs
  simp only [digits?] at h
  split at h
  · simp at h
  · simp at h; omega

theorem exponent?_le {cs : List Char} {n : Nat} (h : exponent? cs = some n) :
    n ≤ cs.length := by
  unfold exponent? at h
  split at h
  · split at h
    · split at h
      · obtain ⟨m, hm, rfl⟩ := Option.map_eq_some_iff.mp h
        have := digits?_bounds hm
        simp
        omega
      · obtain ⟨m, hm, rfl⟩ := Option.map_eq_some_iff.mp h
        have := digits?_bounds hm
        simp at this ⊢
        omega
    · simp at h
  · simp at h

theorem exponentLength_le (cs : List Char) : exponentLength cs ≤ cs.length := by
  unfold exponentLength
  cases h : exponent? cs with
  | none => simp
  | some n => simpa using exponent?_le h

/-- An accepted piece has at least one character, and no more than the text. -/
theorem Form.length?_bounds {f : Form} {cs : List Char} {n : Nat} (h : f.length? cs = some n) :
    0 < n ∧ n ≤ cs.length := by
  unfold Form.length? at h
  split at h
  · obtain ⟨m, hm, rfl⟩ := Option.map_eq_some_iff.mp h
    have := doubledTail?_le _ hm
    simp
    omega
  · split at h
    · obtain ⟨m, hm, rfl⟩ := Option.map_eq_some_iff.mp h
      have := doubledTail?_le _ hm
      simp
      omega
    · simp at h
  · obtain ⟨m, hm, rfl⟩ := Option.map_eq_some_iff.mp h
    have := doubledTail?_le _ hm
    simp
    omega
  · obtain ⟨m, hm, rfl⟩ := Option.map_eq_some_iff.mp h
    have := plainTail?_le _ hm
    simp
    omega
  · obtain ⟨m, hm, rfl⟩ := Option.map_eq_some_iff.mp h
    have := plainTail?_le _ hm
    simp
    omega
  · next rest =>
      have := countWhile_le isHexDigit rest
      split at h
      · simp at h
      · simp at h; simp; omega
  · obtain ⟨m, hm, h⟩ := Option.bind_eq_some_iff.mp h
    have hb := digits?_bounds hm
    split at h
    · next rest hd =>
        have hl := congrArg List.length hd
        simp at hl
        have h1 := countWhile_le Char.isDigit rest
        have h2 := exponentLength_le (rest.drop (countWhile Char.isDigit rest))
        simp at h h2
        omega
    · simp at h
  · next rest =>
      obtain ⟨m, hm, rfl⟩ := Option.map_eq_some_iff.mp h
      have hb := digits?_bounds hm
      have h2 := exponentLength_le (rest.drop m)
      simp at h2 ⊢
      omega
  · obtain ⟨m, hm, h⟩ := Option.bind_eq_some_iff.mp h
    obtain ⟨k, hk, rfl⟩ := Option.map_eq_some_iff.mp h
    have hb := digits?_bounds hm
    have := exponent?_le hk
    simp at this
    omega
  · exact digits?_bounds h
  · next rest =>
      have := countWhile_le Char.isDigit rest
      simp at h
      simp
      omega
  · next rest =>
      have := countWhile_le isNameChar rest
      split at h
      · simp at h; simp; omega
      · simp at h
  · next rest =>
      have := countWhile_le isNameChar rest
      split at h
      · simp at h; simp; omega
      · simp at h
  · split at h
    · next hp =>
        have := (List.isPrefixOf_iff_prefix.mp hp).length_le
        simp at h this
        omega
    · simp at h
  · simp at h

theorem firstForm?_bounds {cs : List Char} {f : Form} {n : Nat}
    (h : firstForm? cs = some (f, n)) : 0 < n ∧ n ≤ cs.length := by
  obtain ⟨g, _, hg⟩ := List.exists_of_findSome?_eq_some h
  obtain ⟨m, hm, he⟩ := Option.map_eq_some_iff.mp hg
  simp at he
  exact Form.length?_bounds (he.2 ▸ hm)

end TypedSql.Token

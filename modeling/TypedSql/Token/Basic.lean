import TypedSql.Position
import TypedSql.Text.Basic

/-!
# Tokens

A token is a piece of SQL text with its kind, its bytes in the text and its position in the file.
Many SQL words are reserved only in some places, so `isWord` looks at the spelling of keywords and
bare identifiers alike.
-/

namespace TypedSql

open Text

namespace Token

/-! ## Keywords

The words that the reader marks as keywords, and among them the reserved ones, which can never be
the name of anything. -/

/-- The keywords, in lower case. -/
def keywords : List String :=
  ["all", "alter", "and", "as", "asc", "autoincrement", "between", "by", "case", "cast", "check",
   "collate", "column", "conflict", "constraint", "create", "cross", "current_date",
   "current_time", "current_timestamp", "default", "delete", "desc", "distinct", "do", "drop",
   "else", "end", "escape", "except", "exists", "false", "filter", "foreign", "from", "full",
   "glob", "group", "having", "if", "ignore", "in", "index", "inner", "insert", "intersect",
   "into", "is", "isnull", "join", "left", "like", "limit", "match", "materialized", "natural",
   "not", "nothing", "notnull", "null", "nulls", "offset", "on", "or", "order", "outer", "over",
   "partition", "primary", "recursive", "references", "regexp", "returning", "right", "select",
   "set", "table", "then", "to", "true", "union", "unique", "update", "using", "values", "view",
   "when", "where", "window", "with", "without"]

/-- The keywords that are never a name, in lower case. -/
def reservedWords : List String :=
  ["all", "and", "as", "between", "by", "case", "cast", "check", "collate", "constraint",
   "create", "cross", "current_date", "current_time", "current_timestamp", "default", "delete",
   "distinct", "else", "end", "except", "exists", "false", "from", "full", "group", "having",
   "in", "inner", "insert", "intersect", "into", "is", "join", "left", "limit", "natural", "not",
   "null", "offset", "on", "or", "order", "outer", "returning", "right", "select", "set", "then",
   "true", "union", "update", "using", "values", "when", "where", "window", "with"]

/-- The word is a keyword, in any case. -/
def isKeyword (word : String) : Bool := keywords.contains (lowerCase word)

/-- The word is a keyword that is never a name, in any case. -/
def isReserved (word : String) : Bool := reservedWords.contains (lowerCase word)

/-- Every reserved word is a keyword: both lists are sorted, and one is a part of the other. -/
theorem reservedWords_subset_keywords : ∀ w ∈ reservedWords, w ∈ keywords := by
  have hsublist : reservedWords.Sublist keywords := by
    unfold reservedWords keywords
    repeat' first | exact .slnil | apply List.Sublist.cons_cons | apply List.Sublist.cons
  exact fun w hw => hsublist.subset hw

/-! ## Quoting

A name or a text in quotes.  Inside double quotes, backquotes and single quotes the quote itself
is written twice; a bracketed name holds its characters as they are.  `unquote` takes one pair of
quotes off and leaves a text alone that has none. -/

/-- Writes every pair of `q` as one. -/
def undouble (q : Char) : List Char → List Char
  | [] => []
  | [c] => [c]
  | c :: d :: cs =>
      if c = q ∧ d = q then q :: undouble q cs else c :: undouble q (d :: cs)

/-- Writes every `q` twice. -/
def double (q : Char) : List Char → List Char
  | [] => []
  | c :: cs => if c = q then q :: q :: double q cs else c :: double q cs

/-- The text inside a pair of quotes; a text without such a pair is left as it is. -/
def unquoteChars (cs : List Char) : List Char :=
  match cs with
  | first :: second :: rest =>
      let last := (second :: rest).getLast (by simp)
      let inner := (second :: rest).dropLast
      if first = last ∧ (first = '"' ∨ first = '\x60' ∨ first = '\'') then undouble first inner
      else if first = '[' ∧ last = ']' then inner
      else cs
  | _ => cs

/-- The text inside a pair of quotes; a text without such a pair is left as it is. -/
def unquote (s : String) : String := String.ofList (unquoteChars s.toList)

theorem undouble_double (q : Char) (cs : List Char) : undouble q (double q cs) = cs := by
  induction cs with
  | nil => rfl
  | cons c cs ih =>
      by_cases h : c = q
      · simp [double, undouble, h, ih]
      · rw [double, if_neg h]
        cases hd : double q cs with
        | nil => rw [hd] at ih; simp [undouble] at ih ⊢; exact ih
        | cons d ds => rw [undouble, if_neg (by simp [h]), ← hd, ih]

/-- A text between two equal quotes reads back as it was before it was quoted. -/
theorem unquoteChars_double (q : Char) (h : q = '"' ∨ q = '\x60' ∨ q = '\'') (cs : List Char) :
    unquoteChars (q :: (double q cs ++ [q])) = cs := by
  cases hd : double q cs ++ [q] with
  | nil => simp at hd
  | cons d ds =>
      have hlast : (d :: ds).getLast (by simp) = q := by simp [← hd]
      have hinit : (d :: ds).dropLast = double q cs := by simp [← hd]
      simp only [unquoteChars, hlast, hinit]
      simp [h, undouble_double]

/-! ## Tokens -/

/-- What a token is. -/
inductive Kind
  /-- A word such as `SELECT`. -/
  | keyword
  /-- A bare word that is no keyword. -/
  | identifier
  /-- A name in double quotes, backquotes or brackets. -/
  | quotedIdentifier
  /-- A text in single quotes. -/
  | string
  /-- Bytes as hexadecimal digits in quotes. -/
  | blob
  | integer
  | float
  /-- A place for a value, such as `?`, `?1`, `:name`, `@name`, `$1`. -/
  | parameter
  | operator
  | leftParen
  | rightParen
  | comma
  | dot
  | semicolon
  | star
deriving DecidableEq, Repr

/-- The kind in words. -/
def Kind.display : Kind → String
  | .keyword => "keyword"
  | .identifier => "identifier"
  | .quotedIdentifier => "quoted identifier"
  | .string => "string"
  | .blob => "blob"
  | .integer => "integer"
  | .float => "float"
  | .parameter => "parameter"
  | .operator => "operator"
  | .leftParen => "'('"
  | .rightParen => "')'"
  | .comma => "','"
  | .dot => "'.'"
  | .semicolon => "';'"
  | .star => "'*'"

end Token

/-- A piece of SQL text, quotes included, with its place. -/
structure Token where
  kind : Token.Kind
  text : String
  span : Span
  position : Position
deriving DecidableEq, Repr

namespace Token

/-- A keyword or a bare identifier spelled `word`, in any case. -/
def isWord (t : Token) (word : String) : Bool :=
  (t.kind == .keyword || t.kind == .identifier) && eqIgnoreCase t.text word

/-- A keyword or a bare identifier spelled like one of `words`, in any case. -/
def isAnyWord (t : Token) (words : List String) : Bool := words.any t.isWord

/-- A bare or quoted identifier. -/
def isIdentifier (t : Token) : Bool := t.kind == .identifier || t.kind == .quotedIdentifier

/-- An identifier, or a keyword that can still name something. -/
def isName (t : Token) : Bool :=
  t.isIdentifier || (t.kind == .keyword && !isReserved t.text)

/-- The operator spelled `op`. -/
def isOperator (t : Token) (op : String) : Bool := t.kind == .operator && t.text == op

/-- The text without its quotes. -/
def value (t : Token) : String :=
  match t.kind with
  | .quotedIdentifier | .string => unquote t.text
  | _ => t.text

/-- The form of the value under which names are looked up. -/
def normalized (t : Token) : String := lowerCase t.value

/-- A token is not spelled like two different words. -/
theorem isWord_of_ne {t : Token} {words : List String} {word : String}
    (h : t.isAnyWord words = true) (hword : words.any (eqIgnoreCase word) = false) :
    t.isWord word = false := by
  obtain ⟨w, hw, hthis⟩ := List.any_eq_true.mp h
  rw [Bool.eq_false_iff]
  intro hother
  have hne := List.any_eq_false.mp hword w hw
  rw [isWord, Bool.and_eq_true] at hthis hother
  exact hne (eqIgnoreCase_iff.mpr
    ((eqIgnoreCase_iff.mp hother.2).symm.trans (eqIgnoreCase_iff.mp hthis.2)))

theorem isWord_of_isWord {t : Token} {word other : String} (h : t.isWord other = true)
    (hne : eqIgnoreCase word other = false) : t.isWord word = false := by
  refine @isWord_of_ne t [other] word ?_ ?_
  · rw [isAnyWord, List.any_cons, h]
    rfl
  · rw [List.any_cons, hne]
    rfl

theorem isAnyWord_of_ne {t : Token} {words others : List String} (h : t.isAnyWord words = true)
    (hothers : (others.all fun other => !words.any (eqIgnoreCase other)) = true) :
    t.isAnyWord others = false := by
  rw [isAnyWord, List.any_eq_false]
  intro other hmem
  rw [Bool.not_eq_true]
  have hnone := List.all_eq_true.mp hothers other hmem
  exact isWord_of_ne h (Bool.not_eq_true' _ ▸ hnone)

/-- A token that is none of the words is none of some of them. -/
theorem isAnyWord_of_subset {t : Token} {words others : List String}
    (h : t.isAnyWord words = false) (hothers : ∀ w ∈ others, w ∈ words) :
    t.isAnyWord others = false := by
  rw [isAnyWord, List.any_eq_false]
  exact fun w hw => List.any_eq_false.mp h w (hothers w hw)

theorem isAnyWord_of_isWord {t : Token} {word : String} (h : t.isWord word = true) :
    t.isAnyWord [word] = true := by
  rw [isAnyWord, List.any_cons, h]
  rfl

theorem kind_of_isAnyWord {t : Token} {words : List String} (h : t.isAnyWord words = true) :
    t.kind = .keyword ∨ t.kind = .identifier := by
  obtain ⟨w, -, hw⟩ := List.any_eq_true.mp h
  rw [isWord, Bool.and_eq_true, Bool.or_eq_true] at hw
  exact hw.1.imp beq_iff_eq.mp beq_iff_eq.mp

end Token

end TypedSql

import TypedSql.Analysis.Identifier
import TypedSql.Proofs.Token.Balanced

/-!
# Expressions over quoted references

A grammar of expressions whose names are all written `"q"."c"`.  No statement is ever parsed in
this way; the grammar says for which statements the scans of the analysis find every reference and
nothing else.  The words that steer a scan are keywords, so the grammar keeps them out of the
tokens that a scan passes over.

Main definitions: `Grammar.Writes`, `Grammar.Selection`.  Main statements: `Writes.outside`,
`Writes.noComma`, `Writes.quiet_last`.
-/

namespace TypedSql

open Text Token

namespace Token

/-- The token has that kind and that text. -/
def Is (t : Token) (kind : Kind) (text : String) : Prop := t.kind = kind ∧ t.text = text

/-- A keyword spelled `word`, in any case. -/
def IsKeyword (t : Token) (word : String) : Prop :=
  t.kind = .keyword ∧ eqIgnoreCase t.text word = true

/-- A bare word that is no keyword. -/
def IsBareName (t : Token) : Prop := t.kind = .identifier ∧ isKeyword t.text = false

/-- A word or a quoted text that can name something. -/
def IsNaming (t : Token) : Prop :=
  t.IsBareName ∨ t.kind = .quotedIdentifier ∨ (t.kind = .keyword ∧ isReserved t.text = false)

/-- A text, a number or `NULL`. -/
def IsLiteral (t : Token) : Prop :=
  t.kind = .string ∨ t.kind = .integer ∨ t.kind = .float ∨ t.IsKeyword "NULL"

/-- The marks that stand between two operands. -/
def binaryMarks : List String := ["=", "<>", "<", "<=", ">", ">=", "||", "+", "-", "/", "%"]

/-- An operator between two operands. -/
def IsBinaryOperator (t : Token) : Prop :=
  (t.kind = .operator ∧ t.text ∈ binaryMarks) ∨ t.IsKeyword "AND" ∨ t.IsKeyword "OR" ∨
    t.IsKeyword "LIKE"

end Token

namespace Grammar

/-- A column with its relation, both in quotes. -/
structure ColumnRef where
  qualifier : Token
  column : Token
deriving DecidableEq, Repr

/-- What a list of tokens is to write. -/
inductive Part
  /-- An expression without operators outside all parentheses. -/
  | primary
  | expression
  /-- Expressions with commas between them. -/
  | arguments
deriving DecidableEq, Repr

/-- The tokens write such a part, with these references in it from left to right. -/
inductive Writes : Part → List Token → List ColumnRef → Prop
  | reference {q dot c : Token} (hq : q.kind = .quotedIdentifier) (hdot : dot.Is .dot ".")
      (hc : c.kind = .quotedIdentifier) : Writes .primary [q, dot, c] [⟨q, c⟩]
  | literal {t : Token} (ht : t.IsLiteral) : Writes .primary [t] []
  | parameter {t : Token} (ht : t.kind = .parameter) : Writes .primary [t] []
  | group {o c : Token} {xs : List Token} {rs : List ColumnRef} (ho : o.Is .leftParen "(")
      (hc : c.Is .rightParen ")") (hx : Writes .expression xs rs) :
      Writes .primary (o :: (xs ++ [c])) rs
  | emptyCall {f o c : Token} (hf : f.IsBareName) (ho : o.Is .leftParen "(")
      (hc : c.Is .rightParen ")") : Writes .primary [f, o, c] []
  | call {f o c : Token} {xs : List Token} {rs : List ColumnRef} (hf : f.IsBareName)
      (ho : o.Is .leftParen "(") (hc : c.Is .rightParen ")") (hx : Writes .arguments xs rs) :
      Writes .primary (f :: o :: (xs ++ [c])) rs
  | choice {k w t e n : Token} {xs ys zs : List Token} {rs ss us : List ColumnRef}
      (hk : k.IsKeyword "CASE") (hw : w.IsKeyword "WHEN") (ht : t.IsKeyword "THEN")
      (he : e.IsKeyword "ELSE") (hn : n.IsKeyword "END") (hx : Writes .expression xs rs)
      (hy : Writes .expression ys ss) (hz : Writes .expression zs us) :
      Writes .primary (k :: w :: (xs ++ t :: (ys ++ e :: (zs ++ [n])))) (rs ++ (ss ++ us))
  | cast {k o a t c : Token} {xs : List Token} {rs : List ColumnRef} (hk : k.IsKeyword "CAST")
      (ho : o.Is .leftParen "(") (ha : a.IsKeyword "AS")
      (ht : t.IsBareName ∨ t.kind = .quotedIdentifier) (hc : c.Is .rightParen ")")
      (hx : Writes .expression xs rs) : Writes .primary (k :: o :: (xs ++ [a, t, c])) rs
  | operand {xs : List Token} {rs : List ColumnRef} (hx : Writes .primary xs rs) :
      Writes .expression xs rs
  | negation {k : Token} {xs : List Token} {rs : List ColumnRef} (hk : k.IsKeyword "NOT")
      (hx : Writes .expression xs rs) : Writes .expression (k :: xs) rs
  | binary {op : Token} {xs ys : List Token} {rs ss : List ColumnRef}
      (hx : Writes .expression xs rs) (hop : op.IsBinaryOperator) (hy : Writes .expression ys ss) :
      Writes .expression (xs ++ op :: ys) (rs ++ ss)
  | single {xs : List Token} {rs : List ColumnRef} (hx : Writes .expression xs rs) :
      Writes .arguments xs rs
  | more {comma : Token} {xs ys : List Token} {rs ss : List ColumnRef}
      (hx : Writes .expression xs rs) (hcomma : comma.Is .comma ",")
      (hy : Writes .arguments ys ss) : Writes .arguments (xs ++ comma :: ys) (rs ++ ss)

/-- Expressions with aliases in quotes, and commas between them. -/
inductive Items : List Token → List ColumnRef → Prop
  | single {a n : Token} {xs : List Token} {rs : List ColumnRef} (hx : Writes .expression xs rs)
      (ha : a.IsKeyword "AS") (hn : n.kind = .quotedIdentifier) : Items (xs ++ [a, n]) rs
  | more {a n comma : Token} {xs ys : List Token} {rs ss : List ColumnRef}
      (hx : Writes .expression xs rs) (ha : a.IsKeyword "AS") (hn : n.kind = .quotedIdentifier)
      (hcomma : comma.Is .comma ",") (hy : Items ys ss) :
      Items (xs ++ a :: n :: comma :: ys) (rs ++ ss)

/-- A statement `SELECT e1 AS "n1", … FROM "T" AS "A" WHERE e0`. -/
structure Selection where
  select : Token
  items : List Token
  source : Token
  table : Token
  asWord : Token
  aliasName : Token
  filter : Token
  condition : List Token
  /-- The references in the items. -/
  itemRefs : List ColumnRef
  /-- The references in the condition. -/
  conditionRefs : List ColumnRef
  hselect : select.IsKeyword "SELECT"
  hitems : Items items itemRefs
  hsource : source.IsKeyword "FROM"
  htable : table.kind = .quotedIdentifier
  hasWord : asWord.IsKeyword "AS"
  halias : aliasName.kind = .quotedIdentifier
  hfilter : filter.IsKeyword "WHERE"
  hcondition : Writes .expression condition conditionRefs

namespace Selection

/-- The tokens of the statement. -/
def tokens (q : Selection) : List Token :=
  q.select :: (q.items ++
    q.source :: q.table :: q.asWord :: q.aliasName :: q.filter :: q.condition)

/-- Its references from left to right. -/
def refs (q : Selection) : List ColumnRef := q.itemRefs ++ q.conditionRefs

end Selection

end Grammar

/-! ## Words -/

namespace Token

variable {t : Token}

theorem isAnyWord_of_kind (hkeyword : t.kind ≠ .keyword) (hidentifier : t.kind ≠ .identifier)
    (words : List String) : t.isAnyWord words = false := by
  rw [isAnyWord, List.any_eq_false]
  intro w _
  rw [isWord, beq_eq_false_iff_ne.mpr hkeyword, beq_eq_false_iff_ne.mpr hidentifier]
  exact Bool.false_ne_true

theorem isWord_of_isAnyWord {words : List String} (h : t.isAnyWord words = false) {w : String}
    (hw : w ∈ words) : t.isWord w = false :=
  Bool.eq_false_iff.mpr (List.any_eq_false.mp h w hw)

theorem kind_ne_of_isAnyWord {words : List String} (h : t.isAnyWord words = true) :
    t.kind ≠ .leftParen ∧ t.kind ≠ .rightParen := by
  rcases kind_of_isAnyWord h with hkind | hkind <;> simp [hkind]

theorem kind_ne_of_isName (h : t.isName = true) : t.kind ≠ .leftParen ∧ t.kind ≠ .rightParen := by
  constructor <;> intro hkind <;> simp [isName, isIdentifier, hkind] at h

/-- A keyword is the word of its own text. -/
theorem IsKeyword.of_text {t : Token} (h : t.kind = .keyword) : t.IsKeyword t.text :=
  ⟨h, eqIgnoreCase_iff.mpr rfl⟩

/-- A keyword of that text is that keyword. -/
theorem IsKeyword.of_word {word : String} (h : (t.kind, t.text) = (Kind.keyword, word)) :
    t.IsKeyword word :=
  ⟨congrArg Prod.fst h, eqIgnoreCase_iff.mpr (congrArg lowerCase (congrArg Prod.snd h))⟩

/-- A name in quotes can name something. -/
theorem isName_of_quoted (h : t.kind = .quotedIdentifier) : t.isName = true := by
  rw [isName, isIdentifier, h]
  rfl

theorem IsKeyword.isWord {word : String} (h : t.IsKeyword word) (w : String) :
    t.isWord w = eqIgnoreCase word w := by
  obtain ⟨hkind, htext⟩ := h
  rw [Token.isWord, hkind, eqIgnoreCase, eqIgnoreCase, eqIgnoreCase_iff.mp htext]
  rfl

theorem IsKeyword.isAnyWord {word : String} (h : t.IsKeyword word) (words : List String) :
    t.isAnyWord words = words.any (eqIgnoreCase word) := by
  have hword : t.isWord = eqIgnoreCase word := funext h.isWord
  rw [Token.isAnyWord, hword]

/-- A bare name is none of the keywords. -/
theorem IsBareName.isAnyWord (h : t.IsBareName) {words : List String}
    (hwords : words.all isKeyword = true) : t.isAnyWord words = false := by
  rw [Token.isAnyWord, List.any_eq_false]
  intro w hw hword
  rw [Token.isWord, Bool.and_eq_true] at hword
  have hkeyword : isKeyword t.text = isKeyword w := by
    rw [isKeyword, isKeyword, eqIgnoreCase_iff.mp hword.2]
  rw [h.2, List.all_eq_true.mp hwords w hw] at hkeyword
  exact Bool.false_ne_true hkeyword

theorem IsNaming.kind (h : t.IsNaming) :
    t.kind = .identifier ∨ t.kind = .quotedIdentifier ∨ t.kind = .keyword :=
  h.imp (·.1) (·.imp_right (·.1))

theorem IsNaming.isName (h : t.IsNaming) : t.isName = true := by
  unfold Token.isName isIdentifier
  rcases h with h | h | ⟨h, hreserved⟩
  · rw [h.1]
    rfl
  · rw [h]
    rfl
  · rw [h, hreserved]
    rfl

/-- Such a token is none of the reserved words. -/
theorem IsNaming.isAnyWord (h : t.IsNaming) {words : List String}
    (hwords : words.all isReserved = true) : t.isAnyWord words = false := by
  rcases h with h | h | ⟨h, hreserved⟩
  · refine h.isAnyWord (List.all_eq_true.mpr fun w hw => ?_)
    have hmem := List.contains_iff_mem.mp (List.all_eq_true.mp hwords w hw)
    exact List.contains_iff_mem.mpr (reservedWords_subset_keywords _ hmem)
  · exact isAnyWord_of_kind (by rw [h]; decide) (by rw [h]; decide) words
  · rw [Token.isAnyWord, List.any_eq_false]
    intro w hw hword
    rw [Token.isWord, Bool.and_eq_true] at hword
    have hsame : isReserved t.text = isReserved w := by
      rw [isReserved, isReserved, eqIgnoreCase_iff.mp hword.2]
    rw [hreserved, List.all_eq_true.mp hwords w hw] at hsame
    exact Bool.false_ne_true hsame

theorem IsBinaryOperator.kind (h : t.IsBinaryOperator) :
    t.kind = .operator ∨ t.kind = .keyword := by
  rcases h with h | h | h | h
  · exact .inl h.1
  all_goals exact .inr h.1

/-- An operator is one of its words or none at all. -/
theorem IsBinaryOperator.isAnyWord (h : t.IsBinaryOperator) {words : List String}
    (hwords : (words.any fun w => ["AND", "OR", "LIKE"].any (eqIgnoreCase · w)) = false) :
    t.isAnyWord words = false := by
  have hnone (word : String) (hword : word ∈ ["AND", "OR", "LIKE"]) :
      words.any (eqIgnoreCase word) = false := by
    rw [List.any_eq_false] at hwords ⊢
    intro w hw heq
    exact hwords w hw (List.any_eq_true.mpr ⟨word, hword, heq⟩)
  rcases h with h | h | h | h
  · exact isAnyWord_of_kind (by rw [h.1]; decide) (by rw [h.1]; decide) words
  · rw [IsKeyword.isAnyWord h]
    exact hnone "AND" (by decide)
  · rw [IsKeyword.isAnyWord h]
    exact hnone "OR" (by decide)
  · rw [IsKeyword.isAnyWord h]
    exact hnone "LIKE" (by decide)

end Token

namespace Grammar

/-- The words that a scan looks for among the tokens outside all parentheses, or behind an opening
one. -/
def steeringWords : List String :=
  ["AS", "SELECT", "WITH", "VALUES", "DISTINCT", "ALL", "FROM", "WHERE", "GROUP", "HAVING",
   "ORDER", "LIMIT", "UNION", "INTERSECT", "EXCEPT", "WINDOW", "RETURNING", "JOIN", "INTO",
   "UPDATE", "FILTER", "OVER"]

/-- The words that change what the next token is. -/
def introducingWords : List String := "USING" :: "CAST" :: Identifier.nameIntroducers

/-- No scan outside all parentheses stops at the token, but for commas. -/
def Calm (t : Token) : Prop := t.kind ≠ .semicolon ∧ t.isAnyWord steeringWords = false

/-- The token changes nothing about the one behind it. -/
def Quiet (t : Token) : Prop :=
  t.kind ≠ .dot ∧ t.isAnyWord introducingWords = false ∧ t.isOperator "::" = false

theorem calm_of_kind {t : Token} (hkeyword : t.kind ≠ .keyword) (hidentifier : t.kind ≠ .identifier)
    (hsemicolon : t.kind ≠ .semicolon) : Calm t :=
  ⟨hsemicolon, isAnyWord_of_kind hkeyword hidentifier _⟩

theorem calm_of_keyword {t : Token} {word : String} (h : t.IsKeyword word)
    (hword : steeringWords.any (eqIgnoreCase word) = false) : Calm t :=
  ⟨by rw [h.1]; decide, by rw [h.isAnyWord, hword]⟩

theorem calm_of_bareName {t : Token} (h : t.IsBareName) : Calm t :=
  ⟨by rw [h.1]; decide, h.isAnyWord (by decide +kernel)⟩

theorem calm_of_binaryOperator {t : Token} (h : t.IsBinaryOperator) : Calm t := by
  refine ⟨?_, h.isAnyWord (by decide +kernel)⟩
  rcases h.kind with hkind | hkind <;> rw [hkind] <;> decide

theorem quiet_of_kind {t : Token} (hdot : t.kind ≠ .dot) (hkeyword : t.kind ≠ .keyword)
    (hidentifier : t.kind ≠ .identifier) (hoperator : t.kind ≠ .operator) : Quiet t := by
  refine ⟨hdot, isAnyWord_of_kind hkeyword hidentifier _, ?_⟩
  rw [isOperator, beq_eq_false_iff_ne.mpr hoperator, Bool.false_and]

theorem quiet_of_keyword {t : Token} {word : String} (h : t.IsKeyword word)
    (hword : introducingWords.any (eqIgnoreCase word) = false) : Quiet t := by
  refine ⟨by rw [h.1]; decide, by rw [h.isAnyWord, hword], ?_⟩
  rw [isOperator, h.1]
  rfl

theorem quiet_of_bareName {t : Token} (h : t.IsBareName) : Quiet t := by
  refine ⟨by rw [h.1]; decide, h.isAnyWord (by decide +kernel), ?_⟩
  rw [isOperator, h.1]
  rfl

theorem quiet_of_binaryOperator {t : Token} (h : t.IsBinaryOperator) : Quiet t := by
  refine ⟨?_, h.isAnyWord (by decide +kernel), ?_⟩
  · rcases h.kind with hkind | hkind <;> rw [hkind] <;> decide
  · rcases h with ⟨hkind, htext⟩ | h | h | h
    · have hne : t.text ≠ "::" := by
        intro heq
        rw [heq] at htext
        exact absurd htext (by decide)
      rw [isOperator, beq_eq_false_iff_ne.mpr hne, Bool.and_false]
    all_goals
      rw [isOperator, h.1]
      rfl

/-! ## The tokens of an expression -/

/-- A token that stands in expressions outside all parentheses. -/
inductive Ordinary (t : Token) : Prop
  | mark (h : t.kind ∈ [Kind.string, .integer, .float, .parameter, .quotedIdentifier, .dot,
      .leftParen, .rightParen])
  | name (h : t.IsBareName)
  | operator (h : t.IsBinaryOperator)
  | word {word : String} (h : t.IsKeyword word)
      (hword : word ∈ ["NULL", "NOT", "CASE", "WHEN", "THEN", "ELSE", "END", "CAST"])

theorem Ordinary.calm {t : Token} (h : Ordinary t) : Calm t := by
  cases h with
  | mark h =>
      have hkind {kind : Kind} (hnot : kind ∉ [Kind.string, .integer, .float, .parameter,
          .quotedIdentifier, .dot, .leftParen, .rightParen]) : t.kind ≠ kind :=
        fun heq => hnot (heq ▸ h)
      exact calm_of_kind (hkind (by decide)) (hkind (by decide)) (hkind (by decide))
  | name h => exact calm_of_bareName h
  | operator h => exact calm_of_binaryOperator h
  | word h hword =>
      refine calm_of_keyword h ?_
      have hall : (["NULL", "NOT", "CASE", "WHEN", "THEN", "ELSE", "END", "CAST"].all fun w =>
          !steeringWords.any (eqIgnoreCase w)) = true := by decide +kernel
      exact Bool.not_eq_true' _ ▸ List.all_eq_true.mp hall _ hword

theorem Ordinary.noComma {t : Token} (h : Ordinary t) : NoComma t := by
  show t.kind ≠ .comma
  cases h with
  | mark h =>
      intro heq
      rw [heq] at h
      exact absurd h (by decide)
  | name h =>
      rw [h.1]
      decide
  | operator h => rcases h.kind with hkind | hkind <;> rw [hkind] <;> decide
  | word h _ =>
      rw [h.1]
      decide

theorem Ordinary.of_literal {t : Token} (h : t.IsLiteral) : Ordinary t := by
  rcases h with h | h | h | h
  · exact .mark (by rw [h]; decide)
  · exact .mark (by rw [h]; decide)
  · exact .mark (by rw [h]; decide)
  · exact .word h (by decide)

/-- A token that can stand in such a part outside all parentheses. -/
def Allowed (part : Part) (t : Token) : Prop := Ordinary t ∨ (part = .arguments ∧ t.kind = .comma)

theorem outside_token {part : Part} {t : Token} (h : Ordinary t) (hopen : t.kind ≠ .leftParen)
    (hclose : t.kind ≠ .rightParen) : Outside (Allowed part) [t] :=
  .token (.inl h) hopen hclose

theorem outside_keyword {part : Part} {t : Token} {word : String} (h : t.IsKeyword word)
    (hword : word ∈ ["NULL", "NOT", "CASE", "WHEN", "THEN", "ELSE", "END", "CAST"]) :
    Outside (Allowed part) [t] :=
  outside_token (.word h hword) (by rw [h.1]; decide) (by rw [h.1]; decide)

theorem outside_mark {part : Part} {t : Token} {kind : Kind} (h : t.kind = kind)
    (hkind : kind ∈ [Kind.string, .integer, .float, .parameter, .quotedIdentifier, .dot]) :
    Outside (Allowed part) [t] := by
  have hnot {other : Kind} (hother : other ∉ [Kind.string, .integer, .float, .parameter,
      .quotedIdentifier, .dot]) : t.kind ≠ other := fun heq => hother (heq ▸ h ▸ hkind)
  refine outside_token (.mark ?_) (hnot (by decide)) (hnot (by decide))
  rw [h]
  exact List.mem_of_mem_take (i := 6) hkind

theorem outside_group {part : Part} {o c : Token} {xs : List Token} (ho : o.Is .leftParen "(")
    (hc : c.Is .rightParen ")") (hx : Balanced xs) : Outside (Allowed part) (o :: (xs ++ [c])) :=
  .group ho.1 hc.1 (.inl (.mark (by rw [ho.1]; decide))) (.inl (.mark (by rw [hc.1]; decide))) hx

theorem balanced_alias {a t : Token} (ha : a.IsKeyword "AS")
    (ht : t.IsBareName ∨ t.kind = .quotedIdentifier) : Balanced [a, t] := by
  have hkind : t.kind = .identifier ∨ t.kind = .quotedIdentifier := ht.imp_left And.left
  have ht : Balanced [t] := by
    rcases hkind with h | h <;> exact .token (by rw [h]; decide) (by rw [h]; decide)
  exact .append (.token (by rw [ha.1]; decide) (by rw [ha.1]; decide)) ht

namespace Writes

variable {part : Part} {xs : List Token} {rs : List ColumnRef}

/-- Outside its parentheses an expression has ordinary tokens only. -/
theorem outside (h : Writes part xs rs) : Outside (Allowed part) xs := by
  induction h with
  | reference hq hdot hc =>
      exact (outside_mark hq (by decide)).append
        ((outside_mark hdot.1 (by decide)).append (outside_mark hc (by decide)))
  | literal ht =>
      refine outside_token (.of_literal ht) ?_ ?_
      all_goals
        rcases ht with h | h | h | h
        · rw [h]; decide
        · rw [h]; decide
        · rw [h]; decide
        · rw [h.1]; decide
  | parameter ht => exact outside_mark ht (by decide)
  | group ho hc _ hx => exact outside_group ho hc hx.balanced
  | emptyCall hf ho hc =>
      exact (outside_token (.name hf) (by rw [hf.1]; decide) (by rw [hf.1]; decide)).append
        (outside_group ho hc .nil)
  | call hf ho hc _ hx =>
      exact (outside_token (.name hf) (by rw [hf.1]; decide) (by rw [hf.1]; decide)).append
        (outside_group ho hc hx.balanced)
  | choice hk hw ht he hn _ _ _ hx hy hz =>
      have widen {zs : List Token} (h : Outside (Allowed .expression) zs) :
          Outside (Allowed .primary) zs := h.imp fun _ h => h.imp_right fun hc => nomatch hc.1
      have htail := (widen hz).append (outside_keyword hn (by decide))
      have hrest := (widen hy).append ((outside_keyword he (by decide)).append htail)
      exact (outside_keyword hk (by decide)).append ((outside_keyword hw (by decide)).append
        ((widen hx).append ((outside_keyword ht (by decide)).append hrest)))
  | @cast k o a t c xs rs hk ho ha ht hc _ hx =>
      have hgroup : Outside (Allowed .primary) (o :: ((xs ++ [a, t]) ++ [c])) :=
        outside_group ho hc (hx.balanced.append (balanced_alias ha ht))
      rw [List.append_assoc] at hgroup
      exact (outside_keyword hk (by decide)).append hgroup
  | operand _ hx => exact hx.imp fun _ h => h.imp_right fun hc => nomatch hc.1
  | negation hk _ hx => exact (outside_keyword hk (by decide)).append hx
  | @binary op _ _ _ _ _ hop _ hx hy =>
      have hmark : Outside (Allowed .expression) [op] := by
        refine outside_token (.operator hop) ?_ ?_
        all_goals rcases hop.kind with hkind | hkind <;> rw [hkind] <;> decide
      exact hx.append (hmark.append hy)
  | single _ hx => exact hx.imp fun _ h => h.imp_right fun hc => nomatch hc.1
  | @more comma _ _ _ _ _ hcomma _ hx hy =>
      have hx := hx.imp (q := Allowed .arguments) fun _ h => h.imp_right fun hc => nomatch hc.1
      have hmark : Outside (Allowed .arguments) [comma] :=
        .token (.inr ⟨rfl, hcomma.1⟩) (by rw [hcomma.1]; decide) (by rw [hcomma.1]; decide)
      exact hx.append (hmark.append hy)

theorem balanced (h : Writes part xs rs) : Balanced xs := h.outside.balanced

theorem calm (h : Writes part xs rs) : Outside Calm xs := by
  refine h.outside.imp fun t ht => ?_
  rcases ht with ht | ⟨-, hcomma⟩
  · exact ht.calm
  · exact calm_of_kind (by rw [hcomma]; decide) (by rw [hcomma]; decide) (by rw [hcomma]; decide)

theorem noComma (h : Writes part xs rs) (hpart : part ≠ .arguments) : Outside NoComma xs :=
  h.outside.imp fun _ ht => ht.elim Ordinary.noComma fun hc => absurd hc.1 hpart

/-- The last token of an expression changes nothing about the one behind it. -/
theorem quiet_last (h : Writes part xs rs) : ∃ t, xs.getLast? = some t ∧ Quiet t := by
  have hclose {c : Token} (hc : c.Is .rightParen ")") : Quiet c :=
    quiet_of_kind (by rw [hc.1]; decide) (by rw [hc.1]; decide) (by rw [hc.1]; decide)
      (by rw [hc.1]; decide)
  have hmark {t : Token} {kind : Kind} (h : t.kind = kind)
      (hkind : kind ∈ [Kind.string, .integer, .float, .parameter, .quotedIdentifier]) :
      Quiet t := by
    have hnot {other : Kind} (hother : other ∉ [Kind.string, .integer, .float, .parameter,
        .quotedIdentifier]) : t.kind ≠ other := fun heq => hother (heq ▸ h ▸ hkind)
    exact quiet_of_kind (hnot (by decide)) (hnot (by decide)) (hnot (by decide)) (hnot (by decide))
  induction h with
  | reference hq hdot hc => exact ⟨_, rfl, hmark hc (by decide)⟩
  | @literal t ht =>
      refine ⟨t, rfl, ?_⟩
      rcases ht with h | h | h | h
      · exact hmark h (by decide)
      · exact hmark h (by decide)
      · exact hmark h (by decide)
      · exact quiet_of_keyword h (by decide +kernel)
  | parameter ht => exact ⟨_, rfl, hmark ht (by decide)⟩
  | group _ hc => exact ⟨_, by simp [List.getLast?_cons], hclose hc⟩
  | emptyCall _ _ hc => exact ⟨_, rfl, hclose hc⟩
  | call _ _ hc => exact ⟨_, by simp [List.getLast?_cons], hclose hc⟩
  | choice _ _ _ _ hn =>
      exact ⟨_, by simp [List.getLast?_cons], quiet_of_keyword hn (by decide +kernel)⟩
  | cast _ _ _ _ hc => exact ⟨_, by simp [List.getLast?_cons], hclose hc⟩
  | operand _ hx => exact hx
  | negation _ _ hx =>
      obtain ⟨t, hlast, ht⟩ := hx
      exact ⟨t, by simp [List.getLast?_cons, hlast], ht⟩
  | binary _ _ _ _ hy =>
      obtain ⟨t, hlast, ht⟩ := hy
      exact ⟨t, by simp [List.getLast?_cons, hlast], ht⟩
  | single _ hx => exact hx
  | more _ _ _ _ hy =>
      obtain ⟨t, hlast, ht⟩ := hy
      exact ⟨t, by simp [List.getLast?_cons, hlast], ht⟩

/-- The qualifiers of the references stand among the tokens, from left to right. -/
theorem sublist (h : Writes part xs rs) : (rs.map (·.qualifier)).Sublist xs := by
  induction h with
  | reference => exact .cons_cons _ (List.nil_sublist _)
  | literal => exact List.nil_sublist _
  | parameter => exact List.nil_sublist _
  | group _ _ _ ih => exact (ih.trans (List.sublist_append_left _ _)).cons _
  | emptyCall => exact List.nil_sublist _
  | call _ _ _ _ ih => exact ((ih.trans (List.sublist_append_left _ _)).cons _).cons _
  | @choice k w t e n xs ys zs rs ss us _ _ _ _ _ _ _ _ ihx ihy ihz =>
      rw [List.map_append, List.map_append]
      have hend := (ihz.trans (List.sublist_append_left zs [n])).cons e
      exact ((ihx.append ((ihy.append hend).cons _)).cons _).cons _
  | cast _ _ _ _ _ _ ih => exact ((ih.trans (List.sublist_append_left _ _)).cons _).cons _
  | operand _ ih => exact ih
  | negation _ _ ih => exact ih.cons _
  | binary _ _ _ ihx ihy =>
      rw [List.map_append]
      exact ihx.append (ihy.cons _)
  | single _ ih => exact ih
  | more _ _ _ ihx ihy =>
      rw [List.map_append]
      exact ihx.append (ihy.cons _)

theorem ne_nil (h : Writes part xs rs) : xs ≠ [] := by
  rintro rfl
  obtain ⟨t, hlast, -⟩ := h.quiet_last
  cases hlast

/-- An expression begins with a token at which no scan stops. -/
theorem calm_first (h : Writes part xs rs) : ∃ t ts, xs = t :: ts ∧ Calm t := by
  obtain ⟨t, ts, rfl⟩ := List.exists_cons_of_ne_nil h.ne_nil
  exact ⟨t, ts, rfl, h.calm.head⟩

end Writes

theorem Items.sublist {xs : List Token} {rs : List ColumnRef} (h : Items xs rs) :
    (rs.map (·.qualifier)).Sublist xs := by
  induction h with
  | single hx => exact hx.sublist.trans (List.sublist_append_left _ _)
  | more hx _ _ _ _ ih =>
      rw [List.map_append]
      exact hx.sublist.append (((ih.cons _).cons _).cons _)

theorem Selection.sublist (q : Selection) : (q.refs.map (·.qualifier)).Sublist q.tokens := by
  rw [refs, List.map_append]
  have htail := q.hcondition.sublist.cons q.filter
  have hrelation := (((htail.cons q.aliasName).cons q.asWord).cons q.table).cons q.source
  exact (q.hitems.sublist.append hrelation).cons _

end Grammar

end TypedSql

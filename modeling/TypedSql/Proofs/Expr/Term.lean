import TypedSql.Proofs.Reference.Infer

/-!
# Terms

A grammar of expressions over columns, constants, `CAST`, `COALESCE`, `MIN` and `MAX` of several
operands, `COUNT` and the operators that are NULL with their operands.  A term has tokens and,
under an interpretation, a value.  Both are defined on its structure alone; nothing here depends on
how tokens are read.

Main definitions: `Term`, `Term.tokens`, `Term.eval`.  Main statements: `Term.noComma`,
`Term.first`.
-/

namespace TypedSql

open Text Token

namespace Token

/-- The words of constants that are not NULL. -/
def constantWords : List String :=
  ["TRUE", "FALSE", "CURRENT_DATE", "CURRENT_TIME", "CURRENT_TIMESTAMP"]

/-- The tokens write a constant that is not NULL. -/
inductive IsConstant : List Token → Prop
  | single {t : Token} (h : t.kind ∈ [Kind.string, .blob, .integer, .float]) : IsConstant [t]
  | signed {sign t : Token} (hkind : sign.kind = .operator) (hsign : sign.text ∈ ["+", "-"])
      (h : t.kind ∈ [Kind.integer, .float]) : IsConstant [sign, t]
  | word {t : Token} {word : String} (h : t.IsKeyword word) (hword : word ∈ constantWords) :
      IsConstant [t]

/-- An operator whose result is NULL where one of its operands is. -/
structure IsOperation (t : Token) : Prop where
  kind : t.kind = .operator
  text : t.text ∈ ["+", "-", "/", "%", "||"]

end Token

namespace Grammar

/-- A pair of parentheses. -/
structure Parens where
  openParen : Token
  closeParen : Token
  hopen : openParen.Is .leftParen "("
  hclose : closeParen.Is .rightParen ")"

/-- The tokens between the parentheses. -/
def Parens.wrap (p : Parens) (xs : List Token) : List Token := p.openParen :: (xs ++ [p.closeParen])

/-- The name of a column, with a relation and a schema before it or not. -/
structure Path where
  /-- The names before that of the column, each with its dot. -/
  qualifiers : List (Token × Token)
  name : Token
  hqualifiers : ∀ q ∈ qualifiers, q.1.IsNaming ∧ q.2.kind = .dot
  hlength : qualifiers.length ≤ 2
  hname : name.IsNaming

namespace Path

def tokens (p : Path) : List Token := p.qualifiers.flatMap (fun q => [q.1, q.2]) ++ [p.name]

/-- The name of the relation. -/
def qualifier (p : Path) : Option String := p.qualifiers.getLast?.map (·.1.value)

end Path

/-- What can stand behind `COUNT`: `FILTER` or `OVER` with a group. -/
structure Clause where
  word : Token
  parens : Parens
  inner : List Token
  hword : word.isAnyWord ["FILTER", "OVER"] = true
  hinner : Balanced inner

def Clause.tokens (c : Clause) : List Token := c.word :: c.parens.wrap c.inner

mutual

/-- An expression. -/
inductive Term
  | column (path : Path)
  | constant (tokens : List Token) (h : IsConstant tokens)
  | null (word : Token) (hword : word.IsKeyword "NULL")
  | group (parens : Parens) (e : Term)
  | cast (word : Token) (parens : Parens) (e : Term) (asWord : Token) (type : List Token)
      (hword : word.IsKeyword "CAST") (has : asWord.IsKeyword "AS")
      (htype : Outside (fun t => t.isWord "AS" = false) type)
  | coalesce (word : Token) (parens : Parens) (es : Terms) (hword : word.isWord "COALESCE" = true)
  /-- `MIN` or `MAX` of at least two operands. -/
  | extremum (word : Token) (parens : Parens) (e : Term) (comma : Token) (es : Terms)
      (hword : word.isAnyWord ["MIN", "MAX"] = true) (hcomma : comma.kind = .comma)
  /-- Whatever stands in the parentheses, `COUNT` is a number. -/
  | count (word : Token) (parens : Parens) (inner : List Token) (clauses : List Clause)
      (hword : word.isWord "COUNT" = true) (hinner : Balanced inner)
  | binary (l : Term) (op : Token) (r : Term) (hop : op.IsOperation)

/-- Expressions with commas between them. -/
inductive Terms
  | one (e : Term)
  | more (e : Term) (comma : Token) (es : Terms) (hcomma : comma.kind = .comma)

end

mutual

/-- The tokens of an expression. -/
def Term.tokens : Term → List Token
  | .column path => path.tokens
  | .constant tokens _ => tokens
  | .null word _ => [word]
  | .group parens e => parens.wrap e.tokens
  | .cast word parens e asWord type _ _ _ => word :: parens.wrap (e.tokens ++ asWord :: type)
  | .coalesce word parens es _ => word :: parens.wrap es.tokens
  | .extremum word parens e comma es _ _ => word :: parens.wrap (e.tokens ++ comma :: es.tokens)
  | .count word parens inner clauses _ _ =>
      word :: (parens.wrap inner ++ clauses.flatMap (·.tokens))
  | .binary l op r _ => l.tokens ++ op :: r.tokens

/-- The tokens of expressions. -/
def Terms.tokens : Terms → List Token
  | .one e => e.tokens
  | .more e comma es _ => e.tokens ++ comma :: es.tokens

end

/-- The expressions in order. -/
def Terms.toList : Terms → List Term
  | .one e => [e]
  | .more e _ es _ => e :: es.toList

/-! ## Values -/

/-- The values of columns, and what constants and functions stand for.  NULL is `none`. -/
structure Interpretation (V : Type) where
  column : Option String → String → Option V
  constant : List Token → V
  /-- A value as a type of that name. -/
  cast : String → V → V
  /-- The least or the greatest of several values. -/
  extremum : Token → List V → V
  count : List Token → List Clause → V
  /-- An operation on two values, which can have no result, as division by zero. -/
  binary : Token → V → V → Option V

section

variable {V : Type} (I : Interpretation V)

mutual

/-- The value of an expression. -/
def Term.eval : Term → Option V
  | .column path => I.column path.qualifier path.name.value
  | .constant tokens _ => some (I.constant tokens)
  | .null _ _ => none
  | .group _ e => e.eval
  | .cast _ _ e _ type _ _ _ => e.eval.map (I.cast (Expr.spaced (type.map (·.text))))
  | .coalesce _ _ es _ => es.evalAll.findSome? id
  | .extremum word _ e _ es _ _ =>
      let values := e.eval :: es.evalAll
      if values.all Option.isSome then some (I.extremum word (values.filterMap id)) else none
  | .count _ _ inner clauses _ _ => some (I.count inner clauses)
  | .binary l op r _ => l.eval.bind fun x => r.eval.bind fun y => I.binary op x y

/-- The values of expressions. -/
def Terms.evalAll : Terms → List (Option V)
  | .one e => [e.eval]
  | .more e _ es _ => e.eval :: es.evalAll

end

theorem Terms.evalAll_eq (es : Terms) : es.evalAll I = es.toList.map (Term.eval I) := by
  match es with
  | .one e => simp [evalAll, toList]
  | .more e comma es _ => simp [evalAll, toList, es.evalAll_eq]

end

/-! ## Tokens -/

theorem Parens.noComma (p : Parens) {xs : List Token} (h : Balanced xs) :
    Outside NoComma (p.wrap xs) :=
  .group p.hopen.1 p.hclose.1 (by rw [NoComma, p.hopen.1]; decide)
    (by rw [NoComma, p.hclose.1]; decide) h

theorem noComma_of_isAnyWord {t : Token} {words : List String} (h : t.isAnyWord words = true) :
    Outside NoComma [t] :=
  @noComma_of_kind t [.keyword, .identifier] (by simpa using kind_of_isAnyWord h) (by decide)

theorem noComma_of_isWord {t : Token} {word : String} (h : t.isWord word = true) :
    Outside NoComma [t] :=
  noComma_of_isAnyWord (isAnyWord_of_isWord h)

theorem noComma_of_keyword {t : Token} {word : String} (h : t.IsKeyword word) :
    Outside NoComma [t] :=
  @noComma_of_kind t [.keyword] (List.mem_singleton.mpr h.1) (by decide)

theorem noComma_of_naming {t : Token} (h : t.IsNaming) : Outside NoComma [t] :=
  @noComma_of_kind t [.identifier, .quotedIdentifier, .keyword] (by simpa using h.kind) (by decide)

theorem noComma_of_qualifiers {qualifiers : List (Token × Token)}
    (h : ∀ q ∈ qualifiers, q.1.IsNaming ∧ q.2.kind = .dot) :
    Outside NoComma (qualifiers.flatMap fun q => [q.1, q.2]) := by
  induction qualifiers with
  | nil => exact .nil
  | cons q qs ih =>
      obtain ⟨hname, hdot⟩ := h q List.mem_cons_self
      have hmark : Outside NoComma [q.2] :=
        @noComma_of_kind q.2 [.dot] (List.mem_singleton.mpr hdot) (by decide)
      exact .append (.append (noComma_of_naming hname) hmark)
        (ih fun q' hq' => h q' (List.mem_cons_of_mem _ hq'))

theorem Path.noComma (p : Path) : Outside NoComma p.tokens :=
  .append (noComma_of_qualifiers p.hqualifiers) (noComma_of_naming p.hname)

theorem noComma_of_constant {xs : List Token} (h : IsConstant xs) : Outside NoComma xs := by
  cases h with
  | single h => exact noComma_of_kind h (by decide)
  | @signed sign t hkind _ h =>
      have hsign : Outside NoComma [sign] :=
        @noComma_of_kind sign [.operator] (List.mem_singleton.mpr hkind) (by decide)
      exact .append hsign (noComma_of_kind h (by decide))
  | word h _ => exact noComma_of_keyword h

theorem noComma_of_clauses (clauses : List Clause) :
    Outside NoComma (clauses.flatMap (·.tokens)) := by
  induction clauses with
  | nil => exact .nil
  | cons c cs ih =>
      exact .append (.append (noComma_of_isAnyWord c.hword) (c.parens.noComma c.hinner)) ih

theorem noComma_of_operation {op : Token} (h : op.IsOperation) : Outside NoComma [op] :=
  @noComma_of_kind op [.operator] (List.mem_singleton.mpr h.kind) (by decide)

mutual

/-- Outside its parentheses an expression has no comma. -/
theorem Term.noComma (e : Term) : Outside NoComma e.tokens := by
  match e with
  | .column path =>
      rw [Term.tokens]
      exact path.noComma
  | .constant tokens h =>
      rw [Term.tokens]
      exact noComma_of_constant h
  | .null word hword =>
      rw [Term.tokens]
      exact noComma_of_keyword hword
  | .group parens e =>
      rw [Term.tokens]
      exact parens.noComma e.noComma.balanced
  | .cast word parens e asWord type hword has htype =>
      rw [Term.tokens]
      have hinner : Balanced (e.tokens ++ asWord :: type) :=
        e.noComma.balanced.append ((noComma_of_keyword has).balanced.append htype.balanced)
      exact .append (noComma_of_keyword hword) (parens.noComma hinner)
  | .coalesce word parens es hword =>
      rw [Term.tokens]
      exact .append (noComma_of_isWord hword) (parens.noComma es.balanced)
  | .extremum word parens e comma es hword hcomma =>
      rw [Term.tokens]
      have hmark : Balanced [comma] := .token (by rw [hcomma]; decide) (by rw [hcomma]; decide)
      have hinner : Balanced (e.tokens ++ comma :: es.tokens) :=
        e.noComma.balanced.append (hmark.append es.balanced)
      exact .append (noComma_of_isAnyWord hword) (parens.noComma hinner)
  | .count word parens inner clauses hword hinner =>
      rw [Term.tokens]
      exact .append (noComma_of_isWord hword)
        (.append (parens.noComma hinner) (noComma_of_clauses clauses))
  | .binary l op r hop =>
      rw [Term.tokens]
      exact .append l.noComma (.append (noComma_of_operation hop) r.noComma)

theorem Terms.balanced (es : Terms) : Balanced es.tokens := by
  match es with
  | .one e =>
      rw [Terms.tokens]
      exact e.noComma.balanced
  | .more e comma es hcomma =>
      rw [Terms.tokens]
      have hmark : Balanced [comma] := .token (by rw [hcomma]; decide) (by rw [hcomma]; decide)
      exact e.noComma.balanced.append (hmark.append es.balanced)

end

/-- The words that begin something else than an expression. -/
def beginningWords : List String := ["DISTINCT", "ALL", "SELECT", "WITH", "VALUES"]

theorem first_of_isAnyWord {t : Token} {words : List String} (h : t.isAnyWord words = true)
    (hwords : (beginningWords.all fun w => !words.any (eqIgnoreCase w)) = true)
    (ts : List Token) :
    ∃ u us, t :: ts = u :: us ∧ u.isAnyWord beginningWords = false :=
  ⟨t, ts, rfl, isAnyWord_of_ne h hwords⟩

theorem first_of_kind {t : Token} {kinds : List Kind} (h : t.kind ∈ kinds)
    (hkinds : (kinds.all fun k => k != .keyword && k != .identifier) = true) (ts : List Token) :
    ∃ u us, t :: ts = u :: us ∧ u.isAnyWord beginningWords = false := by
  have hthis := List.all_eq_true.mp hkinds t.kind h
  simp only [Bool.and_eq_true, bne_iff_ne] at hthis
  exact ⟨t, ts, rfl, isAnyWord_of_kind hthis.1 hthis.2 _⟩

theorem first_of_keyword {t : Token} {word : String} (h : t.IsKeyword word)
    (hword : beginningWords.any (eqIgnoreCase word) = false) (ts : List Token) :
    ∃ u us, t :: ts = u :: us ∧ u.isAnyWord beginningWords = false :=
  ⟨t, ts, rfl, by rw [h.isAnyWord, hword]⟩

theorem first_of_constant {xs : List Token} (h : IsConstant xs) :
    ∃ t ts, xs = t :: ts ∧ t.isAnyWord beginningWords = false := by
  cases h with
  | single h => exact first_of_kind h (by decide) _
  | @signed sign _ hkind _ _ =>
      exact @first_of_kind sign [.operator] (List.mem_singleton.mpr hkind) (by decide) _
  | word h hword =>
      have hall : (constantWords.all fun w => !beginningWords.any (eqIgnoreCase w)) = true := by
        decide
      have hnone := List.all_eq_true.mp hall _ hword
      rw [Bool.not_eq_true'] at hnone
      exact first_of_keyword h hnone _

/-- An expression has a first token, and it does not begin anything else. -/
theorem Term.first (e : Term) :
    ∃ t ts, e.tokens = t :: ts ∧ t.isAnyWord beginningWords = false := by
  match e with
  | .column path =>
      obtain ⟨qualifiers, name, hqualifiers, -, hname⟩ := path
      rw [tokens]
      cases qualifiers with
      | nil => exact ⟨_, _, rfl, hname.isAnyWord (by decide)⟩
      | cons q qs =>
          exact ⟨_, _, rfl, (hqualifiers q List.mem_cons_self).1.isAnyWord (by decide)⟩
  | .constant tokens h =>
      rw [Term.tokens]
      exact first_of_constant h
  | .null word hword =>
      rw [tokens]
      exact first_of_keyword hword (by decide) _
  | .group parens e =>
      rw [tokens]
      exact @first_of_kind _ [.leftParen] (List.mem_singleton.mpr parens.hopen.1) (by decide) _
  | .cast word parens e asWord type hword has htype =>
      rw [tokens]
      exact first_of_keyword hword (by decide) _
  | .coalesce word parens es hword =>
      rw [tokens]
      exact first_of_isAnyWord (isAnyWord_of_isWord hword) (by decide) _
  | .extremum word parens e comma es hword hcomma =>
      rw [tokens]
      exact first_of_isAnyWord hword (by decide) _
  | .count word parens inner clauses hword hinner =>
      rw [tokens]
      exact first_of_isAnyWord (isAnyWord_of_isWord hword) (by decide) _
  | .binary l op r hop =>
      obtain ⟨t, ts, htokens, ht⟩ := l.first
      rw [tokens, htokens]
      exact ⟨t, _, rfl, ht⟩

theorem Term.ne_nil (e : Term) : e.tokens ≠ [] := by
  obtain ⟨t, ts, htokens, -⟩ := e.first
  rw [htokens]
  exact List.cons_ne_nil t ts

/-- The pieces between the commas are the expressions. -/
theorem Terms.commaPieces_eq (es : Terms) :
    commaPieces es.tokens = es.toList.map (·.tokens) := by
  match es with
  | .one e =>
      rw [tokens, toList]
      exact e.noComma.commaPieces_eq e.ne_nil
  | .more e comma es hcomma =>
      rw [tokens, toList, e.noComma.commaPieces_append e.ne_nil hcomma, es.commaPieces_eq]
      rfl

end Grammar

end TypedSql

import TypedSql.Analysis.Infer
import TypedSql.Proofs.Expr.Term
import TypedSql.Token.Reader

/-!
# Types that promise a value

The types of expressions are found by the shapes of their tokens, and not from a tree.  A type that
is not nullable is to promise that the expression is not NULL.  The proof goes by the constructors
of a term: for each, one lemma says what is known of its tokens, and one says that the value keeps
what the type promises.

An operand that is a call of `COUNT` with `FILTER` or `OVER` behind it is the one that is not to
stand first before an operator: the tokens are then read as that call, whatever the other operand
is.

Main definitions: `Term.Regular`, `Interpretation.Respects`.  Main statement:
`Term.nullability_sound`.
-/

namespace TypedSql.Grammar

open Diagnostic Text Token

/-- The expression begins with a call of `COUNT` that has something behind it. -/
def Term.led : Term → Bool
  | .count _ _ _ clauses _ _ => !clauses.isEmpty
  | .binary l _ _ _ => l.led
  | _ => false

section

variable {V : Type} (I : Interpretation V)

mutual

/-- Nothing whose type counts is an operation that such a call begins and that is NULL. -/
def Term.Regular : Term → Prop
  | .group _ e => e.Regular
  | .cast _ _ e _ _ _ _ _ => e.Regular
  | .coalesce _ _ es _ => es.Regular
  | .extremum _ _ e _ es _ _ => e.Regular ∧ es.Regular
  | .binary l op r hop => l.led = true → (Term.binary l op r hop).eval I ≠ none
  | _ => True

def Terms.Regular : Terms → Prop
  | .one e => e.Regular
  | .more e _ es _ => e.Regular ∧ es.Regular

end

end

/-- Columns whose type is not nullable are not NULL. -/
def Interpretation.Respects {V : Type} (I : Interpretation V) (s : Scope) : Prop :=
  ∀ qualifier name column, s.lookup qualifier name = .ok column →
    column.type.isNullable = false → I.column qualifier name ≠ none

/-- What is known of an expression. -/
def Term.inferred (mode : Mode) (s : Scope) (e : Term) : Inferred :=
  ((Expr.ofTokens e.tokens).infer mode s).value

/-! ## An operator behind an expression -/

theorem isAnyWord_of_operation {op : Token} (hop : op.IsOperation) (words : List String) :
    op.isAnyWord words = false :=
  isAnyWord_of_kind (by rw [hop.kind]; decide) (by rw [hop.kind]; decide) words

section

variable {op : Token} {ys : List Token}

theorem Path.unread (p : Path) (hop : op.IsOperation) : Expr.Unread (p.tokens ++ op :: ys) := by
  have hword {t : Token} (ht : t.IsNaming) : t.isWord "CAST" = false := by
    have hcast : t.isAnyWord ["CAST"] = false := ht.isAnyWord (by decide)
    exact isWord_of_isAnyWord hcast (by decide)
  have hkind {t : Token} (ht : t.IsNaming) : t.kind ≠ .leftParen := by
    rcases ht.kind with h | h | h <;> rw [h] <;> decide
  obtain ⟨qualifiers, name, hqualifiers, -, hname⟩ := p
  cases qualifiers with
  | nil => exact .of_second (hword hname) (hkind hname) (by rw [hop.kind]; decide) _
  | cons q qs =>
      obtain ⟨hq, hdot⟩ := hqualifiers q List.mem_cons_self
      exact .of_second (hword hq) (hkind hq) (by rw [hdot]; decide) _

theorem unread_constant {xs : List Token} (h : IsConstant xs) (hop : op.IsOperation) :
    Expr.Unread (xs ++ op :: ys) := by
  have hopen : op.kind ≠ .leftParen := by rw [hop.kind]; decide
  cases h with
  | @single t h =>
      have hkind : t.kind ≠ .keyword ∧ t.kind ≠ .identifier ∧ t.kind ≠ .leftParen := by
        simp only [List.mem_cons, List.not_mem_nil, or_false] at h
        rcases h with h | h | h | h <;> rw [h] <;> decide
      have hcast : t.isAnyWord ["CAST"] = false := isAnyWord_of_kind hkind.1 hkind.2.1 _
      exact .of_second (isWord_of_isAnyWord hcast (by decide)) hkind.2.2 hopen _
  | @signed sign t hkind _ h =>
      have ht : t.kind ≠ .leftParen := by
        simp only [List.mem_cons, List.not_mem_nil, or_false] at h
        rcases h with h | h <;> rw [h] <;> decide
      have hcast : sign.isAnyWord ["CAST"] = false :=
        isAnyWord_of_kind (by rw [hkind]; decide) (by rw [hkind]; decide) _
      exact .of_second (isWord_of_isAnyWord hcast (by decide)) (by rw [hkind]; decide) ht _
  | @word t word h hword =>
      have hcast : t.isWord "CAST" = false := by
        have hall : (constantWords.all fun w => !eqIgnoreCase w "CAST") = true := by decide
        rw [h.isWord, ← Bool.not_eq_true']
        exact List.all_eq_true.mp hall word hword
      exact .of_second hcast (by rw [h.1]; decide) hopen _

theorem Parens.unread (p : Parens) {xs : List Token} (h : Balanced xs) :
    Expr.Unread (p.wrap xs ++ op :: ys) := by
  have hlist : p.wrap xs ++ op :: ys = p.openParen :: (xs ++ p.closeParen :: op :: ys) := by
    simp [wrap]
  rw [hlist]
  exact .of_group p.hopen.1 (ofWord?_of_open p.hopen) p.hclose.1 h op ys

theorem unread_call {f : Token} (hf : f.kind = .keyword ∨ f.kind = .identifier) (p : Parens)
    {xs : List Token} (h : Balanced xs) (hop : op.IsOperation) :
    Expr.Unread (f :: p.wrap xs ++ op :: ys) := by
  have hlist : f :: p.wrap xs ++ op :: ys =
      f :: p.openParen :: (xs ++ p.closeParen :: op :: ys) := by simp [Parens.wrap]
  have hkind : f.kind ≠ .leftParen := by rcases hf with hf | hf <;> rw [hf] <;> decide
  rw [hlist]
  exact .of_call hkind p.hopen.1 p.hclose.1 h (isAnyWord_of_operation hop _) ys

end

/-- An expression with an operator behind it has no shape, unless a call of `COUNT` begins it. -/
theorem Term.unread (e : Term) (hled : e.led = false) {op : Token} (hop : op.IsOperation)
    (ys : List Token) : Expr.Unread (e.tokens ++ op :: ys) := by
  match e with
  | .column path =>
      rw [Term.tokens]
      exact path.unread hop
  | .constant tokens h =>
      rw [Term.tokens]
      exact unread_constant h hop
  | .null word hword =>
      have hcast : word.isWord "CAST" = false := by
        rw [hword.isWord]
        decide
      rw [Term.tokens]
      exact .of_second hcast (by rw [hword.1]; decide) (by rw [hop.kind]; decide) ys
  | .group parens e =>
      rw [Term.tokens]
      exact parens.unread e.noComma.balanced
  | .cast word parens e asWord type hword has htype =>
      have hinner : Balanced (e.tokens ++ asWord :: type) :=
        e.noComma.balanced.append ((noComma_of_keyword has).balanced.append htype.balanced)
      rw [Term.tokens]
      exact unread_call (.inl hword.1) parens hinner hop
  | .coalesce word parens es hword =>
      rw [Term.tokens]
      exact unread_call (kind_of_isAnyWord (isAnyWord_of_isWord hword)) parens es.balanced hop
  | .extremum word parens e comma es hword hcomma =>
      rw [Term.tokens]
      exact unread_call (kind_of_isAnyWord hword) parens (Terms.more e comma es hcomma).balanced hop
  | .count word parens inner clauses hword hinner =>
      -- No clause stands behind the call, so the operator does.
      have hnone : clauses = [] := by
        rw [led, Bool.not_eq_false'] at hled
        exact List.isEmpty_iff.mp hled
      rw [Term.tokens, hnone, List.flatMap_nil, List.append_nil]
      exact unread_call (kind_of_isAnyWord (isAnyWord_of_isWord hword)) parens hinner hop
  | .binary l op' r hop' =>
      -- Behind the left operand its own operator comes first.
      rw [led] at hled
      rw [Term.tokens, List.append_assoc]
      exact l.unread hled hop' _

/-- The tokens are a call of `COUNT` and what stands behind it, which begins with `FILTER` or
`OVER`, if at all. -/
def CountCall (behind ts : List Token) : Prop :=
  ∃ (word : Token) (parens : Parens) (inner : List Token), word.isWord "COUNT" = true ∧
    Balanced inner ∧ (behind.head?.all fun t => t.isAnyWord ["FILTER", "OVER"]) = true ∧
      ts = word :: (parens.wrap inner ++ behind)

theorem CountCall.append {behind ts : List Token} (h : CountCall behind ts) (hne : behind ≠ [])
    (us : List Token) : CountCall (behind ++ us) (ts ++ us) := by
  obtain ⟨word, parens, inner, hword, hinner, hbehind, rfl⟩ := h
  refine ⟨word, parens, inner, hword, hinner, ?_, by simp⟩
  obtain ⟨t, ts, rfl⟩ := List.exists_cons_of_ne_nil hne
  exact hbehind

theorem countCall_of_count {word : Token} {parens : Parens} {inner : List Token}
    {clauses : List Clause} (hword : word.isWord "COUNT" = true) (hinner : Balanced inner) :
    CountCall (clauses.flatMap fun c => c.tokens)
      (Term.count word parens inner clauses hword hinner).tokens := by
  refine ⟨word, parens, inner, hword, hinner, ?_, by rw [Term.tokens]⟩
  cases clauses with
  | nil => rfl
  | cons c cs => exact c.hword

/-- Such a call stands before all the operators that follow it. -/
theorem Term.countCall_of_led (e : Term) (h : e.led = true) :
    ∃ behind, behind ≠ [] ∧ CountCall behind e.tokens := by
  cases e with
  | count word parens inner clauses hword hinner =>
      cases clauses with
      | nil => cases h
      | cons c cs =>
          refine ⟨(c :: cs).flatMap fun c => c.tokens, ?_, countCall_of_count hword hinner⟩
          exact List.cons_ne_nil _ _
  | binary l op r hop =>
      rw [led] at h
      obtain ⟨behind, hne, hcall⟩ := l.countCall_of_led h
      rw [Term.tokens]
      exact ⟨behind ++ op :: r.tokens, by simp, hcall.append hne _⟩
  | _ => cases h

/-! ## What is known of the constructors -/

/-- A call of a function is an aggregate. -/
theorem ofTokens_function {f : Token} (hf : f.kind = .keyword ∨ f.kind = .identifier)
    {function : Aggregate} (hfunction : Aggregate.ofWord? f.text = some function) (p : Parens)
    {xs : List Token} (h : Balanced xs) {behind : List Token}
    (hbehind : (behind.head?.all fun t => t.isAnyWord ["FILTER", "OVER"]) = true) :
    Expr.ofTokens (f :: (p.wrap xs ++ behind)) = .aggregate function f.position
      ((commaPieces (xs.dropWhile fun t => t.isAnyWord ["DISTINCT", "ALL"])).map
        Expr.ofTokens) := by
  have hlist : f :: (p.wrap xs ++ behind) = f :: p.openParen :: (xs ++ p.closeParen :: behind) := by
    simp [Parens.wrap]
  have hkind : f.kind ≠ .operator ∧ f.kind ≠ .leftParen := by
    rcases hf with h | h <;> rw [h] <;> decide
  have hcast : f.isWord "CAST" = false := by
    rw [Bool.eq_false_iff]
    intro hcast
    have hnone : Aggregate.ofWord? "CAST" = none := by decide
    rw [Expr.ofWord?_of_isWord hcast, hnone] at hfunction
    cases hfunction
  rw [hlist, Expr.ofTokens_call hkind.1 hkind.2 hcast p.hopen.1 p.hclose.1 h hbehind, hfunction]
  rfl

section

variable (mode : Mode) (s : Scope)

theorem value_inferAll (es : List Expr) :
    (Expr.inferAll mode s es).value = es.map fun e => (e.infer mode s).value := by
  induction es with
  | nil =>
      rw [Expr.inferAll]
      rfl
  | cons e es ih =>
      rw [Expr.inferAll]
      show (e.infer mode s).value :: (Expr.inferAll mode s es).value = _
      rw [ih, List.map_cons]

theorem Terms.toList_ne_nil (es : Terms) : es.toList ≠ [] := by
  cases es <;> exact List.cons_ne_nil _ _

theorem Terms.dropWhile_tokens (es : Terms) :
    es.tokens.dropWhile (fun t => t.isAnyWord ["DISTINCT", "ALL"]) = es.tokens := by
  have hfirst : ∃ t ts, es.tokens = t :: ts ∧ t.isAnyWord beginningWords = false := by
    cases es with
    | one e =>
        rw [tokens]
        exact e.first
    | more e comma es hcomma =>
        obtain ⟨t, ts, htokens, ht⟩ := e.first
        rw [tokens, htokens]
        exact ⟨t, _, rfl, ht⟩
  obtain ⟨t, ts, htokens, ht⟩ := hfirst
  refine Expr.dropWhile_of_first ?_
  rw [htokens]
  rintro u ⟨⟩
  exact isAnyWord_of_subset ht (by decide)

/-- A function of several operands goes by what is known of each. -/
theorem Terms.inferred_call (es : Terms) {f : Token} (hf : f.kind = .keyword ∨ f.kind = .identifier)
    {function : Aggregate} (hfunction : Aggregate.ofWord? f.text = some function)
    (hseveral : function = .coalesce ∨ function = .min ∨ function = .max) (p : Parens) :
    ((Expr.ofTokens (f :: p.wrap es.tokens)).infer mode s).value.type =
      Inferred.combine (es.toList.map (Term.inferred mode s))
        (if function = .coalesce then (es.toList.map (Term.inferred mode s)).all Inferred.isNullable
        else (es.toList.map (Term.inferred mode s)).any Inferred.isNullable) := by
  have hshape : Expr.ofTokens (f :: p.wrap es.tokens) =
      .aggregate function f.position (es.toList.map fun e => Expr.ofTokens e.tokens) := by
    have hcall := @ofTokens_function f hf function hfunction p es.tokens es.balanced [] rfl
    rw [List.append_nil, es.dropWhile_tokens, es.commaPieces_eq, List.map_map] at hcall
    exact hcall
  have hoperands : (Expr.inferAll mode s (es.toList.map fun e => Expr.ofTokens e.tokens)).value =
      es.toList.map (Term.inferred mode s) := by
    rw [value_inferAll, List.map_map]
    rfl
  obtain ⟨first, rest, hlist⟩ := List.exists_cons_of_ne_nil es.toList_ne_nil
  rw [hshape, Expr.infer]
  · show (inferAggregate function f.position (Expr.inferAll mode s _).value).value.type = _
    rw [hoperands, hlist]
    rcases hseveral with rfl | rfl | rfl <;> rfl
  · rintro rfl
    simp at hseveral

theorem Path.columnParts?_eq (p : Path) :
    Expr.columnParts? p.tokens = some (p.qualifier, p.name.value) := by
  obtain ⟨qualifiers, name, hqualifiers, hlength, hname⟩ := p
  match qualifiers with
  | [] =>
      show (if name.isName then _ else none) = _
      rw [hname.isName]
      rfl
  | [q] =>
      obtain ⟨hq, hdot⟩ := hqualifiers q List.mem_cons_self
      show (if q.1.isName && q.2.kind == .dot && name.isName then _ else none) = _
      rw [hq.isName, hdot, hname.isName]
      rfl
  | [q, q'] =>
      obtain ⟨hq, hdot⟩ := hqualifiers q List.mem_cons_self
      obtain ⟨hq', hdot'⟩ := hqualifiers q' (List.mem_cons_of_mem _ List.mem_cons_self)
      show (if q.1.isName && q.2.kind == .dot && q'.1.isName && q'.2.kind == .dot && name.isName
        then _ else none) = _
      rw [hq.isName, hdot, hq'.isName, hdot', hname.isName]
      rfl
  | _ :: _ :: _ :: _ =>
      simp only [List.length_cons] at hlength
      omega

/-- Such a call is a number, whatever stands behind its clauses. -/
theorem CountCall.infer {behind ts : List Token} (h : CountCall behind ts) :
    ((Expr.ofTokens ts).infer mode s).value.type = .resolved .int64 false := by
  obtain ⟨word, parens, inner, hword, hinner, hbehind, rfl⟩ := h
  have hfunction : Aggregate.ofWord? word.text = some .count := by
    rw [Expr.ofWord?_of_isWord hword]
    decide
  rw [ofTokens_function (kind_of_isAnyWord (isAnyWord_of_isWord hword)) hfunction parens hinner
    hbehind, Expr.infer]
  rfl

namespace Term

/-- A column has the type that the scope gives it, if any. -/
theorem inferred_column (path : Path) :
    (∃ column, s.lookup path.qualifier path.name.value = .ok column ∧
      ((Term.column path).inferred mode s).type = column.type) ∨
      ((Term.column path).inferred mode s).type = .unresolved := by
  obtain ⟨first, rest, htokens⟩ := List.exists_cons_of_ne_nil (Term.column path).ne_nil
  have hshape : Expr.ofTokens (Term.column path).tokens =
      .column path.qualifier path.name.value first.position := by
    have hcolumn := path.columnParts?_eq
    rw [tokens] at htokens ⊢
    rw [htokens] at hcolumn ⊢
    rw [Expr.ofTokens_eq, hcolumn]
    rfl
  rw [inferred, hshape, Expr.infer, inferColumn]
  cases hlookup : s.lookup path.qualifier path.name.value with
  | ok column => exact .inl ⟨column, rfl, rfl⟩
  | error e => exact .inr rfl

theorem inferred_null {word : Token} (hword : word.IsKeyword "NULL") :
    ((Term.null word hword).inferred mode s).type = .unresolved := by
  obtain ⟨-, -, -, hname⟩ := IsLiteral.first (.inl (.inr (.inr (.inr hword))))
  have hcolumn : Expr.columnParts? [word] = none :=
    Expr.columnParts?_of_mem (List.mem_singleton_self word) hname (by rw [hword.1]; decide)
  have hliteral : Expr.literalType? [word] = some .unresolved := by
    simp only [Expr.literalType?, hword.1, hword.isAnyWord, hword.isWord]
    decide
  rw [inferred, tokens, Expr.ofTokens_eq, hcolumn, hliteral]
  show (Expr.infer mode s (.literal .unresolved)).value.type = _
  rw [Expr.infer]
  rfl

/-- Parentheses change nothing. -/
theorem inferred_group (parens : Parens) (e : Term) :
    (Term.group parens e).inferred mode s = e.inferred mode s := by
  obtain ⟨t, ts, htokens, ht⟩ := e.first
  have hfirst : ∀ u ∈ (e.tokens ++ [parens.closeParen]).head?,
      u.isAnyWord ["SELECT", "WITH", "VALUES"] = false := by
    intro u hu
    rw [htokens] at hu
    cases hu
    exact isAnyWord_of_subset ht (by decide)
  rw [inferred, tokens, Parens.wrap, Expr.ofTokens_group parens.hopen.1
    (ofWord?_of_open parens.hopen) parens.hclose.1 e.noComma.balanced e.ne_nil hfirst, inferred]

theorem inferred_cast {word asWord : Token} {parens : Parens} {e : Term} {type : List Token}
    (hword : word.IsKeyword "CAST") (has : asWord.IsKeyword "AS")
    (htype : Outside (fun t => t.isWord "AS" = false) type) :
    ((Term.cast word parens e asWord type hword has htype).inferred mode s).type =
      castType (Expr.spaced (type.map (·.text))) (e.inferred mode s) := by
  have hcast : word.isWord "CAST" = true := by
    rw [hword.isWord]
    decide
  have hmark : asWord.isWord "AS" = true := by
    rw [has.isWord]
    decide
  have hlist : word :: parens.wrap (e.tokens ++ asWord :: type) =
      word :: parens.openParen :: (e.tokens ++ asWord :: (type ++ [parens.closeParen])) := by
    simp [Parens.wrap]
  rw [inferred, tokens, hlist, Expr.ofTokens_cast hcast parens.hopen.1 parens.hclose.1
    e.noComma.balanced hmark htype, Expr.infer]
  rfl

theorem inferred_coalesce {word : Token} {parens : Parens} {es : Terms}
    (hword : word.isWord "COALESCE" = true) :
    ((Term.coalesce word parens es hword).inferred mode s).type =
      Inferred.combine (es.toList.map (Term.inferred mode s))
        ((es.toList.map (Term.inferred mode s)).all Inferred.isNullable) := by
  have hfunction : Aggregate.ofWord? word.text = some .coalesce := by
    rw [Expr.ofWord?_of_isWord hword]
    decide
  rw [inferred, tokens, es.inferred_call mode s (kind_of_isAnyWord (isAnyWord_of_isWord hword))
    hfunction (.inl rfl) parens, if_pos rfl]

theorem inferred_extremum {word comma : Token} {parens : Parens} {e : Term} {es : Terms}
    (hword : word.isAnyWord ["MIN", "MAX"] = true) (hcomma : comma.kind = .comma) :
    ((Term.extremum word parens e comma es hword hcomma).inferred mode s).type =
      Inferred.combine ((e :: es.toList).map (Term.inferred mode s))
        (((e :: es.toList).map (Term.inferred mode s)).any Inferred.isNullable) := by
  have hfunction : ∃ function, Aggregate.ofWord? word.text = some function ∧
      (function = .min ∨ function = .max) := by
    simp only [isAnyWord, List.any_cons, List.any_nil, Bool.or_false, Bool.or_eq_true] at hword
    rcases hword with hword | hword
    · refine ⟨.min, ?_, .inl rfl⟩
      rw [Expr.ofWord?_of_isWord hword]
      decide
    · refine ⟨.max, ?_, .inr rfl⟩
      rw [Expr.ofWord?_of_isWord hword]
      decide
  obtain ⟨function, hfunction, hcase⟩ := hfunction
  have hne : function ≠ .coalesce := by rcases hcase with rfl | rfl <;> decide
  have hcall := (Terms.more e comma es hcomma).inferred_call mode s (kind_of_isAnyWord hword)
    hfunction (.inr hcase) parens
  rw [if_neg hne, Terms.tokens] at hcall
  rw [inferred, tokens, hcall]
  rfl

/-- An operation that a call of `COUNT` begins is read as that call. -/
theorem inferred_binary_of_led {l r : Term} {op : Token} {hop : op.IsOperation}
    (hled : l.led = true) :
    ((Term.binary l op r hop).inferred mode s).type = .resolved .int64 false := by
  obtain ⟨behind, hne, hcall⟩ := l.countCall_of_led hled
  rw [inferred, tokens]
  exact (hcall.append hne _).infer mode s

/-- Nothing is known of any other operation. -/
theorem inferred_binary {l r : Term} {op : Token} {hop : op.IsOperation} (hled : l.led = false) :
    ((Term.binary l op r hop).inferred mode s).type = .unresolved := by
  have hmem : op ∈ l.tokens ++ op :: r.tokens :=
    List.mem_append_right _ List.mem_cons_self
  have hname : op.isName = false := by
    rw [isName, isIdentifier, hop.kind]
    rfl
  have hlength : 3 ≤ (l.tokens ++ op :: r.tokens).length := by
    have hl := List.length_pos_iff.mpr l.ne_nil
    have hr := List.length_pos_iff.mpr r.ne_nil
    simp only [List.length_append, List.length_cons]
    omega
  have hdot : op.kind ≠ .dot := by rw [hop.kind]; decide
  rw [inferred, tokens, Expr.ofTokens_other (Expr.columnParts?_of_mem hmem hname hdot)
    (Expr.literalType?_of_length hlength) (l.unread hled hop r.tokens), Expr.infer]
  rfl

end Term

end

/-! ## Soundness -/

section

variable {V : Type} {I : Interpretation V} {mode : Mode} {s : Scope}

/-- If the type of the expression is not nullable, then the expression is not NULL. -/
def Term.Kept (I : Interpretation V) (mode : Mode) (s : Scope) (e : Term) : Prop :=
  (e.inferred mode s).isNullable = false → e.eval I ≠ none

theorem kept_of_unresolved {e : Term} (h : (e.inferred mode s).type = .unresolved) :
    e.Kept I mode s := by
  intro hnullable
  rw [Inferred.isNullable, h] at hnullable
  cases hnullable

theorem kept_column (hI : I.Respects s) (path : Path) : (Term.column path).Kept I mode s := by
  rcases Term.inferred_column mode s path with ⟨column, hlookup, htype⟩ | htype
  · intro hnullable
    rw [Inferred.isNullable, htype] at hnullable
    rw [Term.eval]
    exact hI _ _ column hlookup hnullable
  · exact kept_of_unresolved htype

/-- A cast is NULL with its operand only. -/
theorem kept_cast {word asWord : Token} {parens : Parens} {e : Term} {type : List Token}
    {hword : word.IsKeyword "CAST"} {has : asWord.IsKeyword "AS"}
    {htype : Outside (fun t => t.isWord "AS" = false) type} (he : e.Kept I mode s) :
    (Term.cast word parens e asWord type hword has htype).Kept I mode s := by
  intro hnullable
  rw [Inferred.isNullable, Term.inferred_cast, castType] at hnullable
  have hvalue := he (TypeInfo.isNullable_ofOption hnullable)
  rw [Term.eval, ne_eq, Option.map_eq_none_iff]
  exact hvalue

/-- One operand that is not NULL is enough for `COALESCE`. -/
theorem kept_coalesce {word : Token} {parens : Parens} {es : Terms}
    {hword : word.isWord "COALESCE" = true} (hes : ∀ e ∈ es.toList, e.Kept I mode s) :
    (Term.coalesce word parens es hword).Kept I mode s := by
  intro hnullable
  rw [Inferred.isNullable, Term.inferred_coalesce, Inferred.combine] at hnullable
  have hall := TypeInfo.isNullable_ofOption hnullable
  rw [List.all_eq_false] at hall
  obtain ⟨i, hi, hnot⟩ := hall
  obtain ⟨e, he, rfl⟩ := List.mem_map.mp hi
  have hvalue := hes e he (Bool.eq_false_iff.mpr hnot)
  rw [Term.eval, Terms.evalAll_eq]
  intro hnone
  exact hvalue (List.findSome?_eq_none_iff.mp hnone _ (List.mem_map_of_mem he))

/-- `MIN` and `MAX` of several operands need all of them. -/
theorem kept_extremum {word comma : Token} {parens : Parens} {e : Term} {es : Terms}
    {hword : word.isAnyWord ["MIN", "MAX"] = true} {hcomma : comma.kind = .comma}
    (hes : ∀ e' ∈ e :: es.toList, e'.Kept I mode s) :
    (Term.extremum word parens e comma es hword hcomma).Kept I mode s := by
  intro hnullable
  rw [Inferred.isNullable, Term.inferred_extremum, Inferred.combine] at hnullable
  have hany := List.any_eq_false.mp (TypeInfo.isNullable_ofOption hnullable)
  have hvalues : (e.eval I :: es.evalAll I) = (e :: es.toList).map (Term.eval I) := by
    rw [Terms.evalAll_eq, List.map_cons]
  have hsome : (e.eval I :: es.evalAll I).all Option.isSome = true := by
    rw [hvalues, List.all_eq_true]
    intro value hvalue
    obtain ⟨e', he', rfl⟩ := List.mem_map.mp hvalue
    rw [Option.isSome_iff_ne_none]
    exact hes e' he' (Bool.eq_false_iff.mpr (hany _ (List.mem_map_of_mem he')))
  simp [Term.eval, hsome]

mutual

/-- A type that is not nullable is right but for the operations that are read as a call. -/
theorem Term.kept (hI : I.Respects s) (e : Term) (h : e.Regular I) : e.Kept I mode s := by
  match e with
  | .column path => exact kept_column hI path
  | .constant tokens _ =>
      intro _
      rw [Term.eval]
      exact Option.some_ne_none _
  | .null word hword => exact kept_of_unresolved (Term.inferred_null mode s hword)
  | .group parens e =>
      rw [Term.Regular] at h
      have he := Term.kept hI e h
      rwa [Term.Kept, Term.inferred_group, Term.eval]
  | .cast word parens e asWord type hword has htype =>
      rw [Term.Regular] at h
      exact kept_cast (Term.kept hI e h)
  | .coalesce word parens es hword =>
      rw [Term.Regular] at h
      exact kept_coalesce (Terms.kept hI es h)
  | .extremum word parens e comma es hword hcomma =>
      rw [Term.Regular] at h
      have hfirst := Term.kept hI e h.1
      have hrest := Terms.kept hI es h.2
      exact kept_extremum (List.forall_mem_cons.mpr ⟨hfirst, hrest⟩)
  | .count word parens inner clauses hword hinner =>
      intro _
      rw [Term.eval]
      exact Option.some_ne_none _
  | .binary l op r hop =>
      rw [Term.Regular] at h
      cases hled : l.led with
      | false => exact kept_of_unresolved (Term.inferred_binary mode s hled)
      | true => exact fun _ => h hled

theorem Terms.kept (hI : I.Respects s) (es : Terms) (h : es.Regular I) :
    ∀ e ∈ es.toList, e.Kept I mode s := by
  match es with
  | .one e =>
      rw [Terms.Regular] at h
      exact List.forall_mem_singleton.mpr (Term.kept hI e h)
  | .more e comma es hcomma =>
      rw [Terms.Regular] at h
      have hfirst := Term.kept hI e h.1
      have hrest := Terms.kept hI es h.2
      exact List.forall_mem_cons.mpr ⟨hfirst, hrest⟩

end

end

/-- A type that is not nullable promises a value, except to operations that a call of `COUNT` with
`FILTER` or `OVER` behind it begins: these have the type of the call, NULL or not. -/
theorem Term.nullability_sound {V : Type} (I : Interpretation V) (mode : Mode) (s : Scope)
    (hI : I.Respects s) :
    (∀ e : Term, e.Regular I → ∀ type, (e.inferred mode s).type = .resolved type false →
      e.eval I ≠ none) ∧
    ∀ (l r : Term) (op : Token) (hop : op.IsOperation), l.led = true →
      ((Term.binary l op r hop).inferred mode s).type = .resolved .int64 false := by
  constructor
  · intro e hregular type htype
    have hnullable : (e.inferred mode s).isNullable = false := by
      rw [Inferred.isNullable, htype]
      rfl
    exact Term.kept hI e hregular hnullable
  · intro l r op hop hled
    exact Term.inferred_binary_of_led mode s hled

/-! ## An assignment -/

/-- Every column that can be NULL is NULL.  Of other values only that they are there is said. -/
def Interpretation.sparse (s : Scope) : Interpretation Unit where
  column qualifier name :=
    match s.lookup qualifier name with
    | .ok column => if column.type.isNullable then none else some ()
    | .error _ => none
  constant _ := ()
  cast _ _ := ()
  extremum _ _ := ()
  count _ _ := ()
  binary _ _ _ := some ()

theorem Interpretation.sparse_respects (s : Scope) : (sparse s).Respects s := by
  intro qualifier name column hlookup hnullable
  simp [sparse, hlookup, hnullable]

/-- Rows with a number and a bonus, which can be NULL. -/
def itemsScope : Scope :=
  Scope.empty.addEntry ((Scope.Entry.bare "items").pushAll
    [("id", .resolved .int64 false), ("bonus", .resolved .int64 true)])

/-- A token of a text of one line, with so many characters before it. -/
def lineToken (kind : Kind) (text : String) (start : Nat) : Token :=
  ⟨kind, text, ⟨start, start + text.length⟩, ⟨1, start + 1⟩⟩

def lineParens (start stop : Nat) : Parens :=
  ⟨lineToken .leftParen "(" start, lineToken .rightParen ")" stop, ⟨rfl, rfl⟩, ⟨rfl, rfl⟩⟩

/-- A column without qualifiers. -/
def lineColumn (name : String) (hname : isKeyword name = false) (start : Nat) : Term :=
  .column ⟨[], lineToken .identifier name start, nofun, by decide, .inl ⟨rfl, hname⟩⟩

theorem isAnyWord_lineToken {kind : Kind} (hkind : kind = .keyword ∨ kind = .identifier)
    {text : String} {words : List String} (h : words.any (eqIgnoreCase text) = true) (start : Nat) :
    (lineToken kind text start).isAnyWord words = true := by
  rcases hkind with rfl | rfl <;> exact h

/-- `COUNT(*) OVER ()`. -/
def countOver (start : Nat) : Term :=
  .count (lineToken .identifier "COUNT" start) (lineParens (start + 5) (start + 7))
    [lineToken .star "*" (start + 6)]
    [⟨lineToken .keyword "OVER" (start + 9), lineParens (start + 14) (start + 15), [],
      isAnyWord_lineToken (.inl rfl) (by decide) _, .nil⟩]
    (by show eqIgnoreCase "COUNT" "COUNT" = true; decide) (.token nofun nofun)

/-- `COUNT(*) OVER () + name`. -/
def countOverPlus (name : String) (hname : isKeyword name = false) (start : Nat) : Term :=
  .binary (countOver start) (lineToken .operator "+" (start + 17))
    (lineColumn name hname (start + 19)) ⟨rfl, List.mem_cons_self⟩

/-- `COUNT(*) OVER () + bonus` has a type that is not nullable, and is NULL. -/
theorem count_over_plus_null :
    ∃ e : Term, (tokenize "COUNT(*) OVER () + bonus").toOption = some e.tokens ∧
      (Interpretation.sparse itemsScope).Respects itemsScope ∧
      (e.inferred .query itemsScope).type = .resolved .int64 false ∧
      e.eval (Interpretation.sparse itemsScope) = none := by
  refine ⟨countOverPlus "bonus" (by decide) 0, ?_, ?_, ?_, ?_⟩
  · rw [tokenize_ofList]
    decide +kernel
  · exact Interpretation.sparse_respects itemsScope
  · exact Term.inferred_binary_of_led .query itemsScope rfl
  · decide +kernel

/-- `COALESCE(CAST(bonus AS TEXT), COUNT(*) OVER () + id)`. -/
def bonusOrSum : Term :=
  .coalesce (lineToken .identifier "COALESCE" 0) (lineParens 8 51)
    (.more
      (.cast (lineToken .keyword "CAST" 9) (lineParens 13 27) (lineColumn "bonus" (by decide) 14)
        (lineToken .keyword "AS" 20) [lineToken .identifier "TEXT" 23] ⟨rfl, by decide⟩
        ⟨rfl, by decide⟩ (.token (by decide) (by decide) (by decide)))
      (lineToken .comma "," 28) (.one (countOverPlus "id" (by decide) 30)) rfl)
    (by decide)

/-- An operation that a call begins does no harm where it is not NULL. -/
theorem nullability_of_bonusOrSum :
    (tokenize "COALESCE(CAST(bonus AS TEXT), COUNT(*) OVER () + id)").toOption =
        some bonusOrSum.tokens ∧
      (Interpretation.sparse itemsScope).Respects itemsScope ∧
      bonusOrSum.Regular (Interpretation.sparse itemsScope) ∧
      (bonusOrSum.inferred .query itemsScope).type = .resolved .string false ∧
      bonusOrSum.eval (Interpretation.sparse itemsScope) ≠ none ∧ (countOver 30).led = true ∧
      ((countOverPlus "id" (by decide) 30).inferred .query itemsScope).type =
        .resolved .int64 false := by
  have htokens : (tokenize "COALESCE(CAST(bonus AS TEXT), COUNT(*) OVER () + id)").toOption =
      some bonusOrSum.tokens := by
    rw [tokenize_ofList]
    decide +kernel
  have hI := Interpretation.sparse_respects itemsScope
  have hsum : (countOverPlus "id" (by decide) 30).eval (Interpretation.sparse itemsScope) ≠ none :=
    by decide +kernel
  have hregular : bonusOrSum.Regular (Interpretation.sparse itemsScope) :=
    ⟨trivial, fun _ => hsum⟩
  have htype : (bonusOrSum.inferred .query itemsScope).type = .resolved .string false := by
    decide +kernel
  have hsound := Term.nullability_sound (Interpretation.sparse itemsScope) .query itemsScope hI
  exact ⟨htokens, hI, hregular, htype, hsound.1 _ hregular _ htype, rfl, hsound.2 _ _ _ _ rfl⟩

end TypedSql.Grammar

import TypedSql.Analysis.Infer
import TypedSql.Proofs.Expr.Shape
import TypedSql.Proofs.Reference.Scan

/-!
# What typing an expression notes

The types of expressions are found apart from the scan for identifiers, and looks at some of the
references only.  Of those it notes the same things; whatever else it notes is an aside.

Main statements: `Writes.ofTokens_binary`, `Writes.infer_notes`.
-/

namespace TypedSql

open Diagnostic Text Token

/-! ## Asides -/

/-- A warning, with another message than those about names that are not found. -/
structure Diagnostic.Aside (d : Diagnostic) : Prop where
  warning : d.isError = false
  relation : ∀ name, d.message ≠ (Scope.LookupError.unknownRelation name).message
  column : ∀ table name, d.message ≠ (Scope.LookupError.unknownColumn table name).message

/-- The first characters of a text. -/
def beginning (s : String) : List Char := s.toList.take 10

theorem beginning_append {a : String} (h : 10 ≤ a.toList.length) (b : String) :
    beginning (a ++ b) = beginning a := by
  rw [beginning, String.toList_append, List.take_append_of_le_length h, beginning]

theorem beginning_unknownRelation (name : String) :
    beginning (Scope.LookupError.unknownRelation name).message = beginning "unknown ta" := by
  have hlength : 10 ≤ "unknown table or alias '".toList.length := by decide
  have hsame : beginning "unknown table or alias '" = beginning "unknown ta" := by decide
  show beginning ("unknown table or alias '" ++ name ++ "'") = _
  rw [String.append_assoc, beginning_append hlength, hsame]

theorem beginning_unknownColumn (table name : String) :
    beginning (Scope.LookupError.unknownColumn table name).message = beginning "unknown co" := by
  have hlength : 10 ≤ "unknown column '".toList.length := by decide
  have hsame : beginning "unknown column '" = beginning "unknown co" := by decide
  show beginning ("unknown column '" ++ name ++ "' in '" ++ table ++ "'") = _
  rw [String.append_assoc, String.append_assoc, String.append_assoc, beginning_append hlength,
    hsame]

/-- A warning is an aside if its message begins with another text, which differs within its first
`n` characters. -/
theorem Diagnostic.Aside.of_append {code : Code} {path : String} {position : Position}
    {help : Option String} {a : String} (b : String) (n : Nat)
    (hlength : n ≤ 10 ∧ n ≤ a.toList.length)
    (hrelation : a.toList.take n ≠ (beginning "unknown ta").take n)
    (hcolumn : a.toList.take n ≠ (beginning "unknown co").take n) :
    Diagnostic.Aside ⟨.warning, code, a ++ b, path, position, help⟩ := by
  have htake : (beginning (a ++ b)).take n = a.toList.take n := by
    rw [beginning, List.take_take, Nat.min_eq_left hlength.1, String.toList_append,
      List.take_append_of_le_length hlength.2]
  constructor
  · rfl
  · intro name heq
    apply hrelation
    rw [← htake, ← beginning_unknownRelation name]
    exact congrArg (fun m => (beginning m).take n) heq
  · intro table name heq
    apply hcolumn
    rw [← htake, ← beginning_unknownColumn table name]
    exact congrArg (fun m => (beginning m).take n) heq

theorem totalType_notes {function : Aggregate} (hfunction : function = .sum ∨ function = .avg)
    (position : Position) (operand : Inferred) :
    ∀ d ∈ (totalType function position operand).notes, d.Aside := by
  intro d hd
  unfold totalType at hd
  split at hd
  · cases hd
  · split at hd
    · cases hd
    · cases List.mem_singleton.mp hd
      rcases hfunction with rfl | rfl
      all_goals
        rw [String.append_assoc, String.append_assoc]
        exact .of_append _ 1 (by decide) (by decide) (by decide)

/-- An aggregate has nothing to do with names. -/
theorem inferAggregate_notes (function : Aggregate) (position : Position)
    (operands : List Inferred) :
    ∀ d ∈ (inferAggregate function position operands).notes, d.Aside := by
  intro d hd
  cases operands with
  | nil => cases hd
  | cons first rest =>
      have hd : d ∈ (aggregateType function position first (first :: rest)).notes := by
        rcases List.mem_append.mp hd with hd | hd
        · exact hd
        · cases hd
      cases function with
      | count => cases hd
      | sum => exact totalType_notes (.inl rfl) position first d hd
      | avg => exact totalType_notes (.inr rfl) position first d hd
      | min => cases hd
      | max => cases hd
      | coalesce => cases hd

namespace Grammar

/-! ## Shapes -/

theorem ofWord?_of_keyword {t : Token} {word : String} (h : t.IsKeyword word) :
    Aggregate.ofWord? t.text = Aggregate.ofWord? word :=
  Expr.ofWord?_of_eqIgnoreCase h.2

theorem ofWord?_of_open {o : Token} (ho : o.Is .leftParen "(") :
    Aggregate.ofWord? o.text = none := by
  rw [ho.2]
  decide

theorem isWord_cast_of_bareName {f : Token} (hf : f.IsBareName) : f.isWord "CAST" = false := by
  have hnone : f.isAnyWord ["CAST"] = false := hf.isAnyWord (by decide)
  exact isWord_of_isAnyWord hnone (by decide)

theorem IsLiteral.first {t : Token} (h : t.IsLiteral ∨ t.kind = .parameter) :
    t.kind ≠ .operator ∧ t.kind ≠ .leftParen ∧ t.isWord "CAST" = false ∧ t.isName = false := by
  have hkind {kind : Kind} (h : t.kind = kind) (hkind : kind ∈ [Kind.string, .integer, .float,
      .parameter]) : t.kind ≠ .operator ∧ t.kind ≠ .leftParen ∧ t.isWord "CAST" = false ∧
        t.isName = false := by
    simp only [List.mem_cons, List.not_mem_nil, or_false] at hkind
    rcases hkind with rfl | rfl | rfl | rfl <;>
      exact ⟨by rw [h]; decide, by rw [h]; decide, by rw [isWord, h]; rfl,
        by rw [isName, isIdentifier, h]; rfl⟩
  rcases h with (h | h | h | h) | h
  · exact hkind h (by decide)
  · exact hkind h (by decide)
  · exact hkind h (by decide)
  · refine ⟨by rw [h.1]; decide, by rw [h.1]; decide, ?_, ?_⟩
    · rw [h.isWord]
      decide
    · have hreserved : isReserved t.text = isReserved "NULL" := by
        rw [isReserved, isReserved, eqIgnoreCase_iff.mp h.2]
      have hnull : isReserved "NULL" = true := by decide
      rw [isName, isIdentifier, h.1, hreserved, hnull]
      rfl
  · exact hkind h (by decide)

theorem ofTokens_choice {k w : Token} (hk : k.IsKeyword "CASE") (hw : w.IsKeyword "WHEN")
    (ts : List Token) : Expr.ofTokens (k :: w :: ts) = .other := by
  have hcast : k.isWord "CAST" = false := by
    rw [hk.isWord]
    decide
  exact Expr.ofTokens_other (Expr.columnParts?_of_second (by rw [hw.1]; decide))
    (Expr.literalType?_of_first (by rw [hk.1]; decide))
    (.of_second hcast (by rw [hk.1]; decide) (by rw [hw.1]; decide) _)

/-- An operand with an operator behind it has none of the shapes. -/
theorem Writes.ofTokens_followed {op : Token} {xs : List Token} {rs : List ColumnRef}
    (h : Writes .primary xs rs) (hop : op.IsBinaryOperator) (ys : List Token) :
    Expr.ofTokens (xs ++ op :: ys) = .other := by
  have hkind : op.kind ≠ .leftParen ∧ op.kind ≠ .dot := by
    rcases hop.kind with h | h <;> rw [h] <;> decide
  have hbehind : op.isAnyWord ["FILTER", "OVER"] = false := hop.isAnyWord (by decide)
  cases h with
  | @reference q dot c hq hdot hc =>
      have hcast : q.isWord "CAST" = false := by
        rw [isWord, hq]
        rfl
      exact Expr.ofTokens_other (Expr.columnParts?_of_fourth hkind.2)
        (Expr.literalType?_of_first (by rw [hq]; decide))
        (.of_second hcast (by rw [hq]; decide) (by rw [hdot.1]; decide) _)
  | literal ht =>
      obtain ⟨hoperator, hopen, hcast, -⟩ := IsLiteral.first (.inl ht)
      exact Expr.ofTokens_other (Expr.columnParts?_of_second hkind.2)
        (Expr.literalType?_of_first hoperator) (.of_second hcast hopen hkind.1 _)
  | parameter ht =>
      obtain ⟨hoperator, hopen, hcast, -⟩ := IsLiteral.first (.inr ht)
      exact Expr.ofTokens_other (Expr.columnParts?_of_second hkind.2)
        (Expr.literalType?_of_first hoperator) (.of_second hcast hopen hkind.1 _)
  | @group o c xs rs ho hc hx =>
      have hunread := Expr.Unread.of_group ho.1 (ofWord?_of_open ho) hc.1 hx.balanced op ys
      obtain ⟨t, ts, rfl⟩ := List.exists_cons_of_ne_nil hx.ne_nil
      have hlist : o :: (t :: ts ++ [c]) ++ op :: ys = o :: (t :: ts ++ c :: op :: ys) := by simp
      rw [hlist]
      exact Expr.ofTokens_other (Expr.columnParts?_of_second (hx.first_ne_dot t rfl))
        (Expr.literalType?_of_first (by rw [ho.1]; decide)) hunread
  | @emptyCall f o c hf ho hc =>
      exact Expr.ofTokens_other (Expr.columnParts?_of_second (by rw [ho.1]; decide))
        (Expr.literalType?_of_first (by rw [hf.1]; decide))
        (.of_call (by rw [hf.1]; decide) ho.1 hc.1 Balanced.nil hbehind ys)
  | @call f o c xs rs hf ho hc hx =>
      have hlist : f :: o :: (xs ++ [c]) ++ op :: ys = f :: o :: (xs ++ c :: op :: ys) := by simp
      rw [hlist]
      exact Expr.ofTokens_other (Expr.columnParts?_of_second (by rw [ho.1]; decide))
        (Expr.literalType?_of_first (by rw [hf.1]; decide))
        (.of_call (by rw [hf.1]; decide) ho.1 hc.1 hx.balanced hbehind ys)
  | choice hk hw => exact ofTokens_choice hk hw _
  | @cast k o a t c xs rs hk ho ha ht hc hx =>
      have hlist : k :: o :: (xs ++ [a, t, c]) ++ op :: ys =
          k :: o :: ((xs ++ [a, t]) ++ c :: op :: ys) := by simp
      have hinner : Balanced (xs ++ [a, t]) := hx.balanced.append (balanced_alias ha ht)
      rw [hlist]
      exact Expr.ofTokens_other (Expr.columnParts?_of_second (by rw [ho.1]; decide))
        (Expr.literalType?_of_first (by rw [hk.1]; decide))
        (.of_call (by rw [hk.1]; decide) ho.1 hc.1 hinner hbehind ys)

theorem ofTokens_negation {k t : Token} (hk : k.IsKeyword "NOT") (ht : t.kind ≠ .dot)
    (ts : List Token) : Expr.ofTokens (k :: t :: ts) = .other := by
  have haggregate : Aggregate.ofWord? k.text = none := by
    rw [ofWord?_of_keyword hk]
    decide
  have hcast : k.isWord "CAST" = false := by
    rw [hk.isWord]
    decide
  exact Expr.ofTokens_other (Expr.columnParts?_of_second ht)
    (Expr.literalType?_of_first (by rw [hk.1]; decide))
    ⟨Expr.castParts?_of_first hcast, Expr.aggregateParts?_of_first haggregate,
      Expr.parenthesized?_of_first (by rw [hk.1]; decide)⟩

/-- Nothing is known of two expressions with an operator between them. -/
theorem Writes.ofTokens_binary {part : Part} {xs : List Token} {rs : List ColumnRef}
    (h : Writes part xs rs) (hpart : part = .expression) {op : Token} (hop : op.IsBinaryOperator)
    (ys : List Token) : Expr.ofTokens (xs ++ op :: ys) = .other := by
  -- The leftmost operand decides, so more and more tokens are put behind it.
  induction h generalizing op ys with
  | operand hx => exact hx.ofTokens_followed hop ys
  | @negation k xs rs hk hx =>
      obtain ⟨t, ts, rfl⟩ := List.exists_cons_of_ne_nil hx.ne_nil
      exact ofTokens_negation hk (hx.first_ne_dot t rfl) _
  | @binary op' xs zs rs ss hx hop' hz ihx _ =>
      rw [List.append_assoc, List.cons_append]
      exact ihx rfl hop' _
  | _ => cases hpart

/-! ## Notes -/

/-- What is noted is noted of one of the references, or is an aside. -/
def Explained (s : Scope) (rs : List ColumnRef) (d : Diagnostic) : Prop :=
  d ∈ rs.flatMap (ColumnRef.notes s) ∨ d.Aside

variable {s : Scope}

theorem Explained.left {rs us : List ColumnRef} {d : Diagnostic} (h : Explained s rs d) :
    Explained s (rs ++ us) d := by
  refine h.imp_left fun h => ?_
  rw [List.flatMap_append]
  exact List.mem_append_left _ h

theorem Explained.right {rs us : List ColumnRef} {d : Diagnostic} (h : Explained s us d) :
    Explained s (rs ++ us) d := by
  refine h.imp_left fun h => ?_
  rw [List.flatMap_append]
  exact List.mem_append_right _ h

/-- A column is looked up as in the scan for identifiers. -/
theorem inferColumn_notes (s : Scope) (r : ColumnRef) :
    ∀ d ∈ (inferColumn .query s (some r.qualifier.value) r.column.value
      r.qualifier.position).notes, Explained s [r] d := by
  intro d hd
  unfold inferColumn at hd
  split at hd
  · cases hd
  · next e he =>
      have hd : d ∈ (Mode.noteLookup .query e r.qualifier.position).notes := by
        rcases List.mem_append.mp hd with hd | hd
        · exact hd
        · cases hd
      cases hmistake : e.isMistake with
      | true =>
          left
          have hnotes : ColumnRef.notes s r =
              (Noted.error e.code r.qualifier.position e.message).notes := by
            unfold ColumnRef.notes Identifier.check
            rw [he]
            simp only [hmistake, if_true]
          simp only [Mode.noteLookup, hmistake] at hd
          rw [List.flatMap_singleton, hnotes]
          exact hd
      | false =>
          right
          simp only [Mode.noteLookup, hmistake] at hd
          cases List.mem_singleton.mp hd
          cases e with
          | unmapped column =>
              show Diagnostic.Aside ⟨.warning, _, "column '" ++ column ++
                "' derives from expression without schema mapping", _, _, _⟩
              rw [String.append_assoc]
              exact .of_append _ 1 (by decide) (by decide) (by decide)
          | unknownRelation name => cases hmistake
          | unknownColumn relation column => cases hmistake
          | noSuchColumn column => cases hmistake
          | ambiguous column => cases hmistake

theorem mem_notes_inferAll {es : List Expr} {d : Diagnostic}
    (h : d ∈ (Expr.inferAll .query s es).notes) : ∃ e ∈ es, d ∈ (e.infer .query s).notes := by
  induction es with
  | nil => cases h
  | cons e es ih =>
      rw [Expr.inferAll] at h
      rcases List.mem_append.mp h with h | h
      · exact ⟨e, List.mem_cons_self, h⟩
      · rcases List.mem_append.mp h with h | h
        · obtain ⟨e', he', hd⟩ := ih h
          exact ⟨e', List.mem_cons_of_mem _ he', hd⟩
        · cases h

/-- An aggregate notes what its operands note, and asides. -/
theorem mem_notes_aggregate {function : Aggregate} {position : Position} {es : List Expr}
    {d : Diagnostic} (h : d ∈ ((Expr.aggregate function position es).infer .query s).notes) :
    (∃ e ∈ es, d ∈ (e.infer .query s).notes) ∨ d.Aside := by
  cases function with
  | count =>
      rw [Expr.infer] at h
      cases h
  | _ =>
      rw [Expr.infer] at h
      · rcases List.mem_append.mp h with h | h
        · exact .inl (mem_notes_inferAll h)
        · exact .inr (inferAggregate_notes _ _ _ d h)
      · rintro ⟨⟩

/-- The expressions that a part consists of. -/
def Part.pieces (part : Part) (xs : List Token) : List (List Token) :=
  match part with
  | .arguments => commaPieces xs
  | _ => [xs]

/-- A literal or a parameter notes nothing. -/
theorem infer_single {t : Token} (h : t.IsLiteral ∨ t.kind = .parameter) :
    ((Expr.ofTokens [t]).infer .query s).notes = [] := by
  obtain ⟨-, hopen, hcast, hname⟩ := IsLiteral.first h
  have hcolumn : Expr.columnParts? [t] = none := by
    show (if t.isName then _ else none) = none
    rw [hname]
    rfl
  have haggregate : Expr.aggregateParts? [t] = none := by
    show (Aggregate.ofWord? t.text).bind _ = none
    cases Aggregate.ofWord? t.text <;> rfl
  rw [Expr.ofTokens_eq, hcolumn, Expr.castParts?_of_first hcast, haggregate,
    Expr.parenthesized?_of_first hopen]
  cases Expr.literalType? [t] with
  | none =>
      show (Expr.infer .query s .other).notes = []
      rw [Expr.infer]
      rfl
  | some type =>
      show (Expr.infer .query s (.literal type)).notes = []
      rw [Expr.infer]
      rfl

theorem infer_other : (Expr.infer .query s .other).notes = [] := by
  rw [Expr.infer]
  rfl

theorem ofTokens_reference {q dot c : Token} (hq : q.kind = .quotedIdentifier)
    (hdot : dot.Is .dot ".") (hc : c.kind = .quotedIdentifier) :
    Expr.ofTokens [q, dot, c] = .column (some q.value) c.value q.position := by
  have hcolumn : Expr.columnParts? [q, dot, c] = some (some q.value, c.value) := by
    show (if q.isName && dot.kind == .dot && c.isName then _ else none) = _
    rw [isName, isName, isIdentifier, isIdentifier, hq, hdot.1, hc]
    rfl
  rw [Expr.ofTokens_eq, hcolumn]
  rfl

theorem ofTokens_group {o c : Token} {xs : List Token} {rs : List ColumnRef}
    (ho : o.Is .leftParen "(") (hc : c.Is .rightParen ")") (hx : Writes .expression xs rs) :
    Expr.ofTokens (o :: (xs ++ [c])) = Expr.ofTokens xs :=
  Expr.ofTokens_group ho.1 (ofWord?_of_open ho) hc.1 hx.balanced hx.ne_nil
    (head?_append_of_head? hx.ne_nil hx.noQuery)

theorem ofTokens_call {f o c : Token} {xs : List Token} (hf : f.IsBareName)
    (ho : o.Is .leftParen "(") (hc : c.Is .rightParen ")") (hxs : Balanced xs)
    (hfirst : ∀ t ∈ xs.head?, t.isAnyWord ["DISTINCT", "ALL"] = false) :
    Expr.ofTokens (f :: o :: (xs ++ [c])) = .other ∨ ∃ function,
      Expr.ofTokens (f :: o :: (xs ++ [c])) =
        .aggregate function f.position ((commaPieces xs).map Expr.ofTokens) := by
  rw [Expr.ofTokens_call (by rw [hf.1]; decide) (by rw [hf.1]; decide) (isWord_cast_of_bareName hf)
    ho.1 hc.1 hxs rfl, Expr.dropWhile_of_first hfirst]
  cases Aggregate.ofWord? f.text with
  | none => exact .inl rfl
  | some function => exact .inr ⟨function, rfl⟩

theorem ofTokens_cast {k o a t c : Token} {xs : List Token} (hk : k.IsKeyword "CAST")
    (ho : o.Is .leftParen "(") (ha : a.IsKeyword "AS")
    (ht : t.IsBareName ∨ t.kind = .quotedIdentifier) (hc : c.Is .rightParen ")")
    (hxs : Balanced xs) :
    ∃ name, Expr.ofTokens (k :: o :: (xs ++ [a, t, c])) = .cast (Expr.ofTokens xs) name := by
  have hcast : k.isWord "CAST" = true := by
    rw [hk.isWord]
    decide
  have has : a.isWord "AS" = true := by
    rw [ha.isWord]
    decide
  have htype : t.isWord "AS" = false := by
    rcases ht with ht | ht
    · have hnone : t.isAnyWord ["AS"] = false := ht.isAnyWord (by decide)
      exact isWord_of_isAnyWord hnone (by decide)
    · rw [isWord, ht]
      rfl
  have hkind : t.kind = .identifier ∨ t.kind = .quotedIdentifier := ht.imp_left And.left
  have hone : Outside (fun t => t.isWord "AS" = false) [t] := by
    rcases hkind with h | h <;> exact .token htype (by rw [h]; decide) (by rw [h]; decide)
  exact ⟨_, Expr.ofTokens_cast hcast ho.1 hc.1 hxs has hone⟩

/-- Typing a part of a statement finds mistakes of its references only. -/
theorem Writes.infer_notes {part : Part} {xs : List Token} {rs : List ColumnRef}
    (h : Writes part xs rs) (s : Scope) : ∀ piece ∈ part.pieces xs,
    ∀ d ∈ ((Expr.ofTokens piece).infer .query s).notes, Explained s rs d := by
  have other {e : Expr} (he : e = .other) {rs : List ColumnRef} :
      ∀ d ∈ (e.infer .query s).notes, Explained s rs d := by
    intro d hd
    rw [he, infer_other] at hd
    cases hd
  -- The induction is on how the part is written: a shape that is typed as a whole has one piece,
  -- an aggregate function types each of its arguments, and any other text is not looked into.
  induction h with
  | @reference q dot c hq hdot hc =>
      refine List.forall_mem_singleton.mpr fun d hd => ?_
      rw [ofTokens_reference hq hdot hc, Expr.infer] at hd
      exact inferColumn_notes s ⟨q, c⟩ d hd
  | literal ht =>
      refine List.forall_mem_singleton.mpr fun d hd => ?_
      rw [infer_single (.inl ht)] at hd
      cases hd
  | parameter ht =>
      refine List.forall_mem_singleton.mpr fun d hd => ?_
      rw [infer_single (.inr ht)] at hd
      cases hd
  | group ho hc hx ih =>
      refine List.forall_mem_singleton.mpr fun d hd => ?_
      rw [ofTokens_group ho hc hx] at hd
      exact ih _ (List.mem_singleton_self _) d hd
  | @emptyCall f o c hf ho hc =>
      refine List.forall_mem_singleton.mpr fun d hd => ?_
      rcases ofTokens_call hf ho hc .nil (by simp) with he | ⟨function, he⟩
      · exact other he d hd
      · -- Nothing stands between the parentheses, so there is nothing to look at.
        have hpieces : commaPieces [] = [] := by decide
        have he : Expr.ofTokens [f, o, c] = .aggregate function f.position [] := by
          rw [hpieces] at he
          exact he
        rw [he] at hd
        rcases mem_notes_aggregate hd with ⟨e, hmem, -⟩ | haside
        · cases hmem
        · exact .inr haside
  | @call f o c xs rs hf ho hc hx ih =>
      refine List.forall_mem_singleton.mpr fun d hd => ?_
      have hfirst : ∀ t ∈ xs.head?, t.isAnyWord ["DISTINCT", "ALL"] = false :=
        hx.first_isAnyWord (by decide)
      rcases ofTokens_call hf ho hc hx.balanced hfirst with he | ⟨function, he⟩
      · exact other he d hd
      · rw [he] at hd
        rcases mem_notes_aggregate hd with ⟨e, hmem, hd⟩ | haside
        · obtain ⟨piece, hpiece, rfl⟩ := List.mem_map.mp hmem
          exact ih piece hpiece d hd
        · exact .inr haside
  | choice hk hw =>
      refine List.forall_mem_singleton.mpr fun d hd => ?_
      exact other (ofTokens_choice hk hw _) d hd
  | cast hk ho ha ht hc hx ih =>
      refine List.forall_mem_singleton.mpr fun d hd => ?_
      obtain ⟨name, he⟩ := ofTokens_cast hk ho ha ht hc hx.balanced
      rw [he, Expr.infer] at hd
      rcases List.mem_append.mp hd with hd | hd
      · exact ih _ (List.mem_singleton_self _) d hd
      · cases hd
  | operand _ ih => exact ih
  | @negation k xs rs hk hx ih =>
      refine List.forall_mem_singleton.mpr fun d hd => ?_
      obtain ⟨t, ts, rfl⟩ := List.exists_cons_of_ne_nil hx.ne_nil
      exact other (ofTokens_negation hk (hx.first_ne_dot t rfl) ts) d hd
  | binary hx hop _ _ _ =>
      refine List.forall_mem_singleton.mpr fun d hd => ?_
      exact other (hx.ofTokens_binary rfl hop _) d hd
  | @single xs rs hx ih =>
      intro piece hpiece
      have hone : commaPieces xs = [xs] := (hx.noComma (by simp)).commaPieces_eq hx.ne_nil
      rw [Part.pieces, hone] at hpiece
      exact ih piece hpiece
  | @more comma xs ys rs us hx hcomma _ ihx ihy =>
      intro piece hpiece d hd
      rw [Part.pieces, (hx.noComma (by simp)).commaPieces_append hx.ne_nil hcomma.1] at hpiece
      rcases List.mem_cons.mp hpiece with rfl | hpiece
      · exact (ihx _ (List.mem_singleton_self _) d hd).left
      · exact (ihy piece hpiece d hd).right

end Grammar

end TypedSql

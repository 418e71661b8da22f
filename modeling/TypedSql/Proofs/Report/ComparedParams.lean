import TypedSql.Proofs.Reference.Comparison
import TypedSql.Proofs.Report.ParamTypes
import TypedSql.Proofs.Report.QualifiedColumn

/-!
# Parameters in comparisons

In `WHERE "t"."c" op ?` and in `WHERE ? op "t"."c"` the parameter has the name of the column, as it
is written, and its type.  The names stand in quotes, so they can be any text, and `op` is any of
the marks and words that compare two values.

Main definitions: `comparisons`, `columnFirst`, `parameterFirst`.  Main statement:
`Analyzer.params_of_comparison`.
-/

namespace TypedSql

open Query Text Token

theorem Neighbor.inListOpen?_eq_none {tokens : List Token} {i : Nat}
    (h : ∀ t ∈ (tokens.take i).getLast?, t.kind ≠ .leftParen ∧ t.kind ≠ .comma) :
    inListOpen? tokens i = none := by
  unfold inListOpen?
  simp only [startsWithKind, List.head?_reverse]
  cases hlast : (tokens.take i).getLast? with
  | none => rfl
  | some t =>
      obtain ⟨hopen, hcomma⟩ := h t hlast
      rw [Option.any_some, Option.any_some, beq_eq_false_iff_ne.mpr hopen,
        beq_eq_false_iff_ne.mpr hcomma, Bool.or_self, if_neg Bool.false_ne_true]

/-- A parameter token among tokens that write no parameter is the only parameter. -/
theorem Query.readParams_single {before after : List Token} {mark : Token}
    (hmark : mark.kind = .parameter)
    (hnoCall : ∀ t ∈ before ++ mark :: after, t.isWord "sqlc" = false)
    (hothers : ∀ t ∈ before ++ after, t.kind ≠ .parameter) :
    readParams (before ++ mark :: after) = [.ofToken mark] := by
  have hnone {xs : List Token} (hxs : ∀ t ∈ xs, t ∈ before ++ after) :
      xs.filter (fun t => t.kind == .parameter) = [] :=
    List.filter_eq_nil_iff.mpr fun t ht =>
      Bool.eq_false_iff.mp (beq_eq_false_iff_ne.mpr (hothers t (hxs t ht)))
  have hfilter : (before ++ mark :: after).filter (fun t => t.kind == .parameter) = [mark] := by
    rw [List.filter_append, List.filter_cons, hmark, hnone fun t ht => List.mem_append_left _ ht,
      hnone fun t ht => List.mem_append_right _ ht]
    rfl
  have hplaces := paramPlaces_append hnoCall []
  rw [List.append_nil, hfilter, paramPlaces, List.append_nil] at hplaces
  rw [readParams, hplaces]
  rfl

/-! ## The results -/

namespace Analyzer

variable {a : Analyzer} {c : Catalog} {b : Block}

/-- Where the other tokens say nothing of a `?`, and it has no cast, its result has the name and the
type that a comparison gives it, on either side. -/
theorem OneSegment.params_of_compared {tokens before after : List Token} {scope : Scope}
    {mark : Token} {name : String} {type : TypeInfo} (h : a.OneSegment c b tokens scope)
    (htokens : tokens = before ++ mark :: after) (hmark : mark.Is .parameter "?")
    (hothers : ∀ t ∈ before ++ after, Grammar.SaysNothing t)
    (hcast : ∀ t ∈ after.head?, t.isOperator "::" = false)
    (hhint : ((a.context c tokens scope).hintBefore? scope before.reverse).or
      ((a.context c tokens scope).hintBehind? scope none after) = some ⟨type, some name⟩) :
    (a.analyze b).params = [⟨name, .positional, type, false, none⟩] := by
  let context := a.context c tokens scope
  -- The index of the parameter cuts the tokens into those before it and those behind it.
  have htake : tokens.take before.length = before := by
    rw [htokens, List.take_left]
  have hdrop : tokens.drop (before.length + 1) = after := by
    rw [htokens, List.drop_length_add_append]
    rfl
  have hlast : ∀ t ∈ (tokens.take before.length).getLast?, t ∈ before ++ after := by
    rw [htake]
    exact fun t ht => List.mem_append_left _ (List.mem_of_getLast? ht)
  have hword : mark.isWord "sqlc" = false := by
    rw [isWord, hmark.1]
    rfl
  have hlist : Neighbor.inListOpen? tokens before.length = none :=
    Neighbor.inListOpen?_eq_none fun t ht => by
      have hkinds := (hothers t (hlast t ht)).kind_ne
      exact ⟨hkinds .leftParen (by decide), hkinds .comma (by decide)⟩
  have hread : readParams tokens = [.ofToken mark] := by
    have hnoCall : ∀ t ∈ before ++ after, t.isWord "sqlc" = false :=
      fun t ht => isWord_of_isAnyWord (hothers t ht).isAnyWord (by decide)
    obtain ⟨hbefore, hafter⟩ := List.forall_mem_append.mp hnoCall
    rw [htokens]
    exact readParams_single hmark.1
      (List.forall_mem_append.mpr ⟨hbefore, List.forall_mem_cons.mpr ⟨hword, hafter⟩⟩)
      fun t ht => (hothers t ht).kind_ne .parameter (by decide)
  have hhinted : context.hint? (InsertTarget.ofTokens c tokens) before.length false =
      some ⟨type, some name⟩ := by
    have hthis : context.tokens[before.length]? = some mark := by
      show tokens[before.length]? = _
      rw [htokens, List.getElem?_append_right (Nat.le_refl _), Nat.sub_self]
      rfl
    have hscope : context.scopeAt before.length = scope := ParamContext.scopeAt_of_segment rfl _
    have hlimit : ∀ t ∈ (context.tokens.take before.length).getLast?,
        t.isAnyWord ["LIMIT", "OFFSET"] = false :=
      fun t ht => isAnyWord_of_subset (hothers t (hlast t ht)).isAnyWord (by decide)
    have hbehind : context.tokens.drop (before.length + 1) = after := hdrop
    have hbefore : context.tokens.take before.length = before := htake
    rw [context.hint?_of_uncast _ hthis hword hlimit hlist
      (hbehind ▸ ParamContext.readCast_of_head hcast), hscope, hbehind, hbefore, hhint,
      Option.some_or]
  refine h.params_of_mark htokens hmark hread hhinted ?_
  rw [Neighbor.inListLength?, hlist, Option.bind_none]

variable {q : Grammar.Comparison} {t : Table} {d : Column}

/-- The parameter of a comparison has the name and the type of the column, whichever side it
stands on. -/
theorem Holds.params_around {xs ys : List Token}
    (h : a.Holds c b (q.toFiltered.tokens ++ (xs ++ q.mark :: ys))) (haround : q.Around xs ys)
    (ht : c.named? q.table.value = some t) (hd : t.column? q.column.value = some d) :
    (a.analyze b).params =
      [⟨q.column.value, .positional, a.overrides.typeOf t.name d, false, none⟩] := by
  let tokens := q.toFiltered.tokens ++ (xs ++ q.mark :: ys)
  let scope := (Scope.ofCatalog a.overrides c).narrow tokens
  let context := a.context c tokens scope
  have hreferences : RelationRef.ofTokens tokens = [q.listed.reference 5] :=
    q.toFiltered.references_eq (haround.outside (by decide))
  have htype : context.columnType? scope ⟨some q.table.value, q.column.value⟩ =
      some (a.overrides.typeOf t.name d) := by
    have hfirst : context.scopeAt 0 = scope := ParamContext.scopeAt_of_segment rfl 0
    rw [← hfirst]
    exact (context_columnType? ht hd hreferences rfl rfl rfl 0).2
  -- On the right the comparison is read backwards, on the left it is read forwards.
  have hhint : (context.hintBefore? scope (q.toFiltered.tokens ++ xs).reverse).or
      (context.hintBehind? scope none ys) =
        some ⟨a.overrides.typeOf t.name d, some q.column.value⟩ := by
    cases haround with
    | right =>
        rw [ParamContext.hintBefore?, q.comparedBefore?_eq, Option.bind_some, htype]
        rfl
    | left =>
        rw [ParamContext.hintBefore?, List.append_nil, q.comparedBefore?_tokens, Option.bind_none,
          Option.none_or, ParamContext.hintBehind?, q.comparedBehind?_eq, Option.bind_some, htype]
        rfl
  have hothers := haround.others
  rw [← List.append_assoc] at hothers
  exact (h.oneSegment_filtered (haround.outside (by decide))).params_of_compared
    (List.append_assoc ..).symm q.hmark hothers haround.isOperator hhint

end Analyzer

/-! ## The statements -/

/-- A statement with the condition on the table. -/
def selectWhere (table condition : String) : String :=
  "SELECT 1 AS \"k\" FROM " ++ quoteName table ++ " WHERE " ++ condition

/-- The statement that compares the column of the table with a parameter on the right. -/
def columnFirst (table column op : String) : String :=
  selectWhere table (quoteName table ++ "." ++ quoteName column ++ " " ++ op ++ " ?")

/-- The statement that compares a parameter with the column of the table on the right. -/
def parameterFirst (table column op : String) : String :=
  selectWhere table ("? " ++ op ++ " " ++ quoteName table ++ "." ++ quoteName column)

/-- The marks that compare. -/
def comparingMarks : List String := ["=", "==", "!=", "<>", "<", "<=", ">", ">="]

/-- The words that compare, and can have `NOT` in front of them. -/
def comparingWords : List String := ["LIKE", "GLOB"]

/-- Everything that compares. -/
def comparisons : List String :=
  comparingMarks ++ (comparingWords ++ comparingWords.map fun word => "NOT " ++ word)

variable {more : List Char} {words : List (Kind × String)}

theorem readsAs_mark {op : String} (hop : op ∈ comparingMarks) (h : ReadsAs more words) :
    ReadsAs (op.toList ++ ' ' :: more) ((.operator, op) :: words) := by
  have hall : ∀ op ∈ comparingMarks, op.toList.head? ≠ some '/' := by decide
  have hfirst := hall op hop
  simp only [comparingMarks, List.mem_cons, List.not_mem_nil, or_false] at hop
  rcases hop with rfl | rfl | rfl | rfl | rfl | rfl | rfl | rfl <;>
    exact .spaced _ hfirst rfl rfl h

theorem readsAs_word {op : String} (hop : op ∈ "NOT" :: comparingWords) (h : ReadsAs more words) :
    ReadsAs (op.toList ++ ' ' :: more) ((.keyword, op) :: words) := by
  have hall : ∀ op ∈ "NOT" :: comparingWords, op.toList.head? ≠ some '/' := by decide
  have hfirst := hall op hop
  simp only [comparingWords, List.mem_cons, List.not_mem_nil, or_false] at hop
  rcases hop with rfl | rfl | rfl <;> exact .spaced _ hfirst rfl rfl h

/-- The tokens are an operator, with `NOT` in front of it or not. -/
def IsOperator (ts : List Token) : Prop :=
  ∃ (notWord : Option Token) (op : Token), ts = notWord.toList ++ [op] ∧
    (∀ t ∈ notWord, t.IsKeyword "NOT") ∧ Neighbor.isComparison op = true

theorem isComparison_of_word {t : Token} {op : String} (hop : op ∈ comparingWords)
    (h : (t.kind, t.text) = (Kind.keyword, op)) : Neighbor.isComparison t = true := by
  have hall : ∀ op ∈ comparingWords, (["LIKE", "GLOB", "IS"].any (eqIgnoreCase op)) = true := by
    decide
  rw [Neighbor.isComparison, (IsKeyword.of_word h).isAnyWord, hall op hop, Bool.or_true]

/-- What compares is read as an operator, with anything behind it. -/
theorem exists_operator {op : String} (hop : op ∈ comparisons) :
    ∃ operator : List (Kind × String),
      (∀ {more : List Char} {words : List (Kind × String)}, ReadsAs more words →
        ReadsAs (op.toList ++ ' ' :: more) (operator ++ words)) ∧
      ∀ ts : List Token, ts.map (fun t => (t.kind, t.text)) = operator → IsOperator ts := by
  rcases List.mem_append.mp hop with hmark | hothers
  · refine ⟨[(.operator, op)], readsAs_mark hmark, fun ts hts => ?_⟩
    obtain ⟨t, rfl, ht⟩ := List.map_eq_singleton_iff.mp hts
    obtain ⟨hkind, rfl⟩ := Prod.mk.inj ht
    have htext : ["=", "==", "!=", "<>", "<", "<=", ">", ">="].contains t.text = true :=
      List.contains_iff_mem.mpr hmark
    refine ⟨none, t, rfl, fun u hu => absurd hu (Option.not_mem_none u), ?_⟩
    rw [Neighbor.isComparison, hkind, htext]
    rfl
  rcases List.mem_append.mp hothers with hword | hnegated
  · refine ⟨[(.keyword, op)], readsAs_word (List.mem_cons_of_mem _ hword), fun ts hts => ?_⟩
    obtain ⟨t, rfl, ht⟩ := List.map_eq_singleton_iff.mp hts
    exact ⟨none, t, rfl, fun u hu => absurd hu (Option.not_mem_none u),
      isComparison_of_word hword ht⟩
  -- The two words of a negated operator are two tokens.
  · obtain ⟨word, hword, rfl⟩ := List.mem_map.mp hnegated
    refine ⟨[(.keyword, "NOT"), (.keyword, word)], fun h => ?_, fun ts hts => ?_⟩
    · have hreads := readsAs_word List.mem_cons_self (readsAs_word (List.mem_cons_of_mem _ hword) h)
      rw [String.toList_append, List.append_assoc]
      exact hreads
    · obtain ⟨notWord, rest, rfl, hnot, hrest⟩ := List.map_eq_cons_iff.mp hts
      obtain ⟨t, rfl, ht⟩ := List.map_eq_singleton_iff.mp hrest
      refine ⟨some notWord, t, rfl, ?_, isComparison_of_word hword ht⟩
      rintro _ ⟨⟩
      exact .of_word hnot

/-! ## The words of the statements -/

/-- The words in front of the condition. -/
def leadWords (table : String) : List (Kind × String) :=
  [(.keyword, "SELECT"), (.integer, "1"), (.keyword, "AS"), (.quotedIdentifier, quoteName "k"),
    (.keyword, "FROM"), (.quotedIdentifier, quoteName table), (.keyword, "WHERE")]

/-- What stands in front of the condition is read as its words. -/
theorem readsAs_selectWhere (table : String) {condition : String}
    (h : ReadsAs condition.toList words) :
    ReadsAs (selectWhere table condition).toList (leadWords table ++ words) := by
  have htext : (selectWhere table condition).toList =
      "SELECT".toList ++ ' ' :: ("1".toList ++ ' ' :: ("AS".toList ++ ' ' :: (quoted "k" ++ ' ' ::
        ("FROM".toList ++ ' ' :: (quoted table ++ ' ' :: ("WHERE".toList ++ ' ' ::
          condition.toList)))))) := by
    delta selectWhere quoteName
    simp only [String.toList_append, String.toList_ofList, List.append_assoc]
    rfl
  have hspace {cs : List Char} : (' ' :: cs).head? ≠ some '"' := by simp
  -- From the end to the beginning.
  have hfrom := ReadsAs.spaced "FROM" (by decide) rfl rfl
    (.quoted table hspace (.space rfl (.spaced "WHERE" (by decide) rfl rfl h)))
  have has := ReadsAs.spaced "AS" (by decide) rfl rfl (.quoted "k" hspace (.space rfl hfrom))
  have hselect := ReadsAs.spaced "SELECT" (by decide) rfl rfl
    (.spaced "1" (by decide) rfl rfl has)
  rw [htext]
  exact hselect

/-- Tokens with these words are the beginning of a statement and its condition. -/
theorem exists_filtered {ts : List Token} {table : String}
    (h : ts.map (fun t => (t.kind, t.text)) = leadWords table ++ words) :
    ∃ (q : Grammar.Filtered) (condition : List Token), ts = q.tokens ++ condition ∧
      q.table.value = table ∧ condition.map (fun t => (t.kind, t.text)) = words := by
  obtain ⟨select, _, rfl, hselect, h⟩ := List.map_eq_cons_iff.mp h
  obtain ⟨one, _, rfl, hone, h⟩ := List.map_eq_cons_iff.mp h
  obtain ⟨asWord, _, rfl, hasWord, h⟩ := List.map_eq_cons_iff.mp h
  obtain ⟨asName, _, rfl, hasName, h⟩ := List.map_eq_cons_iff.mp h
  obtain ⟨source, _, rfl, hsource, h⟩ := List.map_eq_cons_iff.mp h
  obtain ⟨table', _, rfl, htable, h⟩ := List.map_eq_cons_iff.mp h
  obtain ⟨filter, condition, rfl, hfilter, h⟩ := List.map_eq_cons_iff.mp h
  exact ⟨⟨select, one, asWord, asName, source, table', filter, .of_word hselect,
    congrArg Prod.fst hone, .of_word hasWord, congrArg Prod.fst hasName, .of_word hsource,
    (quoted_of_word htable).1, .of_word hfilter⟩, condition, rfl, (quoted_of_word htable).2, h⟩

/-- The words of a column behind its qualifier. -/
def referenceWords (table column : String) : List (Kind × String) :=
  [(.quotedIdentifier, quoteName table), (.dot, "."), (.quotedIdentifier, quoteName column)]

theorem readsAs_reference (table column : String) (hmore : more.head? ≠ some '"')
    (h : ReadsAs more words) :
    ReadsAs (quoted table ++ (['.'] ++ (quoted column ++ more)))
      (referenceWords table column ++ words) := by
  have hdot : ReadsAs (['.'] ++ (quoted column ++ more)) _ :=
    .bare rfl (notOpen_cons (by decide) _) rfl (.quoted column hmore h)
  exact .quoted table (by simp) hdot

/-- A column, an operator and a parameter are a comparison, behind the beginning of a statement. -/
theorem exists_comparison (q : Grammar.Filtered) {column : String} {reference operator : List Token}
    {mark : Token}
    (hreference : reference.map (fun t => (t.kind, t.text)) = referenceWords q.table.value column)
    (hoperator : IsOperator operator) (hmark : (mark.kind, mark.text) = (Kind.parameter, "?")) :
    ∃ r : Grammar.Comparison, r.toFiltered = q ∧ r.column.value = column ∧
      r.reference = reference ∧ r.operator = operator ∧ r.mark = mark := by
  obtain ⟨qualifier, _, rfl, hqualifier, hreference⟩ := List.map_eq_cons_iff.mp hreference
  obtain ⟨dot, _, rfl, hdot, hreference⟩ := List.map_eq_cons_iff.mp hreference
  obtain ⟨column', rfl, hcolumn⟩ := List.map_eq_singleton_iff.mp hreference
  obtain ⟨notWord, op, rfl, hnotWord, hop⟩ := hoperator
  exact ⟨⟨q, qualifier, dot, column', notWord, op, mark, (quoted_of_word hqualifier).1,
    (quoted_of_word hqualifier).2, congrArg Prod.fst hdot, (quoted_of_word hcolumn).1, hnotWord,
    hop, Prod.mk.inj hmark⟩, rfl, (quoted_of_word hcolumn).2, rfl, rfl, rfl⟩

/-! ## The results of the statements -/

/-- The tokens are a comparison of the column, with the parameter on one of its sides. -/
def ComparesIn (table column : String) (tokens : List Token) : Prop :=
  ∃ (q : Grammar.Comparison) (xs ys : List Token), q.table.value = table ∧
    q.column.value = column ∧ q.Around xs ys ∧
    tokens = q.toFiltered.tokens ++ (xs ++ q.mark :: ys)

theorem exists_tokens_columnFirst {op : String} (hop : op ∈ comparisons) (table column : String)
    (p : Position) :
    ∃ tokens, tokenizeAt (columnFirst table column op) p = .ok tokens ∧
      ComparesIn table column tokens := by
  obtain ⟨operator, hreads, hoperator⟩ := exists_operator hop
  have hcondition : ReadsAs
      (quoteName table ++ "." ++ quoteName column ++ " " ++ op ++ " ?").toList
      (referenceWords table column ++ (operator ++ [(.parameter, "?")])) := by
    have htext : (quoteName table ++ "." ++ quoteName column ++ " " ++ op ++ " ?").toList =
        quoted table ++ (['.'] ++ (quoted column ++ ' ' :: (op.toList ++ ' ' :: ['?']))) := by
      delta quoteName
      simp only [String.toList_append, String.toList_ofList, List.append_assoc]
      rfl
    have hmark : ReadsAs (['?'] ++ []) _ := .bare rfl (notOpen_cons (by decide) _) rfl .nil
    rw [htext]
    exact readsAs_reference table column (by simp) (.space rfl (hreads hmark))
  obtain ⟨ts, htokens, hwords⟩ := readsAs_selectWhere table hcondition 0 p
  obtain ⟨f, condition, rfl, rfl, hcondition⟩ := exists_filtered hwords
  obtain ⟨reference, rest, rfl, hreference, hrest⟩ := List.map_eq_append_iff.mp hcondition
  obtain ⟨op, rest, rfl, hop, hrest⟩ := List.map_eq_append_iff.mp hrest
  obtain ⟨mark, rfl, hmark⟩ := List.map_eq_singleton_iff.mp hrest
  obtain ⟨q, rfl, hcolumn, rfl, rfl, rfl⟩ :=
    exists_comparison f hreference (hoperator op hop) hmark
  refine ⟨_, tokenizeAt_eq_ok_iff.mpr htokens, q, _, _, rfl, hcolumn, .right, ?_⟩
  rw [List.append_assoc]

theorem exists_tokens_parameterFirst {op : String} (hop : op ∈ comparisons) (table column : String)
    (p : Position) :
    ∃ tokens, tokenizeAt (parameterFirst table column op) p = .ok tokens ∧
      ComparesIn table column tokens := by
  obtain ⟨operator, hreads, hoperator⟩ := exists_operator hop
  have hcondition : ReadsAs
      ("? " ++ op ++ " " ++ quoteName table ++ "." ++ quoteName column).toList
      ((.parameter, "?") :: (operator ++ referenceWords table column)) := by
    have htext : ("? " ++ op ++ " " ++ quoteName table ++ "." ++ quoteName column).toList =
        "?".toList ++ ' ' :: (op.toList ++ ' ' ::
          (quoted table ++ (['.'] ++ (quoted column ++ [])))) := by
      delta quoteName
      simp only [String.toList_append, String.toList_ofList, List.append_assoc, List.append_nil]
      rfl
    have hreference := readsAs_reference table column (by simp) .nil
    rw [List.append_nil (referenceWords table column)] at hreference
    rw [htext]
    exact .spaced "?" (by decide) rfl rfl (hreads hreference)
  obtain ⟨ts, htokens, hwords⟩ := readsAs_selectWhere table hcondition 0 p
  obtain ⟨f, condition, rfl, rfl, hcondition⟩ := exists_filtered hwords
  obtain ⟨mark, rest, rfl, hmark, hrest⟩ := List.map_eq_cons_iff.mp hcondition
  obtain ⟨op, reference, rfl, hop, hreference⟩ := List.map_eq_append_iff.mp hrest
  obtain ⟨q, rfl, hcolumn, rfl, rfl, rfl⟩ :=
    exists_comparison f hreference (hoperator op hop) hmark
  exact ⟨_, tokenizeAt_eq_ok_iff.mpr htokens, q, _, _, rfl, hcolumn, .left, rfl⟩

/-- A column compared with a parameter gives it its name and its type, from either side.  Where a
block without annotations of parameters is one of the two statements, its one parameter is bound by
its position, named as the column is written, and has the type under which the column is found
among all relations, which is the one given from outside or else the declared one. -/
theorem Analyzer.params_of_comparison {a : Analyzer} {c : Catalog} {t : Table} {d : Column}
    {b : Block} {table column op : String} (hcatalog : a.catalog = some c)
    (ht : c.named? table = some t) (hd : t.column? column = some d) (hop : op ∈ comparisons)
    (hsql : b.sql = columnFirst table column op ∨ b.sql = parameterFirst table column op)
    (hquery : ∀ query, Query.parse b.sql b.position = .ok query → b.query = query)
    (hhints : b.paramHints = []) :
    let type := a.overrides.typeOf t.name d
    (Scope.ofCatalog a.overrides c).lookup (some table) column = .ok ⟨d.name, t.name, type⟩ ∧
      (a.analyze b).params = [⟨column, .positional, type, false, none⟩] := by
  intro type
  have hread : ∃ tokens, tokenizeAt b.sql b.position = .ok tokens ∧
      ComparesIn table column tokens := by
    rcases hsql with hsql | hsql <;> rw [hsql]
    · exact exists_tokens_columnFirst hop table column b.position
    · exact exists_tokens_parameterFirst hop table column b.position
  obtain ⟨_, htokens, q, xs, ys, rfl, rfl, haround, rfl⟩ := hread
  have hparsed : Query.parse b.sql b.position =
      .ok (Query.ofTokens b.sql (q.toFiltered.tokens ++ (xs ++ q.mark :: ys))) := by
    rw [Query.parse, htokens]
    rfl
  have hholds : a.Holds c b (q.toFiltered.tokens ++ (xs ++ q.mark :: ys)) :=
    ⟨hcatalog, htokens, by rw [hquery _ hparsed, hparsed], hhints⟩
  have hreferences := q.toFiltered.references_eq (haround.outside (by decide))
  exact ⟨(context_columnType? ht hd hreferences rfl rfl rfl 0).1,
    hholds.params_around haround ht hd⟩

/-- The name of a column that is compared is kept as it is written, and its type is the one given
for it or the declared one. -/
theorem Analyzer.params_of_comparison_of_oddNames :
    (ofOddNames.analyze (.plain (columnFirst "A\nb" "\".from" "NOT LIKE"))).params =
        [⟨"\".from", .positional, .resolved .bool true, false, none⟩] ∧
      (ofOddNames.analyze (.plain (parameterFirst "a\nb" "" "<="))).params =
        [⟨"", .positional, .resolved .string true, false, none⟩] := by
  have hleft := @params_of_comparison ofOddNames _ _ (Column.plain "\".FROM" "INTEGER").withNotNull
    (.plain (columnFirst "A\nb" "\".from" "NOT LIKE")) "A\nb" "\".from" "NOT LIKE" rfl rfl
    (by decide +kernel) (by decide) (.inl rfl) (fun _ => Block.query_plain) rfl
  have hright := @params_of_comparison ofOddNames _ _ (Column.plain "" "TEXT")
    (.plain (parameterFirst "a\nb" "" "<=")) "a\nb" "" "<=" rfl rfl (by decide +kernel)
    (by decide) (.inr rfl) (fun _ => Block.query_plain) rfl
  exact ⟨hleft.2.trans (by decide +kernel), hright.2.trans (by decide +kernel)⟩

end TypedSql

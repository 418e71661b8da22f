import TypedSql.Proofs.Reference.Filtered
import TypedSql.Proofs.Report.Overrides
import TypedSql.Proofs.Report.ParamTokens

/-!
# The results of parameters

The parameters of a statement are read from left to right, and the reading does not look across a
comma.  Where no annotation says anything, the result of a parameter is what its surroundings say
of it, under its base name or this name with a number.

Main statements: `Query.paramPlaces_comma`, `Analyzer.OneSegment.params_eq`,
`Analyzer.OneSegment.hasResult`, `ParamContext.hint?_of_uncast`.
-/

namespace TypedSql

open Query Text Token

/-! ## Reading parameters part by part -/

namespace Query

variable {t : Token} {ts xs : List Token} {p : Param}

theorem macroParam?_of_ne (h : t.isWord "sqlc" = false) (ts : List Token) :
    macroParam? (t :: ts) = none := by
  unfold macroParam?
  split
  · next heq =>
      cases heq
      simp only [h, Bool.false_and, Bool.false_eq_true, if_false]
  · rfl

/-- Tokens among which no macro begins write the parameters that are tokens of their own. -/
theorem paramPlaces_append (h : ∀ t ∈ xs, t.isWord "sqlc" = false) (ys : List Token) :
    paramPlaces (xs ++ ys) =
      (xs.filter (·.kind == .parameter)).map .ofToken ++ paramPlaces ys := by
  induction xs with
  | nil => rfl
  | cons t ts ih =>
      rw [List.cons_append, paramPlaces, macroParam?_of_ne (h t List.mem_cons_self),
        ih fun u hu => h u (List.mem_cons_of_mem _ hu), List.filter_cons]
      simp only [beq_iff_eq]
      split <;> rfl

theorem Param.binding_ofToken (h : t.Is .parameter "?") :
    (Param.ofToken t).binding = .positional := by
  have hmark : Binding.ofText "?" = .positional := by decide
  rw [Param.ofToken, h.2, hmark]

/-- A macro is its first six tokens, and none of them is a comma. -/
theorem macroParam?_append_comma {comma : Token} (hcomma : comma.Is .comma ",") (t : Token)
    (ts ys : List Token) :
    macroParam? (t :: (ts ++ comma :: ys)) = macroParam? (t :: ts) := by
  have hname : comma.isName = false := by
    rw [isName, isIdentifier, hcomma.1]
    rfl
  have hflags : macroFlags? comma.text = none := by
    rw [hcomma.2]
    decide
  rcases ts with _ | ⟨dot, _ | ⟨function, _ | ⟨o, _ | ⟨argument, _ | ⟨c, rest⟩⟩⟩⟩⟩
  · rcases ys with _ | ⟨b, _ | ⟨d, _ | ⟨e, _ | ⟨f, rest⟩⟩⟩⟩ <;> simp [macroParam?, hcomma.1]
  · rcases ys with _ | ⟨d, _ | ⟨e, _ | ⟨f, rest⟩⟩⟩ <;> simp [macroParam?, hflags]
  · rcases ys with _ | ⟨e, _ | ⟨f, rest⟩⟩ <;> simp [macroParam?, hcomma.1]
  · rcases ys with _ | ⟨f, rest⟩ <;> simp [macroParam?, hcomma.1, hname]
  · simp [macroParam?, hcomma.1]
  · rfl

theorem le_of_macroParam? (h : macroParam? ts = some p) : macroSize ≤ ts.length := by
  unfold macroParam? at h
  split at h
  · simp [macroSize]
  · cases h

/-- Reading goes on behind a comma as at the beginning. -/
theorem paramPlaces_comma {comma : Token} (hcomma : comma.Is .comma ",") (xs ys : List Token) :
    paramPlaces (xs ++ comma :: ys) = paramPlaces xs ++ paramPlaces ys := by
  have hnone : comma.isWord "sqlc" = false := by
    rw [isWord, hcomma.1]
    rfl
  fun_induction paramPlaces xs with
  | case1 =>
      rw [List.nil_append, paramPlaces, macroParam?_of_ne hnone, hcomma.1]
      rfl
  | case2 t ts p hp ih =>
      have hlength := le_of_macroParam? hp
      rw [List.cons_append, paramPlaces, macroParam?_append_comma hcomma, hp, List.cons_append,
        ← ih, List.drop_append_of_le_length (by simp [macroSize] at hlength ⊢; omega)]
  | case3 t ts hp hkind ih =>
      rw [List.cons_append, paramPlaces, macroParam?_append_comma hcomma, hp]
      simp only [hkind, if_true, ih, List.cons_append]
  | case4 t ts hp hkind ih =>
      rw [List.cons_append, paramPlaces, macroParam?_append_comma hcomma, hp]
      simp only [hkind, if_false, ih]

/-! ## Parameters that come again -/

theorem foldl_addParam_append (params places : List Param) :
    ∃ more, places.foldl addParam params = params ++ more ∧ more ⊆ places := by
  induction places generalizing params with
  | nil => exact ⟨[], (List.append_nil _).symm, List.Subset.refl _⟩
  | cons p places ih =>
      obtain ⟨more, hmore, hsubset⟩ := ih (addParam params p)
      rw [List.foldl_cons, hmore, addParam]
      split
      · exact ⟨more, rfl, List.subset_cons_of_subset p hsubset⟩
      · exact ⟨p :: more, List.append_assoc .., List.cons_subset_cons p hsubset⟩

/-- A parameter whose value no place before it takes is one of the parameters. -/
theorem mem_foldl_addParam {before after : List Param}
    (h : ∀ q ∈ before, q.binding.sameValue p.binding = false) :
    p ∈ (before ++ p :: after).foldl addParam [] := by
  obtain ⟨more, hmore, hsubset⟩ := foldl_addParam_append [] before
  obtain ⟨others, hothers, -⟩ := foldl_addParam_append (more ++ [p]) after
  have hnew : more.any (fun q => q.binding.sameValue p.binding) = false :=
    List.any_eq_false.mpr fun q hq => Bool.eq_false_iff.mp (h q (hsubset hq))
  rw [List.nil_append] at hmore
  rw [List.foldl_append, List.foldl_cons, hmore, addParam, hnew, if_neg Bool.false_ne_true, hothers]
  simp

theorem foldl_addParam_positional {params places : List Param}
    (h : ∀ p ∈ places, p.binding = .positional) :
    places.foldl addParam params = params ++ places := by
  induction places generalizing params with
  | nil => exact (List.append_nil _).symm
  | cons p places ih =>
      have hnew : params.any (fun q => q.binding.sameValue p.binding) = false := by
        rw [h p List.mem_cons_self, List.any_eq_false]
        intro q _
        cases q.binding <;> exact Bool.false_ne_true
      rw [List.foldl_cons, addParam, hnew, if_neg Bool.false_ne_true,
        ih fun q hq => h q (List.mem_cons_of_mem _ hq), List.append_assoc]
      rfl

end Query

/-! ## Results without annotations -/

/-- The result of a parameter under a name, from its hint alone. -/
def ResultParam.ofHint (tokens : List Token) (name : String) (param : Param × Option Hint) :
    ResultParam :=
  ⟨name, param.1.binding, markedType param.1 ((param.2.map (·.type)).getD .unresolved),
    param.1.variadic, (paramIndex? tokens param.1).bind fun i => Neighbor.inListLength? tokens i⟩

theorem finishFrom_nil (tokens : List Token) (number : Nat) (used : List String)
    (params : List (Param × Option Hint)) :
    (finishFrom [] tokens number used params).value =
      List.zipWith (ResultParam.ofHint tokens) (numberedNames used (baseNamesFrom number params))
        params := by
  induction params generalizing number used with
  | nil => rfl
  | cons param rest ih =>
      obtain ⟨p, hint⟩ := param
      exact congrArg _ (ih (number + 1) (lowerCase (baseName p hint number) :: used))

theorem length_baseNamesFrom (number : Nat) (params : List (Param × Option Hint)) :
    (baseNamesFrom number params).length = params.length := by
  induction params generalizing number with
  | nil => rfl
  | cons param rest ih => exact congrArg Nat.succ (ih (number + 1))

theorem length_numberedNames (used bases : List String) :
    (numberedNames used bases).length = bases.length := by
  induction bases generalizing used with
  | nil => rfl
  | cons base rest ih => exact congrArg Nat.succ (ih _)

/-! ## Statements of one segment -/

/-- In a statement of one segment every token is seen in the scope of that segment. -/
theorem ParamContext.scopeAt_of_segment {c : ParamContext} {scope : Scope} {ordering : Bool}
    (h : c.segments = [⟨[⟨0, c.tokens.length⟩], scope, ordering⟩]) (i : Nat) :
    c.scopeAt i = scope := by
  rw [scopeAt, h, List.find?_singleton]
  split <;> rfl

theorem Query.ofTokens_of_ne (h : t.isWord "WITH" = false) (sql : String) (ts : List Token) :
    (Query.ofTokens sql (t :: ts)).ctes = [] := by
  have hwith : startsWith "WITH" (t :: ts) = false := h
  simp only [Query.ofTokens, readWithClause, hwith, Bool.false_eq_true, if_false]

namespace Analyzer

variable {a : Analyzer} {c : Catalog} {b : Block} {tokens : List Token} {scope : Scope}

/-- What the parameters of a statement of one segment are typed with. -/
def context (a : Analyzer) (c : Catalog) (tokens : List Token) (scope : Scope) : ParamContext :=
  ⟨tokens, [⟨[⟨0, tokens.length⟩], scope, false⟩], .ofCatalog a.overrides c, c⟩

/-- The block holds a statement of these tokens and no annotation of a parameter, and is analyzed
with this catalog. -/
structure Holds (a : Analyzer) (c : Catalog) (b : Block) (tokens : List Token) : Prop where
  catalog : a.catalog = some c
  tokenized : tokenizeAt b.sql b.position = .ok tokens
  parsed : Query.parse b.sql b.position = .ok b.query
  noHints : b.paramHints = []

theorem Holds.query_eq (h : a.Holds c b tokens) : b.query = Query.ofTokens b.sql tokens := by
  have hparsed := h.parsed
  rw [Query.parse, h.tokenized] at hparsed
  exact (Except.ok.inj hparsed).symm

/-- The statement of the block defines no relations and is one segment, with this scope. -/
structure OneSegment (a : Analyzer) (c : Catalog) (b : Block) (tokens : List Token)
    (scope : Scope) : Prop extends a.Holds c b tokens where
  noWith : ∀ t ∈ tokens.head?, t.isWord "WITH" = false
  split : Segment.split (.ofCatalog a.overrides c) tokens =
    [⟨[⟨0, tokens.length⟩], scope, false⟩]

/-- The parameters of such a block with what their surroundings say of them. -/
def hintedParams (a : Analyzer) (c : Catalog) (tokens : List Token) (scope : Scope) :
    List (Param × Option Hint) :=
  (readParams tokens).zip (paramHints (a.context c tokens scope) (readParams tokens))

theorem Holds.params_query (h : a.Holds c b tokens) : b.query.params = readParams tokens := by
  rw [h.query_eq]
  rfl

theorem OneSegment.hints_eq (h : a.OneSegment c b tokens scope) :
    b.query.params.zip (a.hints b tokens) = a.hintedParams c tokens scope := by
  have hctes : b.query.ctes = [] := by
    rw [h.query_eq]
    cases htokens : tokens with
    | nil => rfl
    | cons t ts =>
        refine Query.ofTokens_of_ne (h.noWith t ?_) b.sql ts
        rw [htokens]
        rfl
  have hbase : (resolveCtes b.query.recursive (.ofCatalog a.overrides c) b.query.ctes).value =
      .ofCatalog a.overrides c := by
    rw [hctes]
    rfl
  unfold hints hintedParams
  rw [h.catalog, h.params_query]
  simp only [hbase, h.split]
  rfl

theorem OneSegment.baseNames_eq (h : a.OneSegment c b tokens scope) :
    a.baseNames b = baseNamesFrom 1 (a.hintedParams c tokens scope) := by
  unfold baseNames
  rw [h.tokenized]
  exact congrArg (baseNamesFrom 1) h.hints_eq

/-- Each parameter has its result, under its base name or this name with a number. -/
theorem OneSegment.params_eq (h : a.OneSegment c b tokens scope) :
    (a.analyze b).params =
      List.zipWith (ResultParam.ofHint tokens) (numberedNames [] (a.baseNames b))
        (a.hintedParams c tokens scope) := by
  rw [params_analyze a h.tokenized, finishParams, h.noHints, h.hints_eq, finishFrom_nil,
    h.baseNames_eq]

/-- The parameter of the block has this result. -/
def HasResult (a : Analyzer) (b : Block) (p : Param) (r : ResultParam) : Prop :=
  ∃ k : Nat, b.query.params[k]? = some p ∧ (a.analyze b).params[k]? = some r

/-- A parameter that is found at an index has the result that its surroundings there give it. -/
theorem OneSegment.hasResult (h : a.OneSegment c b tokens scope) {p : Param} {i : Nat}
    (hp : p ∈ readParams tokens) (hi : paramIndex? tokens p = some i) :
    ∃ name, a.HasResult b p (.ofHint tokens name
      (p, (a.context c tokens scope).hint? (InsertTarget.ofTokens c tokens) i p.variadic)) := by
  obtain ⟨k, hk⟩ := List.mem_iff_getElem?.mp hp
  have hhinted : (a.hintedParams c tokens scope)[k]? = some
      (p, (a.context c tokens scope).hint? (InsertTarget.ofTokens c tokens) i p.variadic) := by
    rw [hintedParams, List.getElem?_zip_eq_some]
    refine ⟨hk, ?_⟩
    show ((readParams tokens).map _)[k]? = _
    rw [List.getElem?_map, hk, Option.map_some]
    show some ((paramIndex? tokens p).bind _) = _
    rw [hi]
    rfl
  have hlength : k < (numberedNames [] (a.baseNames b)).length := by
    rw [length_numberedNames, h.baseNames_eq, length_baseNamesFrom]
    exact (List.getElem?_eq_some_iff.mp hhinted).1
  refine ⟨(numberedNames [] (a.baseNames b))[k], k, ?_, ?_⟩
  · rw [h.params_query]
    exact hk
  · rw [h.params_eq, List.getElem?_zipWith, List.getElem?_eq_getElem hlength, hhinted]

/-- A statement with a condition on one relation is one segment, as long as its condition has no
compound operator. -/
theorem Holds.oneSegment_filtered {q : Grammar.Filtered} {condition : List Token}
    (h : a.Holds c b (q.tokens ++ condition))
    (hcondition : Outside (fun t => t.isAnyWord Segment.compoundWords = false) condition) :
    a.OneSegment c b (q.tokens ++ condition)
      ((Scope.ofCatalog a.overrides c).narrow (q.tokens ++ condition)) where
  toHolds := h
  noWith := by
    rintro t ⟨⟩
    exact q.select_isWord
  split := q.split hcondition _

/-- Where the only parameter is a `?` in no list, and its surroundings name it, it has one result,
with the type that they give. -/
theorem OneSegment.params_of_mark (h : a.OneSegment c b tokens scope) {before after : List Token}
    {mark : Token} {name : String} {type : TypeInfo} (htokens : tokens = before ++ mark :: after)
    (hmark : mark.Is .parameter "?") (hparams : readParams tokens = [.ofToken mark])
    (hhint : (a.context c tokens scope).hint? (InsertTarget.ofTokens c tokens) before.length false =
      some ⟨type, some name⟩)
    (hlength : Neighbor.inListLength? tokens before.length = none) :
    (a.analyze b).params = [⟨name, .positional, type, false, none⟩] := by
  have hbinding := Param.binding_ofToken hmark
  have hindex : paramIndex? tokens (.ofToken mark) = some before.length := by
    have hpositions := (tokenizeAt_eq_ok_iff.mp h.tokenized).positions_increase
    have hwritten : (Param.ofToken mark).WrittenAt (mark :: after) :=
      .inr ⟨mark, after, rfl, hmark.1, rfl⟩
    rw [htokens] at hpositions ⊢
    exact (hwritten.foundAt hpositions).index
  have hhinted : a.hintedParams c tokens scope = [(.ofToken mark, some ⟨type, some name⟩)] := by
    have hhints : paramHints (a.context c tokens scope) [.ofToken mark] =
        [(paramIndex? tokens (.ofToken mark)).bind fun i =>
          (a.context c tokens scope).hint? (InsertTarget.ofTokens c tokens) i false] := rfl
    rw [hintedParams, hparams, hhints, hindex, Option.bind_some, hhint]
    rfl
  have hname : a.baseNames b = [name] := by
    rw [h.baseNames_eq, hhinted, baseNamesFrom, baseName, hbinding]
    rfl
  have hresult : ResultParam.ofHint tokens name (.ofToken mark, some ⟨type, some name⟩) =
      ⟨name, .positional, type, false, none⟩ := by
    rw [ResultParam.ofHint, hbinding, hindex, Option.bind_some, hlength]
    rfl
  have hnumbered : numberedNames [] [name] = [name] := rfl
  rw [h.params_eq, hhinted, hname, hnumbered, List.zipWith_cons_cons, hresult,
    List.zipWith_nil_left]

/-- In a statement that names one relation, a table, its columns are found as among all relations,
each with the type that is given for it or else the declared one. -/
theorem context_columnType? {r : RelationRef} {t : Table} {d : Column} {table column : String}
    (ht : c.named? table = some t) (hd : t.column? column = some d)
    (hreferences : RelationRef.ofTokens tokens = [r]) (hderived : r.derived = false)
    (hr : r.name = table) (has : r.asName = none) (i : Nat) :
    let base := Scope.ofCatalog a.overrides c
    let context := a.context c tokens (base.narrow tokens)
    base.lookup (some table) column = .ok ⟨d.name, t.name, a.overrides.typeOf t.name d⟩ ∧
      context.columnType? (context.scopeAt i) ⟨some table, column⟩ =
        some (a.overrides.typeOf t.name d) := by
  intro base context
  subst hr
  have hentry : base.entry? r.name = some (.ofTable a.overrides t) := by
    rw [Scope.entry_ofCatalog, ht]
    rfl
  have hname : eqIgnoreCase (Scope.Entry.ofTable a.overrides t).name r.name = true := by
    rw [Scope.Entry.name_ofTable]
    exact Catalog.name_of_named? ht
  have hcolumn : (Scope.Entry.ofTable a.overrides t).column? column =
      some ⟨d.name, t.name, a.overrides.typeOf t.name d⟩ := by
    rw [Scope.Entry.column?_ofTable, hd]
    rfl
  have hfound : base.lookupIn r.name column = .ok ⟨d.name, t.name, a.overrides.typeOf t.name d⟩ :=
    Scope.lookupIn_ofCatalog a.overrides ht hcolumn
  have hscope : base.narrow tokens = base.addReference .empty r := by
    rw [Scope.narrow, hreferences]
    rfl
  have hlookup : (base.narrow tokens).lookup (some r.name) column =
      .ok ⟨d.name, t.name, a.overrides.typeOf t.name d⟩ := by
    rw [Scope.lookup, hscope]
    exact (Scope.lookupIn_addReference_self hderived hentry hname has column).trans hfound
  refine ⟨hfound, ?_⟩
  have hworking : context.scopeAt i = base.narrow tokens := ParamContext.scopeAt_of_segment rfl i
  rw [hworking, ParamContext.columnType?, hlookup]

end Analyzer

/-! ## What stands around a parameter -/

namespace ParamContext

variable {c : ParamContext} {i : Nat} (targets : List InsertTarget)

/-- A parameter in an `IN` list takes its type from the column in front of the list. -/
theorem hint?_of_inList {column : Neighbor.ColumnName}
    (hbefore : ∀ t ∈ (c.tokens.take i).getLast?, t.isAnyWord ["LIMIT", "OFFSET"] = false)
    (hcolumn : Neighbor.inListColumn? c.tokens i = some column) (variadic : Bool) :
    c.hint? targets i variadic = (c.columnType? (c.scopeAt i) column).map fun type =>
      ⟨if variadic then type.toList else type, some column.name⟩ := by
  have hlimit : (c.tokens.take i).reverse.head?.filter
      (fun t => t.isAnyWord ["LIMIT", "OFFSET"]) = none := by
    rw [List.head?_reverse, Option.filter_eq_none_iff]
    exact fun t ht => Bool.eq_false_iff.mp (hbefore t ht)
  unfold hint?
  dsimp only
  rw [hlimit, hcolumn]

theorem readCast_of_head {behind : List Token} (h : ∀ t ∈ behind.head?, t.isOperator "::" = false) :
    readCast behind = (none, behind) := by
  cases behind with
  | nil => rfl
  | cons op rest => rw [readCast, h op rfl, if_neg Bool.false_ne_true]

theorem readCast_of_delimits {behind : List Token} (h : ∀ t ∈ behind.head?, t.Delimits) :
    readCast behind = (none, behind) := by
  refine readCast_of_head fun t ht => ?_
  rw [isOperator, beq_eq_false_iff_ne.mpr ((h t ht).kind_ne (by decide)), Bool.false_and]

/-- A parameter token in no `IN` list, neither limiting nor cast, takes its type from the column
that it is compared with, on either side, or else from the column that it is inserted into. -/
theorem hint?_of_uncast {mark : Token} (hmark : c.tokens[i]? = some mark)
    (hword : mark.isWord "sqlc" = false)
    (hbefore : ∀ t ∈ (c.tokens.take i).getLast?, t.isAnyWord ["LIMIT", "OFFSET"] = false)
    (hlist : Neighbor.inListOpen? c.tokens i = none)
    (hcast : readCast (c.tokens.drop (i + 1)) = (none, c.tokens.drop (i + 1))) (variadic : Bool) :
    c.hint? targets i variadic =
      ((c.hintBefore? (c.scopeAt i) (c.tokens.take i).reverse).or
        (c.hintBehind? (c.scopeAt i) none (c.tokens.drop (i + 1)))).or
          ((targets.find? fun target => target.index == i).bind fun target =>
            (c.columnType? (c.scopeAt i) ⟨some target.table, target.column⟩).map fun type =>
              ⟨type, some target.column⟩) := by
  have hsqlc : startsWith "sqlc" (c.tokens.drop i) = false := by
    obtain ⟨hi, rfl⟩ := List.getElem?_eq_some_iff.mp hmark
    rw [List.drop_eq_getElem_cons hi]
    exact hword
  have hcolumn : Neighbor.inListColumn? c.tokens i = none := by
    rw [Neighbor.inListColumn?, hlist, Option.bind_none]
  have hlimit : (c.tokens.take i).reverse.head?.filter
      (fun t => t.isAnyWord ["LIMIT", "OFFSET"]) = none := by
    rw [List.head?_reverse, Option.filter_eq_none_iff]
    exact fun t ht => Bool.eq_false_iff.mp (hbefore t ht)
  unfold hint?
  simp only [hsqlc, hlimit, hcolumn, Bool.false_eq_true, if_false, hcast]
  -- A comparison decides before an insertion does, and the left side before the right one.
  cases (c.hintBefore? (c.scopeAt i) (c.tokens.take i).reverse).or
      (c.hintBehind? (c.scopeAt i) none (c.tokens.drop (i + 1))) with
  | some hint => rfl
  | none => cases targets.find? fun target => target.index == i <;> rfl

/-- A parameter that is an item of its own, in a list with no `IN` in front of it, takes its type
from the column that it is inserted into. -/
theorem hint?_of_ownItem {mark : Token} (h : Neighbor.OwnItem c.tokens i)
    (hmark : c.tokens[i]? = some mark) (hword : mark.isWord "sqlc" = false) (variadic : Bool) :
    c.hint? targets i variadic =
      (targets.find? fun target => target.index == i).bind fun target =>
        (c.columnType? (c.scopeAt i) ⟨some target.table, target.column⟩).map fun type =>
          ⟨type, some target.column⟩ := by
  have hbefore : c.hintBefore? (c.scopeAt i) (c.tokens.take i).reverse = none := by
    rw [hintBefore?, Neighbor.comparedBefore?_eq_none fun t ht =>
      h.behind t (List.head?_reverse ▸ ht), Option.bind_none]
  have hbehind : c.hintBehind? (c.scopeAt i) none (c.tokens.drop (i + 1)) = none := by
    rw [hintBehind?, Neighbor.comparedBehind?_eq_none h.before, Option.bind_none]
  rw [c.hint?_of_uncast targets hmark hword (fun t ht => (h.behind t ht).isAnyWord _) h.outside
    (readCast_of_delimits h.before), hbefore, hbehind, Option.or_none, Option.none_or]

end ParamContext

end TypedSql

import TypedSql.Proofs.Likeness.Projection
import TypedSql.Proofs.Query.Origin
import TypedSql.Proofs.Report.Layout
import TypedSql.Proofs.Report.References
import TypedSql.Proofs.Scope.Agree
import TypedSql.Proofs.Token.Reread

/-!
# Tables that a query does not name

Every pass gets the scope of the whole catalog, and narrows it before anything is looked up: a
common table expression to what its body names, a segment to what the segment names.  So a table
whose name is not written in the query has no part in its output columns, nor in its errors.  Only
parameters are looked up in the whole scope, and what is noted of them are warnings about
annotations, none of which can stand for an error.

Main definition: `SameErrors`.  Main statement: `Analyzer.analyze_of_unnamed_table`.
-/

namespace TypedSql

open Diagnostic Query Token

/-! ## Segments -/

theorem Token.Range.tokens_subset (r : Range) (tokens : List Token) : r.tokens tokens ⊆ tokens :=
  List.Subset.trans (List.take_subset _ _) (List.drop_subset _ _)

namespace Segment

variable {name : String} {base base' : Scope} {tokens : List Token}

theorem ofBody_congr (h : Scope.AgreeOff name base base') (havoid : Avoid name tokens)
    (body : Range) : ofBody base tokens body = ofBody base' tokens body := by
  have hnarrow (arm : Range) : base.narrow (arm.tokens tokens) = base'.narrow (arm.tokens tokens) :=
    h.narrow (havoid.mono (Range.tokens_subset arm tokens))
  unfold ofBody
  simp only [hnarrow]

/-- The segments see of a scope only what the statement names. -/
theorem split_congr (h : Scope.AgreeOff name base base') (havoid : Avoid name tokens) :
    split base tokens = split base' tokens := by
  unfold split
  simp only [h.narrow (havoid.mono (Range.tokens_subset _ tokens)), ofBody_congr h havoid]

theorem armsFrom_ne_nil (start stop : Nat) (places : List Place) :
    armsFrom start stop places ≠ [] := by
  fun_induction armsFrom start stop places with
  | case1 => exact List.cons_ne_nil _ _
  | case2 => exact List.cons_ne_nil _ _
  | case3 => exact List.cons_ne_nil _ _
  | case4 _ _ _ _ ih => exact ih

theorem ofBody_ne_nil (base : Scope) (tokens : List Token) (body : Range) :
    ofBody base tokens body ≠ [] := by
  unfold ofBody
  dsimp only
  split
  · next h => exact absurd (List.reverse_eq_nil_iff.mp h) (armsFrom_ne_nil _ _ _)
  · exact List.cons_ne_nil _ _
  · split
    · exact List.append_ne_nil_of_right_ne_nil _ (List.cons_ne_nil _ _)
    · rw [List.map_append]
      exact List.append_ne_nil_of_right_ne_nil _ (List.cons_ne_nil _ _)

theorem split_ne_nil (base : Scope) (tokens : List Token) : split base tokens ≠ [] := by
  unfold split
  dsimp only
  split
  · exact ofBody_ne_nil _ _ _
  · exact List.cons_ne_nil _ _

/-- The scope of the output columns is that of a segment. -/
theorem head_split_congr (h : Scope.AgreeOff name base base') (havoid : Avoid name tokens) :
    (((split base tokens).head?).map (·.scope)).getD base =
      (((split base' tokens).head?).map (·.scope)).getD base' := by
  rw [split_congr h havoid]
  obtain ⟨segment, rest, hsplit⟩ := List.exists_cons_of_ne_nil (split_ne_nil base' tokens)
  rw [hsplit]
  rfl

end Segment

/-! ## Common table expressions -/

/-- The tokens of a body have the values of tokens of the statement. -/
theorem Query.Cte.WrittenIn.exists_of_mem_body {cte : Cte} {sql : String} {p : Position}
    {tokens : List Token} {name : Token} {body : Group} (h : cte.WrittenIn sql tokens name body)
    (htokens : tokenizeAt sql p = .ok tokens) {t : Token}
    (ht : t ∈ tokensOf cte.body cte.bodyPosition) : ∃ u ∈ tokens, t.value = u.value := by
  by_cases hempty : cte.body = ""
  · rw [hempty, Likeness.CteLike.tokensOf_empty] at ht
    cases ht
  · obtain ⟨first, ts, hinner, hbody, hposition⟩ := h.body_eq hempty
    obtain ⟨before, after, hpart⟩ := h.inner_part
    rw [hinner] at hpart
    have hreads : PlainReads sql.toList 0 p (before ++ (first :: ts ++ after)) := by
      rw [← List.append_assoc, hpart]
      exact tokenizeAt_eq_ok_iff.mp htokens
    obtain ⟨again, hagain, hread⟩ := Reads.prefix_of_sourceText hreads
    rw [hbody, hposition, tokensOf_eq hread] at ht
    obtain ⟨u, hu, rfl⟩ := List.mem_map.mp ht
    refine ⟨u, ?_, rfl⟩
    rw [← hpart]
    exact List.mem_append_left _ (List.mem_append_right _ (hagain.subset hu))

namespace Query.Cte

variable {name : String} {base base' : Scope}

theorem resolveAnchor_congr (h : Scope.AgreeOff name base base') (cte : Cte) {anchor : List Token}
    (havoid : Avoid name anchor) :
    resolveAnchor base cte anchor = resolveAnchor base' cte anchor := by
  unfold resolveAnchor
  rw [h.narrow (havoid.mono (List.drop_subset _ _))]

theorem checkRecursion_congr (h : Scope.AgreeOff name base base') (cte : Cte) {term : List Token}
    (havoid : Avoid name term) (expected : Nat) :
    checkRecursion base cte expected term = checkRecursion base' cte expected term := by
  unfold checkRecursion
  dsimp only
  rw [h.narrow (havoid.mono (List.drop_subset _ _))]

theorem splitUnion_subset (tokens : List Token) :
    (splitUnion tokens).1 ⊆ tokens ∧ ∀ term ∈ (splitUnion tokens).2, term ⊆ tokens := by
  unfold splitUnion
  split
  · refine ⟨List.take_subset _ _, fun term hterm => ?_⟩
    cases hterm
    exact List.Subset.trans (skip_suffix _ _).subset (List.drop_subset _ _)
  · refine ⟨List.Subset.refl _, ?_⟩
    rintro term ⟨⟩

/-- A definition notes the same in both scopes, and both get the same relation. -/
theorem resolve_congr (h : Scope.AgreeOff name base base') {cte : Cte}
    (havoid : Avoid name (tokensOf cte.body cte.bodyPosition)) (recursive : Bool) :
    (cte.resolve recursive base).notes = (cte.resolve recursive base').notes ∧
      Scope.AgreeOff name (cte.resolve recursive base).value
        (cte.resolve recursive base').value := by
  obtain ⟨hanchor, hterm⟩ := splitUnion_subset (tokensOf cte.body cte.bodyPosition)
  have hsame := resolveAnchor_congr h cte (havoid.mono hanchor)
  unfold Cte.resolve
  unfold tokensOf at havoid hterm hsame
  dsimp only
  generalize splitUnion ((tokenizeAt cte.body cte.bodyPosition).toOption.getD []) = parts
    at hterm hsame ⊢
  obtain ⟨anchor, term⟩ := parts
  rw [Noted.notes_bind, Noted.notes_bind, Noted.value_bind, Noted.value_bind, hsame]
  cases (resolveAnchor base' cte anchor).value with
  | none => exact ⟨rfl, h⟩
  | some columns =>
      have hbase := h.addEntry
        ((Scope.Entry.bare cte.name).pushAll (columns.map fun c => (c.name, c.type)))
      cases recursive with
      | false => exact ⟨rfl, hbase⟩
      | true =>
          cases term with
          | none => exact ⟨rfl, hbase⟩
          | some term =>
              have hcheck := checkRecursion_congr hbase cte (havoid.mono (hterm term rfl))
                columns.length
              dsimp only
              rw [hcheck]
              exact ⟨rfl, hbase⟩

end Query.Cte

/-- Definitions note the same in both scopes, and both get the same relations. -/
theorem resolveCtes_congr {name : String} {base base' : Scope}
    (h : Scope.AgreeOff name base base') {ctes : List Cte}
    (havoid : ∀ cte ∈ ctes, Avoid name (tokensOf cte.body cte.bodyPosition)) (recursive : Bool) :
    (resolveCtes recursive base ctes).notes = (resolveCtes recursive base' ctes).notes ∧
      Scope.AgreeOff name (resolveCtes recursive base ctes).value
        (resolveCtes recursive base' ctes).value := by
  induction ctes generalizing base base' with
  | nil => exact ⟨rfl, h⟩
  | cons cte rest ih =>
      rw [List.forall_mem_cons] at havoid
      obtain ⟨hnotes, hbase⟩ := Cte.resolve_congr h havoid.1 recursive
      obtain ⟨hmore, hlast⟩ := ih hbase havoid.2
      rw [resolveCtes, resolveCtes, Noted.notes_bind, Noted.notes_bind, hnotes, hmore]
      exact ⟨rfl, hlast⟩

/-! ## Warnings about annotations -/

/-- How a message about the type that an annotation names begins. -/
def typeNote : List Char := "unknown type '".toList

/-- The message is about the type that an annotation names. -/
def aboutType (message : String) : Bool := typeNote.isPrefixOf message.toList

/-- A message that begins with another text, neither of them a part of the other, is not. -/
theorem aboutType_append {a : String} (h : ¬ (typeNote <+: a.toList ∨ a.toList <+: typeNote))
    (b : String) : aboutType (a ++ b) = false := by
  rw [Bool.eq_false_iff]
  intro htype
  rw [aboutType, List.isPrefixOf_iff_prefix, String.toList_append] at htype
  exact h (List.prefix_or_prefix_of_prefix htype (List.prefix_append _ _))

theorem Scope.LookupError.aboutType_message (e : Scope.LookupError) :
    aboutType e.message = false := by
  cases e with
  | unknownRelation name =>
      show aboutType ("unknown table or alias '" ++ name ++ "'") = false
      rw [String.append_assoc]
      exact aboutType_append (by decide +kernel) _
  | unknownColumn relation column =>
      show aboutType ("unknown column '" ++ column ++ "' in '" ++ relation ++ "'") = false
      rw [String.append_assoc, String.append_assoc, String.append_assoc]
      exact aboutType_append (by decide +kernel) _
  | noSuchColumn column =>
      show aboutType ("unknown column '" ++ column ++ "'") = false
      rw [String.append_assoc]
      exact aboutType_append (by decide +kernel) _
  | ambiguous column =>
      show aboutType ("column '" ++ column ++ "' is ambiguous; qualify with a table alias") = false
      rw [String.append_assoc]
      exact aboutType_append (by decide +kernel) _
  | unmapped column =>
      show aboutType ("column '" ++ column ++ "' derives from expression without schema mapping") =
        false
      rw [String.append_assoc]
      exact aboutType_append (by decide +kernel) _

theorem Diagnostic.OfType.aboutType_message {d : Diagnostic} (h : d.OfType) :
    aboutType d.message = true := by
  obtain ⟨position, rest, rfl⟩ := h
  rw [aboutType, List.isPrefixOf_iff_prefix, String.toList_append]
  exact List.prefix_append _ _

theorem Diagnostic.OfType.warning {d : Diagnostic} (h : d.OfType) : d.isError = false := by
  obtain ⟨position, rest, rfl⟩ := h
  rfl

/-- Two lists of notes differ at most in warnings of unknown types, and no error behind them has the
message of one. -/
def SameErrors (ds es : List Diagnostic) : Prop :=
  ∃ front asides asides' back, ds = front ++ (asides ++ back) ∧ es = front ++ (asides' ++ back) ∧
    (∀ d ∈ asides, d.OfType) ∧ (∀ d ∈ asides', d.OfType) ∧
    ∀ d ∈ back, d.isError = true → aboutType d.message = false

namespace SameErrors

variable {ds es : List Diagnostic}

theorem append_left (h : SameErrors ds es) (notes : List Diagnostic) :
    SameErrors (notes ++ ds) (notes ++ es) := by
  obtain ⟨front, asides, asides', back, rfl, rfl, hmore⟩ := h
  exact ⟨notes ++ front, asides, asides', back, (List.append_assoc _ _ _).symm,
    (List.append_assoc _ _ _).symm, hmore⟩

theorem append_right (h : SameErrors ds es) {notes : List Diagnostic}
    (hnotes : ∀ d ∈ notes, d.isError = true → aboutType d.message = false) :
    SameErrors (ds ++ notes) (es ++ notes) := by
  obtain ⟨front, asides, asides', back, rfl, rfl, hasides, hasides', hback⟩ := h
  refine ⟨front, asides, asides', back ++ notes, ?_, ?_, hasides, hasides',
    List.forall_mem_append.mpr ⟨hback, hnotes⟩⟩
  · rw [List.append_assoc, List.append_assoc]
  · rw [List.append_assoc, List.append_assoc]

theorem errors_eq (h : SameErrors ds es) (path : String) :
    (distinct path ds).filter isError = (distinct path es).filter isError := by
  obtain ⟨front, asides, asides', back, rfl, rfl, hasides, hasides', hback⟩ := h
  exact errors_distinct_of_asides path
    (fun d hd => ⟨(hasides d hd).aboutType_message, (hasides d hd).warning⟩)
    (fun d hd => ⟨(hasides' d hd).aboutType_message, (hasides' d hd).warning⟩) hback

end SameErrors

/-- Whatever parameters are compared with, the errors behind them are the same. -/
theorem sameErrors_finishParams (b : Block) (tokens : List Token)
    (hints hints' : List (Option Hint)) {back : List Diagnostic}
    (hback : ∀ d ∈ back, d.isError = true → aboutType d.message = false) :
    SameErrors ((finishParams b tokens hints).notes ++ back)
      ((finishParams b tokens hints').notes ++ back) :=
  ⟨[], _, _, back, rfl, rfl, ofType_finishFrom _ _ _ _ _, ofType_finishFrom _ _ _ _ _, hback⟩

/-! ## The passes -/

namespace Analyzer

variable {name : String} {overrides : ColumnOverrides} {c c' : Catalog} {b : Block}
  {tokens : List Token}

/-- Parameters apart, the passes see of a catalog only what the query names. -/
theorem resolveWith_congr
    (h : Scope.AgreeOff name (.ofCatalog overrides c') (.ofCatalog overrides c))
    (havoid : Avoid name tokens)
    (hctes : ∀ cte ∈ b.query.ctes, Avoid name (tokensOf cte.body cte.bodyPosition))
    (returning : List Item) :
    (resolveWith overrides c' b tokens returning).value.1 =
        (resolveWith overrides c b tokens returning).value.1 ∧
      SameErrors (resolveWith overrides c' b tokens returning).notes
        (resolveWith overrides c b tokens returning).notes := by
  obtain ⟨hnotes, hbase⟩ := resolveCtes_congr h hctes b.query.recursive
  have hsplit := Segment.split_congr hbase havoid
  have hscope := Segment.head_split_congr hbase havoid
  have hchecks (columns : List ResultColumn) (segments : List Segment) :
      ∀ d ∈ (Noted.forEach (checkSegment b tokens returning columns) segments).notes,
        d.isError = true → aboutType d.message = false := by
    intro d hd _
    obtain ⟨s, -, hd⟩ := List.mem_flatMap.mp hd
    obtain ⟨r, -, hd⟩ := List.mem_flatMap.mp hd
    obtain ⟨-, e, -, hmessage⟩ := Identifier.ofLookup_checkPlaces _ _ _ _ d hd
    rw [hmessage]
    exact e.aboutType_message
  rw [hsplit] at hscope
  unfold resolveWith
  simp only [Noted.notes_bind, Noted.value_bind, hnotes, hsplit, hscope]
  -- In front of the parameters four passes note the same, and behind them the checks do.
  cases b.query.verb != .other with
  | false =>
      refine ⟨rfl, .append_left (.append_left (.append_left (.append_left ?_ _) _) _) _⟩
      exact sameErrors_finishParams b tokens _ _ (List.forall_mem_nil _)
  | true =>
      refine ⟨rfl, .append_left (.append_left (.append_left (.append_left ?_ _) _) _) _⟩
      refine sameErrors_finishParams b tokens _ _ fun d hd => ?_
      rw [if_pos rfl, Noted.notes_bind, Noted.notes_pure, List.append_nil] at hd
      exact hchecks _ _ d hd

/-- A table that none of the tokens of a query names, wherever it stands among the tables, changes
neither the output columns nor the errors. -/
theorem analyze_of_unnamed_table {x : Table} {before after : List Table}
    (hc : c.tables.values = before ++ after) (hc' : c'.tables.values = before ++ x :: after)
    (hquery : ∀ query, Query.parse b.sql b.position = .ok query → b.query = query)
    (havoid : ∀ tokens, tokenizeAt b.sql b.position = .ok tokens → Avoid x.name tokens)
    (overrides : ColumnOverrides) :
    (analyze ⟨some c', overrides⟩ b).columns = (analyze ⟨some c, overrides⟩ b).columns ∧
      (analyze ⟨some c', overrides⟩ b).diagnostics.filter isError =
        (analyze ⟨some c, overrides⟩ b).diagnostics.filter isError := by
  unfold analyze
  cases htokens : tokenizeAt b.sql b.position with
  | error e => exact ⟨rfl, rfl⟩
  | ok tokens =>
      have havoid := havoid tokens htokens
      have hctes : ∀ cte ∈ b.query.ctes, Avoid x.name (tokensOf cte.body cte.bodyPosition) := by
        intro cte hcte t ht
        have hparse : Query.parse b.sql b.position = .ok (Query.ofTokens b.sql tokens) := by
          rw [Query.parse, htokens]
          rfl
        rw [hquery _ hparse] at hcte
        obtain ⟨name, body, hwritten⟩ := mem_ctes hcte
        obtain ⟨u, hu, hvalue⟩ := hwritten.exists_of_mem_body htokens ht
        rw [hvalue]
        exact havoid u hu
      obtain ⟨hcolumns, hnotes⟩ := resolveWith_congr (.ofCatalog hc hc' overrides) havoid hctes
        (returningItems b tokens)
      dsimp only
      unfold resolve
      simp only [Noted.value_bind, Noted.notes_bind, hcolumns]
      refine ⟨rfl, (hnotes.append_right fun d hd herror => ?_).errors_eq b.path⟩
      rw [Noted.notes_pure, List.append_nil] at hd
      rw [(annotateColumns_notes _ _ d hd).warning] at herror
      cases herror

/-- Two names of this query are not found.  A table in front of the one that it names gives the
parameter a type, and changes nothing else. -/
theorem analyze_of_unnamed_orders :
    let sql := "WITH u AS (SELECT * FROM users) SELECT u.age FROM u WHERE day = ?"
    let orders : Table := { Table.bare "orders" with columns := [.plain "day" "TEXT"] }
    let users : Table := { Table.bare "users" with columns := [.plain "id" "INTEGER"] }
    let old := analyze ⟨some (Catalog.empty.addTable users), .empty⟩ (.plain sql)
    let new := analyze ⟨some ((Catalog.empty.addTable orders).addTable users), .empty⟩ (.plain sql)
    new.columns = old.columns ∧
      new.diagnostics.filter isError = old.diagnostics.filter isError ∧
      (old.diagnostics.filter isError).map (·.message) =
        ["unknown column 'age' in 'u'", "unknown column 'day'"] ∧
      new.params ≠ old.params := by
  intro sql orders users old new
  have havoid : Avoid orders.name (tokensOf sql .first) := by
    rw [tokensOf, tokenizeAt_ofList]
    decide +kernel
  have hsame := @analyze_of_unnamed_table (Catalog.empty.addTable users)
    ((Catalog.empty.addTable orders).addTable users) (.plain sql) orders [] [users]
    (by decide +kernel) (by decide +kernel) (fun _ => Block.query_plain)
    (fun _ htokens => tokensOf_eq htokens ▸ havoid) .empty
  refine ⟨hsame.1, hsame.2, ?_⟩
  simp only [old, new]
  rw [analyze_plain_ofList, analyze_plain_ofList]
  decide +kernel

end Analyzer

end TypedSql

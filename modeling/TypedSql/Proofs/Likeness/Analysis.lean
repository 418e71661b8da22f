import TypedSql.Analysis.Statement
import TypedSql.Proofs.Diagnostic.Distinct
import TypedSql.Proofs.Likeness.Param
import TypedSql.Proofs.Likeness.Projection

/-!
# The analysis in both runs

Alike blocks have alike output columns and parameters, and if the likeness is exact, the same
things are noted of them at alike places.

Main statement: `BlockLike.resolve`.
-/

namespace TypedSql.Likeness

open Diagnostic Query Token Memberwise

variable {L : Likeness}

/-- Blocks in both runs. -/
structure BlockLike (L : Likeness) (b c : Block) : Prop where
  sql : L.cut b.sql b.position c.sql c.position
  query : L.QueryLike b.query c.query
  paramHints : List.Forall₂ L.TypeHintLike b.paramHints c.paramHints
  columnHints : List.Forall₂ L.TypeHintLike b.columnHints c.columnHints
  position : L.exact → L.place b.position c.position

theorem noteMissing_like {ss us : List Segment} (h : List.Forall₂ L.SegmentLike ss us) :
    L.NotedLike Eq (Analyzer.noteMissing ss) (Analyzer.noteMissing us) := by
  refine .forEach (List.rel_filter (fun s u hsu => by simp only [hsu.ordering]) h) fun s u hsu => ?_
  exact .forEach hsu.scope.missing fun m n hmn =>
    .error (fun _ => hmn.position) fun hexact => by rw [hmn.name.exactly hexact]

theorem untypedColumns_like {is js : List Item} (h : List.Forall₂ L.ItemLike is js)
    (number : Nat) :
    L.ResultColumnsLike (Analyzer.untypedColumns number is)
      (Analyzer.untypedColumns number js) := by
  induction h generalizing number with
  | nil => exact .nil
  | cons hij _ ih =>
      refine .cons ⟨?_, ?_, rfl⟩ (ih (number + 1))
      · exact getD_rel (or_rel hij.asName hij.name?) (.refl _)
      · exact getD_rel hij.table? (.refl _)

theorem annotateColumn_like {cs ds : List ResultColumn} (h : L.ResultColumnsLike cs ds)
    {a b : TypeHint} (hab : L.TypeHintLike a b) :
    L.NotedLike L.ResultColumnsLike (Analyzer.annotateColumn cs a)
      (Analyzer.annotateColumn ds b) := by
  have hname : L.NameLike a.name b.name := .of_eq hab.name
  have hindex : (cs.findIdx? fun c => Text.eqIgnoreCase c.name a.name) =
      ds.findIdx? fun c => Text.eqIgnoreCase c.name b.name :=
    findIdx?_eq h fun _ _ hcd => hcd.name.eqIgnoreCase hname
  simp only [Analyzer.annotateColumn, hindex, hab.typeName, hab.nullable]
  split
  · exact .bind (.warning hab.position fun _ => by rw [hab.name]) fun _ _ _ => .pure h
  · split
    · exact .pure (modify_rel h _ fun _ _ hcd => ⟨hcd.name, hcd.relation, rfl⟩)
    · exact .bind (.warning hab.position fun _ => by rw [hab.name]) fun _ _ _ => .pure h

theorem annotateColumns_like {cs ds : List ResultColumn} (h : L.ResultColumnsLike cs ds)
    {as bs : List TypeHint} (has : List.Forall₂ L.TypeHintLike as bs) :
    L.NotedLike L.ResultColumnsLike (Analyzer.annotateColumns cs as)
      (Analyzer.annotateColumns ds bs) := by
  induction has generalizing cs ds with
  | nil => exact .pure h
  | cons hab _ ih => exact .bind (annotateColumn_like h hab) fun _ _ hcs => ih hcs

namespace BlockLike

variable {b c : Block} {ts us : List Token}

theorem returningItems (h : L.BlockLike b c) (hpart : L.PartLike b.sql c.sql ts us)
    (laws : L.Lawful) :
    List.Forall₂ L.ItemLike (Analyzer.returningItems b ts) (Analyzer.returningItems c us) := by
  have hmain := statement_like hpart laws
  have hfound : (findTopLevel? (ts.drop (statementStart ts)) fun t => t.isWord "RETURNING") =
      findTopLevel? (us.drop (statementStart us)) fun t => t.isWord "RETURNING" :=
    TokensLike.findTopLevel? (hmain.tokens laws) fun _ _ htu => htu.isWord _
  simp only [Analyzer.returningItems, h.query.verb, hfound]
  split
  · split
    · exact readProjection_like ((hmain.drop _).takeWhile laws fun _ _ htu => by rw [htu.kind]) laws
    · exact .nil
  · exact .nil

theorem checkSegment (h : L.BlockLike b c) (hts : L.TokensLike ts us) {is js : List Item}
    (hitems : List.Forall₂ L.ItemLike is js) {cs ds : List ResultColumn}
    (hcs : L.ResultColumnsLike cs ds) {s u : Segment} (hsu : L.SegmentLike s u) :
    L.NotedLike Eq (Analyzer.checkSegment b ts is cs s) (Analyzer.checkSegment c us js ds u) := by
  have houtputs : (cs.map fun c => Text.lowerCase c.name) = ds.map fun c => Text.lowerCase c.name :=
    map_eq hcs fun _ _ hcd => hcd.name.lower
  unfold Analyzer.checkSegment
  rw [hsu.ordering, hsu.ranges, houtputs, knownNames_like h.query hitems]
  exact .forEach (List.forall₂_same.mpr fun _ _ => rfl) fun r r' hr =>
    hr ▸ validate_like hsu.scope _ (TokensLike.range hts r)

/-- The results of a pass that gives columns and parameters, in both runs. -/
abbrev ResultsLike (L : Likeness) (x y : List ResultColumn × List ResultParam) : Prop :=
  L.ResultColumnsLike x.1 y.1 ∧ List.Forall₂ L.ResultParamLike x.2 y.2

theorem resolveWith (h : L.BlockLike b c) (hts : L.TokensLike ts us) (laws : L.Lawful)
    (overrides : ColumnOverrides) (catalog : Catalog) {is js : List Item}
    (hitems : List.Forall₂ L.ItemLike is js) :
    L.NotedLike (ResultsLike L) (Analyzer.resolveWith overrides catalog b ts is)
      (Analyzer.resolveWith overrides catalog c us js) := by
  unfold Analyzer.resolveWith
  rw [h.query.recursive, h.query.verb]
  refine .bind (resolveCtes_like h.query.ctes (.ofCatalog overrides catalog) laws _)
    fun base base' hbase => ?_
  have hsegments := SegmentLike.split hbase hts
  have hscope : L.ScopeLike (((Segment.split base ts).head?.map (·.scope)).getD base)
      (((Segment.split base' us).head?.map (·.scope)).getD base') :=
    getD_rel (map_rel (head?_rel hsegments) fun _ _ hsu => hsu.scope) hbase
  refine .bind (noteMissing_like hsegments) fun _ _ _ => ?_
  refine .bind (resolveProjection_like h.query.items laws hscope .query) fun xs ys hxs => ?_
  refine .bind (resolveProjection_like hitems laws hscope .query) fun xs' ys' hxs' => ?_
  have hcolumns : L.ResultColumnsLike (xs ++ xs') (ys ++ ys') := List.rel_append hxs hxs'
  have hcontext : L.ContextLike ⟨ts, Segment.split base ts, base, catalog⟩
      ⟨us, Segment.split base' us, base', catalog⟩ := ⟨hts, hsegments, hbase, rfl⟩
  refine .bind (finishParams_like laws h.paramHints h.query.params hts
    (paramHints_like laws hcontext h.query.params)) fun ps qs hps => ?_
  dsimp only
  split
  · exact .bind (.forEach hsegments fun _ _ hsu => h.checkSegment hts hitems hcolumns hsu)
      fun _ _ _ => .pure ⟨hcolumns, hps⟩
  · exact .pure ⟨hcolumns, hps⟩

theorem resolveWithout (h : L.BlockLike b c) (hts : L.TokensLike ts us) (laws : L.Lawful)
    {is js : List Item} (hitems : List.Forall₂ L.ItemLike is js) :
    L.NotedLike (ResultsLike L) (Analyzer.resolveWithout b ts is)
      (Analyzer.resolveWithout c us js) := by
  have hcolumns : L.ResultColumnsLike
      (Analyzer.untypedColumns 1 ((b.query.items ++ is).filter fun i => !i.isStar))
      (Analyzer.untypedColumns 1 ((c.query.items ++ js).filter fun i => !i.isStar)) :=
    untypedColumns_like (List.rel_filter (fun _ _ hij => by simp only [hij.isStar])
      (List.rel_append h.query.items hitems)) 1
  have hhints : List.Forall₂ (Option.Rel L.HintLike) (b.query.params.map fun _ => none)
      (c.query.params.map fun _ => none) :=
    List.rel_map (fun _ _ _ => .none) h.query.params
  exact .bind (.warning h.position fun _ => rfl) fun _ _ _ =>
    .bind (finishParams_like laws h.paramHints h.query.params hts hhints) fun _ _ hps =>
      .pure ⟨hcolumns, hps⟩

theorem tokens (h : L.BlockLike b c) (laws : L.Lawful) :
    L.PartLike b.sql c.sql (tokensOf b.sql b.position) (tokensOf c.sql c.position) :=
  .whole laws h.sql

/-- Alike blocks have alike output columns and parameters. -/
theorem resolve (h : L.BlockLike b c) (laws : L.Lawful) (a : Analyzer) :
    L.NotedLike (ResultsLike L) (a.resolve b (tokensOf b.sql b.position))
      (a.resolve c (tokensOf c.sql c.position)) := by
  have hpart := h.tokens laws
  have hts := hpart.tokens laws
  have hitems := h.returningItems hpart laws
  have hannotated {x y : List ResultColumn × List ResultParam} (hxy : ResultsLike L x y) :
      L.NotedLike (ResultsLike L)
        (do return (← Analyzer.annotateColumns x.1 b.columnHints, x.2))
        (do return (← Analyzer.annotateColumns y.1 c.columnHints, y.2)) :=
    .bind (annotateColumns_like hxy.1 h.columnHints) fun _ _ hcs => .pure ⟨hcs, hxy.2⟩
  unfold Analyzer.resolve
  cases a.catalog with
  | some catalog =>
      exact .bind (h.resolveWith hts laws _ _ hitems) fun _ _ hxy => hannotated hxy
  | none => exact .bind (h.resolveWithout hts laws hitems) fun _ _ hxy => hannotated hxy

/-- In a likeness of a run and itself, what is noted of a block stands at a place. -/
theorem place_of_mem_diagnostics (h : L.BlockLike b b) (laws : L.Lawful) (hexact : L.exact)
    {a : Analyzer} (htokens : tokenizeAt b.sql b.position = .ok ts) {d : Diagnostic}
    (hd : d ∈ (a.analyze b).diagnostics) : L.place d.position d.position := by
  have hnotes := (h.resolve laws a).notes hexact
  rw [tokensOf_eq htokens] at hnotes
  unfold Analyzer.analyze at hd
  rw [htokens] at hd
  obtain ⟨d', hd', rfl⟩ := mem_distinct hd
  rw [position_stamp]
  exact (List.forall₂_same.mp hnotes d' hd').position

end BlockLike

end TypedSql.Likeness

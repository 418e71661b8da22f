import TypedSql.Analysis.Statement
import TypedSql.Proofs.Diagnostic.Distinct
import TypedSql.Proofs.Likeness.Analysis
import TypedSql.Proofs.Report.PassNotes
import TypedSql.Proofs.Token.Reread

/-!
# The problems of a view

Whatever is read by itself, a body or an expression, is read from the tokens of the statement, or
from the first ones of them.  So everything that is noted of a statement stands at one of its
tokens, or where the statement begins.  What is wrong with a view is said in its file, at a token of
its query or where the query begins.  The query's own problems are collected, so that none is there
twice, and none of them says what is said of a column list that does not fit.

Main definition: `View.spots`.  Main statements: `Analyzer.position_of_mem_diagnostics`,
`View.spot_mem_of_mem_resolve`, `View.nodup_issue_resolve`.
-/

namespace TypedSql

open Diagnostic Query Token

/-! ## Notes stand at tokens -/

namespace TokenPlaces

/-- The likeness of a run and itself that tells which positions are places. -/
def likeness (places : List Position) : Likeness where
  exact := True
  place p q := q = p ∧ p ∈ places
  cut s p s' p' := s' = s ∧ p' = p ∧ ∀ t ∈ tokensOf s p, t.position ∈ places

variable {places : List Position}

/-- The tokens of a text that is cut out between two tokens have positions of tokens there. -/
theorem exists_of_mem_sourceText {sql : String} {p : Position} {before ts after : List Token}
    {first t : Token} (htokens : tokensOf sql p = before ++ (first :: ts ++ after))
    (ht : t ∈ tokensOf (sourceText sql (first :: ts)) first.position) :
    ∃ u ∈ first :: ts, t.position = u.position := by
  cases hread : tokenizeAt sql p with
  | error e =>
      rw [tokensOf, hread] at htokens
      simp [Except.toOption] at htokens
  | ok tokens =>
      rw [tokensOf_eq hread] at htokens
      have hreads := tokenizeAt_eq_ok_iff.mp hread
      rw [htokens] at hreads
      obtain ⟨again, hagain, hagainReads⟩ := hreads.prefix_of_sourceText
      rw [tokensOf_eq hagainReads] at ht
      obtain ⟨u, hu, rfl⟩ := List.mem_map.mp ht
      exact ⟨u, hagain.subset hu, rfl⟩

theorem lawful (places : List Position) : (likeness places).Lawful where
  place_iff := by
    rintro p p' q q' ⟨rfl, -⟩ ⟨rfl, -⟩
    exact Iff.rfl
  cut_exactly h _ := h.1.symm
  cut_tokens := by
    rintro s p s' p' ⟨rfl, rfl, hplaces⟩
    exact List.forall₂_same.mpr fun t ht => ⟨rfl, .refl _, fun _ _ => rfl, rfl, hplaces t ht⟩
  cut_part := by
    rintro s p s' p' before before' after after' t t' ts ts' ⟨rfl, rfl, hplaces⟩ htokens htokens'
      hbefore hlength
    rw [htokens] at htokens'
    have hrest := (List.append_inj htokens' hbefore).2
    have hpart := (List.append_inj hrest (by simp [hlength])).1
    cases hpart
    refine ⟨rfl, rfl, fun u hu => ?_⟩
    obtain ⟨u', hu', hposition⟩ := exists_of_mem_sourceText htokens hu
    rw [hposition]
    refine hplaces u' ?_
    rw [htokens]
    exact List.mem_append_right _ (List.mem_append_left _ hu')

end TokenPlaces

/-- Everything that is noted of a block without annotations stands at one of its tokens, or where
the block begins. -/
theorem Analyzer.position_of_mem_diagnostics (a : Analyzer) {b : Block} {tokens : List Token}
    (htokens : tokenizeAt b.sql b.position = .ok tokens)
    (hquery : b.query = Query.ofTokens b.sql tokens) (hparam : b.paramHints = [])
    (hcolumn : b.columnHints = []) {d : Diagnostic} (h : d ∈ (a.analyze b).diagnostics) :
    d.position ∈ b.position :: tokens.map Token.position := by
  let L := TokenPlaces.likeness (b.position :: tokens.map Token.position)
  have laws : L.Lawful := TokenPlaces.lawful _
  have hcut : L.cut b.sql b.position b.sql b.position := by
    refine ⟨rfl, rfl, fun t ht => ?_⟩
    rw [tokensOf_eq htokens] at ht
    exact List.mem_cons_of_mem _ (List.mem_map_of_mem ht)
  have hlike : L.BlockLike b b := by
    refine ⟨hcut, ?_, hparam ▸ .nil, hcolumn ▸ .nil, fun _ => ⟨rfl, List.mem_cons_self⟩⟩
    have hwhole := Likeness.QueryLike.ofTokens (.whole laws hcut) laws
    rwa [tokensOf_eq htokens, ← hquery] at hwhole
  exact (hlike.place_of_mem_diagnostics laws trivial htokens h).2

/-! ## The problems of a view -/

namespace View

variable {v : View} {tokens : List Token} {c : Catalog} {d : Diagnostic}

/-- The places of the view's query: where it begins, and where its tokens stand. -/
def spots (v : View) : List Spot :=
  (v.position :: (tokensOf v.sql v.position).map Token.position).map fun p => (v.path, p)

theorem problems_resolve (htokens : tokenizeAt v.sql v.position = .ok tokens) (c : Catalog) :
    (v.resolve c).2 =
      let found := Analyzer.analyze ⟨some c, .empty⟩ (v.toBlock (Query.ofTokens v.sql tokens))
      found.diagnostics ++ (v.applyNames found.columns).2 := by
  unfold resolve Query.parse
  rw [htokens]
  rfl

/-- What is said of a column list that does not fit. -/
theorem mem_applyNames {columns : List ResultColumn} (h : d ∈ (v.applyNames columns).2) :
    (v.applyNames columns).2 = [d] ∧ d.spot = (v.path, v.position) ∧
      BeginsWith 'v' d.message := by
  unfold applyNames at h ⊢
  split at h
  · cases h
  · split at h
    · cases h
    · next names hnames hlength =>
        cases List.mem_singleton.mp h
        rw [if_neg hlength]
        exact ⟨rfl, rfl, .append (.append (.append (.append (.append (by decide) _) _) _) _) _⟩

/-- What is noted of the view's query has the path of the view, and says nothing of its column
list. -/
theorem path_of_mem_analyze {b : Block} {a : Analyzer}
    (htokens : tokenizeAt b.sql b.position = .ok tokens) (h : d ∈ (a.analyze b).diagnostics) :
    d.path = b.path ∧ ¬ BeginsWith 'v' d.message := by
  unfold Analyzer.analyze at h
  rw [htokens] at h
  -- What is noted has no path of its own, so it gets that of the collector.
  obtain ⟨e, he, rfl⟩ := mem_distinct h
  obtain ⟨hpath, hmessage⟩ := a.offViews_resolve b tokens e he
  refine ⟨?_, by rwa [message_stamp]⟩
  rw [stamp, hpath]
  rfl

/-- What is wrong with a view is said at a token of its query, or where the query begins. -/
theorem spot_mem_of_mem_resolve (htokens : tokenizeAt v.sql v.position = .ok tokens)
    (h : d ∈ (v.resolve c).2) : d.spot ∈ v.spots := by
  rw [problems_resolve htokens] at h
  rcases List.mem_append.mp h with h | h
  · have hposition := Analyzer.position_of_mem_diagnostics _
      (b := v.toBlock (Query.ofTokens v.sql tokens)) htokens rfl rfl rfl h
    obtain ⟨hpath, -⟩ := path_of_mem_analyze
      (b := v.toBlock (Query.ofTokens v.sql tokens)) htokens h
    rw [spots, tokensOf_eq htokens]
    have hspot : d.spot = (v.path, d.position) := congrArg (·, d.position) hpath
    rw [hspot]
    exact List.mem_map_of_mem hposition
  · rw [(mem_applyNames h).2.1]
    exact List.mem_cons_self

/-- Nothing that is wrong with a view is said twice. -/
theorem nodup_issue_resolve (htokens : tokenizeAt v.sql v.position = .ok tokens) (c : Catalog) :
    ((v.resolve c).2.map issue).Nodup := by
  rw [problems_resolve htokens, List.map_append, List.nodup_append]
  refine ⟨?_, ?_, ?_⟩
  · unfold Analyzer.analyze
    rw [show tokenizeAt (v.toBlock (Query.ofTokens v.sql tokens)).sql
      (v.toBlock (Query.ofTokens v.sql tokens)).position = .ok tokens from htokens]
    exact nodup_issue_distinct _ _
  · cases hmore : (v.applyNames (Analyzer.analyze ⟨some c, .empty⟩
        (v.toBlock (Query.ofTokens v.sql tokens))).columns).2 with
    | nil => exact List.nodup_nil
    | cons d ds =>
        have hsingle := (mem_applyNames (d := d) (by rw [hmore]; exact List.mem_cons_self)).1
        rw [hmore] at hsingle
        rw [hsingle]
        exact List.nodup_singleton _
  · rintro i hi j hj rfl
    obtain ⟨d, hd, rfl⟩ := List.mem_map.mp hi
    obtain ⟨e, he, hissue⟩ := List.mem_map.mp hj
    obtain ⟨-, hno⟩ := path_of_mem_analyze
      (b := v.toBlock (Query.ofTokens v.sql tokens)) htokens hd
    refine hno ?_
    rw [show d.message = e.message from congrArg Issue.message hissue.symm]
    exact (mem_applyNames he).2.2

end View

end TypedSql

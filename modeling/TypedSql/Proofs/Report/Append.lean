import TypedSql.Project.Basic
import TypedSql.Proofs.Likeness.Analysis
import TypedSql.Proofs.Query.Lines

/-!
# Two query files one behind the other

A query file is analyzed block by block.  The report on two texts one behind the other is the
report on the first, followed by the report on the second some lines further down: no query changes
what is found in another one.

Main statement: `Project.analyzeSource_append`.
-/

namespace TypedSql

open Diagnostic Query Text Token

/-! ## Moving down -/

/-- The diagnostic `n` lines further down. -/
def Diagnostic.down (n : Nat) (d : Diagnostic) : Diagnostic :=
  { d with position := d.position.down n }

/-- The report with its diagnostics `n` lines further down. -/
def QueryReport.down (n : Nat) (q : QueryReport) : QueryReport :=
  { q with analysis := { q.analysis with
    diagnostics := q.analysis.diagnostics.map (Diagnostic.down n) } }

/-- The report with its diagnostics `n` lines further down. -/
def FileReport.down (n : Nat) (r : FileReport) : FileReport :=
  ⟨r.path, r.queries.map (QueryReport.down n), r.diagnostics.map (Diagnostic.down n)⟩

/-- The queries and the problems of both reports. -/
def FileReport.append (r s : FileReport) : FileReport :=
  ⟨r.path, r.queries ++ s.queries, r.diagnostics ++ s.diagnostics⟩

namespace Down

/-- The likeness of a text and the same text `n` lines further down. -/
def likeness (n : Nat) : Likeness where
  exact := True
  place p q := q = p.down n
  cut s p s' p' := s' = s ∧ p' = p.down n

variable {n : Nat}

theorem tokenLike (n : Nat) (t : Token) : (likeness n).TokenLike t (t.down n) :=
  ⟨rfl, .refl _, fun _ _ => rfl, rfl⟩

theorem tokensOf_down (n : Nat) (text : String) (p : Position) :
    tokensOf text (p.down n) = (tokensOf text p).map (Token.down n) := by
  unfold tokensOf
  rw [tokenizeAt_down]
  cases tokenizeAt text p <;> rfl

theorem sourceText_down (n : Nat) (text : String) (tokens : List Token) :
    sourceText text (tokens.map (Token.down n)) = sourceText text tokens := by
  unfold sourceText
  rw [List.head?_map, List.getLast?_map]
  cases tokens.head? <;> cases tokens.getLast? <;> rfl

/-- Reading and cutting depend on no line number. -/
theorem lawful (n : Nat) : (likeness n).Lawful where
  place_iff := by
    rintro p p' q q' rfl rfl
    exact ⟨congrArg _, Position.down_injective n⟩
  cut_exactly h _ := h.1.symm
  cut_tokens := by
    rintro s p s' p' ⟨rfl, rfl⟩
    rw [tokensOf_down]
    exact List.forall₂_map_right_iff.mpr (List.forall₂_same.mpr fun t _ => tokenLike n t)
  cut_part := by
    rintro s p s' p' before before' after after' t t' ts ts' ⟨rfl, rfl⟩ htokens htokens' hbefore
      hlength
    rw [tokensOf_down, htokens, List.map_append] at htokens'
    have hrest := (List.append_inj htokens' (by simp [hbefore])).2
    rw [List.map_append] at hrest
    have hpart := (List.append_inj hrest (by simp [hlength])).1
    rw [← hpart, sourceText_down]
    injection hpart with hfirst _
    exact ⟨rfl, hfirst ▸ rfl⟩

/-- Results that are alike are the same, with the notes further down. -/
theorem notes_eq {α : Type} {R : α → α → Prop} {x y : Noted α}
    (h : (likeness n).NotedLike R x y) : y.notes = x.notes.map (Diagnostic.down n) := by
  have hnotes := h.notes trivial
  generalize x.notes = ds at hnotes
  generalize y.notes = es at hnotes
  induction hnotes with
  | nil => rfl
  | @cons d e ds es hde _ ih =>
      obtain ⟨hseverity, hcode, hmessage, hpath, hposition, hhelp⟩ := hde
      cases d
      cases e
      cases hseverity
      cases hcode
      cases hmessage
      cases hpath
      cases hposition
      cases hhelp
      rw [ih]
      rfl

theorem columns_eq {cs ds : List ResultColumn} (h : (likeness n).ResultColumnsLike cs ds) :
    cs = ds := by
  induction h with
  | nil => rfl
  | @cons c d cs ds hcd _ ih =>
      cases c
      cases d
      cases hcd.name.exactly trivial
      cases hcd.relation.exactly trivial
      cases hcd.type
      rw [ih]

theorem params_eq {ps qs : List ResultParam}
    (h : List.Forall₂ (likeness n).ResultParamLike ps qs) : ps = qs := by
  induction h with
  | nil => rfl
  | @cons p q ps qs hpq _ ih =>
      have hbinding : p.binding = q.binding := by
        have hlike := hpq.binding
        generalize p.binding = a at hlike ⊢
        generalize q.binding = b at hlike ⊢
        cases hlike with
        | positional => rfl
        | named hab => rw [hab.exactly trivial]
        | numbered _ => rfl
      cases p
      cases q
      cases hpq.name.exactly trivial
      cases hbinding
      cases hpq.type
      cases hpq.variadic
      cases hpq.elements
      rw [ih]

/-! ## Collecting -/

theorem stamp_down (n : Nat) (path : String) (d : Diagnostic) :
    (d.down n).stamp path = (d.stamp path).down n := by
  unfold Diagnostic.stamp
  change (if d.path.isEmpty then _ else _) = _
  split <;> rfl

theorem issue_down_iff (n : Nat) (d e : Diagnostic) :
    (d.down n).issue = (e.down n).issue ↔ d.issue = e.issue := by
  simp only [Diagnostic.issue, Issue.mk.injEq]
  constructor
  · rintro ⟨hpath, hposition, hmessage⟩
    exact ⟨hpath, Position.down_injective n hposition, hmessage⟩
  · rintro ⟨hpath, hposition, hmessage⟩
    exact ⟨hpath, congrArg (Position.down n) hposition, hmessage⟩

theorem push_down (n : Nat) (path : String) (ds : List Diagnostic) (d : Diagnostic) :
    (Collector.mk path (ds.map (Diagnostic.down n))).push (d.down n) =
      ⟨path, ((Collector.mk path ds).push d).diagnostics.map (Diagnostic.down n)⟩ := by
  have hknows : (Collector.mk path (ds.map (Diagnostic.down n))).knows (d.down n) =
      (Collector.mk path ds).knows d := by
    unfold Collector.knows
    rw [List.any_map]
    congr 1
    funext e
    rw [Function.comp, stamp_down, Bool.eq_iff_iff, beq_iff_eq, beq_iff_eq, issue_down_iff]
  unfold Collector.push
  rw [hknows]
  split
  · rfl
  · rw [stamp_down, List.map_append]
    rfl

theorem extend_down (n : Nat) (path : String) (ds es : List Diagnostic) :
    (Collector.mk path (ds.map (Diagnostic.down n))).extend (es.map (Diagnostic.down n)) =
      ⟨path, ((Collector.mk path ds).extend es).diagnostics.map (Diagnostic.down n)⟩ := by
  induction es generalizing ds with
  | nil => rfl
  | cons e es ih =>
      have hpath : ((Collector.mk path ds).push e).path = path := by
        unfold Collector.push
        split <;> rfl
      change ((Collector.mk path (ds.map (Diagnostic.down n))).push (e.down n)).extend
        (es.map (Diagnostic.down n)) = ⟨path, (((Collector.mk path ds).push e).extend
          es).diagnostics.map (Diagnostic.down n)⟩
      rw [push_down]
      generalize (Collector.mk path ds).push e = c at hpath ⊢
      obtain ⟨path', ds'⟩ := c
      cases hpath
      exact ih ds'

theorem distinct_down (n : Nat) (path : String) (ds : List Diagnostic) :
    distinct path (ds.map (Diagnostic.down n)) = (distinct path ds).map (Diagnostic.down n) :=
  congrArg Collector.diagnostics (extend_down n path [] ds)

/-! ## Blocks -/

/-- The second block is the first one `n` lines further down. -/
structure BlockDown (n : Nat) (b c : Block) : Prop where
  name : c.name = b.name
  command : c.command = b.command
  path : c.path = b.path
  like : (likeness n).BlockLike b c

theorem reportBlock_down (p : Project) {b c : Block} (h : BlockDown n b c) :
    p.reportBlock c = (p.reportBlock b).down n := by
  have hresolve := h.like.resolve (lawful n) p.analyzer
  obtain ⟨hsql, hposition⟩ := h.like.sql
  have hanalysis : p.analyzer.analyze c = ((p.reportBlock b).down n).analysis := by
    change _ = (⟨(p.analyzer.analyze b).columns, (p.analyzer.analyze b).params,
      (p.analyzer.analyze b).diagnostics.map (Diagnostic.down n)⟩ : Analysis)
    unfold Analyzer.analyze
    rw [hsql, hposition, tokenizeAt_down, h.path]
    cases htokens : tokenizeAt b.sql b.position with
    | error e => exact congrArg (Analysis.mk [] []) (distinct_down n b.path [e.toDiagnostic b.path])
    | ok tokens =>
        rw [hsql, hposition, tokensOf_down, tokensOf_eq htokens] at hresolve
        simp only
        rw [notes_eq hresolve, distinct_down, ← columns_eq hresolve.value.1,
          ← params_eq hresolve.value.2]
  unfold Project.reportBlock
  rw [h.name, h.command, hanalysis]
  rfl

/-! ## Reading a file -/

/-- The remark with its annotation `n` lines further down. -/
def remark (n : Nat) : Remark → Remark
  | .hint subject a => .hint subject { a with position := a.position.down n }
  | .invalidHint => .invalidHint
  | .doc text => .doc text
  | .nothing => .nothing

theorem ofLine_down (n : Nat) (l : Line) :
    Remark.ofLine (l.down n) = remark n (Remark.ofLine l) := by
  have htext : (l.down n).text = l.text := rfl
  simp only [Remark.ofLine, htext]
  cases hintSubject? l.text with
  | none => cases docText? l.text <;> rfl
  | some found =>
      simp only
      cases hintParts? found.2 <;> rfl

theorem remarkProblem?_down (n : Nat) (path : String) (l : Line) :
    remarkProblem? path (l.down n) = (remarkProblem? path l).map (Diagnostic.down n) := by
  unfold remarkProblem?
  rw [ofLine_down]
  cases Remark.ofLine l <;> rfl

theorem hintsOf_like (n : Nat) (subject : Subject) (remarks : List Remark) :
    List.Forall₂ (likeness n).TypeHintLike (Remark.hintsOf subject remarks)
      (Remark.hintsOf subject (remarks.map (remark n))) := by
  induction remarks with
  | nil => exact .nil
  | cons r remarks ih =>
      cases r with
      | hint s a =>
          by_cases hs : s = subject
          · simp only [Remark.hintsOf, remark, List.map_cons, List.filterMap_cons, if_pos hs]
            exact .cons ⟨rfl, rfl, rfl, fun _ => rfl⟩ ih
          · simp only [Remark.hintsOf, remark, List.map_cons, List.filterMap_cons, if_neg hs]
            exact ih
      | invalidHint => exact ih
      | doc text => exact ih
      | nothing => exact ih

theorem join_down (n : Nat) (lines : List Line) :
    Line.join (lines.map (Line.down n)) = Line.join lines :=
  List.flatMap_map ..

/-- The readings of a section in both runs: the block and the problems. -/
structure ReadingDown (n : Nat) (x y : Option Block × List Diagnostic) : Prop where
  block : Option.Rel (BlockDown n) x.1 y.1
  problems : y.2 = x.2.map (Diagnostic.down n)

theorem remarkLines_down (n : Nat) (s : Section) :
    (s.down n).remarkLines = s.remarkLines.map (Line.down n) :=
  List.takeWhile_map ..

theorem sqlLines_down (n : Nat) (s : Section) :
    (s.down n).sqlLines = s.sqlLines.map (Line.down n) :=
  List.dropWhile_map ..

theorem sql_down (n : Nat) (s : Section) : (s.down n).sql = s.sql := by
  unfold Section.sql
  rw [sqlLines_down, join_down]

theorem readProblems_down (n : Nat) (path : String) (s : Section) (p : Position) :
    (s.down n).readProblems path (p.down n) =
      (s.readProblems path p).map (Diagnostic.down n) := by
  unfold Section.readProblems
  rw [sql_down, tokenizeAt_down]
  cases tokenizeAt s.sql p <;> rfl

theorem remarkProblems_down (n : Nat) (path : String) (lines : List Line) :
    (lines.map (Line.down n)).filterMap (remarkProblem? path) =
      (lines.filterMap (remarkProblem? path)).map (Diagnostic.down n) := by
  rw [List.filterMap_map, List.map_filterMap]
  exact List.filterMap_congr fun l _ => remarkProblem?_down n path l

theorem remarks_down (n : Nat) (lines : List Line) :
    (lines.map (Line.down n)).map Remark.ofLine = (lines.map Remark.ofLine).map (remark n) := by
  rw [List.map_map, List.map_map]
  exact List.map_congr_left fun l _ => ofLine_down n l

theorem query_down (n : Nat) (sql : String) (p : Position) :
    (likeness n).QueryLike ((Query.parse sql p).toOption.getD .unread)
      ((Query.parse sql (p.down n)).toOption.getD .unread) := by
  have hcut : (likeness n).cut sql p sql (p.down n) := ⟨rfl, rfl⟩
  unfold Query.parse
  rw [tokenizeAt_down]
  cases htokens : tokenizeAt sql p with
  | error e => exact ⟨rfl, .nil, .nil, .nil, rfl⟩
  | ok tokens =>
      have hlike := Likeness.QueryLike.ofTokens (.whole (lawful n) hcut) (lawful n)
      rw [tokensOf_down, tokensOf_eq htokens] at hlike
      exact hlike

theorem block_down (n : Nat) (path : String) (command : Command) (s : Section) (p : Position) :
    BlockDown n (s.block path command p) ((s.down n).block path command (p.down n)) where
  name := rfl
  command := rfl
  path := rfl
  like := by
    refine ⟨⟨sql_down n s, rfl⟩, ?_, ?_, ?_, fun _ => rfl⟩
    · unfold Section.block
      rw [sql_down]
      exact query_down n s.sql p
    · unfold Section.block
      rw [remarkLines_down, remarks_down]
      exact hintsOf_like n .param _
    · unfold Section.block
      rw [remarkLines_down, remarks_down]
      exact hintsOf_like n .column _

theorem readBody_down (n : Nat) (path : String) (command : Command) (s : Section) :
    ReadingDown n (readBody path command s) (readBody path command (s.down n)) := by
  have hlines := sqlLines_down n s
  cases hsql : s.sqlLines with
  | nil =>
      rw [hsql] at hlines
      rw [readBody_of_nil hsql, readBody_of_nil hlines, remarkLines_down, remarkProblems_down]
      exact ⟨.none, by rw [List.map_append]; rfl⟩
  | cons first rest =>
      rw [hsql] at hlines
      rw [readBody_of_cons hsql, readBody_of_cons hlines, remarkLines_down, remarkProblems_down]
      refine ⟨.some (block_down n path command s ⟨first.number, 1⟩), ?_⟩
      have hproblems := readProblems_down n path s ⟨first.number, 1⟩
      rw [List.map_append, ← hproblems]
      rfl

theorem readSection_down (n : Nat) (path : String) (s : Section) :
    ReadingDown n (readSection path s) (readSection path (s.down n)) := by
  have hheader : (s.down n).header = s.header := rfl
  simp only [readSection, hheader]
  cases s.header.command with
  | none => exact ⟨.none, rfl⟩
  | some text =>
      simp only
      cases Command.parse? text with
      | none => exact ⟨.none, rfl⟩
      | some command => exact readBody_down n path command s

/-- The readings of sections in both runs: the blocks and the problems. -/
structure ReadingsDown (n : Nat) (x y : List Block × List Diagnostic) : Prop where
  blocks : List.Forall₂ (BlockDown n) x.1 y.1
  problems : y.2 = x.2.map (Diagnostic.down n)

theorem ReadingsDown.prepend {x y : List Block × List Diagnostic} (h : ReadingsDown n x y)
    (problems : List Diagnostic) :
    ReadingsDown n (x.1, problems ++ x.2) (y.1, problems.map (Diagnostic.down n) ++ y.2) :=
  ⟨h.blocks, by rw [h.problems, List.map_append]⟩

theorem readSections_down (n : Nat) (path : String) (names : List String) (ss : List Section) :
    ReadingsDown n (readSections path names ss)
      (readSections path names (ss.map (Section.down n))) := by
  induction ss generalizing names with
  | nil => exact ⟨.nil, rfl⟩
  | cons s ss ih =>
      have hdown := readSection_down n path s
      rcases hs : readSection path s with ⟨block, problems⟩
      rcases hs' : readSection path (s.down n) with ⟨block', problems'⟩
      rw [hs, hs'] at hdown
      obtain ⟨hblock, hproblems⟩ := hdown
      cases hproblems
      rw [List.map_cons]
      cases hblock with
      | none =>
          rw [readSections_of_none hs, readSections_of_none hs']
          exact (ih names).prepend problems
      | @some b c hbc =>
          -- The name is the same in both runs, so both take the block or none does.
          by_cases hb : b.name ∈ names
          · rw [readSections_of_known hs hb, readSections_of_known hs' (hbc.name ▸ hb), hbc.name]
            obtain ⟨hblocks, hmore⟩ := (ih names).prepend [s.duplicate path b.name]
            exact (ReadingsDown.mk hblocks hmore).prepend problems
          · rw [readSections_of_new hs hb, readSections_of_new hs' (hbc.name ▸ hb), hbc.name]
            obtain ⟨hblocks, hmore⟩ := (ih (b.name :: names)).prepend problems
            exact ⟨.cons hbc hblocks, hmore⟩

theorem map_reportBlock_down (p : Project) {bs cs : List Block}
    (h : List.Forall₂ (BlockDown n) bs cs) :
    cs.map p.reportBlock = (bs.map p.reportBlock).map (QueryReport.down n) := by
  induction h with
  | nil => rfl
  | cons hbc _ ih =>
      rw [List.map_cons, ih, reportBlock_down p hbc]
      rfl

end Down

/-- A file that begins with a header has no lines before its sections. -/
theorem Query.splitSections_of_header {lines : List Line}
    (h : (lines.head?.bind fun l => Header.parse? l.text).isSome) :
    (splitSections lines).1 = [] := by
  cases lines with
  | nil => rfl
  | cons l ls =>
      change (Header.parse? l.text).isSome at h
      obtain ⟨header, hheader⟩ := Option.isSome_iff_exists.mp h
      rw [splitSections, hheader]

/-- The file of two texts one behind the other. -/
theorem Query.File.parse_append (path : String) {a b : String} (ha : Line.Closed a.toList)
    (hb : ((Line.ofText b).head?.bind fun l => Header.parse? l.text).isSome)
    (hnames : ∀ x ∈ (File.parse path a).blocks, ∀ y ∈ (File.parse path b).blocks,
      x.name ≠ y.name) :
    ∃ blocks, List.Forall₂ (Down.BlockDown (a.toList.count '\n')) (File.parse path b).blocks
        blocks ∧
      File.parse path (a ++ b) =
        ⟨path, (File.parse path a).blocks ++ blocks, (File.parse path a).diagnostics ++
          (File.parse path b).diagnostics.map (Diagnostic.down (a.toList.count '\n'))⟩ := by
  have hnone := splitSections_of_header hb
  have hdown : splitSections ((Line.ofText b).map (Line.down (a.toList.count '\n'))) =
      ([], (splitSections (Line.ofText b)).2.map (Section.down (a.toList.count '\n'))) := by
    rw [splitSections_down, hnone]
    rfl
  have hsections : splitSections (Line.ofText (a ++ b)) =
      ((splitSections (Line.ofText a)).1, (splitSections (Line.ofText a)).2 ++
        (splitSections (Line.ofText b)).2.map (Section.down (a.toList.count '\n'))) := by
    rw [Line.ofText_append ha, splitSections_append (by rw [hdown]), hdown]
  obtain ⟨hblocks, hproblems⟩ := Down.readSections_down (a.toList.count '\n') path []
    (splitSections (Line.ofText b)).2
  have hsame := Memberwise.map_eq hblocks fun _ _ hbc => hbc.name.symm
  -- No block of the second text has a name from the first, so they are read as by themselves.
  have hother : ∀ c ∈ (readSections path []
      ((splitSections (Line.ofText b)).2.map (Section.down (a.toList.count '\n')))).1,
      c.name ∉ ((readSections path [] (splitSections (Line.ofText a)).2).1.map
        Block.name).reverse := by
    intro c hc hmem
    have hname := List.mem_map_of_mem (f := Block.name) hc
    rw [← hsame] at hname
    obtain ⟨y, hy, hyc⟩ := List.mem_map.mp hname
    obtain ⟨x, hx, hxc⟩ := List.mem_map.mp (List.mem_reverse.mp hmem)
    exact hnames x hx y hy (hxc.trans hyc.symm)
  have hread := readSections_of_not_mem hother
  refine ⟨_, hblocks, ?_⟩
  unfold File.parse
  rw [hsections]
  simp only
  rw [readSections_append]
  simp only [List.append_nil, List.nil_append] at hread ⊢
  rw [hread, hproblems, hnone]
  simp only [strayProblem?, List.find?_nil, Option.map_none, Option.toList_none, List.nil_append,
    List.append_assoc]

/-- The report on two texts one behind the other, where the second one begins with a header and
has queries of other names, is the report on the first with the one on the second below it. -/
theorem Project.analyzeSource_append (p : Project) (path : String) {a b : String}
    (ha : Line.Closed a.toList)
    (hb : ((Line.ofText b).head?.bind fun l => Header.parse? l.text).isSome)
    (hnames : ∀ x ∈ (File.parse path a).blocks, ∀ y ∈ (File.parse path b).blocks,
      x.name ≠ y.name) :
    p.analyzeSource path (a ++ b) = (p.analyzeSource path a).append
      ((p.analyzeSource path b).down (a.toList.count '\n')) := by
  obtain ⟨blocks, hblocks, hparse⟩ := File.parse_append path ha hb hnames
  unfold Project.analyzeSource
  rw [hparse]
  change FileReport.mk path _ _ = FileReport.mk path _ _
  rw [List.map_append, Down.map_reportBlock_down p hblocks]
  rfl

/-- A query below a query that cannot be read. -/
theorem Project.analyzeSource_append_unread :
    (Project.bare .empty).analyzeSource "q.sql" ("-- name: A :one\nSELECT '\n" ++
        "-- name: B :one\nSELECT ?") =
      ((Project.bare .empty).analyzeSource "q.sql" "-- name: A :one\nSELECT '\n").append
        (((Project.bare .empty).analyzeSource "q.sql" "-- name: B :one\nSELECT ?").down 2) :=
  (Project.bare .empty).analyzeSource_append "q.sql" (.inr (by decide)) (by decide +kernel)
    (by decide +kernel)

end TypedSql

import TypedSql.Project.Basic
import TypedSql.Proofs.Diagnostic.Distinct
import TypedSql.Proofs.Likeness.Analysis
import TypedSql.Proofs.Query.Lines
import TypedSql.Proofs.Query.Origin
import TypedSql.Proofs.Token.Reads

/-!
# Positions are positions in the file

A statement is cut out of its file, bodies and expressions are cut out of the statement, and each
cut is read by itself.  Still every position is the position in the file: that of the byte where
its token, item or parameter begins.

Main statements: `Block.exists_cutAt`, `Project.positions_of_analyzeSource`.
-/

namespace TypedSql

open Diagnostic Query Text Token

/-- The text stands at byte `k` of the source, and `p` is the position of that byte. -/
structure LocatedAt (source : String) (k : Nat) (text : String) (p : Position) : Prop where
  stands : StandsAt source k text
  position : p = Position.first.advance source k

/-- The position of a character of the source, or of its end. -/
def IsPosition (source : String) (p : Position) : Prop :=
  ∃ k, IsBoundary source k ∧ p = Position.first.advance source k

variable {source : String}

namespace LocatedAt

variable {text : String} {k : Nat} {p : Position}

theorem isPosition (h : LocatedAt source k text p) : IsPosition source p :=
  ⟨k, h.stands.isBoundary, h.position⟩

/-- What stands in a located text is located. -/
theorem inner (h : LocatedAt source k text p) {m : Nat} {part : String}
    (hpart : StandsAt text m part) : LocatedAt source (k + m) part (p.advance text m) := by
  refine ⟨h.stands.trans hpart, ?_⟩
  rw [h.position]
  exact Position.first.advance_advance h.stands hpart.isBoundary

theorem advance_isPosition (h : LocatedAt source k text p) {before after : List Char}
    (htext : text.toList = before ++ after) : IsPosition source (p.after before) := by
  have hstands : StandsAt text (byteLength before) "" := ⟨before, after, htext, rfl⟩
  rw [← p.advance_byteLength htext]
  exact (h.inner hstands).isPosition

theorem token (h : LocatedAt source k text p) {t : Token} (ht : t ∈ tokensOf text p) :
    LocatedAt source (k + t.span.start) t.text t.position := by
  unfold tokensOf at ht
  cases htokens : tokenizeAt text p with
  | error e => rw [htokens] at ht; cases ht
  | ok tokens =>
      rw [htokens] at ht
      obtain ⟨before, after, htext, hstart, -, hposition⟩ :=
        (tokenizeAt_eq_ok_iff.mp htokens).mem ht
      rw [Nat.zero_add] at hstart
      rw [hposition, ← p.advance_byteLength htext, hstart]
      exact h.inner ⟨before, after, htext, rfl⟩

/-- The text from a token on is located where the token stands. -/
theorem sourceText (h : LocatedAt source k text p) {t : Token} (ht : t ∈ tokensOf text p)
    (ts : List Token) :
    LocatedAt source (k + t.span.start) (Token.sourceText text (t :: ts)) t.position := by
  unfold tokensOf at ht
  cases htokens : tokenizeAt text p with
  | error e => rw [htokens] at ht; cases ht
  | ok tokens =>
      rw [htokens] at ht
      obtain ⟨before, after, htext, hstart, -, hposition⟩ :=
        (tokenizeAt_eq_ok_iff.mp htokens).mem ht
      rw [Nat.zero_add] at hstart
      rw [hposition, ← p.advance_byteLength htext, ← hstart]
      obtain ⟨last, hlast⟩ : ∃ last, (t :: ts).getLast? = some last :=
        ⟨_, List.getLast?_eq_some_getLast (List.cons_ne_nil t ts)⟩
      unfold Token.sourceText
      rw [hlast]
      exact h.inner (standsAt_slice ⟨before, t.text.toList ++ after, htext, hstart.symm⟩ _)

end LocatedAt

/-! ## Blocks -/

namespace Query

/-- The block was cut out of the source at byte `k`, and every position in it is the position in
the source of what stands there: tokens, parameters, items, common table expressions and their
bodies. -/
structure Block.CutAt (source : String) (k : Nat) (b : Block) : Prop where
  sql : LocatedAt source k b.sql b.position
  tokens : ∀ t ∈ tokensOf b.sql b.position,
    LocatedAt source (k + t.span.start) t.text t.position
  params : ∀ p ∈ b.query.params, ∃ before t after,
    tokensOf b.sql b.position = before ++ t :: after ∧ p.WrittenAt (t :: after) ∧
      LocatedAt source (k + t.span.start) t.text p.position
  /-- A parameter stands at its first place. -/
  first : ∀ p ∈ b.query.params, ∀ q ∈ paramPlaces (tokensOf b.sql b.position),
    q.binding.sameValue p.binding = true → ¬ q.position.Before p.position
  items : ∀ i ∈ b.query.items, ∃ t ts, (t :: ts) <:+: tokensOf b.sql b.position ∧
    i = Item.ofTokens b.sql (t :: ts) ∧
      LocatedAt source (k + t.span.start) (sourceText b.sql (t :: ts)) i.position
  ctes : ∀ c ∈ b.query.ctes, ∃ name body,
    c.WrittenIn b.sql (tokensOf b.sql b.position) name body ∧
      LocatedAt source (k + name.span.start) name.text c.position ∧
      (c.body ≠ "" → ∃ t ts, body.inner = t :: ts ∧ c.body = sourceText b.sql (t :: ts) ∧
        LocatedAt source (k + t.span.start) c.body c.bodyPosition)

/-- A block whose statement is located has all its positions in the file. -/
theorem Block.cutAt {b : Block} {k : Nat} (h : LocatedAt source k b.sql b.position)
    (hquery : b.query = (Query.parse b.sql b.position).toOption.getD .unread) :
    b.CutAt source k := by
  unfold Query.parse at hquery
  cases htokens : tokenizeAt b.sql b.position with
  | error e =>
      rw [htokens] at hquery
      have hunread : b.query = .unread := hquery
      refine ⟨h, fun t ht => h.token ht, ?_, ?_, ?_, ?_⟩ <;> rw [hunread] <;> exact nofun
  | ok tokens =>
      rw [htokens] at hquery
      have hquery : b.query = Query.ofTokens b.sql tokens := hquery
      have htokensOf := tokensOf_eq htokens
      have hplaces := firstPlaces_readParams (tokenizeAt_eq_ok_iff.mp htokens).positions_increase
      have hlocated (t : Token) (ht : t ∈ tokens) :=
        h.token (t := t) (by rw [htokensOf]; exact ht)
      have hcut (t : Token) (ht : t ∈ tokens) :=
        h.sourceText (t := t) (by rw [htokensOf]; exact ht)
      refine ⟨h, fun t ht => h.token ht, fun p hp => ?_, fun p hp => ?_, fun i hi => ?_,
        fun c hc => ?_⟩ <;> rw [htokensOf]
      · rw [hquery] at hp
        obtain ⟨before, t, after, hsplit, hwritten⟩ := mem_paramPlaces (hplaces.mem p hp)
        refine ⟨before, t, after, hsplit, hwritten, ?_⟩
        rw [hwritten.position]
        exact hlocated t (by rw [hsplit]; simp)
      · rw [hquery] at hp
        exact hplaces.first p hp
      · rw [hquery] at hi
        obtain ⟨t, ts, hpart, rfl⟩ := mem_items hi
        refine ⟨t, ts, hpart, rfl, ?_⟩
        rw [Item.position_ofTokens]
        exact hcut t (hpart.subset List.mem_cons_self) ts
      · rw [hquery] at hc
        obtain ⟨name, body, hwritten⟩ := mem_ctes hc
        refine ⟨name, body, hwritten, ?_, fun hbody => ?_⟩
        · rw [hwritten.position]
          exact hlocated name hwritten.name_mem
        · obtain ⟨t, ts, hinner, htext, hposition⟩ := hwritten.body_eq hbody
          refine ⟨t, ts, hinner, htext, ?_⟩
          rw [htext, hposition]
          exact hcut t (hwritten.inner_part.subset (by rw [hinner]; exact List.mem_cons_self)) ts

theorem trimEnd_prefix (cs : List Char) : trimEnd cs <+: cs := by
  have h := List.reverse_prefix.mpr (List.dropWhile_suffix isBlank (l := cs.reverse))
  rwa [List.reverse_reverse] at h

/-- A line of the file begins at a position of the file. -/
theorem isPosition_of_mem_ofText {l : Line} (h : l ∈ Line.ofText source) :
    IsPosition source ⟨l.number, 1⟩ := by
  obtain ⟨before, after, hsplit⟩ := List.append_of_mem h
  obtain ⟨htext, hposition⟩ := Line.position_of_ofText hsplit
  refine ⟨byteLength (Line.join before), ⟨_, _, htext, rfl⟩, ?_⟩
  rw [Position.advance_byteLength _ htext, hposition]

/-- The statement of a section is located where its first line begins. -/
theorem Section.locatedAt {s : Section} {first : Line} {rest : List Line}
    (h : s ∈ (splitSections (Line.ofText source)).2) (hlines : s.sqlLines = first :: rest) :
    ∃ k, LocatedAt source k s.sql ⟨first.number, 1⟩ := by
  obtain ⟨before, l, after, hsplit, -⟩ := mem_splitSections h
  have hbody : s.body = s.remarkLines ++ first :: rest := by
    rw [← hlines]
    exact List.takeWhile_append_dropWhile.symm
  rw [hbody, List.append_assoc, ← List.cons_append, ← List.append_assoc, List.cons_append]
    at hsplit
  obtain ⟨htext, hposition⟩ := Line.position_of_ofText hsplit
  refine ⟨byteLength (Line.join (before ++ l :: s.remarkLines)), ?_, ?_⟩
  · obtain ⟨blanks, hblanks⟩ := trimEnd_prefix (Line.join (first :: rest))
    refine ⟨_, blanks ++ Line.join after, ?_, rfl⟩
    have hjoin : Line.join (first :: (rest ++ after)) =
        Line.join (first :: rest) ++ Line.join after := by
      unfold Line.join
      rw [← List.cons_append, List.flatMap_append]
    rw [htext, hjoin, Section.sql, hlines, String.toList_ofList, ← List.append_assoc (trimEnd _),
      hblanks]
  · rw [Position.advance_byteLength _ htext, hposition]

/-- Every block of a file has all its positions in the file. -/
theorem Block.exists_cutAt {path : String} {b : Block}
    (h : b ∈ (File.parse path source).blocks) : ∃ k, b.CutAt source k := by
  obtain ⟨s, hs, hb⟩ := mem_readSections h
  obtain ⟨command, first, rest, hlines, rfl⟩ := block_of_readSection hb
  obtain ⟨k, hk⟩ := Section.locatedAt hs hlines
  exact ⟨k, Block.cutAt hk rfl⟩

/-- Every problem of a file stands at a position of the file. -/
theorem isPosition_of_mem_diagnostics {path : String} {d : Diagnostic}
    (h : d ∈ (File.parse path source).diagnostics) : IsPosition source d.position := by
  obtain ⟨rest, hlines⟩ := splitSections_prefix (Line.ofText source)
  rcases List.mem_append.mp h with h | h
  · obtain ⟨l, hl, rfl⟩ := Option.map_eq_some_iff.mp (Option.mem_toList.mp h)
    refine isPosition_of_mem_ofText (l := l) ?_
    rw [hlines]
    exact List.mem_append_left _ (List.mem_of_find?_eq_some hl)
  · obtain ⟨s, hs, hd⟩ := mem_problems_of_readSections h
    obtain ⟨before, l, after, hsplit, hnumber⟩ := mem_splitSections hs
    have hline (m : Line) (hm : m = l ∨ m ∈ s.body) : IsPosition source ⟨m.number, 1⟩ := by
      refine isPosition_of_mem_ofText ?_
      rw [hsplit]
      rcases hm with rfl | hm
      · simp
      · simp [hm]
    have hheader : IsPosition source ⟨s.number, 1⟩ := hnumber ▸ hline l (.inl rfl)
    rcases hd with hd | hd
    · rcases position_of_mem_readSection hd with hd | ⟨m, hm, hd⟩ | ⟨first, more, hsql, hd⟩
      · rw [hd]
        exact hheader
      · rw [hd]
        exact hline m (.inr ((List.takeWhile_prefix _).subset hm))
      · obtain ⟨k, hk⟩ := Section.locatedAt hs hsql
        unfold Section.readProblems at hd
        split at hd
        · cases hd
        · next e he =>
            cases List.mem_singleton.mp hd
            obtain ⟨read, unread, htext, hposition⟩ := readFrom_error he
            change IsPosition source e.position
            rw [hposition]
            exact hk.advance_isPosition htext
    · rw [hd]
      exact hheader

end Query

/-! ## Diagnostics -/

namespace Located

/-- The likeness of a run and itself that tells which positions are positions of the source. -/
def likeness (source : String) : Likeness where
  exact := True
  place p q := q = p ∧ IsPosition source p
  cut s p s' p' := s' = s ∧ p' = p ∧ ∃ k, LocatedAt source k s p

theorem tokenLike {t : Token} (h : IsPosition source t.position) :
    (likeness source).TokenLike t t :=
  ⟨rfl, .refl _, fun _ _ => rfl, rfl, h⟩

/-- What is cut out of a located text is located. -/
theorem lawful (source : String) : (likeness source).Lawful where
  place_iff := by
    rintro p p' q q' ⟨rfl, -⟩ ⟨rfl, -⟩
    exact Iff.rfl
  cut_exactly h _ := h.1.symm
  cut_tokens := by
    rintro s p s' p' ⟨rfl, rfl, k, hk⟩
    exact List.forall₂_same.mpr fun t ht => tokenLike (hk.token ht).isPosition
  cut_part := by
    rintro s p s' p' before before' after after' t t' ts ts' ⟨rfl, rfl, k, hk⟩ htokens htokens'
      hbefore hlength
    rw [htokens] at htokens'
    have hrest := (List.append_inj htokens' hbefore).2
    have hpart := (List.append_inj hrest (by simp [hlength])).1
    cases hpart
    exact ⟨rfl, rfl, _, hk.sourceText (by rw [htokens]; simp) ts⟩

theorem query {sql : String} {p : Position} {k : Nat} (h : LocatedAt source k sql p) :
    (likeness source).QueryLike ((Query.parse sql p).toOption.getD .unread)
      ((Query.parse sql p).toOption.getD .unread) := by
  have hcut : (likeness source).cut sql p sql p := ⟨rfl, rfl, k, h⟩
  unfold Query.parse
  cases htokens : tokenizeAt sql p with
  | error e => exact ⟨rfl, .nil, .nil, .nil, rfl⟩
  | ok tokens =>
      have hlike := Likeness.QueryLike.ofTokens (.whole (lawful source) hcut) (lawful source)
      rwa [tokensOf_eq htokens] at hlike

theorem hintsOf_like {lines : List Line} (subject : Subject)
    (h : ∀ l ∈ lines, IsPosition source ⟨l.number, 1⟩) :
    List.Forall₂ (likeness source).TypeHintLike
      (Remark.hintsOf subject (lines.map Remark.ofLine))
      (Remark.hintsOf subject (lines.map Remark.ofLine)) := by
  refine List.forall₂_same.mpr fun a ha => ⟨rfl, rfl, rfl, fun _ => ⟨rfl, ?_⟩⟩
  obtain ⟨r, hr, hra⟩ := List.mem_filterMap.mp ha
  obtain ⟨l, hl, rfl⟩ := List.mem_map.mp hr
  cases hremark : Remark.ofLine l with
  | hint s b =>
      rw [hremark] at hra
      have hab : b = a := (Option.ite_none_right_eq_some.mp hra).2 |> Option.some.inj
      have hposition : b.position = ⟨l.number, 1⟩ := by
        unfold Remark.ofLine at hremark
        split at hremark
        · split at hremark
          · cases hremark
            rfl
          · cases hremark
        · split at hremark <;> cases hremark
      rw [← hab, hposition]
      exact h l hl
  | invalidHint => rw [hremark] at hra; cases hra
  | doc text => rw [hremark] at hra; cases hra
  | nothing => rw [hremark] at hra; cases hra

theorem block {path : String} {b : Block} (h : b ∈ (File.parse path source).blocks) :
    (likeness source).BlockLike b b := by
  obtain ⟨s, hs, hb⟩ := mem_readSections h
  obtain ⟨command, first, rest, hlines, rfl⟩ := block_of_readSection hb
  obtain ⟨k, hk⟩ := Section.locatedAt hs hlines
  have hremarks : ∀ l ∈ s.remarkLines, IsPosition source ⟨l.number, 1⟩ := by
    obtain ⟨before, l, after, hsplit, -⟩ := mem_splitSections hs
    intro m hm
    refine isPosition_of_mem_ofText ?_
    have hbody : m ∈ s.body := (List.takeWhile_prefix _).subset hm
    rw [hsplit]
    simp [hbody]
  exact ⟨⟨rfl, rfl, k, hk⟩, query hk, hintsOf_like .param hremarks,
    hintsOf_like .column hremarks, fun _ => ⟨rfl, hk.isPosition⟩⟩

end Located

/-- What is noted of a block stands at positions of the file. -/
theorem Analyzer.isPosition_of_mem_diagnostics (a : Analyzer) {path : String} {b : Block}
    (hb : b ∈ (File.parse path source).blocks) {d : Diagnostic}
    (h : d ∈ (a.analyze b).diagnostics) : IsPosition source d.position := by
  have hlike := Located.block hb
  obtain ⟨-, -, k, hk⟩ := hlike.sql
  cases htokens : tokenizeAt b.sql b.position with
  | error e =>
      unfold Analyzer.analyze at h
      rw [htokens] at h
      obtain ⟨d', hd', rfl⟩ := Diagnostic.mem_distinct h
      cases List.mem_singleton.mp hd'
      obtain ⟨read, unread, htext, hposition⟩ := readFrom_error htokens
      rw [Diagnostic.position_stamp]
      change IsPosition source e.position
      rw [hposition]
      exact hk.advance_isPosition htext
  | ok tokens =>
      exact (hlike.place_of_mem_diagnostics (Located.lawful source) trivial htokens h).2

/-- Everything that a query file's blocks hold has the position of its first character in the
file, and everything that is found in the file stands at a position of the file. -/
theorem Project.positions_of_analyzeSource (p : Project) (path source : String) :
    (∀ b ∈ (File.parse path source).blocks, ∃ k, b.CutAt source k) ∧
      ∀ d ∈ (p.analyzeSource path source).foundDiagnostics, IsPosition source d.position := by
  refine ⟨fun b hb => Block.exists_cutAt hb, fun d hd => ?_⟩
  rcases List.mem_append.mp hd with hd | hd
  · exact isPosition_of_mem_diagnostics hd
  · obtain ⟨q, hq, hd⟩ := List.mem_flatMap.mp hd
    obtain ⟨b, hb, rfl⟩ := List.mem_map.mp hq
    exact p.analyzer.isPosition_of_mem_diagnostics hb hd

end TypedSql

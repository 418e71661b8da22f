import Mathlib.Data.List.TakeWhile
import TypedSql.Proofs.Token.Reads

/-!
# Nothing is lost between tokens

The tokens of a text and the gaps around them, one behind the other, are the text.  A token is the
piece of the text that its span says, and a gap is a run of white space, line comments and closed
block comments: whatever the reader skips is trivia, and it skips nothing else.

Main definitions: `IsTrivia`, `gapSpans`, `weave`, `Covers`.  Main statement:
`covers_of_tokenizeAt`.
-/

namespace TypedSql.Token

open Text

/-! ## Trivia -/

/-- The text begins with the end of a line, or is empty. -/
def LineEnds (cs : List Char) : Prop := cs = [] ∨ ['\n'] <+: cs ∨ ['\r', '\n'] <+: cs

/-- A run of white space, line comments and block comments in front of `rest`.  A line comment goes
to the end of its line, and a block comment to the first `*/`. -/
inductive IsTrivia (rest : List Char) : List Char → Prop
  | nil : IsTrivia rest []
  | space {c : Char} {cs : List Char} (hc : c = ' ' ∨ c = '\t' ∨ c = '\r' ∨ c = '\n')
      (h : IsTrivia rest cs) : IsTrivia rest (c :: cs)
  | lineComment {body cs : List Char} (hbody : '\n' ∉ body ∧ '\r' ∉ body)
      (hend : LineEnds (cs ++ rest)) (h : IsTrivia rest cs) :
      IsTrivia rest ('-' :: '-' :: (body ++ cs))
  | blockComment {body cs : List Char} (hbody : ¬ ['*', '/'] <:+: body ++ ['*'])
      (h : IsTrivia rest cs) : IsTrivia rest ('/' :: '*' :: (body ++ '*' :: '/' :: cs))

theorem IsTrivia.spaces {rest spaces cs : List Char} (hspaces : ∀ c ∈ spaces, isSpace c = true)
    (h : IsTrivia rest cs) : IsTrivia rest (spaces ++ cs) := by
  induction spaces with
  | nil => exact h
  | cons c spaces ih =>
      rw [List.forall_mem_cons] at hspaces
      have hc : c = ' ' ∨ c = '\t' ∨ c = '\r' ∨ c = '\n' := by
        simpa [isSpace, or_assoc] using hspaces.1
      exact .space hc (ih hspaces.2)

/-- The text of a line comment has no line end in it, and one behind it unless the text ends. -/
theorem lineBody?_eq_some {cs : List Char} {n : Nat} (h : lineBody? cs = some n) :
    ∃ body behind, cs = body ++ behind ∧ n = body.length ∧ ('\n' ∉ body ∧ '\r' ∉ body) ∧
      LineEnds behind := by
  have hsplit := (List.takeWhile_append_dropWhile (p := fun c => !isLineEnd c) (l := cs)).symm
  have hbody : ∀ c ∈ cs.takeWhile fun c => !isLineEnd c, isLineEnd c = false := by
    intro c hc
    simpa using List.mem_takeWhile_imp hc
  have hnone : '\n' ∉ cs.takeWhile (fun c => !isLineEnd c) ∧
      '\r' ∉ cs.takeWhile (fun c => !isLineEnd c) :=
    ⟨fun hmem => absurd (hbody _ hmem) (by decide), fun hmem => absurd (hbody _ hmem) (by decide)⟩
  refine ⟨_, _, hsplit, ?_, hnone, ?_⟩
  · unfold lineBody? at h
    split at h
    · exact (Option.some.inj h).symm
    · cases h
    · exact (Option.some.inj h).symm
  · unfold lineBody? at h
    cases hbehind : cs.dropWhile (fun c => !isLineEnd c) with
    | nil => exact .inl rfl
    | cons c behind =>
        -- What stops the comment is a line end, and no lone carriage return.
        have hc : isLineEnd c = true := by
          have := List.head?_dropWhile_not (fun c => !isLineEnd c) cs
          simpa [hbehind] using this
        have hc : c = '\r' ∨ c = '\n' := by simpa [isLineEnd] using hc
        rcases hc with rfl | rfl
        · rw [hbehind] at h
          cases behind with
          | nil => cases h
          | cons d behind =>
              by_cases hd : d = '\n'
              · subst hd
                exact .inr (.inr ⟨behind, rfl⟩)
              · simp [hd] at h
        · exact .inr (.inl ⟨behind, rfl⟩)

/-- The text of a block comment goes to the first closing sign. -/
theorem blockBody?_eq_some {cs : List Char} {n : Nat} (h : blockBody? cs = some n) :
    ∃ body behind, cs = body ++ '*' :: '/' :: behind ∧ n = body.length + 2 ∧
      ¬ ['*', '/'] <:+: body ++ ['*'] := by
  fun_induction blockBody? cs generalizing n with
  | case1 => cases h
  | case2 => cases h
  | case3 c d cs hclose =>
      cases h
      obtain ⟨rfl, rfl⟩ := hclose
      refine ⟨[], cs, rfl, rfl, fun hinfix => ?_⟩
      have hlength := hinfix.length_le
      simp at hlength
  | case4 c d cs hopen ih =>
      obtain ⟨m, hm, rfl⟩ := Option.map_eq_some_iff.mp h
      obtain ⟨body, behind, hcs, rfl, hbody⟩ := ih hm
      refine ⟨c :: body, behind, by rw [hcs]; rfl, rfl, fun hinfix => ?_⟩
      rcases List.infix_cons_iff.mp hinfix with hprefix | hinfix
      · -- A sign that closes here would stand at the beginning.
        cases body with
        | nil =>
            have hsecond := (List.cons_prefix_cons.mp hprefix).2
            exact absurd (List.cons_prefix_cons.mp hsecond).1 (by decide)
        | cons e body =>
            cases hcs
            obtain ⟨hfirst, hsecond⟩ := List.cons_prefix_cons.mp hprefix
            exact hopen ⟨hfirst.symm, (List.cons_prefix_cons.mp hsecond).1.symm⟩
      · exact hbody hinfix

/-- What the reader skips at once is trivia, in front of trivia. -/
theorem isTrivia_append {piece tail rest : List Char}
    (h : triviaPiece? (piece ++ (tail ++ rest)) = some piece.length) (htail : IsTrivia rest tail) :
    IsTrivia rest (piece ++ tail) := by
  unfold triviaPiece? at h
  split at h
  · have hlength : ((piece ++ (tail ++ rest)).takeWhile isSpace).length = piece.length :=
      Option.some.inj h
    have hpiece : (piece ++ (tail ++ rest)).takeWhile isSpace = piece := by
      have hprefix := List.takeWhile_prefix isSpace (l := piece ++ (tail ++ rest))
      rw [List.prefix_iff_eq_take.mp hprefix, hlength, List.take_left]
    refine .spaces (fun c hc => ?_) htail
    rw [← hpiece] at hc
    exact List.mem_takeWhile_imp hc
  · split at h
    · next text hcs =>
        obtain ⟨m, hm, hlength⟩ := Option.map_eq_some_iff.mp h
        obtain ⟨body, behind, rfl, rfl, hbody, hend⟩ := lineBody?_eq_some hm
        have hsplit : piece ++ (tail ++ rest) = ('-' :: '-' :: body) ++ behind := hcs
        obtain ⟨rfl, rfl⟩ := List.append_inj hsplit (by simpa using hlength.symm)
        exact .lineComment hbody hend htail
    · next text hcs =>
        obtain ⟨m, hm, hlength⟩ := Option.map_eq_some_iff.mp h
        obtain ⟨body, behind, rfl, rfl, hbody⟩ := blockBody?_eq_some hm
        have hsplit : piece ++ (tail ++ rest) = ('/' :: '*' :: (body ++ ['*', '/'])) ++ behind := by
          rw [hcs]
          simp
        obtain ⟨rfl, rfl⟩ := List.append_inj hsplit (by simpa using hlength.symm)
        have hcomment := IsTrivia.blockComment hbody htail
        simpa using hcomment
    · cases h

/-- All that the reader skips is trivia. -/
theorem isTrivia_of_triviaLength {gap rest : List Char}
    (h : triviaLength (gap ++ rest) = gap.length) : IsTrivia rest gap := by
  induction hn : gap.length using Nat.strongRecOn generalizing gap with
  | ind n ih =>
      subst hn
      rw [triviaLength] at h
      split at h
      · rw [List.length_eq_zero_iff.mp h.symm]
        exact .nil
      · next m hpiece =>
          have hpos := (triviaPiece?_bounds hpiece).1
          have hle : m ≤ gap.length := by omega
          have hdrop : (gap ++ rest).drop m = gap.drop m ++ rest :=
            List.drop_append_of_le_length hle
          have htail : IsTrivia rest (gap.drop m) := by
            refine ih (gap.drop m).length (by rw [List.length_drop]; omega) ?_ rfl
            rw [← hdrop, List.length_drop]
            omega
          have htake : (gap.take m).length = m := List.length_take_of_le hle
          rw [← List.take_append_drop m gap]
          refine isTrivia_append ?_ htail
          rw [← List.append_assoc, List.take_append_drop, htake]
          exact hpiece

/-! ## Tokens and gaps -/

/-- The spans before the first token, between neighbours, and behind the last one, from byte `o`
to byte `stop`. -/
def gapSpans (o stop : Nat) : List Token → List Span
  | [] => [⟨o, stop⟩]
  | t :: ts => ⟨o, t.span.start⟩ :: gapSpans t.span.stop stop ts

/-- The texts of the tokens with the gaps around them, from byte `o` of the text on. -/
def weave (sql : String) (o : Nat) : List Token → String
  | [] => slice sql o (byteLength sql.toList)
  | t :: ts => slice sql o t.span.start ++ (t.text ++ weave sql t.span.stop ts)

/-- The tokens with trivia between them are the text. -/
structure Covers (sql : String) (tokens : List Token) : Prop where
  /-- A token is not empty. -/
  nonempty : ∀ t ∈ tokens, t.span.start < t.span.stop
  inBounds : ∀ t ∈ tokens, t.span.stop ≤ byteLength sql.toList
  boundaries : ∀ t ∈ tokens, IsBoundary sql t.span.start ∧ IsBoundary sql t.span.stop
  text : ∀ t ∈ tokens, t.text = slice sql t.span.start t.span.stop
  /-- A token ends before the ones behind it begin. -/
  ordered : tokens.Pairwise fun t u => t.span.stop ≤ u.span.start
  trivia : ∀ g ∈ gapSpans 0 (byteLength sql.toList) tokens,
    IsTrivia (dropBytes g.stop sql.toList) (slice sql g.start g.stop).toList
  whole : weave sql 0 tokens = sql

namespace Reads

variable {good : List Char → Prop} {sql : String} {front cs : List Char} {o : Nat} {p : Position}
  {tokens : List Token}

theorem start_lt_stop (h : Reads good cs o p tokens) :
    ∀ t ∈ tokens, t.span.start < t.span.stop := by
  induction h with
  | done => nofun
  | @token cs gap piece more o p form tokens _ _ _ _ hform _ ih =>
      refine List.forall_mem_cons.mpr ⟨?_, ih⟩
      obtain ⟨c, rest, rfl⟩ := List.exists_cons_of_length_pos (firstForm?_bounds hform).1
      have hc := c.utf8Size_pos
      show o + byteLength gap < o + byteLength gap + (c.utf8Size + byteLength rest)
      omega

theorem ordered (h : Reads good cs o p tokens) :
    tokens.Pairwise fun t u => t.span.stop ≤ u.span.start := by
  induction h with
  | done => exact .nil
  | @token cs gap piece more o p form tokens _ _ _ _ _ hrest ih =>
      refine .cons (fun u hu => ?_) ih
      obtain ⟨before, after, -, hstart, -⟩ := hrest.mem hu
      show o + byteLength gap + byteLength piece ≤ u.span.start
      omega

/-- Every gap of a reading is trivia in front of what stands behind it. -/
theorem isTrivia_gaps (h : Reads good cs (byteLength front) p tokens)
    (hsql : sql.toList = front ++ cs) :
    ∀ g ∈ gapSpans (byteLength front) (byteLength sql.toList) tokens,
      IsTrivia (dropBytes g.stop sql.toList) (slice sql g.start g.stop).toList := by
  -- A gap stands behind what was read, and its text is what the reader skipped.
  have hgaps {front gap rest : List Char} (hsql : sql.toList = front ++ (gap ++ rest))
      (hgap : triviaLength (gap ++ rest) = gap.length) :
      IsTrivia (dropBytes (byteLength front + byteLength gap) sql.toList)
        (slice sql (byteLength front) (byteLength front + byteLength gap)).toList := by
    rw [slice_eq hsql, String.toList_ofList, hsql, ← byteLength_append, ← List.append_assoc,
      dropBytes_byteLength]
    exact isTrivia_of_triviaLength hgap
  generalize ho : byteLength front = o at h
  induction h generalizing front with
  | @done cs o p hgap =>
      subst ho
      intro g hg
      cases List.mem_singleton.mp hg
      have hwhole : sql.toList = front ++ (cs ++ []) := by rw [hsql, List.append_nil]
      have hlength : byteLength sql.toList = byteLength front + byteLength cs := by
        rw [hsql, byteLength_append]
      have hthis := hgaps hwhole (by
        rw [List.append_nil]
        exact Nat.le_antisymm (trivia_length_le cs) hgap)
      rw [← hlength] at hthis
      exact hthis
  | @token cs gap piece more o p form tokens hcs hgap _ _ _ _ ih =>
      subst ho
      rw [hcs] at hsql hgap
      have hread : sql.toList = (front ++ (gap ++ piece)) ++ more := by
        rw [hsql]
        simp only [List.append_assoc]
      refine List.forall_mem_cons.mpr ⟨hgaps hsql hgap, ih hread ?_⟩
      rw [byteLength_append, byteLength_append, Nat.add_assoc]

/-- The pieces of a reading, put together, are what was read. -/
theorem weave_eq (h : Reads good cs (byteLength front) p tokens) (hsql : sql.toList = front ++ cs) :
    weave sql (byteLength front) tokens = String.ofList cs := by
  generalize ho : byteLength front = o at h
  induction h generalizing front with
  | @done cs o p _ =>
      subst ho
      have hwhole : sql.toList = front ++ (cs ++ []) := by rw [hsql, List.append_nil]
      show slice sql _ _ = _
      rw [hsql, byteLength_append]
      exact slice_eq hwhole
  | @token cs gap piece more o p form tokens hcs _ _ _ _ _ ih =>
      subst ho
      rw [hcs] at hsql
      have hread : sql.toList = (front ++ (gap ++ piece)) ++ more := by
        rw [hsql]
        simp only [List.append_assoc]
      have hmore := ih hread (by rw [byteLength_append, byteLength_append, Nat.add_assoc])
      show slice sql _ _ ++ (String.ofList piece ++ weave sql _ tokens) = _
      rw [hmore, slice_eq hsql, hcs, String.ofList_append, String.ofList_append]

end Reads

/-- The tokens of a text are pieces of it, in order and apart, and what stands before, between and
behind them is white space and comments. -/
theorem covers_of_tokenizeAt {sql : String} {origin : Position} {tokens : List Token}
    (h : tokenizeAt sql origin = .ok tokens) : Covers sql tokens := by
  have hwhole : sql.toList = [] ++ sql.toList := rfl
  have hreads := tokenizeAt_eq_ok_iff.mp h
  have hfront : PlainReads sql.toList (byteLength []) origin tokens := hreads
  -- Where a token stands in the text.
  have hplace (t : Token) (ht : t ∈ tokens) : ∃ before after,
      sql.toList = before ++ (t.text.toList ++ after) ∧ t.span.start = byteLength before ∧
        t.span.stop = byteLength before + byteLength t.text.toList := by
    obtain ⟨before, after, hsql, hstart, hstop, -⟩ := hreads.mem ht
    exact ⟨before, after, hsql, by omega, by omega⟩
  refine ⟨hreads.start_lt_stop, fun t ht => ?_, fun t ht => ?_, fun t ht => ?_, hreads.ordered,
    hfront.isTrivia_gaps hwhole, ?_⟩
  · obtain ⟨before, after, hsql, -, hstop⟩ := hplace t ht
    rw [hstop, hsql, byteLength_append, byteLength_append]
    omega
  · obtain ⟨before, after, hsql, hstart, hstop⟩ := hplace t ht
    refine ⟨⟨before, t.text.toList ++ after, hsql, hstart.symm⟩,
      ⟨before ++ t.text.toList, after, ?_, ?_⟩⟩
    · rw [hsql, List.append_assoc]
    · rw [hstop, byteLength_append]
  · obtain ⟨before, after, hsql, hstart, hstop⟩ := hplace t ht
    rw [hstart, hstop, slice_eq hsql, String.ofList_toList]
  · exact (hfront.weave_eq hwhole).trans String.ofList_toList

/-- Comments of both kinds, and a lone carriage return that makes operators of the dashes before
it. -/
theorem covers_of_dashes :
    let sql := "é/***/ --x\n- --\r"
    let tokens : List Token :=
      [⟨.identifier, "é", ⟨0, 2⟩, ⟨1, 1⟩⟩, ⟨.operator, "-", ⟨12, 13⟩, ⟨2, 1⟩⟩,
        ⟨.operator, "-", ⟨14, 15⟩, ⟨2, 3⟩⟩, ⟨.operator, "-", ⟨15, 16⟩, ⟨2, 4⟩⟩]
    tokenizeAt sql .first = .ok tokens ∧ Covers sql tokens := by
  intro sql tokens
  have htokens : tokenizeAt sql .first = .ok tokens := by
    rw [tokenizeAt_ofList]
    decide +kernel
  exact ⟨htokens, covers_of_tokenizeAt htokens⟩

end TypedSql.Token

import TypedSql.Proofs.Query.FirstArm
import TypedSql.Proofs.Reference.Scan

/-!
# One table under one alias

A statement over one table is one segment.  It names one relation, its items end at its `FROM`, and
the scan for identifiers checks exactly the references in its items and its condition.

Main definition: `OneTable`.  Main statements: `OneTable.query`, `OneTable.references`,
`OneTable.split`, `OneTable.validate_notes`.
-/

namespace TypedSql

open Diagnostic Query Text Token

namespace Grammar

/-! ## Tokens outside all parentheses -/

/-- A token of an expression, a comma, or one of the words in `frame`. -/
def Framed (frame : List String) (t : Token) : Prop :=
  Allowed .arguments t ∨ ∃ word ∈ frame, t.IsKeyword word

section Framed

variable {frame words : List String} {t : Token} {xs : List Token}

theorem Framed.isAnyWord (h : Framed frame t) (hwords : ∀ w ∈ words, w ∈ steeringWords)
    (hframe : (frame.any fun f => words.any (eqIgnoreCase f)) = false) :
    t.isAnyWord words = false := by
  rcases h with (h | ⟨-, hcomma⟩) | ⟨word, hword, h⟩
  · exact isAnyWord_of_subset h.calm.2 hwords
  · exact isAnyWord_of_kind (by rw [hcomma]; decide) (by rw [hcomma]; decide) words
  · rw [h.isAnyWord]
    exact Bool.eq_false_iff.mpr (List.any_eq_false.mp hframe word hword)

theorem Framed.not_semicolon (h : Framed frame t) : t.kind ≠ .semicolon := by
  rcases h with (h | ⟨-, hcomma⟩) | ⟨word, -, h⟩
  · exact h.calm.1
  · rw [hcomma]; decide
  · rw [h.1]; decide

theorem Framed.mono {other : List String} (h : Framed frame t)
    (hframe : ∀ word ∈ frame, word ∈ other) : Framed other t :=
  h.imp_right fun ⟨word, hword, h⟩ => ⟨word, hframe word hword, h⟩

theorem outside_frame {word : String} (h : t.IsKeyword word) (hword : word ∈ frame) :
    Outside (Framed frame) [t] :=
  .token (.inr ⟨word, hword, h⟩) (by rw [h.1]; decide) (by rw [h.1]; decide)

theorem outside_quoted (h : t.kind = .quotedIdentifier) : Outside (Framed frame) [t] :=
  Outside.imp (p := Allowed .arguments) (outside_mark h (by decide)) fun _ => Or.inl

theorem Writes.framed {part : Part} {rs : List ColumnRef} (h : Writes part xs rs) :
    Outside (Framed frame) xs :=
  h.outside.imp fun _ ht => .inl (ht.imp_right fun hc => ⟨rfl, hc.2⟩)

theorem Items.framed {rs : List ColumnRef} (h : Items xs rs) : Outside (Framed ["AS"]) xs := by
  induction h with
  | single hx ha hn =>
      exact hx.framed.append ((outside_frame ha (by decide)).append (outside_quoted hn))
  | more hx ha hn hcomma _ ih =>
      have hmark : Outside (Framed ["AS"]) [_] :=
        .token (.inl (.inr ⟨rfl, hcomma.1⟩)) (by rw [hcomma.1]; decide) (by rw [hcomma.1]; decide)
      exact hx.framed.append ((outside_frame ha (by decide)).append
        ((outside_quoted hn).append (hmark.append ih)))

end Framed

/-! ## Items in the scan -/

theorem Items.first {xs : List Token} {rs : List ColumnRef} (h : Items xs rs) :
    ∃ t ts, xs = t :: ts ∧ t.isAnyWord ["DISTINCT", "ALL"] = false ∧ t.kind ≠ .dot := by
  have hfirst {xs ys : List Token} {rs : List ColumnRef} (hx : Writes .expression xs rs) :
      ∃ t ts, xs ++ ys = t :: ts ∧ t.isAnyWord ["DISTINCT", "ALL"] = false ∧ t.kind ≠ .dot := by
    obtain ⟨t, ts, rfl⟩ := List.exists_cons_of_ne_nil hx.ne_nil
    exact ⟨t, ts ++ ys, rfl, hx.first_isAnyWord (by decide) t rfl, hx.first_ne_dot t rfl⟩
  cases h with
  | single hx => exact hfirst hx
  | more hx => exact hfirst hx

/-- The last token of the items is an alias. -/
theorem Items.last {xs : List Token} {rs : List ColumnRef} (h : Items xs rs) :
    ∃ t, xs.getLast? = some t ∧ t.kind = .quotedIdentifier := by
  induction h with
  | @single a n xs rs _ _ hn => exact ⟨n, by simp [List.getLast?_append], hn⟩
  | more _ _ _ _ _ ih =>
      obtain ⟨t, hlast, ht⟩ := ih
      exact ⟨t, by simp [List.getLast?_append, List.getLast?_cons, hlast], ht⟩

theorem quiet_quoted {t : Token} (h : t.kind = .quotedIdentifier) : Quiet t :=
  quiet_of_kind (by rw [h]; decide) (by rw [h]; decide) (by rw [h]; decide) (by rw [h]; decide)

theorem isWord_quoted {t : Token} (h : t.kind = .quotedIdentifier) (word : String) :
    t.isWord word = false := by
  rw [isWord, h]
  rfl

variable {s : Scope} {before : Option Token}

/-- A quoted name behind `AS` is left out. -/
theorem rangesAt_alias {a t : Token} (ha : a.IsKeyword "AS") (ht : t.kind = .quotedIdentifier)
    (i d : Nat) (rest : List Place) :
    Identifier.rangesAt ⟨i, d, some a, t⟩ rest = [Identifier.single i] := by
  refine rangesAt_introduced ha (by rw [ht]; decide) ?_ ?_
  · rw [isWord_quoted ht, Bool.false_and]
  · rw [isWord_quoted ht, Bool.false_and]

theorem isSkipped_single (i : Nat) : Identifier.isSkipped [Identifier.single i] i = true := by
  simp [Identifier.isSkipped, Identifier.single]

theorem isSkipped_single_of_ne {i j : Nat} (h : j ≠ i) :
    Identifier.isSkipped [Identifier.single i] j = false := by
  rcases Nat.lt_or_gt_of_ne h with h | h
  · refine isSkipped_of_before fun r hr => ?_
    cases List.mem_singleton.mp hr
    exact h
  · refine isSkipped_of_behind fun r hr => ?_
    cases List.mem_singleton.mp hr
    exact h

/-- An alias behind `AS` is passed over. -/
theorem Passes.alias {i d : Nat} {a n : Token} (ha : a.IsKeyword "AS")
    (hn : n.kind = .quotedIdentifier) (hbefore : QuietBefore before) :
    Passes s i before d [a, n] [] := by
  have hpassed : Passed ⟨i, d, before, a⟩ := passed_of_keyword ha (by decide) hbefore
  refine ⟨[Identifier.single (i + 1)], ?_⟩
  have hplaces : placesAt i before d [a, n] =
      [⟨i, d, before, a⟩, ⟨i + 1, d, some a, n⟩] := by
    rw [placesAt_cons (by rw [ha.1]; decide) (by rw [ha.1]; decide),
      placesAt_cons (by rw [hn]; decide) (by rw [hn]; decide)]
    rfl
  rw [hplaces]
  refine ⟨fun rest => ?_, fun r hr => ?_, fun known skipped rest hskipped _ => ?_⟩
  · show Identifier.rangesAt _ _ ++ (Identifier.rangesAt _ _ ++ Identifier.rangesOf rest) = _
    rw [hpassed.marked, rangesAt_alias ha hn]
    rfl
  · cases List.mem_singleton.mp hr
    exact ⟨Nat.le_succ i, Nat.le_refl (i + 2)⟩
  · have hname : Identifier.isSkipped skipped (i + 1) = true := by
      rw [hskipped _ (Nat.le_succ i) (Nat.lt_succ_self (i + 1)), isSkipped_single]
    rw [List.cons_append, List.singleton_append,
      checkPlaces_cons (isCandidate_of_checked hpassed.checked _),
      checkPlaces_cons (isCandidate_of_isSkipped hname)]
    rfl

theorem keyword_ne_dot {t : Token} {word : String} (h : t.IsKeyword word) (ts : List Token) :
    ∀ u ∈ (t :: ts).head?, u.kind ≠ .dot := by
  rintro u ⟨⟩
  rw [h.1]
  decide

/-- Of the items exactly their references are checked. -/
theorem Items.passes {xs : List Token} {rs : List ColumnRef} (h : Items xs rs) (s : Scope)
    (i d : Nat) {before : Option Token} (hbefore : QuietBefore before) :
    Passes s i before d xs rs := by
  induction h generalizing i before with
  | @single a n xs rs hx ha hn =>
      have hpasses := (hx.passes s i d hbefore).append hx.balanced
        (.alias ha hn (hx.quietBefore before)) (keyword_ne_dot ha _)
      rwa [List.append_nil] at hpasses
  | @more a n comma xs ys rs us hx ha hn hcomma hy ih =>
      have hquiet : Quiet comma :=
        quiet_of_kind (by rw [hcomma.1]; decide) (by rw [hcomma.1]; decide)
          (by rw [hcomma.1]; decide) (by rw [hcomma.1]; decide)
      have hfirst : ∀ t ∈ ys.head?, t.kind ≠ .dot := by
        obtain ⟨t, ts, rfl, -, hdot⟩ := hy.first
        rintro u ⟨⟩
        exact hdot
      have hmark (j : Nat) : Passes s j (some n) d (comma :: ys) us :=
        .cons (by rw [hcomma.1]; decide) (by rw [hcomma.1]; decide)
          (passed_of_kind hcomma.1 (by decide) (.some (quiet_quoted hn)))
          (ih (j + 1) (.some hquiet)) hfirst
      have hpair : Balanced [a, n] := balanced_alias ha (.inr hn)
      have hpairs (j : Nat) : Passes s j (xs.getLast?.or before) d [a, n] [] :=
        .alias ha hn (hx.quietBefore before)
      have hbehind (j : Nat) : Passes s j (xs.getLast?.or before) d ([a, n] ++ comma :: ys) us :=
        (hpairs j).append hpair (hmark _) fun u hu => by
          cases hu
          rw [hcomma.1]
          decide
      exact (hx.passes s i d hbefore).append hx.balanced (hbehind _) (keyword_ne_dot ha _)

/-! ## Passing over places -/

theorem mem_placesFrom {i : Nat} {before : Option Token} {xs : List (Nat × Token)} {p : Place}
    (h : p ∈ placesFrom i before xs) : (p.depth, p.token) ∈ xs := by
  induction xs generalizing i before with
  | nil => cases h
  | cons x xs ih =>
      rw [placesFrom] at h
      rcases List.mem_cons.mp h with rfl | h
      · exact List.mem_cons_self
      · exact List.mem_cons_of_mem _ (ih h)

/-- No place outside all parentheses has one of the words. -/
theorem isTopWord_of_outside {words : List String} {xs : List Token}
    (h : Outside (fun t => t.isAnyWord words = false) xs) {i : Nat} {p : Place}
    (hp : p ∈ placesAt i before 0 xs) : p.isTopWord words = false := by
  rw [Place.isTopWord]
  by_cases hdepth : p.depth = 0
  · have hnone : p.token.isAnyWord words = false := h.of_depth (mem_placesFrom hp) hdepth
    rw [hnone, Bool.and_false]
  · rw [beq_eq_false_iff_ne.mpr hdepth, Bool.false_and]

theorem ofPlaces_append {ps : List Place}
    (h : ∀ p ∈ ps, p.isTopWord RelationRef.clauseWords = false) (rest : List Place) :
    RelationRef.ofPlaces (ps ++ rest) = RelationRef.ofPlaces rest := by
  induction ps with
  | nil => rfl
  | cons p ps ih =>
      have hclosed : RelationRef.opensClause p = false := by
        rw [RelationRef.opensClause, h p List.mem_cons_self, Bool.false_and]
      rw [List.cons_append, RelationRef.ofPlaces, hclosed,
        if_neg Bool.false_ne_true, ih fun q hq => h q (List.mem_cons_of_mem _ hq)]

theorem ofPlaces_eq_nil {ps : List Place}
    (h : ∀ p ∈ ps, p.isTopWord RelationRef.clauseWords = false) :
    RelationRef.ofPlaces ps = [] := by
  have hall := ofPlaces_append h []
  rwa [List.append_nil, RelationRef.ofPlaces] at hall

theorem armsFrom_eq {ps : List Place} (start stop : Nat)
    (h : ∀ p ∈ ps, p.isTopWord Segment.compoundWords = false) :
    Segment.armsFrom start stop ps = [⟨start, stop⟩] := by
  induction ps with
  | nil => rw [Segment.armsFrom]
  | cons p ps ih =>
      rw [Segment.armsFrom, h p List.mem_cons_self, if_neg Bool.false_ne_true,
        ih fun q hq => h q (List.mem_cons_of_mem _ hq)]

theorem map_token_drop (tokens : List Token) (n : Nat) :
    ((places tokens).drop n).map (·.token) = tokens.drop n := by
  rw [List.map_drop]
  exact congrArg (List.drop n) (map_token_placesAt 0 none 0 tokens)

/-- A main statement without compound operators outside all parentheses, into which no query is
inserted, is one segment. -/
theorem split_of_noQuery {tokens : List Token} {start : Nat}
    (hstart : statementStart tokens = start)
    (hquery : Segment.insertedQuery? (places tokens) start = none)
    (hcompound : ∀ p ∈ (places tokens).drop start, p.isTopWord Segment.compoundWords = false)
    (base : Scope) :
    Segment.split base tokens =
      [⟨[⟨start, tokens.length⟩], base.narrow (tokens.drop start), false⟩] := by
  have harms : Segment.arms (places tokens) ⟨start, tokens.length⟩ = [⟨start, tokens.length⟩] :=
    armsFrom_eq start _ fun p hp => hcompound p (List.mem_of_mem_take hp)
  have hwhole : Range.tokens ⟨start, tokens.length⟩ tokens = tokens.drop start := by
    rw [Range.tokens, ← List.length_drop, List.take_length]
  simp only [Segment.split, hstart, hquery, Segment.ofBody, harms, List.reverse_singleton, hwhole]

/-- A main statement without compound operators outside all parentheses is one segment. -/
theorem split_of_drop {tokens : List Token} {start : Nat} (hstart : statementStart tokens = start)
    (hfirst : ∀ t ∈ (tokens.drop start).head?, t.isAnyWord ["INSERT", "REPLACE"] = false)
    (hcompound : ∀ p ∈ (places tokens).drop start, p.isTopWord Segment.compoundWords = false)
    (base : Scope) :
    Segment.split base tokens =
      [⟨[⟨start, tokens.length⟩], base.narrow (tokens.drop start), false⟩] := by
  have hnext : nextIs (fun t => t.isAnyWord ["INSERT", "REPLACE"]) ((places tokens).drop start) =
      false := by
    rw [← map_token_drop, List.head?_map] at hfirst
    unfold nextIs
    cases hhead : ((places tokens).drop start).head? with
    | none => rfl
    | some p =>
        rw [hhead] at hfirst
        exact hfirst p.token rfl
  exact split_of_noQuery hstart (if_neg (Bool.eq_false_iff.mp hnext)) hcompound base

/-- A statement without compound operators outside all parentheses is one segment. -/
theorem split_of_outside {tokens : List Token} (hstart : statementStart tokens = 0)
    (hfirst : ∀ t ∈ tokens.head?, t.isAnyWord ["INSERT", "REPLACE"] = false)
    (hcompound : Outside (fun u => u.isAnyWord Segment.compoundWords = false) tokens)
    (base : Scope) :
    Segment.split base tokens = [⟨[⟨0, tokens.length⟩], base.narrow tokens, false⟩] :=
  split_of_drop hstart hfirst (fun _ hp => isTopWord_of_outside hcompound hp) base

/-! ## What is projected -/

/-- What stands between `SELECT` and `FROM` is projected. -/
theorem projectionTokens_from {select source : Token} {xs : List Token} (hne : xs ≠ [])
    (hfirst : ∀ t ∈ xs.head?, t.isAnyWord ["DISTINCT", "ALL"] = false)
    (hxs : Outside (fun t => t.kind ≠ .semicolon ∧ t.isAnyWord projectionTerminators = false) xs)
    (hsource : source.IsKeyword "FROM") (rest : List Token) :
    projectionTokens (select :: (xs ++ source :: rest)) = xs := by
  have hstart : ((select :: (xs ++ source :: rest)).drop 1).dropWhile
      (fun t => t.isAnyWord ["DISTINCT", "ALL"]) = xs ++ source :: rest := by
    obtain ⟨t, ts, rfl⟩ := List.exists_cons_of_ne_nil hne
    rw [List.drop_succ_cons, List.drop_zero, List.cons_append, List.dropWhile_cons_of_neg]
    rw [hfirst t rfl]
    exact Bool.false_ne_true
  have hpass : Outside (fun t =>
      (t.kind == .semicolon || t.isAnyWord projectionTerminators) = false) xs := by
    refine hxs.imp fun t ht => ?_
    rw [ht.2, Bool.or_false]
    exact beq_eq_false_iff_ne.mpr ht.1
  have hstop : findTopLevel? (source :: rest)
      (fun t => t.kind == .semicolon || t.isAnyWord projectionTerminators) = some 0 := by
    refine findTopLevel?_first (by rw [hsource.1]; decide) (by rw [hsource.1]; decide) ?_ _
    rw [hsource.isAnyWord, Bool.or_eq_true]
    right
    decide
  have hfound := hpass.findTopLevel?_append (source :: rest)
  rw [hstop, Option.map_some, Nat.zero_add] at hfound
  rw [projectionTokens, hstart, hfound]
  exact List.take_left

/-! ## The statement -/

/-- A statement `SELECT … FROM t AS a …`, whose items end in a name in quotes and what is behind
whose relation is a condition or nothing: `items` and `tail` are read as `itemRefs` and `tailRefs`,
whatever the scope is. -/
structure OneTable where
  select : Token
  items : List Token
  source : Token
  table : Token
  asWord : Token
  aliasName : Token
  tail : List Token
  /-- The references in the items. -/
  itemRefs : List ColumnRef
  /-- The references behind the relation. -/
  tailRefs : List ColumnRef
  hselect : select.IsKeyword "SELECT"
  hsource : source.IsKeyword "FROM"
  htable : table.kind = .quotedIdentifier
  hasWord : asWord.IsKeyword "AS"
  halias : aliasName.kind = .quotedIdentifier
  hfirst : ∃ t ts, items = t :: ts ∧ t.isAnyWord ["DISTINCT", "ALL"] = false ∧ t.kind ≠ .dot
  hlast : ∃ t, items.getLast? = some t ∧ t.kind = .quotedIdentifier
  hitems : Outside (Framed ["AS"]) items
  htail : Outside (Framed ["WHERE"]) tail
  hend : ∀ t ∈ tail.head?, t.kind ≠ .dot ∧ t.kind ≠ .comma
  hitemRefs : ∀ s, Passes s 1 (some select) 0 items itemRefs
  htailRefs : ∀ s i, Passes s i (some aliasName) 0 tail tailRefs

namespace OneTable

variable (q : OneTable)

/-- The tokens of the statement. -/
def tokens : List Token :=
  q.select :: (q.items ++ q.source :: q.table :: q.asWord :: q.aliasName :: q.tail)

/-- Its references from left to right. -/
def refs : List ColumnRef := q.itemRefs ++ q.tailRefs

/-- What stands before `FROM`. -/
def head : List Token := q.select :: q.items

theorem tokens_eq :
    q.tokens = q.head ++ (q.source :: q.table :: q.asWord :: q.aliasName :: q.tail) := rfl

theorem head_framed : Outside (Framed ["SELECT", "AS"]) q.head :=
  (outside_frame q.hselect (by decide)).append (q.hitems.imp fun _ h => h.mono (by decide))

theorem tokens_framed : Outside (Framed ["SELECT", "AS", "FROM", "WHERE"]) q.tokens := by
  have hmiddle : Outside (Framed ["SELECT", "AS", "FROM", "WHERE"])
      (q.source :: q.table :: q.asWord :: q.aliasName :: q.tail) :=
    (outside_frame q.hsource (by decide)).append ((outside_quoted q.htable).append
      ((outside_frame q.hasWord (by decide)).append ((outside_quoted q.halias).append
        (q.htail.imp fun _ h => h.mono (by decide)))))
  exact (q.head_framed.imp fun _ h => h.mono (by decide)).append hmiddle

theorem head_last : ∃ t, q.head.getLast? = some t ∧ t.kind = .quotedIdentifier := by
  obtain ⟨t, hlast, ht⟩ := q.hlast
  exact ⟨t, by rw [head, List.getLast?_cons, hlast]; rfl, ht⟩

/-- The places of the statement: those before `FROM`, those of the relation, and the others. -/
theorem places_eq : places q.tokens =
    placesAt 0 none 0 q.head ++
      ⟨q.head.length, 0, q.head.getLast?, q.source⟩ ::
      ⟨q.head.length + 1, 0, some q.source, q.table⟩ ::
      ⟨q.head.length + 2, 0, some q.table, q.asWord⟩ ::
      ⟨q.head.length + 3, 0, some q.asWord, q.aliasName⟩ ::
      placesAt (q.head.length + 4) (some q.aliasName) 0 q.tail := by
  show placesAt 0 none 0 q.tokens = _
  rw [tokens_eq, placesAt_append q.head_framed.balanced,
    placesAt_cons (by rw [q.hsource.1]; decide) (by rw [q.hsource.1]; decide),
    placesAt_cons (by rw [q.htable]; decide) (by rw [q.htable]; decide),
    placesAt_cons (by rw [q.hasWord.1]; decide) (by rw [q.hasWord.1]; decide),
    placesAt_cons (by rw [q.halias]; decide) (by rw [q.halias]; decide), Nat.zero_add,
    Option.or_none]

theorem select_isWord {word : String} (h : eqIgnoreCase "SELECT" word = false) :
    q.select.isWord word = false := by
  rw [q.hselect.isWord, h]

theorem statementStart_eq : statementStart q.tokens = 0 :=
  statementStart_select (by rw [q.hselect.isWord]; decide) _

/-- The statement is a `SELECT` with these items and without a `WITH` clause. -/
theorem query (sql : String) :
    Query.ofTokens sql q.tokens =
      ⟨.select, readProjection sql q.items, readParams q.tokens, [], false⟩ := by
  obtain ⟨first, rest, hitems, hquantifier, -⟩ := q.hfirst
  have hprojected : projectionTokens q.tokens = q.items := by
    refine projectionTokens_from (by rw [hitems]; exact List.cons_ne_nil _ _) ?_ ?_ q.hsource _
    · rw [hitems]
      rintro t ⟨⟩
      exact hquantifier
    · exact q.hitems.imp fun t ht => ⟨ht.not_semicolon, ht.isAnyWord (by decide) (by decide)⟩
  have hselect : q.select.isWord "SELECT" = true := by
    rw [q.hselect.isWord]
    decide
  rw [← hprojected]
  exact ofTokens_select hselect sql _

/-- What the statement names behind `FROM`. -/
def reference : RelationRef :=
  ⟨q.table.value, some q.aliasName.value, q.table.position, false,
    [q.head.length + 1, q.head.length + 3]⟩

theorem readParts_eq_nil {p : Place} {rest : List Place} (h : p.token.kind ≠ .dot) :
    RelationRef.readParts (p :: rest) = ([], p :: rest) := by
  unfold RelationRef.readParts
  split
  · next heq =>
      cases heq
      rw [if_neg]
      rw [decide_eq_false h]
      exact Bool.false_ne_true
  · rfl

theorem readAlias_eq {p r : Place} {rest : List Place} (hp : p.token.IsKeyword "AS")
    (hr : r.token.kind = .quotedIdentifier) :
    RelationRef.readAlias (p :: r :: rest) = (some r, rest) := by
  have hword : nextIsWord "AS" (p :: r :: rest) = true := by
    show p.token.isWord "AS" = true
    rw [hp.isWord]
    decide
  have hname : (r.token.isName && !r.token.isAnyWord RelationRef.notAlias) = true := by
    rw [isAnyWord_of_kind (by rw [hr]; decide) (by rw [hr]; decide), isName_of_quoted hr]
    rfl
  rw [RelationRef.readAlias, hword]
  show (if (r.token.isName && !r.token.isAnyWord RelationRef.notAlias) = true then (some r, rest)
    else _) = _
  rw [hname]
  rfl

/-- The one relation of the statement. -/
theorem read_reference (rest : List Place) :
    RelationRef.read? true (⟨q.head.length + 1, 0, some q.source, q.table⟩ ::
      ⟨q.head.length + 2, 0, some q.table, q.asWord⟩ ::
      ⟨q.head.length + 3, 0, some q.asWord, q.aliasName⟩ :: rest) =
      some (q.reference, rest) := by
  have hopen : q.table.kind ≠ .leftParen := by rw [q.htable]; decide
  have hname : q.table.isName = true := isName_of_quoted q.htable
  have hfunction : nextIsKind .leftParen (⟨q.head.length + 2, 0, some q.table, q.asWord⟩ ::
      ⟨q.head.length + 3, 0, some q.asWord, q.aliasName⟩ :: rest) = false := by
    show (q.asWord.kind == .leftParen) = false
    rw [q.hasWord.1]
    rfl
  have hparts : RelationRef.readParts (⟨q.head.length + 2, 0, some q.table, q.asWord⟩ ::
      ⟨q.head.length + 3, 0, some q.asWord, q.aliasName⟩ :: rest) = ([], _) :=
    readParts_eq_nil (by
      show q.asWord.kind ≠ .dot
      rw [q.hasWord.1]
      decide)
  have halias : RelationRef.readAlias (⟨q.head.length + 2, 0, some q.table, q.asWord⟩ ::
      ⟨q.head.length + 3, 0, some q.asWord, q.aliasName⟩ :: rest) =
        (some ⟨q.head.length + 3, 0, some q.asWord, q.aliasName⟩, rest) :=
    readAlias_eq q.hasWord q.halias
  simp only [RelationRef.read?, if_neg hopen, hname, if_true, hparts, hfunction, Bool.and_false,
    Bool.false_eq_true, if_false, Option.map_some, halias]
  rfl

theorem references : RelationRef.ofTokens q.tokens = [q.reference] := by
  have hhead (p : Place) (hp : p ∈ placesAt 0 none 0 q.head) :
      p.isTopWord RelationRef.clauseWords = false := by
    refine isTopWord_of_outside (q.head_framed.imp fun t ht => ?_) hp
    exact ht.isAnyWord (by decide) (by decide)
  have htail (p : Place)
      (hp : p ∈ placesAt (q.head.length + 4) (some q.aliasName) 0 q.tail) :
      p.isTopWord RelationRef.clauseWords = false := by
    refine isTopWord_of_outside (q.htail.imp fun t ht => ?_) hp
    exact ht.isAnyWord (by decide) (by decide)
  have hopens : RelationRef.opensClause ⟨q.head.length, 0, q.head.getLast?, q.source⟩ = true := by
    obtain ⟨t, hlast, ht⟩ := q.head_last
    have hword : q.source.isAnyWord RelationRef.clauseWords = true := by
      rw [q.hsource.isAnyWord]
      decide
    have hbefore : q.head.getLast?.any (·.isWord "DISTINCT") = false := by
      rw [hlast]
      exact isWord_quoted ht "DISTINCT"
    rw [RelationRef.opensClause, Place.isTopWord, hword, hbefore, Bool.and_false]
    rfl
  have hsource (word : String) : q.source.isWord word = eqIgnoreCase "FROM" word :=
    q.hsource.isWord word
  have hbody (rest : List Place) : RelationRef.clauseBody
      ⟨q.head.length, 0, q.head.getLast?, q.source⟩ rest = rest := by
    have hupdate : eqIgnoreCase "FROM" "UPDATE" = false := by decide
    rw [RelationRef.clauseBody, hsource, hupdate]
    rfl
  have hlist (rest : List Place) (hcomma : nextIsKind .comma rest = false) :
      RelationRef.readList (!q.source.isWord "INTO") (q.source.isWord "FROM")
        (⟨q.head.length + 1, 0, some q.source, q.table⟩ ::
          ⟨q.head.length + 2, 0, some q.table, q.asWord⟩ ::
          ⟨q.head.length + 3, 0, some q.asWord, q.aliasName⟩ :: rest) =
        ([q.reference], rest) := by
    have hinto : eqIgnoreCase "FROM" "INTO" = false := by decide
    rw [hsource, hsource, hinto]
    exact RelationRef.readList_of_last (q.read_reference rest) (by rw [hcomma, Bool.and_false])
  have hcomma : nextIsKind .comma
      (placesAt (q.head.length + 4) (some q.aliasName) 0 q.tail) = false := by
    have hnext : nextIsKind .comma
        (placesAt (q.head.length + 4) (some q.aliasName) 0 q.tail ++ []) = false :=
      nextIsKind_placesAt (fun t ht => (q.hend t ht).2) [] rfl
    rwa [List.append_nil] at hnext
  rw [RelationRef.ofTokens, q.places_eq, ofPlaces_append hhead, RelationRef.ofPlaces, hopens,
    if_pos rfl, hbody, hlist _ hcomma]
  show [q.reference] ++ RelationRef.ofPlaces _ = _
  rw [ofPlaces_eq_nil htail, List.append_nil]

/-- The statement is one segment. -/
theorem split (base : Scope) :
    Segment.split base q.tokens = [⟨[⟨0, q.tokens.length⟩], base.narrow q.tokens, false⟩] := by
  refine split_of_outside q.statementStart_eq ?_ ?_ base
  · rintro t ⟨⟩
    rw [q.hselect.isAnyWord]
    decide
  · exact q.tokens_framed.imp fun t ht => ht.isAnyWord (by decide) (by decide)

/-! ## The scan of the statement -/

theorem head_passes (s : Scope) : Passes s 0 none 0 q.head q.itemRefs := by
  have hfirst : ∀ t ∈ q.items.head?, t.kind ≠ .dot := by
    obtain ⟨t, ts, hlist, -, hdot⟩ := q.hfirst
    rw [hlist]
    rintro u ⟨⟩
    exact hdot
  exact .keyword q.hselect (by decide) nofun (q.hitemRefs s) hfirst

/-- Of the statement exactly its references are checked. -/
theorem validate_notes (s : Scope) (known : List String) :
    (Identifier.validate s known q.tokens).notes = q.refs.flatMap (ColumnRef.notes s) := by
  obtain ⟨headRanges, hhead⟩ := q.head_passes s
  obtain ⟨tailRanges, htail⟩ := q.htailRefs s (q.head.length + 4)
  obtain ⟨last, hlast, hquoted⟩ := q.head_last
  rw [Nat.zero_add] at hhead
  have hsource : Passed ⟨q.head.length, 0, q.head.getLast?, q.source⟩ := by
    rw [hlast]
    exact passed_of_keyword q.hsource (by decide) (.some (quiet_quoted hquoted))
  have hasWord : Passed ⟨q.head.length + 2, 0, some q.table, q.asWord⟩ :=
    passed_of_keyword q.hasWord (by decide) (.some (quiet_quoted q.htable))
  have htable (rest : List Place) :
      Identifier.rangesAt ⟨q.head.length + 1, 0, some q.source, q.table⟩ rest = [] := by
    have hquiet : Quiet q.source := quiet_of_keyword q.hsource (by decide)
    exact rangesAt_eq_nil (QuietBefore.some hquiet).introduced
      (isAnyWord_of_kind (by rw [q.htable]; decide) (by rw [q.htable]; decide) _)
      (by rw [q.htable]; decide) rest
  -- The name of the table is left out because it names a relation, its alias for that as well.
  have hskipped : Identifier.skippedRanges q.tokens =
      [Identifier.single (q.head.length + 1), Identifier.single (q.head.length + 3)] ++
        (headRanges ++ ([Identifier.single (q.head.length + 3)] ++ tailRanges)) := by
    have hmarked := htail.marked []
    rw [List.append_nil, Identifier.rangesOf, List.append_nil] at hmarked
    rw [Identifier.skippedRanges, q.references, q.places_eq, hhead.marked]
    simp only [Identifier.rangesOf, hsource.marked, htable, hasWord.marked,
      rangesAt_alias q.hasWord q.halias, hmarked]
    rfl
  have hnames {j : Nat} (hj : j ≠ q.head.length + 1) (hj' : j ≠ q.head.length + 3) :
      Identifier.isSkipped [Identifier.single (q.head.length + 1),
        Identifier.single (q.head.length + 3)] j = false := by
    rw [← List.singleton_append, isSkipped_append, isSkipped_single_of_ne hj,
      isSkipped_single_of_ne hj']
    rfl
  have hbefore : ∀ j, 0 ≤ j → j < q.head.length →
      Identifier.isSkipped (Identifier.skippedRanges q.tokens) j =
        Identifier.isSkipped headRanges j := by
    intro j _ hj
    have hother : Identifier.isSkipped tailRanges j = false :=
      isSkipped_of_before fun r hr => by
        have := htail.within r hr
        omega
    rw [hskipped, isSkipped_append, isSkipped_append, isSkipped_append,
      hnames (by omega) (by omega), isSkipped_single_of_ne (by omega), hother, Bool.false_or,
      Bool.or_false, Bool.or_false]
  have hbehind : ∀ j, q.head.length + 4 ≤ j → j < q.head.length + 4 + q.tail.length →
      Identifier.isSkipped (Identifier.skippedRanges q.tokens) j =
        Identifier.isSkipped tailRanges j := by
    intro j hj _
    have hother : Identifier.isSkipped headRanges j = false :=
      isSkipped_of_behind fun r hr => by
        have := hhead.within r hr
        omega
    rw [hskipped, isSkipped_append, isSkipped_append, isSkipped_append,
      hnames (by omega) (by omega), isSkipped_single_of_ne (by omega), hother, Bool.false_or,
      Bool.false_or, Bool.false_or]
  have hleft {j : Nat} (hj : j = q.head.length + 1 ∨ j = q.head.length + 3) :
      Identifier.isSkipped (Identifier.skippedRanges q.tokens) j = true := by
    rw [hskipped, isSkipped_append, Bool.or_eq_true]
    left
    rcases hj with rfl | rfl
    · simp [Identifier.isSkipped, Identifier.single]
    · simp [Identifier.isSkipped, Identifier.single]
  have hdot : nextIsKind .dot (⟨q.head.length, 0, q.head.getLast?, q.source⟩ ::
      ⟨q.head.length + 1, 0, some q.source, q.table⟩ ::
      ⟨q.head.length + 2, 0, some q.table, q.asWord⟩ ::
      ⟨q.head.length + 3, 0, some q.asWord, q.aliasName⟩ ::
      placesAt (q.head.length + 4) (some q.aliasName) 0 q.tail) = false := by
    show (q.source.kind == .dot) = false
    rw [q.hsource.1]
    rfl
  have hnotes := htail.notes known (Identifier.skippedRanges q.tokens) [] hbehind rfl
  rw [List.append_nil, Identifier.checkPlaces] at hnotes
  rw [Identifier.validate, q.statementStart_eq, List.drop_zero]
  show (Identifier.checkPlaces s known (Identifier.skippedRanges q.tokens) (places q.tokens)).notes
    = _
  rw [q.places_eq, hhead.notes known _ _ hbefore hdot,
    checkPlaces_cons (isCandidate_of_checked hsource.checked _),
    checkPlaces_cons (isCandidate_of_isSkipped (hleft (.inl rfl))),
    checkPlaces_cons (isCandidate_of_checked hasWord.checked _),
    checkPlaces_cons (isCandidate_of_isSkipped (hleft (.inr rfl))), hnotes, refs,
    List.flatMap_append]
  congr 1
  exact List.append_nil _

end OneTable

/-! ## Items and a condition -/

namespace Selection

variable (q : Selection)

/-- What stands behind the relation. -/
def tail : List Token := q.filter :: q.condition

theorem tail_passes (s : Scope) (i : Nat) :
    Passes s i (some q.aliasName) 0 q.tail q.conditionRefs := by
  have hfilter : Quiet q.filter := quiet_of_keyword q.hfilter (by decide)
  exact .keyword q.hfilter (by decide) (.some (quiet_quoted q.halias))
    (q.hcondition.passes s (i + 1) 0 (.some hfilter)) q.hcondition.first_ne_dot

/-- The statement of the grammar as a statement over one table. -/
def oneTable : OneTable where
  select := q.select
  items := q.items
  source := q.source
  table := q.table
  asWord := q.asWord
  aliasName := q.aliasName
  tail := q.tail
  itemRefs := q.itemRefs
  tailRefs := q.conditionRefs
  hselect := q.hselect
  hsource := q.hsource
  htable := q.htable
  hasWord := q.hasWord
  halias := q.halias
  hfirst := q.hitems.first
  hlast := q.hitems.last
  hitems := q.hitems.framed
  htail := (outside_frame q.hfilter (List.mem_singleton_self "WHERE")).append q.hcondition.framed
  hend := by
    rintro t ⟨⟩
    rw [q.hfilter.1]
    decide
  hitemRefs s := q.hitems.passes s 1 0 (.some (quiet_of_keyword q.hselect (by decide)))
  htailRefs s i := q.tail_passes s i

/-- The statement is a `SELECT` with these items and without a `WITH` clause. -/
theorem query (sql : String) :
    Query.ofTokens sql q.tokens =
      ⟨.select, readProjection sql q.items, readParams q.tokens, [], false⟩ :=
  q.oneTable.query sql

/-- What the statement names behind `FROM`. -/
def reference : RelationRef :=
  ⟨q.table.value, some q.aliasName.value, q.table.position, false,
    [q.oneTable.head.length + 1, q.oneTable.head.length + 3]⟩

theorem references : RelationRef.ofTokens q.tokens = [q.reference] := q.oneTable.references

/-- The statement is one segment. -/
theorem split (base : Scope) :
    Segment.split base q.tokens = [⟨[⟨0, q.tokens.length⟩], base.narrow q.tokens, false⟩] :=
  q.oneTable.split base

/-- Of the statement exactly the references in its items and its condition are checked. -/
theorem validate_notes (s : Scope) (known : List String) :
    (Identifier.validate s known q.tokens).notes = q.refs.flatMap (ColumnRef.notes s) :=
  q.oneTable.validate_notes s known

end Selection

end Grammar

end TypedSql

import TypedSql.Proofs.Likeness.Query
import TypedSql.Proofs.Reference.Lists
import TypedSql.Proofs.Token.CommaPieces
import TypedSql.Proofs.Token.Cut

/-!
# Clauses of common table expressions

A clause `WITH [RECURSIVE] d₁, …, dₙ` in front of a statement, where every definition is
`name [( columns )] AS [[NOT] MATERIALIZED] ( body )`.  However many definitions there are, and
whatever stands in their parentheses, as long as these are balanced, each is read as it is written
and none is lost.

Main definitions: `Grammar.Definition`, `Grammar.WithClause`, `Definition.ReadAs`.  Main statement:
`WithClause.ctes_as_written`.
-/

namespace TypedSql

open Query Text Token

/-- The text from the first to the last of some tokens stands in the text where the first one does,
and it ends where the last one does. -/
theorem Token.Reads.standsAt_sourceText {good : List Char → Prop} {sql : String} {p : Position}
    {before after ts : List Token} {first last : Token}
    (h : Reads good sql.toList 0 p (before ++ (first :: ts ++ after)))
    (hlast : (first :: ts).getLast? = some last) :
    StandsAt sql first.span.start (sourceText sql (first :: ts)) ∧
      first.span.start + byteLength (sourceText sql (first :: ts)).toList = last.span.stop := by
  obtain ⟨front, rest, hsql, hstart, -, hrest⟩ := h.drop
  rw [Nat.zero_add] at hstart hrest
  obtain ⟨gap, behind, rfl, -, hstop, -⟩ :=
    hrest.mem (List.mem_append_left after (List.mem_of_getLast? hlast))
  have hbody : sql.toList = front ++ ((gap ++ last.text.toList) ++ behind) := by
    rw [hsql, List.append_assoc]
  have hend : last.span.stop = byteLength front + byteLength (gap ++ last.text.toList) := by
    rw [hstop, byteLength_append, Nat.add_assoc]
  have htext : sourceText sql (first :: ts) = String.ofList (gap ++ last.text.toList) := by
    refine sourceText_eq hbody hstart ?_
    rw [← Option.some.inj (hlast.symm.trans (List.getLast?_eq_some_getLast (by simp))), hend]
  rw [htext, String.toList_ofList, hstart]
  exact ⟨⟨front, behind, by rw [String.toList_ofList, hbody], rfl⟩, hend.symm⟩

namespace Grammar

/-! ## The clause -/

/-- Balanced tokens in parentheses. -/
structure Parenthesized where
  openParen : Token
  inner : List Token
  closeParen : Token
  hopen : openParen.kind = .leftParen
  hinner : Balanced inner
  hclose : closeParen.kind = .rightParen

/-- `MATERIALIZED` or `NOT MATERIALIZED`. -/
structure Materialized where
  notWord : Option Token
  word : Token
  hnot : ∀ t ∈ notWord, t.isWord "NOT" = true
  hword : word.isWord "MATERIALIZED" = true

/-- A definition `name [( columns )] AS [[NOT] MATERIALIZED] ( body )`. -/
structure Definition where
  name : Token
  columns : Option Parenthesized
  asWord : Token
  materialized : Option Materialized
  body : Parenthesized
  hname : name.isName = true
  hasWord : asWord.isWord "AS" = true

def Parenthesized.tokens (g : Parenthesized) : List Token :=
  g.openParen :: (g.inner ++ [g.closeParen])

def Materialized.tokens (m : Materialized) : List Token := m.notWord.toList ++ [m.word]

namespace Definition

/-- What stands between the name and the body. -/
def head (d : Definition) : List Token :=
  (d.columns.map (·.tokens)).getD [] ++ d.asWord :: (d.materialized.map (·.tokens)).getD []

def tokens (d : Definition) : List Token := d.name :: (d.head ++ d.body.tokens)

end Definition

/-- The tokens are this definition. -/
def IsDefinition (ts : List Token) (d : Definition) : Prop := ts = d.tokens

/-- A clause with one or more definitions, and the statement behind it, which does not begin with a
comma.  Without the word `RECURSIVE` this is not the name of the first definition either. -/
structure WithClause where
  withWord : Token
  recursiveWord : Option Token
  inner : List Token
  definitions : List Definition
  main : List Token
  hwith : withWord.isWord "WITH" = true
  hrecursive : ∀ t ∈ recursiveWord, t.isWord "RECURSIVE" = true
  hdefinitions : Separated IsDefinition inner definitions
  hsome : definitions ≠ []
  hfirst : recursiveWord = none → ∀ d ∈ definitions.head?, d.name.isWord "RECURSIVE" = false
  hmain : ∀ t ∈ main.head?, t.kind ≠ .comma

/-- The tokens of the clause and of the statement behind it. -/
def WithClause.tokens (q : WithClause) : List Token :=
  q.withWord :: (q.recursiveWord.toList ++ (q.inner ++ q.main))

/-! ## One definition -/

theorem Parenthesized.group?_eq (g : Parenthesized) (rest : List Token) :
    group? (g.tokens ++ rest) = some ⟨g.inner, rest⟩ := by
  have hgroup := g.hinner.group? g.hopen g.hclose rest
  rwa [tokens, List.cons_append, List.append_assoc]

theorem Parenthesized.isAnyWord (g : Parenthesized) (words : List String) :
    g.openParen.isAnyWord words = false :=
  isAnyWord_of_kind (by rw [g.hopen]; decide) (by rw [g.hopen]; decide) words

namespace Definition

variable (d : Definition)

/-- The definition as it is read. -/
def cte (sql : String) : Cte :=
  .ofParts sql d.name (d.columns.map fun g => leadingValues g.inner) ⟨d.body.inner, []⟩
    d.body.tokens

/-- Behind `AS` the words that say whether the body is kept are passed over. -/
theorem toBody_eq (rest : List Token) :
    (skip "AS" (d.asWord :: ((d.materialized.map (·.tokens)).getD [] ++
      (d.body.tokens ++ rest)))).dropWhile (fun t => t.isAnyWord ["NOT", "MATERIALIZED"]) =
        d.body.tokens ++ rest := by
  have has : startsWith "AS" (d.asWord :: ((d.materialized.map (·.tokens)).getD [] ++
      (d.body.tokens ++ rest))) = true := d.hasWord
  have hbody : (d.body.tokens ++ rest).dropWhile (fun t => t.isAnyWord ["NOT", "MATERIALIZED"]) =
      d.body.tokens ++ rest :=
    List.dropWhile_cons_of_neg (by rw [d.body.isAnyWord]; exact Bool.false_ne_true)
  have hword {t : Token} {word : String} (h : t.isWord word = true)
      (hmem : word ∈ ["NOT", "MATERIALIZED"]) : t.isAnyWord ["NOT", "MATERIALIZED"] = true :=
    List.any_eq_true.mpr ⟨word, hmem, h⟩
  rw [skip, if_pos has, List.drop_succ_cons, List.drop_zero,
    List.dropWhile_append_of_pos, hbody]
  intro t ht
  cases hkept : d.materialized with
  | none =>
      rw [hkept] at ht
      cases ht
  | some m =>
      rw [hkept] at ht
      rcases List.mem_append.mp ht with ht | ht
      · exact hword (m.hnot t (Option.mem_toList.mp ht)) (by decide)
      · cases List.mem_singleton.mp ht
        exact hword m.hword (by decide)

theorem cteHead?_eq (rest : List Token) :
    cteHead? (d.head ++ (d.body.tokens ++ rest)) =
      some (d.columns.map fun g => leadingValues g.inner, d.body.tokens ++ rest) := by
  unfold cteHead? head
  cases d.columns with
  | none =>
      have hopen : startsWithKind .leftParen (d.asWord ::
          ((d.materialized.map (·.tokens)).getD [] ++ (d.body.tokens ++ rest))) = false := by
        show (d.asWord.kind == .leftParen) = false
        rcases kind_of_isAnyWord (isAnyWord_of_isWord d.hasWord) with h | h <;> rw [h] <;> rfl
      simp only [Option.map_none, Option.getD_none, List.nil_append, List.cons_append, hopen,
        Bool.false_eq_true, if_false, d.toBody_eq]
  | some g =>
      have hopen (ts : List Token) : startsWithKind .leftParen (g.tokens ++ ts) = true :=
        beq_iff_eq.mpr g.hopen
      simp only [Option.map_some, Option.getD_some, List.append_assoc, hopen, if_true,
        g.group?_eq, List.cons_append, d.toBody_eq]

/-- A definition is read as it is written, and behind a comma reading goes on. -/
theorem readCtes_eq (sql : String) (rest : List Token) :
    readCtes sql (d.tokens ++ rest) =
      d.cte sql :: if startsWithKind .comma rest then readCtes sql (rest.drop 1) else [] := by
  have hcte : Cte.ofParts sql d.name (d.columns.map fun g => leadingValues g.inner)
      ⟨d.body.inner, rest⟩ (d.body.tokens ++ rest) = d.cte sql := rfl
  rw [tokens, List.cons_append, List.append_assoc, Likeness.readCtes_cons, d.hname, d.cteHead?_eq,
    Option.bind_some, d.body.group?_eq, Option.map_some]
  simp only [Bool.not_true, Bool.false_eq_true, if_false, hcte]

end Definition

/-! ## The clause as it is read -/

/-- What a definition is read as: its name without quotes; the values of the first tokens of the
pieces of its column list, where it has one; and its body exactly as it stands in the text, with
the position of its first token, or of the place behind the parenthesis where there is none. -/
structure Definition.ReadAs (d : Definition) (sql : String) (c : Cte) : Prop where
  name : c.name = d.name.value
  position : c.position = d.name.position
  noColumns : d.columns = none → c.columns = none
  columns : ∀ g ∈ d.columns, ∃ pieces, Pieced g.inner pieces ∧
    c.columns = some (pieces.filterMap fun piece => piece.head?.map value)
  emptyBody : d.body.inner = [] →
    c.body = "" ∧ c.bodyPosition = d.body.openParen.position.step '('
  body : ∀ first ∈ d.body.inner.head?, ∀ last ∈ d.body.inner.getLast?,
    StandsAt sql first.span.start c.body ∧
      first.span.start + byteLength c.body.toList = last.span.stop ∧
      c.bodyPosition = first.position

theorem Definition.readAs_cte {sql : String} {p : Position} {before after : List Token}
    (d : Definition) (h : PlainReads sql.toList 0 p (before ++ (d.body.inner ++ after))) :
    d.ReadAs sql (d.cte sql) where
  name := rfl
  position := rfl
  noColumns hnone := by
    rw [cte, Cte.ofParts, hnone]
    rfl
  columns g hg := by
    obtain ⟨pieces, hpieces⟩ := g.hinner.exists_pieced
    refine ⟨pieces, hpieces, ?_⟩
    rw [cte, Cte.ofParts, Option.mem_def.mp hg, ← hpieces.leadingValues_eq]
    rfl
  emptyBody hempty := by
    rw [cte, Cte.ofParts, hempty]
    exact ⟨rfl, rfl⟩
  body first hfirst last hlast := by
    obtain ⟨ts, hinner⟩ := List.head?_eq_some_iff.mp hfirst
    have hposition : (d.cte sql).bodyPosition = first.position := by
      rw [cte, Cte.ofParts, hinner]
      rfl
    rw [hinner] at h hlast
    have htext : (d.cte sql).body = sourceText sql (first :: ts) := by
      rw [← hinner]
      rfl
    rw [htext]
    exact ⟨(h.standsAt_sourceText hlast).1, (h.standsAt_sourceText hlast).2, hposition⟩

/-- Definitions with commas between them are read one after the other, up to what is no comma. -/
theorem readCtes_definitions (sql : String) {ts main : List Token} {ds : List Definition}
    (h : Separated IsDefinition ts ds) (hne : ds ≠ [])
    (hmain : ∀ t ∈ main.head?, t.kind ≠ .comma) :
    readCtes sql (ts ++ main) = ds.map fun d => d.cte sql := by
  -- Only behind the last definition is there something that is no comma.
  induction h with
  | nil => exact absurd rfl hne
  | @single ts d hd =>
      have hend : startsWithKind .comma main = false := by
        rw [startsWithKind, Option.any_eq_false]
        exact fun t ht => beq_eq_false_iff_ne.mpr (hmain t ht)
      rw [show ts = d.tokens from hd, d.readCtes_eq, hend]
      rfl
  | @more xs ys d e es comma hd hcomma _ ih =>
      have hnext : startsWithKind .comma (comma :: (ys ++ main)) = true :=
        beq_iff_eq.mpr hcomma.1
      rw [show xs = d.tokens from hd, List.append_assoc, List.cons_append, d.readCtes_eq, hnext,
        if_pos rfl, List.drop_succ_cons, List.drop_zero, ih (List.cons_ne_nil e es)]
      rfl

/-- Every definition with commas around it stands somewhere in the tokens. -/
theorem exists_body_of_mem {ts : List Token} {ds : List Definition}
    (h : Separated IsDefinition ts ds) {d : Definition} (hd : d ∈ ds) :
    ∃ before after, ts = before ++ (d.body.inner ++ after) := by
  obtain ⟨j, hj⟩ := List.mem_iff_getElem?.mp hd
  obtain ⟨xs, earlier, later, hitem⟩ := h.split hj
  have hxs : xs = d.tokens := hitem.item
  refine ⟨earlier ++ d.name :: (d.head ++ [d.body.openParen]), d.body.closeParen :: later, ?_⟩
  rw [hitem.tokens_eq, hxs, Definition.tokens, Parenthesized.tokens]
  simp

namespace WithClause

variable (q : WithClause)

/-- The clause begins with the name of its first definition, or with `RECURSIVE` in front of it. -/
theorem exists_first : ∃ d more, d ∈ q.definitions.head? ∧ q.inner = d.name :: more := by
  have hdefinitions := q.hdefinitions
  have hsome := q.hsome
  generalize q.inner = ts, q.definitions = ds at hdefinitions hsome
  cases hdefinitions with
  | nil => exact absurd rfl hsome
  | @single ts d hd => exact ⟨d, _, rfl, hd⟩
  | @more xs ys d e es comma hd hcomma _ =>
      refine ⟨d, d.head ++ d.body.tokens ++ comma :: ys, rfl, ?_⟩
      rw [show xs = d.tokens from hd]
      rfl

theorem startsWith_recursive :
    startsWith "RECURSIVE" (q.recursiveWord.toList ++ (q.inner ++ q.main)) =
        q.recursiveWord.isSome ∧
      skip "RECURSIVE" (q.recursiveWord.toList ++ (q.inner ++ q.main)) = q.inner ++ q.main := by
  cases hrecursive : q.recursiveWord with
  | none =>
      obtain ⟨d, more, hd, hinner⟩ := q.exists_first
      have hno : startsWith "RECURSIVE" (d.name :: (more ++ q.main)) = false :=
        q.hfirst hrecursive d hd
      rw [Option.toList_none, List.nil_append, hinner, List.cons_append, skip, hno,
        if_neg Bool.false_ne_true]
      exact ⟨rfl, rfl⟩
  | some t =>
      have hyes : startsWith "RECURSIVE" (t :: (q.inner ++ q.main)) = true :=
        q.hrecursive t hrecursive
      rw [Option.toList_some, List.singleton_append, skip, hyes, if_pos rfl]
      exact ⟨rfl, rfl⟩

/-- The definitions of the clause and whether it is recursive. -/
theorem readWithClause_eq (sql : String) :
    readWithClause sql q.tokens =
      (q.definitions.map fun d => d.cte sql, q.recursiveWord.isSome) := by
  have hwith : startsWith "WITH" q.tokens = true := q.hwith
  obtain ⟨hstarts, hskip⟩ := q.startsWith_recursive
  have hdrop : q.tokens.drop 1 = q.recursiveWord.toList ++ (q.inner ++ q.main) := rfl
  rw [readWithClause, if_pos hwith]
  simp only [hdrop, hstarts, hskip]
  rw [readCtes_definitions sql q.hdefinitions q.hsome q.hmain]

/-- A text that is read as a clause of definitions and a statement behind it gives a query that is
recursive where the clause says so, and has the definitions of the clause, all of them, in their
order and each as it is written. -/
theorem ctes_as_written {sql : String} {origin : Position}
    (h : tokenizeAt sql origin = .ok q.tokens) :
    ∃ query, Query.parse sql origin = .ok query ∧ query = Query.ofTokens sql q.tokens ∧
      query.recursive = q.recursiveWord.isSome ∧
      List.Forall₂ (fun d c => d.ReadAs sql c) q.definitions query.ctes := by
  have hclause := q.readWithClause_eq sql
  have hparse : Query.parse sql origin = .ok (Query.ofTokens sql q.tokens) := by
    rw [Query.parse, h]
    rfl
  refine ⟨_, hparse, rfl, congrArg Prod.snd hclause, ?_⟩
  have hctes : (Query.ofTokens sql q.tokens).ctes = q.definitions.map fun d => d.cte sql :=
    congrArg Prod.fst hclause
  rw [hctes, List.forall₂_map_right_iff, List.forall₂_same]
  intro d hd
  obtain ⟨before, after, hinner⟩ := exists_body_of_mem q.hdefinitions hd
  have hreads : PlainReads sql.toList 0 origin
      (q.withWord :: (q.recursiveWord.toList ++ before) ++
        (d.body.inner ++ (after ++ q.main))) := by
    have htokens := tokenizeAt_eq_ok_iff.mp h
    rw [tokens, hinner] at htokens
    simpa using htokens
  exact d.readAs_cte hreads

end WithClause

/-- A definition with columns: one with a group behind its name, and a comma with none behind it. -/
def Definition.counted : Definition where
  name := .inLine .identifier "c" 16
  columns := some
    { openParen := .inLine .leftParen "(" 17
      inner := [.inLine .identifier "x" 18, .inLine .comma "," 19, .inLine .identifier "f" 20,
        .inLine .leftParen "(" 21, .inLine .integer "1" 22, .inLine .comma "," 23,
        .inLine .integer "2" 24, .inLine .rightParen ")" 25, .inLine .comma "," 26]
      closeParen := .inLine .rightParen ")" 27
      hopen := rfl
      hinner := by
        have harguments : Outside (fun _ => True) ([.inLine .integer "1" 22, .inLine .comma "," 23,
            .inLine .integer "2" 24] : List Token) := .of_forall (by decide)
        have hcomma : Outside (fun _ => True) ([.inLine .comma "," 26] : List Token) :=
          .of_forall (by decide)
        have hfront : Outside (fun _ => True) ([.inLine .identifier "x" 18, .inLine .comma "," 19,
            .inLine .identifier "f" 20] : List Token) := .of_forall (by decide)
        exact hfront.balanced.append
          ((Balanced.group rfl rfl harguments.balanced).append hcomma.balanced)
      hclose := rfl }
  asWord := .inLine .keyword "AS" 29
  materialized := some
    { notWord := some (.inLine .keyword "NOT" 32)
      word := .inLine .keyword "MATERIALIZED" 36
      hnot := by decide
      hword := by decide }
  body :=
    { openParen := .inLine .leftParen "(" 48
      inner := [.inLine .keyword "SELECT" 49, .inLine .integer "1" 56]
      closeParen := .inLine .rightParen ")" 57
      hopen := rfl
      hinner := by
        have hbody : Outside (fun _ => True) ([.inLine .keyword "SELECT" 49,
            .inLine .integer "1" 56] : List Token) := .of_forall (by decide)
        exact hbody.balanced
      hclose := rfl }
  hname := by decide
  hasWord := by decide

/-- A definition whose name has a quote in it, with nothing in its body. -/
def Definition.hollow : Definition where
  name := .inLine .quotedIdentifier "\"a\"\"b\"" 59
  columns := none
  asWord := .inLine .keyword "AS" 66
  materialized := none
  body := ⟨.inLine .leftParen "(" 68, [], .inLine .rightParen ")" 69, rfl, .nil, rfl⟩
  hname := by decide
  hasWord := by decide

/-- A clause with these two definitions. -/
def WithClause.ofTwo : WithClause where
  withWord := .inLine .keyword "WITH" 1
  recursiveWord := some (.inLine .keyword "RECURSIVE" 6)
  inner := Definition.counted.tokens ++ .inLine .comma "," 58 :: Definition.hollow.tokens
  definitions := [.counted, .hollow]
  main := [.inLine .keyword "TABLE" 71, .inLine .identifier "x" 77]
  hwith := by decide
  hrecursive := by decide
  hdefinitions := .more rfl ⟨rfl, rfl⟩ (.single rfl)
  hsome := List.cons_ne_nil _ _
  hfirst := nofun
  hmain := by decide

/-- Both definitions are read, with their columns and their bodies. -/
theorem WithClause.ctes_of_ofTwo :
    let sql := "WITH RECURSIVE c(x,f(1,2),) AS NOT MATERIALIZED(SELECT 1),\"a\"\"b\" AS() TABLE x"
    ∃ query, Query.parse sql .first = .ok query ∧ query.recursive = true ∧
      List.Forall₂ (fun d c => d.ReadAs sql c) [Definition.counted, .hollow] query.ctes ∧
      query.ctes.map (fun c => (c.name, c.columns, c.body)) =
        [("c", some ["x", "f"], "SELECT 1"), ("a\"b", none, "")] := by
  intro sql
  have htokens : tokenizeAt sql .first = .ok ofTwo.tokens := by
    rw [tokenizeAt_ofList]
    decide +kernel
  obtain ⟨query, hparse, rfl, hrecursive, hctes⟩ := ofTwo.ctes_as_written htokens
  exact ⟨_, hparse, hrecursive, hctes, by decide +kernel⟩

end Grammar

end TypedSql

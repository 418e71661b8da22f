import TypedSql.Proofs.Likeness.Query
import TypedSql.Proofs.Reference.Joins

/-!
# A star over one common table expression

A statement `WITH "x" AS (…) SELECT * FROM "x"` defines one relation, whose body is what stands in
the parentheses, and its main statement is a star over that relation.  With `RECURSIVE` behind
`WITH` it is read in the same way, but for the mark that its definition can refer to itself.

Main definitions: `Grammar.CommonTable`, `Grammar.StarOver`.  Main statements: `StarOver.query`,
`StarOver.split`.
-/

namespace TypedSql

open Diagnostic Query Text Token

namespace Grammar

/-- A statement `WITH "x" AS (…) SELECT * FROM "x"`. -/
structure CommonTable where
  withWord : Token
  name : Token
  asWord : Token
  openParen : Token
  body : List Token
  closeParen : Token
  select : Token
  star : Token
  source : Token
  relation : Token
  hwith : withWord.IsKeyword "WITH"
  hname : name.kind = .quotedIdentifier
  hasWord : asWord.IsKeyword "AS"
  hopen : openParen.kind = .leftParen
  hbody : Balanced body
  hclose : closeParen.kind = .rightParen
  hselect : select.IsKeyword "SELECT"
  hstar : star.kind = .star
  hsource : source.IsKeyword "FROM"
  hrelation : relation.kind = .quotedIdentifier
  hsame : eqIgnoreCase name.value relation.value = true

namespace CommonTable

variable (q : CommonTable)

/-- The main statement. -/
def main : Joins where
  select := q.select
  star := q.star
  source := q.source
  first := ⟨q.relation, none, .inr (.inl q.hrelation)⟩
  rest := []
  hselect := q.hselect
  hstar := q.hstar
  hsource := q.hsource

/-- The name of the relation and its body in parentheses. -/
def definition : List Token := q.name :: q.asWord :: q.openParen :: (q.body ++ [q.closeParen])

/-- The tokens of the statement. -/
def tokens : List Token := q.withWord :: (q.definition ++ q.main.tokens)

/-- The tokens from the parenthesis before the body on. -/
def fromBody : List Token := q.openParen :: (q.body ++ q.closeParen :: q.main.tokens)

/-- The definition of the relation. -/
def cte (sql : String) : Cte := .ofParts sql q.name none ⟨q.body, q.main.tokens⟩ q.fromBody

theorem tokens_eq : q.tokens = q.withWord :: q.name :: q.asWord :: q.fromBody := by
  rw [tokens, definition, fromBody]
  simp

theorem name_isWord (word : String) : q.name.isWord word = false := isWord_quoted q.hname word

theorem openParen_isAnyWord (words : List String) : q.openParen.isAnyWord words = false :=
  isAnyWord_of_kind (by rw [q.hopen]; decide) (by rw [q.hopen]; decide) words

theorem withWord_isWord : q.withWord.isWord "WITH" = true := by
  rw [q.hwith.isWord]
  decide

/-- The first verb outside all parentheses is that of the main statement. -/
theorem findVerb_eq : (findTopLevel? (q.definition ++ q.main.tokens) fun t =>
    t.isAnyWord statementVerbs) = some q.definition.length := by
  have hclose : q.closeParen.isAnyWord statementVerbs = false :=
    isAnyWord_of_kind (by rw [q.hclose]; decide) (by rw [q.hclose]; decide) _
  have hname : q.name.isAnyWord statementVerbs = false :=
    isAnyWord_of_kind (by rw [q.hname]; decide) (by rw [q.hname]; decide) _
  have hasWord : q.asWord.isAnyWord statementVerbs = false := by
    rw [q.hasWord.isAnyWord]
    decide
  have hdefinition : Outside (fun t => t.isAnyWord statementVerbs = false) q.definition :=
    .cons hname (by rw [q.hname]; decide) (by rw [q.hname]; decide)
      (.cons hasWord (by rw [q.hasWord.1]; decide) (by rw [q.hasWord.1]; decide)
        (.group q.hopen q.hclose (q.openParen_isAnyWord _) hclose q.hbody))
  have hmain : findTopLevel? q.main.tokens (fun t => t.isAnyWord statementVerbs) = some 0 := by
    refine findTopLevel?_first (by rw [q.main.hselect.1]; decide)
      (by rw [q.main.hselect.1]; decide) ?_ _
    rw [q.main.hselect.isAnyWord]
    decide
  rw [hdefinition.findTopLevel?_append q.main.tokens, hmain, Option.map_some, Nat.zero_add]

theorem cteHead?_eq : cteHead? (q.asWord :: q.fromBody) = some (none, q.fromBody) := by
  have hopen : startsWithKind .leftParen (q.asWord :: q.fromBody) = false := by
    show (q.asWord.kind == .leftParen) = false
    rw [q.hasWord.1]
    rfl
  have hskip : skip "AS" (q.asWord :: q.fromBody) = q.fromBody := by
    have has : startsWith "AS" (q.asWord :: q.fromBody) = true := by
      show q.asWord.isWord "AS" = true
      rw [q.hasWord.isWord]
      decide
    rw [skip, has]
    rfl
  unfold cteHead?
  rw [hopen]
  show some (none, (skip "AS" (q.asWord :: q.fromBody)).dropWhile _) = _
  rw [hskip, fromBody, List.dropWhile_cons_of_neg]
  rw [q.openParen_isAnyWord]
  exact Bool.false_ne_true

/-- The body is the group that its parentheses make. -/
theorem group?_eq : group? q.fromBody = some ⟨q.body, q.main.tokens⟩ :=
  q.hbody.group? q.hopen q.hclose q.main.tokens

/-- Before the main statement stands one definition. -/
theorem readCtes_eq (sql : String) :
    readCtes sql (q.definition ++ q.main.tokens) = [q.cte sql] := by
  have hdefinition : q.definition ++ q.main.tokens = q.name :: q.asWord :: q.fromBody := by
    rw [definition, fromBody]
    simp
  have hname : q.name.isName = true := isName_of_quoted q.hname
  have hcomma : startsWithKind .comma q.main.tokens = false := by
    show (q.main.select.kind == .comma) = false
    rw [q.main.hselect.1]
    rfl
  rw [hdefinition, Likeness.readCtes_cons, hname, q.cteHead?_eq, Option.bind_some, q.group?_eq]
  show q.cte sql :: (if startsWithKind .comma q.main.tokens then _ else []) = _
  rw [hcomma]
  rfl

end CommonTable

/-! ## The statement, recursive or not -/

/-- A statement `WITH "x" AS (…) SELECT * FROM "x"`, perhaps with `RECURSIVE` behind `WITH`. -/
structure StarOver where
  table : CommonTable
  recursiveWord : Option Token
  hrecursive : ∀ t ∈ recursiveWord, t.IsKeyword "RECURSIVE"

namespace StarOver

variable (q : StarOver)

/-- What stands between `WITH` and the main statement. -/
def definition : List Token := q.recursiveWord.toList ++ q.table.definition

/-- The tokens of the statement. -/
def tokens : List Token := q.table.withWord :: (q.definition ++ q.table.main.tokens)

/-- The definition can refer to itself. -/
def isRecursive : Bool := q.recursiveWord.isSome

theorem statementStart_eq : statementStart q.tokens = q.definition.length + 1 := by
  have hword : Outside (fun t => t.isAnyWord statementVerbs = false) q.recursiveWord.toList := by
    refine .of_forall fun t ht => ?_
    have ht := q.hrecursive t (Option.mem_toList.mp ht)
    refine ⟨?_, by rw [ht.1]; decide, by rw [ht.1]; decide⟩
    rw [ht.isAnyWord]
    decide
  rw [tokens, definition, List.append_assoc, statementStart, q.table.withWord_isWord, if_pos rfl,
    hword.findTopLevel?_append, q.table.findVerb_eq, List.length_append, Option.map_some,
    Nat.add_comm q.table.definition.length]

theorem drop_tokens : q.tokens.drop (q.definition.length + 1) = q.table.main.tokens := by
  rw [tokens, List.drop_succ_cons, List.drop_left]

/-- The clause holds the one definition, which can refer to itself where the word says so. -/
theorem readWithClause_eq (sql : String) :
    readWithClause sql q.tokens = ([q.table.cte sql], q.isRecursive) := by
  have hwith : startsWith "WITH" q.tokens = true := q.table.withWord_isWord
  have hname : startsWith "RECURSIVE" (q.table.definition ++ q.table.main.tokens) = false :=
    q.table.name_isWord "RECURSIVE"
  have hword : startsWith "RECURSIVE" (q.definition ++ q.table.main.tokens) = q.isRecursive ∧
      skip "RECURSIVE" (q.definition ++ q.table.main.tokens) =
        q.table.definition ++ q.table.main.tokens := by
    rw [skip, definition, isRecursive]
    cases hrecursive : q.recursiveWord with
    | none =>
        rw [Option.toList_none, List.nil_append, hname]
        exact ⟨rfl, rfl⟩
    | some t =>
        have hthis : startsWith "RECURSIVE" ((some t).toList ++ q.table.definition ++
            q.table.main.tokens) = true := by
          show t.isWord "RECURSIVE" = true
          rw [(q.hrecursive t hrecursive).isWord]
          decide
        rw [hthis]
        exact ⟨rfl, rfl⟩
  rw [readWithClause, hwith, if_pos rfl]
  show (readCtes sql (skip "RECURSIVE" (q.definition ++ q.table.main.tokens)),
    startsWith "RECURSIVE" (q.definition ++ q.table.main.tokens)) = _
  rw [hword.1, hword.2, q.table.readCtes_eq]

/-- The statement defines one relation and projects a star. -/
theorem query (sql : String) :
    Query.ofTokens sql q.tokens =
      ⟨.select, [q.table.main.item], readParams q.tokens, [q.table.cte sql], q.isRecursive⟩ := by
  simp only [Query.ofTokens, q.readWithClause_eq, q.statementStart_eq, q.drop_tokens,
    q.table.main.startsWith_select, if_true, q.table.main.items_eq, q.table.main.verb_eq]

/-- The main statement is one segment. -/
theorem split (base : Scope) :
    Segment.split base q.tokens =
      [⟨[⟨q.definition.length + 1, q.tokens.length⟩], base.narrow q.table.main.tokens, false⟩] := by
  rw [← q.drop_tokens]
  refine split_of_drop q.statementStart_eq ?_ (fun p hp => ?_) base
  · rw [q.drop_tokens]
    rintro t ⟨⟩
    rw [q.table.main.hselect.isAnyWord]
    decide
  · have hmem : p.token ∈ q.table.main.tokens := by
      rw [← q.drop_tokens, ← map_token_drop]
      exact List.mem_map_of_mem hp
    have hword : p.token.isAnyWord Segment.compoundWords = false :=
      (q.table.main.joinToken _ hmem).isAnyWord (by decide) (by decide)
    rw [Place.isTopWord, hword, Bool.and_false]

end StarOver

end Grammar

end TypedSql

import TypedSql.Proofs.Reference.Selection

/-!
# A star over joined relations

A statement `SELECT * FROM r1 JOIN r2 …`, where each relation may have an alias, is one segment
with the star as its only item.  It names its relations in order, and every identifier in it names
a relation or an alias, so the scan for identifiers notes nothing.

Main definitions: `Grammar.Listed`, `Grammar.Joins`.  Main statements: `Joins.query`,
`Joins.references_eq`, `Joins.split`, `Joins.validate`.
-/

namespace TypedSql

open Diagnostic Query Text Token

namespace Grammar

/-! ## The statement -/

/-- An alias, with or without `AS` before it. -/
structure AliasTokens where
  asWord : Option Token
  name : Token
  hasWord : ∀ t ∈ asWord, t.IsKeyword "AS"
  hname : name.IsNaming
  /-- The words that begin another clause behind a relation have to be written in quotes. -/
  hfree : name.isAnyWord RelationRef.notAlias = false

/-- A relation of a list, perhaps with an alias. -/
structure Listed where
  table : Token
  asName : Option AliasTokens
  htable : table.IsNaming

/-- A relation behind `JOIN`. -/
structure Join where
  word : Token
  relation : Listed
  hword : word.IsKeyword "JOIN"

/-- A statement `SELECT * FROM r1 JOIN r2 …`. -/
structure Joins where
  select : Token
  star : Token
  source : Token
  first : Listed
  rest : List Join
  hselect : select.IsKeyword "SELECT"
  hstar : star.kind = .star
  hsource : source.IsKeyword "FROM"

/-- The tokens of an alias. -/
def AliasTokens.tokens (a : AliasTokens) : List Token := a.asWord.toList ++ [a.name]

namespace Listed

/-- The tokens of the relation and its alias. -/
def tokens (r : Listed) : List Token := r.table :: (r.asName.map (·.tokens)).getD []

/-- The reference that the relation is, where its first token has index `i`. -/
def reference (i : Nat) (r : Listed) : RelationRef :=
  ⟨r.table.value, r.asName.map (·.name.value), r.table.position, false,
    i :: (r.asName.map fun a => i + a.tokens.length).toList⟩

end Listed

/-- The tokens of joins. -/
def joinTokens (joins : List Join) : List Token :=
  joins.flatMap fun j => j.word :: j.relation.tokens

/-- The references of joins, where the first `JOIN` has index `i`. -/
def joinReferences (i : Nat) : List Join → List RelationRef
  | [] => []
  | j :: joins =>
      j.relation.reference (i + 1) :: joinReferences (i + 1 + j.relation.tokens.length) joins

namespace Joins

variable (q : Joins)

/-- The tokens of the statement. -/
def tokens : List Token :=
  q.select :: q.star :: q.source :: (q.first.tokens ++ joinTokens q.rest)

/-- The relations in order. -/
def relations : List Listed := q.first :: q.rest.map (·.relation)

/-- The references of the relations, with the indices of their tokens. -/
def references : List RelationRef :=
  q.first.reference 3 :: joinReferences (3 + q.first.tokens.length) q.rest

end Joins

/-! ## Its tokens -/

/-- A token of such a statement. -/
inductive JoinToken (t : Token) : Prop
  | star (h : t.kind = .star)
  | name (h : t.IsNaming)
  | word {word : String} (h : t.IsKeyword word) (hword : word ∈ ["SELECT", "FROM", "JOIN", "AS"])

namespace JoinToken

variable {t : Token}

theorem kind (h : JoinToken t) :
    t.kind ∈ [Kind.star, .identifier, .quotedIdentifier, .keyword] := by
  cases h with
  | star h => rw [h]; decide
  | name h => rcases h.kind with h | h | h <;> rw [h] <;> decide
  | word h _ => rw [h.1]; decide

theorem kind_ne (h : JoinToken t) {kind : Kind}
    (hkind : kind ∉ [Kind.star, .identifier, .quotedIdentifier, .keyword]) : t.kind ≠ kind := by
  rintro rfl
  exact hkind h.kind

theorem isAnyWord (h : JoinToken t) {words : List String} (hwords : words.all isReserved = true)
    (hframe : (["SELECT", "FROM", "JOIN", "AS"].any fun f => words.any (eqIgnoreCase f)) = false) :
    t.isAnyWord words = false := by
  cases h with
  | star h => exact isAnyWord_of_kind (by rw [h]; decide) (by rw [h]; decide) words
  | name h => exact h.isAnyWord hwords
  | word h hword =>
      rw [h.isAnyWord]
      exact Bool.eq_false_iff.mpr (List.any_eq_false.mp hframe _ hword)

end JoinToken

theorem AliasTokens.joinToken (a : AliasTokens) : ∀ t ∈ a.tokens, JoinToken t := by
  intro t ht
  rcases List.mem_append.mp ht with ht | ht
  · exact .word (a.hasWord t (Option.mem_toList.mp ht)) (by decide)
  · cases List.mem_singleton.mp ht
    exact .name a.hname

theorem Listed.joinToken (r : Listed) : ∀ t ∈ r.tokens, JoinToken t := by
  intro t ht
  rcases List.mem_cons.mp ht with rfl | ht
  · exact .name r.htable
  · cases has : r.asName with
    | none =>
        rw [has] at ht
        cases ht
    | some a =>
        rw [has] at ht
        exact a.joinToken t ht

theorem joinToken_joinTokens (joins : List Join) : ∀ t ∈ joinTokens joins, JoinToken t := by
  intro t ht
  obtain ⟨j, -, ht⟩ := List.mem_flatMap.mp ht
  rcases List.mem_cons.mp ht with rfl | ht
  · exact .word j.hword (by decide)
  · exact j.relation.joinToken t ht

theorem Joins.joinToken (q : Joins) : ∀ t ∈ q.tokens, JoinToken t := by
  intro t ht
  simp only [Joins.tokens, List.mem_cons, List.mem_append] at ht
  rcases ht with rfl | rfl | rfl | ht | ht
  · exact .word q.hselect (by decide)
  · exact .star q.hstar
  · exact .word q.hsource (by decide)
  · exact q.first.joinToken t ht
  · exact joinToken_joinTokens q.rest t ht

theorem joinToken_last {xs : List Token} {word : Token} (hxs : ∀ t ∈ xs, JoinToken t)
    (hword : JoinToken word) : ∀ t ∈ xs.getLast?.or (some word), JoinToken t := by
  intro t ht
  cases hlast : xs.getLast? with
  | none =>
      rw [hlast] at ht
      cases ht
      exact hword
  | some u =>
      rw [hlast] at ht
      cases ht
      exact hxs t (List.mem_of_getLast? hlast)

theorem outside_of_joinTokens {p : Token → Prop} {xs : List Token} (hxs : ∀ t ∈ xs, JoinToken t)
    (h : ∀ t ∈ xs, p t) : Outside p xs :=
  .of_forall fun t ht => ⟨h t ht, (hxs t ht).kind_ne (by decide), (hxs t ht).kind_ne (by decide)⟩

theorem balanced_of_joinTokens {xs : List Token} (hxs : ∀ t ∈ xs, JoinToken t) : Balanced xs :=
  (outside_of_joinTokens (p := fun _ => True) hxs fun _ _ => trivial).balanced

/-! ## References -/

/-- The list is empty or goes on with `JOIN`. -/
def BeforeJoin (xs : List Token) : Prop := ∀ t ∈ xs.head?, t.IsKeyword "JOIN"

theorem beforeJoin_joinTokens (joins : List Join) : BeforeJoin (joinTokens joins) := by
  cases joins with
  | nil => nofun
  | cons j joins =>
      rintro t ⟨⟩
      exact j.hword

/-- The list is empty, or its first token neither goes on with a name in front of it nor is its
alias. -/
def Ends (xs : List Token) : Prop :=
  ∀ t ∈ xs.head?, t.kind ≠ .dot ∧ t.kind ≠ .leftParen ∧ t.isWord "AS" = false ∧ t.isName = false

theorem ends_of_keyword {t : Token} {word : String} (h : t.IsKeyword word)
    (hreserved : isReserved word = true) (has : eqIgnoreCase word "AS" = false)
    (ts : List Token) : Ends (t :: ts) := by
  rintro u ⟨⟩
  have hname : isReserved t.text = isReserved word := by
    rw [isReserved, isReserved, eqIgnoreCase_iff.mp h.2]
  refine ⟨by rw [h.1]; decide, by rw [h.1]; decide, ?_, ?_⟩
  · rw [h.isWord, has]
  · rw [isName, isIdentifier, h.1, hname, hreserved]
    rfl

theorem BeforeJoin.ends {xs : List Token} (h : BeforeJoin xs) : Ends xs := by
  cases xs with
  | nil => nofun
  | cons t ts => exact ends_of_keyword (h t rfl) (by decide) (by decide) ts

section Reading

variable {i d : Nat} {before : Option Token} {p r : Place} {rest : List Place} {xs : List Token}

theorem nextIsKind_of_joinToken {places : List Place} {kind : Kind}
    (h : ∀ p ∈ places.head?, JoinToken p.token)
    (hkind : kind ∉ [Kind.star, .identifier, .quotedIdentifier, .keyword]) :
    nextIsKind kind places = false := by
  cases places with
  | nil => rfl
  | cons p rest => exact beq_eq_false_iff_ne.mpr ((h p rfl).kind_ne hkind)

theorem mem_head?_placesAt (hp : p ∈ (placesAt i before d xs).head?) : p.token ∈ xs.head? := by
  have hhead := congrArg List.head? (map_token_placesAt i before d xs)
  rw [List.head?_map] at hhead
  rw [← hhead]
  exact Option.mem_map_of_mem _ hp

theorem head?_placesAt (h : ∀ t ∈ xs, JoinToken t) (i : Nat) (before : Option Token) :
    ∀ p ∈ (placesAt i before 0 xs).head?, JoinToken p.token := fun _ hp =>
  h _ (List.mem_of_mem_head? (mem_head?_placesAt hp))

/-- A name without dots has one part. -/
theorem readParts_of_head? {places : List Place} (h : ∀ p ∈ places.head?, p.token.kind ≠ .dot) :
    RelationRef.readParts places = ([], places) := by
  cases places with
  | nil => rfl
  | cons p rest => exact OneTable.readParts_eq_nil (h p rfl)

theorem nextIsKind_of_head? {places : List Place} {kind : Kind}
    (h : ∀ p ∈ places.head?, p.token.kind ≠ kind) : nextIsKind kind places = false := by
  cases places with
  | nil => rfl
  | cons p rest => exact beq_eq_false_iff_ne.mpr (h p rfl)

/-- No alias stands before a token that is no name. -/
theorem readAlias_of_head? {places : List Place}
    (h : ∀ p ∈ places.head?, p.token.isWord "AS" = false ∧ p.token.isName = false) :
    RelationRef.readAlias places = (none, places) := by
  cases places with
  | nil => rfl
  | cons p rest =>
      obtain ⟨has, hname⟩ := h p rfl
      have hnext : nextIsWord "AS" (p :: rest) = false := has
      rw [RelationRef.readAlias, hnext]
      show (if (p.token.isName && _) = true then _ else _) = _
      rw [hname]
      rfl

theorem readAlias_of_ends (h : Ends xs) (i : Nat) (before : Option Token) :
    RelationRef.readAlias (placesAt i before d xs) = (none, placesAt i before d xs) :=
  readAlias_of_head? fun _ hp => (h _ (mem_head?_placesAt hp)).2.2

/-- An alias is read with or without the word before it. -/
theorem readAlias_alias (a : AliasTokens) (i : Nat) (before : Option Token)
    (rest : List Place) :
    ∃ p : Place, p.token = a.name ∧ p.index + 1 = i + a.tokens.length ∧
      RelationRef.readAlias (placesAt i before 0 a.tokens ++ rest) = (some p, rest) := by
  have hkind {kind : Kind} (hkind : kind ∉ [Kind.star, .identifier, .quotedIdentifier, .keyword]) :
      a.name.kind ≠ kind := (JoinToken.name a.hname).kind_ne hkind
  have hname : (a.name.isName && !a.name.isAnyWord RelationRef.notAlias) = true := by
    rw [a.hname.isName, a.hfree]
    rfl
  cases has : a.asWord with
  | none =>
      have hnone : a.name.isAnyWord ["AS"] = false := a.hname.isAnyWord (by decide)
      have hnot : a.name.isWord "AS" = false := isWord_of_isAnyWord hnone (by decide)
      refine ⟨⟨i, 0, before, a.name⟩, rfl, by rw [AliasTokens.tokens, has]; rfl, ?_⟩
      have hplaces : placesAt i before 0 a.tokens ++ rest = ⟨i, 0, before, a.name⟩ :: rest := by
        rw [AliasTokens.tokens, has]
        show placesAt i before 0 [a.name] ++ rest = _
        rw [placesAt_cons (hkind (by decide)) (hkind (by decide))]
        rfl
      have hnext : nextIsWord "AS" (⟨i, 0, before, a.name⟩ :: rest) = false := hnot
      rw [hplaces, RelationRef.readAlias, hnext]
      show (if (a.name.isName && !a.name.isAnyWord RelationRef.notAlias) = true then _ else _) = _
      rw [hname]
      rfl
  | some w =>
      have hw : w.IsKeyword "AS" := a.hasWord w has
      refine ⟨⟨i + 1, 0, some w, a.name⟩, rfl, by rw [AliasTokens.tokens, has]; rfl, ?_⟩
      have hplaces : placesAt i before 0 a.tokens ++ rest =
          ⟨i, 0, before, w⟩ :: ⟨i + 1, 0, some w, a.name⟩ :: rest := by
        rw [AliasTokens.tokens, has]
        show placesAt i before 0 [w, a.name] ++ rest = _
        rw [placesAt_cons (by rw [hw.1]; decide) (by rw [hw.1]; decide),
          placesAt_cons (hkind (by decide)) (hkind (by decide))]
        rfl
      have hnext : nextIsWord "AS"
          (⟨i, 0, before, w⟩ :: ⟨i + 1, 0, some w, a.name⟩ :: rest) = true := by
        show w.isWord "AS" = true
        rw [hw.isWord]
        decide
      rw [hplaces, RelationRef.readAlias, hnext]
      show (if (a.name.isName && !a.name.isAnyWord RelationRef.notAlias) = true then _ else _) = _
      rw [hname]
      rfl

/-- What is read as the alias is the alias, and the reading ends behind it. -/
theorem Listed.readAlias_eq (r : Listed) (hends : Ends xs) (i : Nat) (before : Option Token) :
    ∃ asPlace : Option Place, asPlace.map (·.token.value) = r.asName.map (·.name.value) ∧
      asPlace.map (·.index) = r.asName.map (fun a => i + a.tokens.length) ∧
      RelationRef.readAlias (placesAt (i + 1) (some r.table) 0
        ((r.asName.map (·.tokens)).getD [] ++ xs)) =
        (asPlace, placesAt (i + r.tokens.length) (r.tokens.getLast?.or before) 0 xs) := by
  unfold Listed.tokens
  cases r.asName with
  | none => exact ⟨none, rfl, rfl, readAlias_of_ends hends (i + 1) (some r.table)⟩
  | some a =>
      have hbalanced : Balanced a.tokens := balanced_of_joinTokens a.joinToken
      obtain ⟨p, hp, hindex, hread⟩ := readAlias_alias a (i + 1) (some r.table)
        (placesAt (i + 1 + a.tokens.length) (a.tokens.getLast?.or (some r.table)) 0 xs)
      refine ⟨some p, congrArg (fun t : Token => some t.value) hp, ?_, ?_⟩
      · exact congrArg some (show p.index = i + a.tokens.length by omega)
      · show RelationRef.readAlias (placesAt (i + 1) (some r.table) 0 (a.tokens ++ xs)) =
          (some p, placesAt (i + (a.tokens.length + 1))
            ((r.table :: a.tokens).getLast?.or before) 0 xs)
        have hlast : (r.table :: a.tokens).getLast?.or before =
            a.tokens.getLast?.or (some r.table) := by
          rw [List.getLast?_cons]
          cases a.tokens.getLast? <;> rfl
        have hlength : i + (a.tokens.length + 1) = i + 1 + a.tokens.length := by omega
        rw [placesAt_append hbalanced, hread, hlast, hlength]

/-- Behind the name of the relation stands no dot and no group. -/
theorem Listed.behind_table (r : Listed) (hends : Ends xs) :
    ∀ t ∈ ((r.asName.map (·.tokens)).getD [] ++ xs).head?, t.kind ≠ .dot ∧ t.kind ≠ .leftParen := by
  intro t ht
  cases has : r.asName with
  | none =>
      rw [has] at ht
      exact ⟨(hends _ ht).1, (hends _ ht).2.1⟩
  | some a =>
      rw [has] at ht
      have htoken : t ∈ a.tokens := by
        -- An alias has a token, so what stands behind it is not looked at.
        have hne : a.tokens ≠ [] := by simp [AliasTokens.tokens]
        have ht : t ∈ (a.tokens ++ xs).head? := ht
        rw [List.head?_append, List.head?_eq_some_head hne, Option.some_or] at ht
        exact List.mem_of_mem_head? (List.head?_eq_some_head hne ▸ ht)
      have hthis := a.joinToken _ htoken
      exact ⟨hthis.kind_ne (by decide), hthis.kind_ne (by decide)⟩

/-- The reading of one relation ends where its name and its alias end. -/
theorem Listed.read_eq (r : Listed) (hends : Ends xs) (i : Nat) (before : Option Token) :
    RelationRef.read? true (placesAt i before 0 (r.tokens ++ xs)) =
      some (r.reference i,
        placesAt (i + r.tokens.length) (r.tokens.getLast?.or before) 0 xs) := by
  have htable : JoinToken r.table := .name r.htable
  have hopen : r.table.kind ≠ .leftParen := htable.kind_ne (by decide)
  have hclose : r.table.kind ≠ .rightParen := htable.kind_ne (by decide)
  obtain ⟨asPlace, hvalue, hindex, hread⟩ := r.readAlias_eq hends i before
  have hhead : ∀ p ∈ (placesAt (i + 1) (some r.table) 0
      ((r.asName.map (·.tokens)).getD [] ++ xs)).head?,
      p.token.kind ≠ .dot ∧ p.token.kind ≠ .leftParen := fun p hp =>
    r.behind_table hends _ (mem_head?_placesAt hp)
  have hparts := readParts_of_head? fun p hp => (hhead p hp).1
  have hgroup := @nextIsKind_of_head? _ .leftParen fun p hp => (hhead p hp).2
  rw [show r.tokens ++ xs = r.table :: ((r.asName.map (·.tokens)).getD [] ++ xs) from rfl,
    placesAt_cons hopen hclose]
  simp only [RelationRef.read?, if_neg hopen, r.htable.isName, if_true, hparts, hgroup,
    Bool.and_false, Bool.false_eq_true, if_false, Option.map_some, hread]
  show some (RelationRef.mk r.table.value (asPlace.map (·.token.value)) r.table.position false
    (i :: (asPlace.map (·.index)).toList), _) = _
  rw [hvalue, hindex]
  rfl

/-- A clause names one relation. -/
theorem Listed.readList_eq (r : Listed) (hxs : ∀ t ∈ xs, JoinToken t) (hnext : BeforeJoin xs)
    (allowList : Bool) (i : Nat) (before : Option Token) :
    RelationRef.readList true allowList (placesAt i before 0 (r.tokens ++ xs)) =
      ([r.reference i],
        placesAt (i + r.tokens.length) (r.tokens.getLast?.or before) 0 xs) := by
  have hread := r.read_eq hnext.ends i before
  have hcomma : nextIsKind .comma
      (placesAt (i + r.tokens.length) (r.tokens.getLast?.or before) 0 xs) = false :=
    nextIsKind_of_joinToken (head?_placesAt hxs _ _) (by decide)
  exact RelationRef.readList_of_last hread (by rw [hcomma, Bool.and_false])

/-- `FROM` and `JOIN` begin a clause of relations, and `FROM` a list of them. -/
theorem ofPlaces_open {word : Token} {text : String} (hword : word.IsKeyword text)
    (htext : text ∈ ["FROM", "JOIN"])
    (hbefore : (eqIgnoreCase text "FROM" && before.any (·.isWord "DISTINCT")) = false) (i : Nat)
    (xs : List Token) :
    let clause := RelationRef.readList true (eqIgnoreCase text "FROM")
      (placesAt (i + 1) (some word) 0 xs)
    RelationRef.ofPlaces (placesAt i before 0 (word :: xs)) =
      clause.1 ++ RelationRef.ofPlaces clause.2 := by
  have hwords : (["FROM", "JOIN"].all fun w => RelationRef.clauseWords.any (eqIgnoreCase w) &&
      !eqIgnoreCase w "INTO" && !eqIgnoreCase w "UPDATE") = true := by decide
  have hthis := List.all_eq_true.mp hwords text htext
  rw [Bool.and_eq_true, Bool.and_eq_true, Bool.not_eq_true', Bool.not_eq_true'] at hthis
  obtain ⟨⟨hclause, hinto⟩, hupdate⟩ := hthis
  have hopens : RelationRef.opensClause ⟨i, 0, before, word⟩ = true := by
    rw [RelationRef.opensClause, Place.isTopWord, hword.isAnyWord, hclause, hword.isWord, hbefore]
    rfl
  have hbody (rest : List Place) : RelationRef.clauseBody ⟨i, 0, before, word⟩ rest = rest := by
    rw [RelationRef.clauseBody, hword.isWord, hupdate, Bool.false_and]
    rfl
  rw [placesAt_cons (by rw [hword.1]; decide) (by rw [hword.1]; decide), RelationRef.ofPlaces,
    hopens, if_pos rfl, hbody, hword.isWord "INTO", hinto, hword.isWord "FROM"]
  rfl

/-- A clause that a word of the statement begins names the relation behind the word. -/
theorem ofPlaces_clause {word : Token} {text : String} (hword : word.IsKeyword text)
    (htext : text ∈ ["FROM", "JOIN"]) (hbefore : before.any (·.isWord "DISTINCT") = false)
    (r : Listed) (hxs : ∀ t ∈ xs, JoinToken t) (hnext : BeforeJoin xs) (i : Nat) :
    RelationRef.ofPlaces (placesAt i before 0 (word :: (r.tokens ++ xs))) =
      r.reference (i + 1) :: RelationRef.ofPlaces
        (placesAt (i + 1 + r.tokens.length) (r.tokens.getLast?.or (some word)) 0 xs) := by
  have hread := r.readList_eq hxs hnext (eqIgnoreCase text "FROM") (i + 1) (some word)
  rw [ofPlaces_open hword htext (by rw [hbefore, Bool.and_false]), hread]
  rfl

theorem ofPlaces_joinTokens (joins : List Join) (i : Nat) (hbefore : ∀ t ∈ before, JoinToken t) :
    RelationRef.ofPlaces (placesAt i before 0 (joinTokens joins)) = joinReferences i joins := by
  induction joins generalizing i before with
  | nil => exact RelationRef.ofPlaces.eq_1
  | cons j joins ih =>
      have hdistinct : before.any (·.isWord "DISTINCT") = false := by
        cases before with
        | none => rfl
        | some t =>
            have hnone : t.isAnyWord ["DISTINCT"] = false :=
              (hbefore t rfl).isAnyWord (by decide) (by decide)
            exact isWord_of_isAnyWord hnone (by decide)
      have hlast := joinToken_last j.relation.joinToken (.word j.hword (by decide))
      show RelationRef.ofPlaces (placesAt i before 0
        (j.word :: (j.relation.tokens ++ joinTokens joins))) = _
      rw [ofPlaces_clause j.hword (by decide) hdistinct j.relation (joinToken_joinTokens joins)
        (beforeJoin_joinTokens joins), ih _ hlast]
      rfl

end Reading

namespace Joins

variable (q : Joins)

theorem star_isAnyWord (words : List String) : q.star.isAnyWord words = false :=
  isAnyWord_of_kind (by rw [q.hstar]; decide) (by rw [q.hstar]; decide) words

/-- The places of the statement: those of its first two words, and the others. -/
theorem places_eq : places q.tokens =
    ⟨0, 0, none, q.select⟩ :: ⟨1, 0, some q.select, q.star⟩ ::
      placesAt 2 (some q.star) 0 (q.source :: (q.first.tokens ++ joinTokens q.rest)) := by
  show placesAt 0 none 0 q.tokens = _
  rw [tokens, placesAt_cons (by rw [q.hselect.1]; decide) (by rw [q.hselect.1]; decide),
    placesAt_cons (by rw [q.hstar]; decide) (by rw [q.hstar]; decide)]

/-- The statement names its relations in order. -/
theorem references_eq : RelationRef.ofTokens q.tokens = q.references := by
  have hselect : RelationRef.opensClause ⟨0, 0, none, q.select⟩ = false := by
    have hword : RelationRef.clauseWords.any (eqIgnoreCase "SELECT") = false := by decide
    rw [RelationRef.opensClause, Place.isTopWord, q.hselect.isAnyWord, hword]
    rfl
  have hstar : RelationRef.opensClause ⟨1, 0, some q.select, q.star⟩ = false := by
    rw [RelationRef.opensClause, Place.isTopWord, q.star_isAnyWord]
    rfl
  have hdistinct : (some q.star).any (·.isWord "DISTINCT") = false :=
    isWord_of_isAnyWord (q.star_isAnyWord ["DISTINCT"]) (by decide)
  have hlast := joinToken_last q.first.joinToken (.word q.hsource (by decide))
  rw [RelationRef.ofTokens, q.places_eq, RelationRef.ofPlaces, hselect,
    if_neg Bool.false_ne_true, RelationRef.ofPlaces, hstar, if_neg Bool.false_ne_true,
    ofPlaces_clause q.hsource (by decide) hdistinct q.first (joinToken_joinTokens q.rest)
      (beforeJoin_joinTokens q.rest), ofPlaces_joinTokens q.rest _ hlast]
  rfl

theorem statementStart_eq : statementStart q.tokens = 0 :=
  statementStart_select (by rw [q.hselect.isWord]; decide) _

end Joins

/-! ## The query -/

theorem paramPlaces_eq_nil {xs : List Token}
    (hxs : ∀ t ∈ xs, t.kind ≠ .parameter ∧ t.kind ≠ .leftParen) : paramPlaces xs = [] := by
  induction xs with
  | nil => exact paramPlaces.eq_1
  | cons t xs ih =>
      -- A macro has a group in it.
      have hmacro : macroParam? (t :: xs) = none := by
        unfold macroParam?
        split
        · next head dot function openParen argument closeParen rest heq =>
            have hopen : (openParen.kind == .leftParen) = false := by
              refine beq_eq_false_iff_ne.mpr (hxs openParen ?_).2
              rw [heq]
              simp
            rw [hopen, Bool.and_false]
            rfl
        · rfl
      rw [paramPlaces, hmacro]
      show (if t.kind = .parameter then _ else paramPlaces xs) = []
      rw [if_neg (hxs t List.mem_cons_self).1]
      exact ih fun u hu => hxs u (List.mem_cons_of_mem _ hu)

namespace Joins

variable (q : Joins)

/-- The star is all that the statement projects. -/
theorem projectionTokens_eq : projectionTokens q.tokens = [q.star] := by
  refine projectionTokens_from (List.cons_ne_nil q.star []) ?_ ?_ q.hsource _
  · rintro t ⟨⟩
    exact q.star_isAnyWord _
  · refine .token ?_ (by rw [q.hstar]; decide) (by rw [q.hstar]; decide)
    exact ⟨by rw [q.hstar]; decide, q.star_isAnyWord _⟩

/-- The one item of the statement. -/
def item : Item := ⟨.star none, none, q.star.position⟩

theorem items_eq (sql : String) : readProjection sql (projectionTokens q.tokens) = [q.item] := by
  have hone : Outside NoComma [q.star] :=
    .token (by rw [NoComma, q.hstar]; decide) (by rw [q.hstar]; decide) (by rw [q.hstar]; decide)
  have hshape : Shape.ofTokens sql [q.star] = .star none := if_pos q.hstar
  have hitem : Item.ofTokens sql [q.star] =
      ⟨Shape.ofTokens sql [q.star], none, q.star.position⟩ := rfl
  rw [q.projectionTokens_eq, readProjection, hone.commaPieces_eq (by simp), List.map_singleton,
    hitem, hshape]
  rfl

theorem startsWith_select : startsWith "SELECT" q.tokens = true := by
  show q.select.isWord "SELECT" = true
  rw [q.hselect.isWord]
  decide

theorem verb_eq : ((q.tokens.head?.map (·.text)).map Verb.ofWord).getD .other = .select := by
  show Verb.ofWord q.select.text = .select
  have hlower : lowerCase q.select.text = lowerCase "SELECT" := eqIgnoreCase_iff.mp q.hselect.2
  have hword : Verb.ofWord "SELECT" = .select := by decide
  rw [← hword, Verb.ofWord, Verb.ofWord, hlower]

/-- The statement is a `SELECT` with one item and without parameters. -/
theorem query (sql : String) :
    Query.ofTokens sql q.tokens = ⟨.select, [q.item], [], [], false⟩ := by
  have hparams : readParams q.tokens = [] := by
    have hnone : ∀ t ∈ q.tokens, t.kind ≠ .parameter ∧ t.kind ≠ .leftParen := fun t ht =>
      ⟨(q.joinToken t ht).kind_ne (by decide), (q.joinToken t ht).kind_ne (by decide)⟩
    rw [readParams, paramPlaces_eq_nil hnone]
    rfl
  rw [← q.items_eq sql, ← hparams]
  exact ofTokens_select q.startsWith_select sql _

/-- The statement is one segment. -/
theorem split (base : Scope) :
    Segment.split base q.tokens = [⟨[⟨0, q.tokens.length⟩], base.narrow q.tokens, false⟩] := by
  refine split_of_outside q.statementStart_eq ?_ ?_ base
  · rintro t ⟨⟩
    rw [q.hselect.isAnyWord]
    decide
  · exact outside_of_joinTokens q.joinToken fun t ht =>
      (q.joinToken t ht).isAnyWord (by decide) (by decide)

end Joins

/-! ## Identifiers -/

theorem checkPlaces_eq_pure {s : Scope} {known : List String} {skipped : List Range}
    {ps : List Place} (h : ∀ p ∈ ps, Identifier.isCandidate skipped p = false) :
    Identifier.checkPlaces s known skipped ps = Pure.pure () := by
  induction ps with
  | nil => exact Identifier.checkPlaces.eq_1 ..
  | cons p ps ih =>
      rw [checkPlaces_cons (h p List.mem_cons_self)]
      exact ih fun q hq => h q (List.mem_cons_of_mem _ hq)

/-- Every identifier at these places is a part of one of the references. -/
def Covered (refs : List RelationRef) (ps : List Place) : Prop :=
  ∀ p ∈ ps, p.token.isIdentifier = true → ∃ r ∈ refs, p.index ∈ r.tokens

section Covered

variable {refs : List RelationRef} {ps : List Place} {before : Option Token} {i : Nat}

theorem Covered.keyword {p : Place} {word : String} (h : p.token.IsKeyword word)
    (hps : Covered refs ps) : Covered refs (p :: ps) := by
  intro p' hp' hidentifier
  rcases List.mem_cons.mp hp' with rfl | hp'
  · rw [isIdentifier, h.1] at hidentifier
    exact absurd hidentifier Bool.false_ne_true
  · exact hps p' hp' hidentifier

theorem Covered.mono {refs' : List RelationRef} (h : Covered refs ps)
    (hrefs : ∀ r ∈ refs, r ∈ refs') : Covered refs' ps := fun p hp hidentifier =>
  (h p hp hidentifier).imp fun _ hr => ⟨hrefs _ hr.1, hr.2⟩

theorem Covered.append {qs : List Place} (hps : Covered refs ps) (hqs : Covered refs qs) :
    Covered refs (ps ++ qs) := fun p hp =>
  (List.mem_append.mp hp).elim (hps p) (hqs p)

theorem Listed.covered (r : Listed) (i : Nat) (before : Option Token) :
    Covered [r.reference i] (placesAt i before 0 r.tokens) := by
  have htable : JoinToken r.table := .name r.htable
  have hfirst (p : Place) (hp : p.index = i) : ∃ r' ∈ [r.reference i], p.index ∈ r'.tokens :=
    ⟨_, List.mem_singleton_self _, by rw [hp]; exact List.mem_cons_self⟩
  rw [show r.tokens = r.table :: (r.asName.map (·.tokens)).getD [] from rfl,
    placesAt_cons (htable.kind_ne (by decide)) (htable.kind_ne (by decide))]
  intro p hp hidentifier
  rcases List.mem_cons.mp hp with rfl | hp
  · exact hfirst _ rfl
  · refine ⟨_, List.mem_singleton_self _, List.mem_cons_of_mem _ ?_⟩
    cases has : r.asName with
    | none =>
        rw [has] at hp
        cases hp
    | some a =>
        rw [has] at hp
        have hp : p ∈ placesAt (i + 1) (some r.table) 0 a.tokens := hp
        have hname := JoinToken.name a.hname
        suffices hindex : p.index = i + a.tokens.length by
          rw [hindex]
          exact List.mem_singleton_self _
        cases hword : a.asWord with
        | none =>
            have htokens : a.tokens = [a.name] := by rw [AliasTokens.tokens, hword]; rfl
            have hopen : a.name.kind ≠ .leftParen := hname.kind_ne (by decide)
            have hclose : a.name.kind ≠ .rightParen := hname.kind_ne (by decide)
            rw [htokens, placesAt_cons hopen hclose] at hp
            cases List.mem_singleton.mp hp
            rw [htokens]
            rfl
        | some w =>
            have htokens : a.tokens = [w, a.name] := by rw [AliasTokens.tokens, hword]; rfl
            have hw : w.IsKeyword "AS" := a.hasWord w hword
            rw [htokens, placesAt_cons (by rw [hw.1]; decide) (by rw [hw.1]; decide),
              placesAt_cons (hname.kind_ne (by decide)) (hname.kind_ne (by decide))] at hp
            rcases List.mem_cons.mp hp with rfl | hp
            · rw [isIdentifier, hw.1] at hidentifier
              exact absurd hidentifier Bool.false_ne_true
            · cases List.mem_singleton.mp hp
              rw [htokens]
              rfl

theorem covered_clause {word : Token} {text : String} (hword : word.IsKeyword text) (r : Listed)
    {xs : List Token} {refs : List RelationRef}
    (hxs : ∀ before, Covered refs (placesAt (i + 1 + r.tokens.length) before 0 xs))
    (before : Option Token) :
    Covered (r.reference (i + 1) :: refs) (placesAt i before 0 (word :: (r.tokens ++ xs))) := by
  rw [placesAt_cons (by rw [hword.1]; decide) (by rw [hword.1]; decide),
    placesAt_append (balanced_of_joinTokens r.joinToken)]
  refine .keyword hword (.append ?_ ?_)
  · exact (r.covered (i + 1) _).mono fun _ hr => List.mem_cons.mpr (.inl (List.mem_singleton.mp hr))
  · exact (hxs _).mono fun _ hr => List.mem_cons_of_mem _ hr

theorem covered_joinTokens (joins : List Join) (i : Nat) (before : Option Token) :
    Covered (joinReferences i joins) (placesAt i before 0 (joinTokens joins)) := by
  induction joins generalizing i before with
  | nil => exact fun _ hp => absurd hp List.not_mem_nil
  | cons j joins ih => exact covered_clause j.hword j.relation (ih _) before

end Covered

namespace Joins

/-- Nothing in the statement is looked up as a column. -/
theorem validate (q : Joins) (s : Scope) (known : List String) :
    Identifier.validate s known q.tokens = Pure.pure () := by
  have hcovered : Covered q.references (places q.tokens) := by
    rw [q.places_eq]
    refine .keyword q.hselect ?_
    have hrest := covered_clause (i := 2) q.hsource q.first (covered_joinTokens q.rest _)
      (some q.star)
    intro p hp hidentifier
    rcases List.mem_cons.mp hp with rfl | hp
    · rw [isIdentifier, q.hstar] at hidentifier
      exact absurd hidentifier Bool.false_ne_true
    · exact hrest p hp hidentifier
  rw [Identifier.validate, q.statementStart_eq, List.drop_zero]
  refine checkPlaces_eq_pure fun p hp => ?_
  cases hidentifier : p.token.isIdentifier with
  | false => exact isCandidate_of_checked hidentifier _
  | true =>
      obtain ⟨r, hr, hindex⟩ := hcovered p hp hidentifier
      refine isCandidate_of_isSkipped ?_
      rw [Identifier.skippedRanges, q.references_eq, isSkipped_append, Bool.or_eq_true]
      left
      rw [Identifier.isSkipped, List.any_eq_true]
      refine ⟨Identifier.single p.index,
        List.mem_flatMap.mpr ⟨r, hr, List.mem_map_of_mem hindex⟩, ?_⟩
      simp [Identifier.single]

end Joins

end Grammar

end TypedSql

import TypedSql.Proofs.Reference.Joins

/-!
# The relations of a `FROM` clause

A list of relations `r1 s2 r2 … sk rk`, with a comma or a `JOIN` between two of them, is read in
two ways: the list that `FROM` begins goes on behind a comma, and every `JOIN` begins a clause of
one relation.  So a relation behind a comma is found as long as the list that `FROM` began is still
read: a `JOIN` ends it, and so does an alias that is not read.

Main definitions: `Grammar.FromList`, `FromList.written`, `FromList.found`.  Main statement:
`FromList.references_found`.
-/

namespace TypedSql

open Text Token

namespace Grammar

/-! ## The clause -/

/-- A relation whose alias is spelled like a word that begins another clause.  It is not read, not
even where `AS` stands before it. -/
structure Masked where
  table : Token
  asWord : Option Token
  name : Token
  htable : table.IsNaming
  hasWord : ∀ t ∈ asWord, t.IsKeyword "AS"
  hname : name.IsNaming
  hmasked : name.isAnyWord RelationRef.notAlias = true

/-- A relation of the clause. -/
inductive Relation
  | listed (r : Listed)
  | masked (r : Masked)

/-- What can stand behind a joined relation. -/
inductive Constraint
  | on (word : Token) (condition : List Token) (hword : word.IsKeyword "ON")
      (hcondition : Outside (fun t => NoComma t ∧ t.isAnyWord RelationRef.clauseWords = false)
        condition)
  | columns (word openParen closeParen : Token) (names : List Token)
      (hword : word.IsKeyword "USING") (hopen : openParen.kind = .leftParen)
      (hclose : closeParen.kind = .rightParen) (hnames : Balanced names)

/-- The words that can stand before `JOIN`. -/
def joinWords : List String := ["NATURAL", "LEFT", "RIGHT", "FULL", "OUTER", "INNER", "CROSS"]

/-- A further relation with what stands before and behind it. -/
inductive Link
  | comma (mark : Token) (relation : Relation) (hmark : mark.kind = .comma)
  | join (words : List Token) (word : Token) (relation : Relation) (constraint : Option Constraint)
      (hwords : ∀ t ∈ words, ∃ w ∈ joinWords, t.IsKeyword w) (hword : word.IsKeyword "JOIN")

/-- A statement `SELECT items FROM r1 s2 r2 … sk rk`. -/
structure FromList where
  select : Token
  items : List Token
  source : Token
  first : Relation
  rest : List Link
  hselect : select.IsKeyword "SELECT"
  hitems : Outside (fun t => t.isAnyWord RelationRef.clauseWords = false) items
  hsource : source.IsKeyword "FROM"

/-- The tokens of the alias. -/
def Masked.aliasTokens (r : Masked) : List Token := r.asWord.toList ++ [r.name]

namespace Relation

/-- The tokens of the relation. -/
def tokens : Relation → List Token
  | listed r => r.tokens
  | masked r => r.table :: r.aliasTokens

/-- The relation as it is written, where its first token has index `i`. -/
def written (i : Nat) : Relation → RelationRef
  | listed r => r.reference i
  | masked r =>
      ⟨r.table.value, some r.name.value, r.table.position, false, [i, i + r.aliasTokens.length]⟩

/-- The relation as it is read. -/
def read (i : Nat) : Relation → RelationRef
  | listed r => r.reference i
  | masked r => ⟨r.table.value, none, r.table.position, false, [i]⟩

/-- The relation is read as it is written. -/
def isPlain : Relation → Bool
  | listed _ => true
  | masked _ => false

end Relation

/-- The tokens behind a joined relation. -/
def Constraint.tokens : Constraint → List Token
  | on word condition _ _ => word :: condition
  | columns word openParen closeParen names _ _ _ _ =>
      word :: openParen :: (names ++ [closeParen])

namespace Link

def relation : Link → Relation
  | comma _ r _ => r
  | join _ _ r _ _ _ => r

def isJoin : Link → Bool
  | comma .. => false
  | join .. => true

/-- The tokens before the relation. -/
def lead : Link → List Token
  | comma mark _ _ => [mark]
  | join words word _ _ _ _ => words ++ [word]

/-- The tokens behind the relation. -/
def behind : Link → List Token
  | comma .. => []
  | join _ _ _ constraint _ _ => (constraint.map (·.tokens)).getD []

def tokens (l : Link) : List Token := l.lead ++ (l.relation.tokens ++ l.behind)

end Link

/-- The tokens of further relations. -/
def linkTokens (links : List Link) : List Token := links.flatMap (·.tokens)

/-- Further relations as they are written, where their first token has index `i`. -/
def writtenLinks (i : Nat) : List Link → List RelationRef
  | [] => []
  | l :: ls => l.relation.written (i + l.lead.length) :: writtenLinks (i + l.tokens.length) ls

/-- The further relations that are found, where the list that `FROM` began is still read or is read
no more. -/
def foundLinks (i : Nat) (reading : Bool) : List Link → List RelationRef
  | [] => []
  | l :: ls =>
      let next := i + l.tokens.length
      if l.isJoin then l.relation.read (i + l.lead.length) :: foundLinks next false ls
      else if reading then
        l.relation.read (i + l.lead.length) :: foundLinks next l.relation.isPlain ls
      else foundLinks next false ls

namespace FromList

variable (q : FromList)

/-- The tokens of the statement. -/
def tokens : List Token :=
  q.select :: (q.items ++ q.source :: (q.first.tokens ++ linkTokens q.rest))

/-- The index of the first relation. -/
def start : Nat := q.items.length + 2

/-- All relations as they are written. -/
def written : List RelationRef :=
  q.first.written q.start :: writtenLinks (q.start + q.first.tokens.length) q.rest

/-- The items end with `DISTINCT`, so that `FROM` reads like the end of `IS DISTINCT FROM`. -/
def isDistinct : Bool := q.items.getLast?.any (·.isWord "DISTINCT")

/-- The relations that are found. -/
def found : List RelationRef :=
  let next := q.start + q.first.tokens.length
  if q.isDistinct then foundLinks next false q.rest
  else q.first.read q.start :: foundLinks next q.first.isPlain q.rest

/-- Every alias is read, no comma stands behind a `JOIN`, and the items do not end with
`DISTINCT`. -/
structure Regular : Prop where
  distinct : q.isDistinct = false
  plain : q.first.isPlain = true ∧ ∀ l ∈ q.rest, l.relation.isPlain = true
  commasFirst : q.rest.Pairwise fun l l' => l.isJoin = true → l'.isJoin = true

end FromList

/-! ## What is found and what is written -/

theorem Relation.read_eq_written_iff (r : Relation) (i : Nat) :
    r.read i = r.written i ↔ r.isPlain = true := by
  cases r with
  | listed r => exact ⟨fun _ => rfl, fun _ => rfl⟩
  | masked r =>
      constructor
      · intro h
        cases (RelationRef.mk.injEq .. ▸ h).2.1
      · intro h
        cases h

theorem length_writtenLinks (i : Nat) (ls : List Link) :
    (writtenLinks i ls).length = ls.length := by
  induction ls generalizing i with
  | nil => rfl
  | cons l ls ih => simp [writtenLinks, ih]

theorem length_foundLinks_le (i : Nat) (reading : Bool) (ls : List Link) :
    (foundLinks i reading ls).length ≤ ls.length := by
  induction ls generalizing i reading with
  | nil => exact Nat.le_refl _
  | cons l ls ih =>
      simp only [foundLinks]
      split
      · simpa using ih _ _
      · split
        · simpa using ih _ _
        · exact Nat.le_succ_of_le (ih _ _)

/-- All further relations are found as written exactly where the aliases are read and no comma
stands behind a `JOIN` or behind the list. -/
theorem foundLinks_eq_iff (i : Nat) (reading : Bool) (ls : List Link) :
    foundLinks i reading ls = writtenLinks i ls ↔
      (∀ l ∈ ls, l.relation.isPlain = true) ∧
        ls.Pairwise (fun l l' => l.isJoin = true → l'.isJoin = true) ∧
        (reading = false → ∀ l ∈ ls, l.isJoin = true) := by
  induction ls generalizing i reading with
  | nil => simp [foundLinks, writtenLinks]
  | cons l ls ih =>
      rw [List.pairwise_cons, List.forall_mem_cons, List.forall_mem_cons]
      simp only [foundLinks, writtenLinks]
      by_cases hjoin : l.isJoin = true
      · -- A `JOIN` is found, and from there on only a `JOIN` is.
        rw [if_pos hjoin, List.cons.injEq, Relation.read_eq_written_iff, ih]
        simp only [hjoin, forall_const, true_and]
        constructor
        · rintro ⟨hl, hplain, hpairwise, hall⟩
          exact ⟨⟨hl, hplain⟩, ⟨hall, hpairwise⟩, fun _ => hall⟩
        · rintro ⟨⟨hl, hplain⟩, ⟨hall, hpairwise⟩, -⟩
          exact ⟨hl, hplain, hpairwise, hall⟩
      · rw [if_neg hjoin]
        cases reading with
        | true =>
            rw [if_pos rfl, List.cons.injEq, Relation.read_eq_written_iff, ih]
            constructor
            · rintro ⟨hl, hplain, hpairwise, -⟩
              exact ⟨⟨hl, hplain⟩, ⟨fun _ _ h => absurd h hjoin, hpairwise⟩, nofun⟩
            · rintro ⟨⟨hl, hplain⟩, ⟨-, hpairwise⟩, -⟩
              exact ⟨hl, hplain, hpairwise, fun h => by rw [hl] at h; cases h⟩
        | false =>
            -- A comma behind the list is passed over, so one relation less is found.
            rw [if_neg Bool.false_ne_true]
            constructor
            · intro h
              have hlength := congrArg List.length h
              have hle := length_foundLinks_le (i + l.tokens.length) false ls
              rw [List.length_cons, length_writtenLinks] at hlength
              omega
            · rintro ⟨-, -, hall⟩
              exact absurd (hall rfl).1 hjoin

theorem FromList.found_eq_iff (q : FromList) : q.found = q.written ↔ q.Regular := by
  unfold found written
  cases hdistinct : q.isDistinct with
  | true =>
      constructor
      · intro h
        have hlength := congrArg List.length h
        have hle := length_foundLinks_le (q.start + q.first.tokens.length) false q.rest
        simp only [if_true, List.length_cons, length_writtenLinks] at hlength
        omega
      · intro h
        cases hdistinct.symm.trans h.distinct
  | false =>
      simp only [Bool.false_eq_true, if_false, List.cons.injEq, Relation.read_eq_written_iff,
        foundLinks_eq_iff]
      constructor
      · rintro ⟨hfirst, hplain, hpairwise, -⟩
        exact ⟨hdistinct, ⟨hfirst, hplain⟩, hpairwise⟩
      · rintro ⟨-, ⟨hfirst, hplain⟩, hpairwise⟩
        exact ⟨hfirst, hplain, hpairwise, fun h => by rw [hfirst] at h; cases h⟩

/-! ## Passing over tokens -/

/-- None of the tokens outside all parentheses begins a clause. -/
abbrev NoClause (xs : List Token) : Prop :=
  Outside (fun t => t.isAnyWord RelationRef.clauseWords = false) xs

theorem ofPlaces_pass {xs : List Token} (h : NoClause xs) (i : Nat) (before : Option Token)
    (ys : List Token) :
    RelationRef.ofPlaces (placesAt i before 0 (xs ++ ys)) =
      RelationRef.ofPlaces (placesAt (i + xs.length) (xs.getLast?.or before) 0 ys) := by
  rw [placesAt_append h.balanced, ofPlaces_append fun p hp => isTopWord_of_outside h hp]

section NoWords

variable {words : List String}

theorem noWords_of_keyword {t : Token} {word : String} (h : t.IsKeyword word)
    (hword : words.any (eqIgnoreCase word) = false) :
    Outside (fun t => t.isAnyWord words = false) [t] :=
  .token (by rw [h.isAnyWord, hword]) (by rw [h.1]; decide) (by rw [h.1]; decide)

/-- What stands in a group does not matter. -/
theorem noWords_group {o c : Token} {xs : List Token} (ho : o.kind = .leftParen)
    (hc : c.kind = .rightParen) (hxs : Balanced xs) :
    Outside (fun t => t.isAnyWord words = false) (o :: (xs ++ [c])) :=
  .group ho hc (isAnyWord_of_kind (by rw [ho]; decide) (by rw [ho]; decide) _)
    (isAnyWord_of_kind (by rw [hc]; decide) (by rw [hc]; decide) _) hxs

end NoWords

theorem noClause_of_joinToken {t : Token} (h : JoinToken t)
    (hclause : t.isAnyWord RelationRef.clauseWords = false) : NoClause [t] :=
  .token hclause (h.kind_ne (by decide)) (h.kind_ne (by decide))

theorem noClause_of_naming {t : Token} (h : t.IsNaming) : NoClause [t] :=
  noClause_of_joinToken (.name h) (h.isAnyWord (by decide))

theorem Masked.joinToken (r : Masked) : ∀ t ∈ r.aliasTokens, JoinToken t := by
  intro t ht
  rcases List.mem_append.mp ht with ht | ht
  · exact .word (r.hasWord t (Option.mem_toList.mp ht)) (by decide)
  · cases List.mem_singleton.mp ht
    exact .name r.hname

theorem Masked.noClause (r : Masked) : NoClause r.aliasTokens := by
  refine .append ?_ (noClause_of_naming r.hname)
  cases has : r.asWord with
  | none => exact .nil
  | some w => exact noWords_of_keyword (r.hasWord w has) (by decide)

theorem Relation.noClause (r : Relation) : NoClause r.tokens := by
  cases r with
  | listed r =>
      refine .append (noClause_of_naming r.htable) ?_
      cases r.asName with
      | none => exact .nil
      | some a =>
          refine .append ?_ (noClause_of_naming a.hname)
          cases has : a.asWord with
          | none => exact .nil
          | some w => exact noWords_of_keyword (a.hasWord w has) (by decide)
  | masked r => exact .append (noClause_of_naming r.htable) r.noClause

theorem Constraint.noClause (c : Constraint) : NoClause c.tokens := by
  cases c with
  | on word condition hword hcondition =>
      exact .append (noWords_of_keyword hword (by decide)) (hcondition.imp fun _ ht => ht.2)
  | columns word openParen closeParen names hword hopen hclose hnames =>
      exact .append (noWords_of_keyword hword (by decide)) (noWords_group hopen hclose hnames)

theorem Link.noClause_behind (l : Link) : NoClause l.behind := by
  cases l with
  | comma => exact .nil
  | join _ _ _ constraint _ _ =>
      cases constraint with
      | none => exact .nil
      | some c => exact c.noClause

theorem noClause_joinWords {words : List Token}
    (h : ∀ t ∈ words, ∃ w ∈ joinWords, t.IsKeyword w) : NoClause words := by
  refine .of_forall fun t ht => ?_
  obtain ⟨w, hw, hword⟩ := h t ht
  have hall : (joinWords.all fun w => !RelationRef.clauseWords.any (eqIgnoreCase w)) = true := by
    decide
  have hnone := List.all_eq_true.mp hall w hw
  rw [Bool.not_eq_true'] at hnone
  exact ⟨by rw [hword.isAnyWord, hnone], by rw [hword.1]; decide, by rw [hword.1]; decide⟩

/-! ## What stands behind a relation -/

theorem ends_linkTokens (ls : List Link) : Ends (linkTokens ls) := by
  cases ls with
  | nil => nofun
  | cons l ls =>
      cases l with
      | comma mark r hmark =>
          rintro t ⟨⟩
          refine ⟨by rw [hmark]; decide, by rw [hmark]; decide, ?_, ?_⟩
          · rw [isWord, hmark]
            rfl
          · rw [isName, isIdentifier, hmark]
            rfl
      | join words word r constraint hwords hword =>
          cases words with
          | nil => exact ends_of_keyword hword (by decide) (by decide) _
          | cons w ws =>
              obtain ⟨text, htext, hw⟩ := hwords w List.mem_cons_self
              have hall : (joinWords.all fun w => isReserved w && !eqIgnoreCase w "AS") = true := by
                decide
              have hthis := List.all_eq_true.mp hall text htext
              rw [Bool.and_eq_true, Bool.not_eq_true'] at hthis
              exact ends_of_keyword hw hthis.1 hthis.2 _

theorem Link.ends_behind (l : Link) (ls : List Link) : Ends (l.behind ++ linkTokens ls) := by
  cases l with
  | comma => exact ends_linkTokens ls
  | join _ _ _ constraint _ _ =>
      cases constraint with
      | none => exact ends_linkTokens ls
      | some c =>
          cases c with
          | on _ _ hword _ => exact ends_of_keyword hword (by decide) (by decide) _
          | columns _ _ _ _ hword _ _ _ => exact ends_of_keyword hword (by decide) (by decide) _

/-! ## Reading -/

section Reading

variable {i : Nat} {before : Option Token} {xs : List Token}

theorem Masked.first (r : Masked) (xs : List Token) :
    ∀ t ∈ (r.aliasTokens ++ xs).head?, JoinToken t := by
  intro t ht
  apply r.joinToken
  have hne : r.aliasTokens ≠ [] := by simp [Masked.aliasTokens]
  rw [List.head?_append, List.head?_eq_some_head hne, Option.some_or] at ht
  exact List.mem_of_mem_head? (List.head?_eq_some_head hne ▸ ht)

/-- The word is a name, but one that is never an alias. -/
theorem Masked.readAlias_eq (r : Masked) (i : Nat) (before : Option Token) (xs : List Token) :
    RelationRef.readAlias (placesAt i before 0 (r.aliasTokens ++ xs)) =
      (none, placesAt i before 0 (r.aliasTokens ++ xs)) := by
  have hname : JoinToken r.name := .name r.hname
  have hmasked : (r.name.isName && !r.name.isAnyWord RelationRef.notAlias) = false := by
    rw [r.hmasked, Bool.not_true, Bool.and_false]
  have hplaces (i : Nat) (before : Option Token) : placesAt i before 0 (r.name :: xs) =
      ⟨i, 0, before, r.name⟩ :: placesAt (i + 1) (some r.name) 0 xs :=
    placesAt_cons (hname.kind_ne (by decide)) (hname.kind_ne (by decide)) ..
  cases has : r.asWord with
  | none =>
      have htokens : r.aliasTokens ++ xs = r.name :: xs := by rw [Masked.aliasTokens, has]; rfl
      have hnone : r.name.isAnyWord ["AS"] = false := r.hname.isAnyWord (by decide)
      have hnext (rest : List Place) : nextIsWord "AS" (⟨i, 0, before, r.name⟩ :: rest) = false :=
        isWord_of_isAnyWord hnone (by decide)
      rw [htokens, hplaces, RelationRef.readAlias, hnext]
      show (if (r.name.isName && !r.name.isAnyWord RelationRef.notAlias) = true then _ else _) = _
      rw [hmasked, if_neg Bool.false_ne_true]
  | some w =>
      have hw : w.IsKeyword "AS" := r.hasWord w has
      have htokens : r.aliasTokens ++ xs = w :: r.name :: xs := by
        rw [Masked.aliasTokens, has]
        rfl
      have hnext (rest : List Place) : nextIsWord "AS" (⟨i, 0, before, w⟩ :: rest) = true := by
        show w.isWord "AS" = true
        rw [hw.isWord]
        decide
      rw [htokens, placesAt_cons (by rw [hw.1]; decide) (by rw [hw.1]; decide), hplaces,
        RelationRef.readAlias, hnext]
      show (if (r.name.isName && !r.name.isAnyWord RelationRef.notAlias) = true then _ else _) = _
      rw [hmasked, if_neg Bool.false_ne_true]

theorem Masked.read_eq (r : Masked) (i : Nat) (before : Option Token) (xs : List Token) :
    RelationRef.read? true (placesAt i before 0 (r.table :: (r.aliasTokens ++ xs))) =
      some (Relation.read i (.masked r),
        placesAt (i + 1) (some r.table) 0 (r.aliasTokens ++ xs)) := by
  have htable : JoinToken r.table := .name r.htable
  have hopen : r.table.kind ≠ .leftParen := htable.kind_ne (by decide)
  have hhead : ∀ p ∈ (placesAt (i + 1) (some r.table) 0 (r.aliasTokens ++ xs)).head?,
      p.token.kind ≠ .dot ∧ p.token.kind ≠ .leftParen := by
    intro p hp
    have hthis := r.first xs _ (mem_head?_placesAt hp)
    exact ⟨hthis.kind_ne (by decide), hthis.kind_ne (by decide)⟩
  have hparts := readParts_of_head? fun p hp => (hhead p hp).1
  have hgroup := @nextIsKind_of_head? _ .leftParen fun p hp => (hhead p hp).2
  rw [placesAt_cons hopen (htable.kind_ne (by decide))]
  simp only [RelationRef.read?, if_neg hopen, r.htable.isName, if_true, hparts, hgroup,
    Bool.and_false, Bool.false_eq_true, if_false, Option.map_some, r.readAlias_eq]
  rfl

/-- The list begins with a comma. -/
def startsWithComma (xs : List Token) : Bool := xs.head?.any (·.kind == .comma)

theorem nextIsKind_comma (i : Nat) (before : Option Token) (xs : List Token) :
    nextIsKind .comma (placesAt i before 0 xs) = startsWithComma xs := by
  have hhead := congrArg List.head? (map_token_placesAt i before 0 xs)
  rw [List.head?_map] at hhead
  rw [startsWithComma, ← hhead, Option.any_map]
  rfl

/-- A relation is read.  Behind it the list is at its end unless the alias was read, and no clause
begins before what stands behind it. -/
theorem Relation.read_eq (r : Relation) (hends : Ends xs) (i : Nat) (before : Option Token) :
    ∃ rest, RelationRef.read? true (placesAt i before 0 (r.tokens ++ xs)) =
        some (r.read i, rest) ∧
      nextIsKind .comma rest = (r.isPlain && startsWithComma xs) ∧
      (r.isPlain = true →
        rest = placesAt (i + r.tokens.length) (r.tokens.getLast?.or before) 0 xs) ∧
      RelationRef.ofPlaces rest = RelationRef.ofPlaces
        (placesAt (i + r.tokens.length) (r.tokens.getLast?.or before) 0 xs) := by
  cases r with
  | listed r =>
      refine ⟨_, r.read_eq hends i before, ?_, fun _ => rfl, rfl⟩
      rw [nextIsKind_comma]
      rfl
  | masked r =>
      refine ⟨_, r.read_eq i before xs, ?_, nofun, ?_⟩
      · refine nextIsKind_of_head? fun p hp => ?_
        exact (r.first xs _ (mem_head?_placesAt hp)).kind_ne (by decide)
      · have hpass := ofPlaces_pass r.noClause (i + 1) (some r.table) xs
        rw [hpass]
        simp [Relation.tokens, List.getLast?_cons, Nat.add_assoc, Nat.add_comm 1]

/-- A `JOIN` begins a clause of one relation. -/
theorem ofPlaces_join {word : Token} (hword : word.IsKeyword "JOIN") (r : Relation)
    (hends : Ends xs) (i : Nat) (before : Option Token) :
    RelationRef.ofPlaces (placesAt i before 0 (word :: (r.tokens ++ xs))) =
      r.read (i + 1) :: RelationRef.ofPlaces
        (placesAt (i + 1 + r.tokens.length) (r.tokens.getLast?.or (some word)) 0 xs) := by
  obtain ⟨rest, hread, -, -, hrest⟩ := r.read_eq hends (i + 1) (some word)
  have hno : eqIgnoreCase "JOIN" "FROM" = false := by decide
  have hlist := @RelationRef.readList_of_last true false _ _ _ hread (Bool.false_and _)
  rw [ofPlaces_open hword (by decide) (by rw [hno, Bool.false_and]), hno, hlist, ← hrest]
  rfl

/-- Once the list that `FROM` began is read no more, the relations behind `JOIN` are found. -/
theorem ofPlaces_linkTokens (ls : List Link) (i : Nat) (before : Option Token) :
    RelationRef.ofPlaces (placesAt i before 0 (linkTokens ls)) = foundLinks i false ls := by
  induction ls generalizing i before with
  | nil => exact RelationRef.ofPlaces.eq_1
  | cons l ls ih =>
      show RelationRef.ofPlaces (placesAt i before 0 (l.tokens ++ linkTokens ls)) = _
      cases l with
      | comma mark r hmark =>
          have hpass : NoClause (Link.comma mark r hmark).tokens := by
            refine .append (.token ?_ ?_ ?_) (.append r.noClause .nil)
            · exact isAnyWord_of_kind (by rw [hmark]; decide) (by rw [hmark]; decide) _
            · rw [hmark]
              decide
            · rw [hmark]
              decide
          rw [ofPlaces_pass hpass, ih]
          rfl
      | join words word r constraint hwords hword =>
          have htokens : (Link.join words word r constraint hwords hword).tokens ++ linkTokens ls =
              words ++ word :: (r.tokens ++
                ((Link.join words word r constraint hwords hword).behind ++ linkTokens ls)) := by
            simp [Link.tokens, Link.lead, Link.relation]
          have hends := (Link.join words word r constraint hwords hword).ends_behind ls
          have hbehind := (Link.join words word r constraint hwords hword).noClause_behind
          rw [htokens, ofPlaces_pass (noClause_joinWords hwords), ofPlaces_join hword r hends,
            ofPlaces_pass hbehind, ih]
          simp [foundLinks, Link.isJoin, Link.tokens, Link.lead, Link.relation, Nat.add_assoc,
            Nat.add_comm 1]

theorem startsWithComma_of_join {l : Link} (h : l.isJoin = true) (ls : List Link) :
    startsWithComma (linkTokens (l :: ls)) = false := by
  cases l with
  | comma => cases h
  | join words word r constraint hwords hword =>
      cases words with
      | nil => exact beq_eq_false_iff_ne.mpr (by rw [hword.1]; decide)
      | cons w ws =>
          obtain ⟨text, -, hw⟩ := hwords w List.mem_cons_self
          exact beq_eq_false_iff_ne.mpr (by rw [hw.1]; decide)

/-- Where the list ends behind a relation, only relations behind `JOIN` are still found. -/
theorem readList_of_end {r : Relation} {ls : List Link}
    (h : (r.isPlain && startsWithComma (linkTokens ls)) = false) (i : Nat)
    (before : Option Token) :
    let clause := RelationRef.readList true true (placesAt i before 0 (r.tokens ++ linkTokens ls))
    clause.1 ++ RelationRef.ofPlaces clause.2 =
      r.read i :: foundLinks (i + r.tokens.length) false ls := by
  obtain ⟨rest, hread, hnext, -, hrest⟩ := r.read_eq (ends_linkTokens ls) i before
  rw [RelationRef.readList_of_last hread (by rw [hnext, h, Bool.and_false])]
  show [r.read i] ++ RelationRef.ofPlaces rest = _
  rw [hrest, ofPlaces_linkTokens]
  rfl

/-- The list that `FROM` begins goes on behind every comma until a `JOIN` or an alias that is not
read. -/
theorem readList_linkTokens (r : Relation) (ls : List Link) (i : Nat) (before : Option Token) :
    let clause := RelationRef.readList true true (placesAt i before 0 (r.tokens ++ linkTokens ls))
    clause.1 ++ RelationRef.ofPlaces clause.2 =
      r.read i :: foundLinks (i + r.tokens.length) r.isPlain ls := by
  induction ls generalizing r i before with
  | nil => exact readList_of_end (Bool.and_false _) i before
  | cons l ls ih =>
      cases hr : r.isPlain with
      | false => exact readList_of_end (by rw [hr, Bool.false_and]) i before
      | true =>
          cases l with
          | join words word r' constraint hwords hword =>
              have hcomma := startsWithComma_of_join (l := .join words word r' constraint hwords
                hword) rfl ls
              exact readList_of_end (by rw [hcomma, Bool.and_false]) i before
          | comma mark r' hmark =>
              have hopen : mark.kind ≠ .leftParen := by rw [hmark]; decide
              have hclose : mark.kind ≠ .rightParen := by rw [hmark]; decide
              have htokens : linkTokens (.comma mark r' hmark :: ls) =
                  mark :: (r'.tokens ++ linkTokens ls) := by
                simp [linkTokens, Link.tokens, Link.lead, Link.relation, Link.behind]
              have hcomma : startsWithComma (linkTokens (.comma mark r' hmark :: ls)) = true :=
                beq_iff_eq.mpr hmark
              obtain ⟨rest, hread, hnext, hplain, -⟩ :=
                r.read_eq (ends_linkTokens (.comma mark r' hmark :: ls)) i before
              rw [hcomma, hr] at hnext
              rw [RelationRef.readList_of_comma hread hnext, hplain hr, htokens,
                placesAt_cons hopen hclose, List.drop_succ_cons, List.drop_zero]
              show r.read i :: (_ ++ RelationRef.ofPlaces _) = _
              rw [ih]
              simp [foundLinks, Link.isJoin, Link.tokens, Link.lead, Link.relation, Link.behind,
                Nat.add_assoc, Nat.add_comm 1]

end Reading

namespace FromList

variable (q : FromList)

/-- The token before `FROM`. -/
theorem isDistinct_eq :
    ((q.select :: q.items).getLast?.or none).any (·.isWord "DISTINCT") = q.isDistinct := by
  rw [Option.or_none, List.getLast?_cons, isDistinct]
  cases q.items.getLast? with
  | none =>
      have hno : eqIgnoreCase "SELECT" "DISTINCT" = false := by decide
      show q.select.isWord "DISTINCT" = false
      rw [q.hselect.isWord, hno]
  | some t => rfl

/-- The relations that are found are all relations as they are written exactly where the clause is
regular. -/
theorem references_found :
    RelationRef.ofTokens q.tokens = q.found ∧ (q.found = q.written ↔ q.Regular) := by
  refine ⟨?_, q.found_eq_iff⟩
  have hhead : NoClause (q.select :: q.items) :=
    .append (noWords_of_keyword q.hselect (by decide)) q.hitems
  have hindex : 0 + (q.select :: q.items).length + 1 = q.start := by simp [start]
  have hfrom : eqIgnoreCase "FROM" "FROM" = true := by decide
  show RelationRef.ofPlaces (placesAt 0 none 0
    ((q.select :: q.items) ++ q.source :: (q.first.tokens ++ linkTokens q.rest))) = _
  rw [ofPlaces_pass hhead]
  unfold found
  cases hdistinct : q.isDistinct with
  | true =>
      -- `FROM` begins nothing here, so the list is never read.
      have hclosed : RelationRef.opensClause ⟨0 + (q.select :: q.items).length, 0,
          (q.select :: q.items).getLast?.or none, q.source⟩ = false := by
        rw [RelationRef.opensClause, q.hsource.isWord, hfrom, q.isDistinct_eq, hdistinct]
        exact Bool.and_false _
      have hkind : q.source.kind = .keyword := q.hsource.1
      rw [placesAt_cons (by rw [hkind]; decide) (by rw [hkind]; decide), RelationRef.ofPlaces,
        hclosed, if_neg Bool.false_ne_true, ofPlaces_pass q.first.noClause, ofPlaces_linkTokens,
        hindex]
      rfl
  | false =>
      have hbefore : (eqIgnoreCase "FROM" "FROM" &&
          ((q.select :: q.items).getLast?.or none).any (·.isWord "DISTINCT")) = false := by
        rw [q.isDistinct_eq, hdistinct, Bool.and_false]
      rw [ofPlaces_open q.hsource (by decide) hbefore, hfrom, hindex]
      exact readList_linkTokens q.first q.rest q.start (some q.source)

/-- The relation behind a comma that stands behind a `JOIN` is not found. -/
theorem references_of_comma_behind_join :
    ∃ q : FromList, (tokenize "SELECT * FROM a JOIN b, c").toOption = some q.tokens ∧
      q.written.map (·.name) = ["a", "b", "c"] ∧
      (RelationRef.ofTokens q.tokens).map (·.name) = ["a", "b"] := by
  let name (text : String) (h : Token.IsBareName ⟨.identifier, text, ⟨0, 0⟩, ⟨1, 1⟩⟩)
      (span : Span) (position : Position) : Relation :=
    .listed ⟨⟨.identifier, text, span, position⟩, none, .inl h⟩
  refine ⟨{
    select := ⟨.keyword, "SELECT", ⟨0, 6⟩, ⟨1, 1⟩⟩
    items := [⟨.star, "*", ⟨7, 8⟩, ⟨1, 8⟩⟩]
    source := ⟨.keyword, "FROM", ⟨9, 13⟩, ⟨1, 10⟩⟩
    first := name "a" ⟨rfl, by decide⟩ ⟨14, 15⟩ ⟨1, 15⟩
    rest := [
      .join [] ⟨.keyword, "JOIN", ⟨16, 20⟩, ⟨1, 17⟩⟩ (name "b" ⟨rfl, by decide⟩ ⟨21, 22⟩ ⟨1, 22⟩)
        none nofun ⟨rfl, by decide⟩,
      .comma ⟨.comma, ",", ⟨22, 23⟩, ⟨1, 23⟩⟩ (name "c" ⟨rfl, by decide⟩ ⟨24, 25⟩ ⟨1, 25⟩) rfl]
    hselect := ⟨rfl, by decide⟩
    hitems := .token (by decide) (by decide) (by decide)
    hsource := ⟨rfl, by decide⟩ }, ?_, ?_, ?_⟩
  · decide +kernel
  · rfl
  · decide +kernel

end FromList

end Grammar

end TypedSql

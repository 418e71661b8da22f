import TypedSql.Scope.Basic
import TypedSql.Token.Nesting

/-!
# Narrowing a scope

A statement sees the relations that it names outside all parentheses, each under its name and its
alias.
-/

namespace TypedSql

open Token

/-! ## Relation references

Where a statement names relations: behind `FROM`, `JOIN`, `INTO` and `UPDATE` outside all
parentheses.  Behind `FROM` a list of references may stand.  A subquery or a function in place of a
relation is a derived reference, of whose columns nothing is known. -/

/-- A relation that a statement names. -/
structure RelationRef where
  /-- The last part of the name; empty for a subquery. -/
  name : String
  asName : Option String
  /-- Where the name stands, or the parenthesis of the subquery. -/
  position : Position
  /-- A subquery or a function. -/
  derived : Bool
  /-- The indices of the tokens that name the relation. -/
  tokens : List Nat
deriving DecidableEq, Repr

namespace RelationRef

/-- The words that can follow a relation and are no alias. -/
def notAlias : List String := ["INDEXED", "DO"]

/-- The alias at the beginning of the list, with or without `AS`. -/
def readAlias (places : List Place) : Option Place × List Place :=
  match if nextIsWord "AS" places then places.drop 1 else places with
  | [] => (none, places)
  | p :: rest =>
      if p.token.isName && !p.token.isAnyWord notAlias then (some p, rest) else (none, places)

/-- The parts of a name behind the first one, and what follows the name. -/
def readParts : List Place → List Place × List Place
  | dot :: part :: rest =>
      if dot.token.kind = .dot && part.token.isName then
        (part :: (readParts rest).1, (readParts rest).2)
      else ([], dot :: part :: rest)
  | rest => ([], rest)

/-- The reference at the beginning of the list, and what follows it.  A parenthesis behind the
name makes it a function where one is allowed. -/
def read? (allowFunction : Bool) (places : List Place) : Option (RelationRef × List Place) :=
  match places with
  | [] => none
  | first :: rest =>
      if first.token.kind = .leftParen then
        (groupPlaces? places).map fun group =>
          let (asPlace, rest) := readAlias group.2
          (⟨"", asPlace.map (·.token.value), first.token.position, true,
            (asPlace.map (·.index)).toList⟩, rest)
      else if first.token.isName then
        let (parts, rest) := readParts rest
        let name := parts.getLastD first
        let behind? : Option (Bool × List Place) :=
          if allowFunction && nextIsKind .leftParen rest then
            (groupPlaces? rest).map fun group => (true, group.2)
          else some (false, rest)
        behind?.map fun behind =>
          let (asPlace, rest) := readAlias behind.2
          (⟨name.token.value, asPlace.map (·.token.value), name.token.position, behind.1,
            first.index :: parts.map (·.index) ++ (asPlace.map (·.index)).toList⟩, rest)
      else none

/-! ### Reading a reference uses up tokens -/

theorem length_readAlias_le (places : List Place) :
    (readAlias places).2.length ≤ places.length := by
  unfold readAlias
  split
  · simp
  · next p rest h =>
      have : rest.length < places.length := by
        split at h
        · have := congrArg List.length h
          simp at this
          omega
        · subst h; simp
      split
      · exact Nat.le_of_lt this
      · simp

theorem length_readParts_le (places : List Place) :
    (readParts places).2.length ≤ places.length := by
  fun_induction readParts places with
  | case1 _ _ _ _ ih => simp at ih ⊢; omega
  | case2 => simp
  | case3 => simp

theorem length_of_read? {allowFunction : Bool} {places rest : List Place} {r : RelationRef}
    (h : read? allowFunction places = some (r, rest)) : rest.length < places.length := by
  unfold read? at h
  split at h
  · simp at h
  · next first more =>
      split at h
      · obtain ⟨g, hg, he⟩ := Option.map_eq_some_iff.mp h
        have h1 := length_rest_of_groupPlaces? hg
        have h2 := length_readAlias_le g.2
        simp at he
        rw [← he.2]
        omega
      · split at h
        · obtain ⟨b, hb, he⟩ := Option.map_eq_some_iff.mp h
          have h1 := length_readParts_le more
          have h2 := length_readAlias_le b.2
          have h3 : b.2.length ≤ (readParts more).2.length := by
            split at hb
            · obtain ⟨g, hg, rfl⟩ := Option.map_eq_some_iff.mp hb
              exact Nat.le_of_lt (length_rest_of_groupPlaces? hg)
            · simp only [Option.some.injEq] at hb
              subst hb
              exact Nat.le_refl _
          simp at he
          rw [← he.2]
          simp only [List.length_cons]
          omega
        · simp at h

/-- The references at the beginning of the list, with commas between them where a list is
allowed, and what follows them. -/
def readList (allowFunction allowList : Bool) (places : List Place) :
    List RelationRef × List Place :=
  match _h : read? allowFunction places with
  | none => ([], places)
  | some (r, rest) =>
      if allowList && nextIsKind .comma rest then
        let (more, rest) := readList allowFunction allowList (rest.drop 1)
        (r :: more, rest)
      else ([r], rest)
termination_by places.length
decreasing_by
  have := length_of_read? _h
  simp
  omega

theorem length_readList_le (allowFunction allowList : Bool) (places : List Place) :
    (readList allowFunction allowList places).2.length ≤ places.length := by
  induction hn : places.length using Nat.strongRecOn generalizing places with
  | ind n ih =>
      subst hn
      unfold readList
      split
      · simp
      · next r rest h =>
          have hr := length_of_read? h
          split
          · have := ih (rest.drop 1).length (by simp; omega) (rest.drop 1) rfl
            simp at this ⊢
            omega
          · simp
            omega

theorem readList_of_last {allowFunction allowList : Bool} {places rest : List Place}
    {r : RelationRef} (h : read? allowFunction places = some (r, rest))
    (hlast : (allowList && nextIsKind .comma rest) = false) :
    readList allowFunction allowList places = ([r], rest) := by
  rw [readList]
  split
  · next hnone => cases h.symm.trans hnone
  · next hsome =>
      cases h.symm.trans hsome
      rw [hlast]
      rfl

theorem readList_of_comma {allowFunction : Bool} {places rest : List Place} {r : RelationRef}
    (h : read? allowFunction places = some (r, rest)) (hcomma : nextIsKind .comma rest = true) :
    readList allowFunction true places =
      (r :: (readList allowFunction true (rest.drop 1)).1,
        (readList allowFunction true (rest.drop 1)).2) := by
  rw [readList]
  split
  · next hnone => cases h.symm.trans hnone
  · next hsome =>
      cases h.symm.trans hsome
      rw [hcomma]
      rfl

/-- The words in front of relations. -/
def clauseWords : List String := ["FROM", "JOIN", "INTO", "UPDATE"]

/-- A clause with relations begins here.  The `FROM` of `IS DISTINCT FROM` begins none. -/
def opensClause (p : Place) : Bool :=
  p.isTopWord clauseWords && !(p.token.isWord "FROM" && p.before.any (·.isWord "DISTINCT"))

/-- The list behind the word that begins a clause: `UPDATE OR` and one more word are skipped. -/
def clauseBody (p : Place) (rest : List Place) : List Place :=
  if p.token.isWord "UPDATE" && nextIsWord "OR" rest then rest.drop 2 else rest

/-- The references of the clauses in the list. -/
def ofPlaces : List Place → List RelationRef
  | [] => []
  | p :: rest =>
      if opensClause p then
        let clause := readList (!p.token.isWord "INTO") (p.token.isWord "FROM") (clauseBody p rest)
        clause.1 ++ ofPlaces clause.2
      else ofPlaces rest
termination_by places => places.length
decreasing_by
  · have h1 := length_readList_le (!p.token.isWord "INTO") (p.token.isWord "FROM")
      (clauseBody p rest)
    have h2 : (clauseBody p rest).length ≤ rest.length := by
      unfold clauseBody
      split <;> simp
    simp
    omega
  · simp

/-- The relations that the tokens name, from left to right. -/
def ofTokens (tokens : List Token) : List RelationRef := ofPlaces (places tokens)

end RelationRef

end TypedSql

namespace TypedSql.Scope

/-! ## What a statement sees

A relation that is named again under an alias is there twice; one that is named again without an
alias is not.  Derived references, and names that are not in the scope, are opaque. -/

/-- Adds an opaque name where there is one. -/
def addOpaque? (s : Scope) (name : Option String) : Scope :=
  match name with
  | some name => s.addOpaque name
  | none => s

/-- Makes an alias, where there is one, lead to a slot. -/
def addAlias? (s : Scope) (name : Option String) (slot : Nat) : Scope :=
  match name with
  | some name => s.addAlias name slot
  | none => s

/-- Adds a relation that is there under its name already: under the alias, unless the alias is
taken. -/
def addAgain (s : Scope) (e : Entry) (asName : Option String) : Scope :=
  match asName with
  | none => s
  | some name =>
      if (s.slot? name).isSome then s
      else { s with entries := s.entries ++ [e] }.addAlias name s.entries.length

/-- Adds what a reference names in the scope `base`. -/
def addReference (base s : Scope) (r : RelationRef) : Scope :=
  if r.derived then s.addOpaque? r.asName
  else
    match base.entry? r.name with
    | none =>
        let s := (s.addOpaque r.name).addOpaque? r.asName
        { s with missing := s.missing ++ [⟨r.name, r.position⟩] }
    | some e =>
        if (s.slot? r.name).isSome then s.addAgain e r.asName
        else (s.addEntry e).addAlias? r.asName (s.slotFor e)

/-- The scope of what the tokens name in `base`. -/
def narrow (base : Scope) (tokens : List Token) : Scope :=
  (RelationRef.ofTokens tokens).foldl base.addReference empty

end TypedSql.Scope

import TypedSql.Proofs.Reference.Filtered

/-!
# A column in a list

A statement `SELECT 1 AS "k" FROM "t" WHERE "t"."c" IN (…)`, with or without `NOT`, names one
relation.  The items of its list are arbitrary balanced tokens, so a list can hold calls,
subqueries and parameters of every kind.  A token that begins an item finds the column in front of
the list, and the number of items.

Main definition: `Grammar.InList`.  Main statements: `InList.references_eq`,
`InList.inListColumn?_eq`, `InList.inListLength?_eq`.
-/

namespace TypedSql

open Query Text Token

namespace Grammar

/-! ## The statement -/

/-- The tokens are an item of a list: not empty, balanced, and without a comma outside its
groups. -/
def IsItem (xs item : List Token) : Prop := xs = item ∧ item ≠ [] ∧ Outside NoComma item

theorem apart_isItem : Separated.Apart IsItem := by
  rintro _ item ⟨rfl, hne, hitem⟩
  exact ⟨hne, hitem⟩

/-- A statement `SELECT 1 AS "k" FROM "t" WHERE "t"."c" IN (…)`, with or without `NOT`. -/
structure InList where
  select : Token
  one : Token
  asWord : Token
  asName : Token
  source : Token
  table : Token
  filter : Token
  qualifier : Token
  dot : Token
  column : Token
  notWord : Option Token
  inWord : Token
  openParen : Token
  inner : List Token
  closeParen : Token
  items : List (List Token)
  hselect : select.IsKeyword "SELECT"
  hone : one.kind = .integer
  hasWord : asWord.IsKeyword "AS"
  hasName : asName.kind = .quotedIdentifier
  hsource : source.IsKeyword "FROM"
  htable : table.kind = .quotedIdentifier
  hfilter : filter.IsKeyword "WHERE"
  hqualifier : qualifier.kind = .quotedIdentifier
  hsame : qualifier.value = table.value
  hdot : dot.kind = .dot
  hcolumn : column.kind = .quotedIdentifier
  hnotWord : ∀ t ∈ notWord, t.IsKeyword "NOT"
  hinWord : inWord.IsKeyword "IN"
  hopen : openParen.kind = .leftParen
  hclose : closeParen.kind = .rightParen
  hitems : Separated IsItem inner items

namespace InList

variable (q : InList)

/-- What stands in front of `FROM`. -/
def projection : List Token := [q.select, q.one, q.asWord, q.asName]

/-- What stands between the relation and the list. -/
def condition : List Token :=
  [q.filter, q.qualifier, q.dot, q.column] ++ (q.notWord.toList ++ [q.inWord])

/-- The list in its parentheses. -/
def group : List Token := q.openParen :: (q.inner ++ [q.closeParen])

/-- The relation as a list of one. -/
def listed : Listed := ⟨q.table, none, .inr (.inl q.htable)⟩

/-- The tokens of the statement. -/
def tokens : List Token :=
  q.projection ++ q.source :: (q.listed.tokens ++ (q.condition ++ q.group))

/-- What stands in front of the list. -/
def lead : List Token := q.projection ++ q.source :: (q.listed.tokens ++ q.condition)

theorem tokens_eq : q.tokens = q.lead ++ q.group := by
  simp [tokens, lead]

/-- The beginning of the statement. -/
def filtered : Filtered where
  select := q.select
  one := q.one
  asWord := q.asWord
  asName := q.asName
  source := q.source
  table := q.table
  filter := q.filter
  hselect := q.hselect
  hone := q.hone
  hasWord := q.hasWord
  hasName := q.hasName
  hsource := q.hsource
  htable := q.htable
  hfilter := q.hfilter

/-- What stands between the beginning and the list. -/
def test : List Token := [q.qualifier, q.dot, q.column] ++ (q.notWord.toList ++ [q.inWord])

theorem lead_eq : q.lead = q.filtered.tokens ++ q.test := rfl

theorem tokens_eq_filtered : q.tokens = q.filtered.tokens ++ (q.test ++ q.group) := by
  rw [tokens_eq, lead_eq, List.append_assoc]

theorem ofWords_test : ∀ t ∈ q.test, OfWords ["NOT", "IN"] t := by
  intro t ht
  simp only [test, List.mem_append, List.mem_cons, List.not_mem_nil, or_false,
    Option.mem_toList] at ht
  rcases ht with (rfl | rfl | rfl) | hnot | rfl
  · exact .inl (by rw [q.hqualifier]; decide)
  · exact .inl (by rw [q.hdot]; decide)
  · exact .inl (by rw [q.hcolumn]; decide)
  · exact .inr ⟨"NOT", by decide, q.hnotWord t hnot⟩
  · exact .inr ⟨"IN", by decide, q.hinWord⟩

theorem ofWords_lead : ∀ t ∈ q.lead, OfWords ["SELECT", "AS", "FROM", "WHERE", "NOT", "IN"] t := by
  intro t ht
  rw [lead_eq] at ht
  rcases List.mem_append.mp ht with ht | ht
  · exact (q.filtered.ofWords t ht).mono (by decide)
  · exact (q.ofWords_test t ht).mono (by decide)

theorem balanced_inner : Balanced q.inner := q.hitems.balanced apart_isItem

/-- Whatever the items are, outside of the list stand only these words. -/
theorem outside_condition {words : List String}
    (hwords : (["NOT", "IN"].any fun w => words.any (eqIgnoreCase w)) = false) :
    Outside (fun t => t.isAnyWord words = false) (q.test ++ q.group) :=
  (OfWords.outside q.ofWords_test hwords).append (noWords_group q.hopen q.hclose q.balanced_inner)

/-- The statement names its one relation. -/
theorem references_eq : RelationRef.ofTokens q.tokens = [q.listed.reference 5] := by
  rw [tokens_eq_filtered]
  exact q.filtered.references_eq (q.outside_condition (by decide))

/-! ## The items -/

variable {q}

/-- An item of the list stands behind its parenthesis or behind a comma. -/
structure ItemAt (q : InList) (j : Nat) (item earlier later : List Token) : Prop where
  inner_eq : q.inner = earlier ++ (item ++ later)
  balanced : Balanced earlier
  behind : ∀ t ∈ earlier.getLast?, t.kind = .comma
  /-- What stands before the item are the items before it, with their commas. -/
  before : j = 0 ∧ earlier = [] ∨ ∃ before comma, comma.Is .comma "," ∧
    earlier = before ++ [comma] ∧ Separated IsItem before (q.items.take j)

theorem exists_itemAt {j : Nat} {item : List Token} (hj : q.items[j]? = some item) :
    ∃ earlier later, q.ItemAt j item earlier later := by
  obtain ⟨xs, earlier, later, h⟩ := q.hitems.split hj
  obtain ⟨rfl, -⟩ := h.item
  exact ⟨earlier, later, h.tokens_eq, h.balanced apart_isItem, h.last, h.before.imp_right (·.2)⟩

theorem startsWith_in (q : InList) : startsWith "IN" q.lead.reverse = true := by
  have hlead : q.lead.reverse.head? = some q.inWord := by
    simp [lead, condition]
  rw [startsWith, hlead, Option.any_some, q.hinWord.isWord]
  decide

/-- In front of the list, behind `NOT` or not, stands the column. -/
theorem columnBefore?_lead (q : InList) :
    Neighbor.columnBefore? (skip "NOT" (q.lead.reverse.drop 1)) =
      some ⟨some q.table.value, q.column.value⟩ := by
  have hlead : q.lead.reverse.drop 1 = q.notWord.toList ++
      q.column :: q.dot :: q.qualifier :: q.filtered.tokens.reverse := by
    rw [lead_eq, test]
    cases q.notWord <;> simp
  rw [hlead, Neighbor.skip_optional q.hnotWord (isWord_quoted q.hcolumn _),
    Neighbor.columnBefore?_eq q.hqualifier q.hdot q.hcolumn, q.hsame]

namespace ItemAt

variable {j : Nat} {item earlier later : List Token} (h : q.ItemAt j item earlier later)
include h

theorem tokens_eq :
    q.tokens = q.lead ++ q.openParen :: earlier ++ (item ++ later ++ q.closeParen :: []) := by
  rw [q.tokens_eq, group, h.inner_eq]
  simp

/-- The first token of the item finds the column. -/
theorem inListColumn?_eq :
    Neighbor.inListColumn? q.tokens (q.lead ++ q.openParen :: earlier).length =
      some ⟨some q.table.value, q.column.value⟩ := by
  have htake : (q.lead ++ q.openParen :: earlier ++ (item ++ later ++ [q.closeParen])).take
      q.lead.length = q.lead := by
    rw [List.append_assoc, List.take_left]
  rw [h.tokens_eq, Neighbor.inListColumn?, Neighbor.inListOpen?_eq q.hopen h.balanced h.behind,
    if_pos q.startsWith_in, Option.bind_some, htake, q.columnBefore?_lead]

/-- The first token of the item finds the number of items. -/
theorem inListLength?_eq :
    Neighbor.inListLength? q.tokens (q.lead ++ q.openParen :: earlier).length =
      some q.items.length := by
  have hinner : earlier ++ (item ++ later) = q.inner := h.inner_eq.symm
  rw [h.tokens_eq, Neighbor.inListLength?_eq q.hopen q.hclose h.balanced h.behind
    (hinner ▸ q.balanced_inner) q.startsWith_in, hinner, q.hitems.length_pieces apart_isItem]

end ItemAt

end InList

end Grammar

end TypedSql

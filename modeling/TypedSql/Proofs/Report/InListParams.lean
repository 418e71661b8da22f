import TypedSql.Proofs.Query.Occurrences
import TypedSql.Proofs.Reference.InList
import TypedSql.Proofs.Report.Overrides
import TypedSql.Proofs.Report.ParamTypes

/-!
# Parameters in a list

In `WHERE "t"."c" IN (…)` a parameter that is an item of its own takes the type of the column and
knows how many items there are.  `sqlc.slice(x)` stands for a list of such values.  What the other
items hold makes no difference, unless one of them has used the name of the slice before.

Main statement: `Analyzer.params_of_inList`.
-/

namespace TypedSql

open Query Text Token

namespace Grammar

/-- The item is a lone `?`. -/
def IsMark (mark : Token) (item : List Token) : Prop := item = [mark] ∧ mark.Is .parameter "?"

/-- The item is `sqlc.slice(name)`. -/
def IsSlice (name : String) (item : List Token) : Prop :=
  ∃ head dot function openParen argument closeParen : Token,
    item = [head, dot, function, openParen, argument, closeParen] ∧ head.isWord "sqlc" = true ∧
      dot.kind = .dot ∧ function.isWord "slice" = true ∧ openParen.kind = .leftParen ∧
      (argument.isName = true ∨ argument.kind = .string) ∧ argument.value = name ∧
      closeParen.kind = .rightParen

theorem IsMark.writtenAt {mark : Token} {item : List Token} (h : IsMark mark item)
    (rest : List Token) :
    (Param.ofToken mark).WrittenAt (item ++ rest) := by
  obtain ⟨rfl, hkind, -⟩ := h
  exact .inr ⟨mark, rest, rfl, hkind, rfl⟩

theorem IsMark.paramPlaces_append {mark : Token} {item : List Token} (h : IsMark mark item)
    (rest : List Token) : paramPlaces (item ++ rest) = .ofToken mark :: paramPlaces rest := by
  obtain ⟨rfl, hkind, -⟩ := h
  have hword : mark.isWord "sqlc" = false := by
    rw [isWord, hkind]
    rfl
  rw [List.singleton_append, paramPlaces, macroParam?_of_ne hword]
  simp only [hkind, if_true]

/-- What a slice writes. -/
theorem IsSlice.macroParam? {name : String} {item : List Token} (h : IsSlice name item) :
    ∃ head tail, item = head :: tail ∧ ∀ rest,
      Query.macroParam? (head :: (tail ++ rest)) =
        some ⟨.named name, head.position, true, false⟩ := by
  obtain ⟨head, dot, function, openParen, argument, closeParen, rfl, hhead, hdot, hfunction, hopen,
    hargument, rfl, hclose⟩ := h
  have hname : (lowerCase function.text, true, false) ∈ macroNames := by
    rw [isWord, Bool.and_eq_true] at hfunction
    rw [eqIgnoreCase_iff.mp hfunction.2]
    decide
  exact ⟨head, _, rfl, fun rest => macroParam?_eq_some_iff.mpr
    ⟨_, rest, rfl, .mk hhead hdot hname hopen hargument hclose⟩⟩

/-- A parameter of a list is a parameter of one of its items. -/
theorem exists_of_mem_paramPlaces {ts : List Token} {items : List (List Token)}
    (h : Separated IsItem ts items) {p : Param} (hp : p ∈ paramPlaces ts) :
    ∃ item ∈ items, p ∈ paramPlaces item := by
  induction h with
  | nil =>
      rw [paramPlaces] at hp
      cases hp
  | single hx =>
      obtain ⟨rfl, -⟩ := hx
      exact ⟨_, List.mem_singleton_self _, hp⟩
  | more hx hcomma _ ih =>
      obtain ⟨rfl, -⟩ := hx
      rw [paramPlaces_comma hcomma] at hp
      rcases List.mem_append.mp hp with hp | hp
      · exact ⟨_, List.mem_cons_self, hp⟩
      · obtain ⟨item, hitem, hp⟩ := ih hp
        exact ⟨item, List.mem_cons_of_mem _ hitem, hp⟩

namespace InList

variable {q : InList} {j : Nat} {item earlier later : List Token}

namespace ItemAt

variable (h : q.ItemAt j item earlier later)
include h

/-- The parameters of the statement are those of earlier items, and those from the item on. -/
theorem paramPlaces_eq :
    ∃ places, paramPlaces q.tokens = places ++ paramPlaces (item ++ (later ++ [q.closeParen])) ∧
      ∀ p ∈ places, ∃ other ∈ q.items.take j, p ∈ paramPlaces other := by
  have hlead : ∀ t ∈ q.lead ++ [q.openParen], t.isWord "sqlc" = false := by
    intro t ht
    rcases List.mem_append.mp ht with ht | ht
    · have hnone : t.isAnyWord ["sqlc"] = false := (q.ofWords_lead t ht).isAnyWord (by decide)
      exact isWord_of_isAnyWord hnone (List.mem_singleton_self _)
    · cases List.mem_singleton.mp ht
      rw [isWord, q.hopen]
      rfl
  have hnoMark : (q.lead ++ [q.openParen]).filter (·.kind == .parameter) = [] := by
    refine List.filter_eq_nil_iff.mpr fun t ht => Bool.eq_false_iff.mp (beq_eq_false_iff_ne.mpr ?_)
    rcases List.mem_append.mp ht with ht | ht
    · exact (q.ofWords_lead t ht).kind_ne (by decide)
    · cases List.mem_singleton.mp ht
      rw [q.hopen]
      decide
  have htokens : q.tokens =
      (q.lead ++ [q.openParen]) ++ (earlier ++ (item ++ (later ++ [q.closeParen]))) := by
    rw [h.tokens_eq]
    simp
  rw [htokens, paramPlaces_append hlead, hnoMark, List.map_nil, List.nil_append]
  rcases h.before with ⟨-, rfl⟩ | ⟨before, comma, hcomma, rfl, hbefore⟩
  · exact ⟨[], rfl, List.forall_mem_nil _⟩
  · refine ⟨paramPlaces before, ?_, fun p hp => exists_of_mem_paramPlaces hbefore hp⟩
    rw [List.append_assoc, List.singleton_append, paramPlaces_comma hcomma]

/-- A parameter that an item begins with is one of the statement, unless one that stands before has
the same value. -/
theorem mem_readParams {p : Param} {more : List Param}
    (hp : paramPlaces (item ++ (later ++ [q.closeParen])) = p :: more)
    (hnew : ∀ other ∈ q.items.take j, ∀ o ∈ paramPlaces other,
      o.binding.sameValue p.binding = false) :
    p ∈ readParams q.tokens := by
  obtain ⟨places, hplaces, hearlier⟩ := h.paramPlaces_eq
  rw [readParams, hplaces, hp]
  refine mem_foldl_addParam fun o ho => ?_
  obtain ⟨other, hother, ho⟩ := hearlier o ho
  exact hnew other hother o ho

/-- In front of the item stands no word that says what it is. -/
theorem getLast?_before :
    ∀ t ∈ (q.tokens.take (q.lead ++ q.openParen :: earlier).length).getLast?,
      t.isAnyWord ["LIMIT", "OFFSET"] = false := by
  rw [h.tokens_eq, List.take_left]
  intro t ht
  exact (Neighbor.getLast?_opened q.hopen h.behind t ht).isAnyWord _

end ItemAt

end InList

end Grammar

/-! ## The results -/

namespace Analyzer

variable {a : Analyzer} {c : Catalog} {b : Block} {q : Grammar.InList} {t : Table} {d : Column}

theorem Holds.oneSegment_inList (h : a.Holds c b q.tokens) :
    a.OneSegment c b q.tokens ((Scope.ofCatalog a.overrides c).narrow q.tokens) := by
  rw [q.tokens_eq_filtered] at h ⊢
  exact h.oneSegment_filtered (q.outside_condition (by decide))

/-- A parameter that begins an item of the list takes the type of the column. -/
theorem Holds.hasResult_inList (h : a.Holds c b q.tokens) (ht : c.named? q.table.value = some t)
    (hd : t.column? q.column.value = some d) {j : Nat} {first : Token}
    {item earlier later : List Token} (hitem : q.ItemAt j (first :: item) earlier later) {p : Param}
    (hwritten : p.WrittenAt (first :: item ++ (later ++ [q.closeParen])))
    (hp : p ∈ readParams q.tokens) :
    ∃ name, a.HasResult b p ⟨name, p.binding,
      markedType p (if p.variadic then (a.overrides.typeOf t.name d).toList
        else a.overrides.typeOf t.name d), p.variadic, some q.items.length⟩ := by
  have htokens : q.tokens = q.lead ++ q.openParen :: earlier ++
      first :: (item ++ (later ++ [q.closeParen])) := by
    rw [hitem.tokens_eq]
    simp
  have hpositions := (tokenizeAt_eq_ok_iff.mp h.tokenized).positions_increase
  rw [htokens] at hpositions
  have hindex : paramIndex? q.tokens p = some (q.lead ++ q.openParen :: earlier).length := by
    have hfound := hwritten.foundAt hpositions
    rw [htokens]
    exact hfound.index
  have hlength : Neighbor.inListLength? q.tokens (q.lead ++ q.openParen :: earlier).length =
      some q.items.length := hitem.inListLength?_eq
  have hhint := ParamContext.hint?_of_inList
    (c := a.context c q.tokens ((Scope.ofCatalog a.overrides c).narrow q.tokens))
    (InsertTarget.ofTokens c q.tokens) hitem.getLast?_before hitem.inListColumn?_eq p.variadic
  rw [(context_columnType? ht hd q.references_eq rfl rfl rfl _).2, Option.map_some] at hhint
  obtain ⟨name, hresult⟩ := h.oneSegment_inList.hasResult hp hindex
  rw [hhint, ResultParam.ofHint, hindex, Option.bind_some, hlength] at hresult
  exact ⟨name, hresult⟩

/-- In the list behind a column of a table, every item that is a lone `?` has a result of the type
of the column, which is not variadic and knows how many items there are.  So has every item
`sqlc.slice(x)` whose name no item before it has used; its result is variadic, and where the type of
the column is known it is the list of this type that is not NULL. -/
theorem params_of_inList (h : a.Holds c b q.tokens) (ht : c.named? q.table.value = some t)
    (hd : t.column? q.column.value = some d) {j : Nat} {item : List Token}
    (hj : q.items[j]? = some item) :
    let type := a.overrides.typeOf t.name d
    (Scope.ofCatalog a.overrides c).lookup (some q.table.value) q.column.value =
        .ok ⟨d.name, t.name, type⟩ ∧
      (∀ mark, Grammar.IsMark mark item → ∃ r, a.HasResult b (.ofToken mark) r ∧
        r.binding = .positional ∧ r.type = type ∧ r.variadic = false ∧
        r.elements = some q.items.length) ∧
      ∀ name, Grammar.IsSlice name item →
        (∀ other ∈ q.items.take j, ∀ p ∈ paramPlaces other,
          p.binding.sameValue (.named name) = false) →
        ∃ p r, p.WrittenAt item ∧ a.HasResult b p r ∧ r.binding = .named name ∧
          r.variadic = true ∧ r.elements = some q.items.length ∧ r.type = type.toList ∧
          ∀ value nullable, type = .resolved value nullable →
            r.type = .resolved (.list value) false := by
  intro type
  obtain ⟨earlier, later, hitem⟩ := Grammar.InList.exists_itemAt hj
  refine ⟨(context_columnType? (a := a) ht hd q.references_eq rfl rfl rfl 0).1,
    fun mark hmark => ?_, fun name hslice hnew => ?_⟩
  · have hbinding := Param.binding_ofToken hmark.2
    have hwritten := hmark.writtenAt (later ++ [q.closeParen])
    have hmem : Param.ofToken mark ∈ readParams q.tokens := by
      -- A `?` has the value of no other parameter.
      refine hitem.mem_readParams (hmark.paramPlaces_append _) fun _ _ o _ => ?_
      rw [hbinding]
      cases o.binding <;> rfl
    obtain ⟨rfl, -⟩ := hmark
    obtain ⟨name, hresult⟩ := h.hasResult_inList ht hd hitem hwritten hmem
    exact ⟨_, hresult, hbinding, rfl, rfl, rfl⟩
  · obtain ⟨head, tail, rfl, hwrites⟩ := hslice.macroParam?
    have hplaces : paramPlaces (head :: tail ++ (later ++ [q.closeParen])) =
        ⟨.named name, head.position, true, false⟩ ::
          paramPlaces ((tail ++ (later ++ [q.closeParen])).drop (macroSize - 1)) := by
      rw [List.cons_append, paramPlaces, hwrites]
    obtain ⟨shown, hresult⟩ := h.hasResult_inList ht hd hitem (.inl (hwrites _))
      (hitem.mem_readParams hplaces hnew)
    have hwritten := hwrites []
    rw [List.append_nil] at hwritten
    have hmarked :
        markedType ⟨.named name, head.position, true, false⟩ type.toList = type.toList := by
      cases type <;> rfl
    refine ⟨_, _, .inl hwritten, hresult, rfl, rfl, rfl, hmarked, fun value nullable hvalue => ?_⟩
    refine hmarked.trans ?_
    rw [hvalue]
    rfl

end Analyzer

/-- The items of a list: a parameter, a call with a comma and a parameter in it, and a slice. -/
def Grammar.InList.threeItems : List (List Token) :=
  let call : List Token :=
    [.inLine .integer "2" 60, .inLine .comma "," 61, .inLine .parameter "?" 62]
  [[.inLine .parameter "?" 53],
    .inLine .identifier "max" 56 :: .inLine .leftParen "(" 59 ::
      (call ++ [.inLine .rightParen ")" 63]),
    [.inLine .identifier "sqlc" 66, .inLine .dot "." 70, .inLine .identifier "slice" 71,
      .inLine .leftParen "(" 76, .inLine .identifier "ids" 77, .inLine .rightParen ")" 80]]

/-- The list with its commas. -/
def Grammar.InList.threeItemTokens : List Token :=
  threeItems[0] ++ .inLine .comma "," 54 ::
    (threeItems[1] ++ .inLine .comma "," 64 :: threeItems[2])

theorem Grammar.InList.separated_threeItems :
    Separated IsItem threeItemTokens threeItems := by
  have hmark : Outside NoComma threeItems[0] := .token (by decide) (by decide) (by decide)
  have hcall : Outside NoComma threeItems[1] := by
    have hinner : Outside (fun _ => True) ([.inLine .integer "2" 60, .inLine .comma "," 61,
        .inLine .parameter "?" 62] : List Token) := .of_forall (by decide)
    exact .cons (by decide) (by decide) (by decide)
      (.group rfl rfl (by decide) (by decide) hinner.balanced)
  have hslice : Outside NoComma threeItems[2] := by
    have hname : Balanced [Token.inLine .identifier "ids" 77] := .token (by decide) (by decide)
    exact .cons (by decide) (by decide) (by decide) (.cons (by decide) (by decide) (by decide)
      (.cons (by decide) (by decide) (by decide) (.group rfl rfl (by decide) (by decide) hname)))
  exact .more ⟨rfl, by decide, hmark⟩ ⟨rfl, rfl⟩ (.more ⟨rfl, by decide, hcall⟩ ⟨rfl, rfl⟩
    (.single ⟨rfl, by decide, hslice⟩))

/-- A statement with these items in its list. -/
def Grammar.InList.ofUsers : Grammar.InList where
  select := .inLine .keyword "SELECT" 1
  one := .inLine .integer "1" 8
  asWord := .inLine .keyword "AS" 10
  asName := .inLine .quotedIdentifier "\"k\"" 13
  source := .inLine .keyword "FROM" 17
  table := .inLine .quotedIdentifier "\"users\"" 22
  filter := .inLine .keyword "WHERE" 30
  qualifier := .inLine .quotedIdentifier "\"users\"" 36
  dot := .inLine .dot "." 43
  column := .inLine .quotedIdentifier "\"id\"" 44
  notWord := none
  inWord := .inLine .keyword "IN" 49
  openParen := .inLine .leftParen "(" 52
  inner := threeItemTokens
  closeParen := .inLine .rightParen ")" 81
  items := threeItems
  hselect := .of_text rfl
  hone := rfl
  hasWord := .of_text rfl
  hasName := rfl
  hsource := .of_text rfl
  htable := rfl
  hfilter := .of_text rfl
  hqualifier := rfl
  hsame := rfl
  hdot := rfl
  hcolumn := rfl
  hnotWord := nofun
  hinWord := .of_text rfl
  hopen := rfl
  hclose := rfl
  hitems := separated_threeItems

/-- The first item has the type of the column, the third a list of it, and both stand in a list of
three items. -/
theorem Analyzer.params_of_inList_of_users :
    let b := Block.plain
      "SELECT 1 AS \"k\" FROM \"users\" WHERE \"users\".\"id\" IN (?, max(2,?), sqlc.slice(ids))"
    (∃ r, ofUsers.HasResult b ⟨.positional, ⟨1, 53⟩, false, false⟩ r ∧
        r.type = .resolved .int64 true ∧ r.variadic = false ∧ r.elements = some 3) ∧
      ∃ p r, ofUsers.HasResult b p r ∧ r.binding = .named "ids" ∧
        r.type = .resolved (.list .int64) false ∧ r.variadic = true ∧ r.elements = some 3 := by
  intro b
  have htokens : tokenizeAt b.sql b.position = .ok Grammar.InList.ofUsers.tokens :=
    (tokenizeAt_ofList _ _).trans (by decide +kernel)
  have hholds : ofUsers.Holds (Catalog.empty.addTable { Table.bare "users" with
      columns := [.plain "id" "INTEGER", .plain "name" "TEXT"] }) b Grammar.InList.ofUsers.tokens :=
    ⟨rfl, htokens, (Block.parse_plain htokens).1, rfl⟩
  have hmark := params_of_inList (d := .plain "id" "INTEGER") (t := { Table.bare "users" with
      columns := [.plain "id" "INTEGER", .plain "name" "TEXT"] }) (j := 0) hholds (by decide)
    (by decide) rfl
  have hslice := params_of_inList (d := .plain "id" "INTEGER") (t := { Table.bare "users" with
      columns := [.plain "id" "INTEGER", .plain "name" "TEXT"] }) (j := 2) hholds (by decide)
    (by decide) rfl
  have htype : ofUsers.overrides.typeOf "users" (.plain "id" "INTEGER") =
      .resolved .int64 true := by decide
  constructor
  · obtain ⟨r, hresult, -, htyped, hvariadic, helements⟩ := hmark.2.1 _ ⟨rfl, rfl, rfl⟩
    exact ⟨r, hresult, htyped.trans htype, hvariadic, helements⟩
  · obtain ⟨p, r, -, hresult, hbinding, hvariadic, helements, -, hlist⟩ :=
      hslice.2.2 "ids" ⟨_, _, _, _, _, _, rfl, by decide, rfl, by decide, rfl, by decide, rfl, rfl⟩
        (by decide +kernel)
    exact ⟨p, r, hresult, hbinding, hlist .int64 true htype, hvariadic, helements⟩

end TypedSql

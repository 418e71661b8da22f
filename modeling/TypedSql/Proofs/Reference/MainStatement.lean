import TypedSql.Proofs.Reference.WithClause
import TypedSql.Proofs.Token.Longest

/-!
# The main statement behind a clause

A `WITH` clause is read twice: once along its definitions, and once by a search for the word that
begins the main statement, which only skips groups.  The search stops too early where a definition
has such a word as its bare name, and nowhere else.  Of these words `REPLACE` alone is not reserved,
so in the tokens of a text no other name can mislead it.

Main definition: `WithClause.mainStart`.  Main statements: `WithClause.statementStart_eq_of_item`,
`Definition.isAnyWord_name`, `WithClause.statementStart_eq_mainStart_iff`.
-/

namespace TypedSql

open Query Text Token

namespace Token

/-! ## Names in a text -/

/-- No keyword is read as an identifier. -/
theorem isKeyword_of_kind {form : Form} {piece : String} (hform : form ∈ forms)
    (h : form.kind piece = .identifier) : isKeyword piece = false := by
  cases form with
  | word =>
      rw [Form.kind] at h
      cases hword : isKeyword piece with
      | false => rfl
      | true =>
          rw [hword] at h
          cases h
  | mark kind first more =>
      have hthis := mark_of_all (p := fun mark => mark.1 != .identifier) (by decide) hform
      exact absurd h (bne_iff_ne.mp hthis)
  | _ => cases h

/-- A token of a text that can name something is no reserved word. -/
theorem isNaming_of_tokenizeAt {sql : String} {origin : Position} {tokens : List Token} {t : Token}
    (h : tokenizeAt sql origin = .ok tokens) (ht : t ∈ tokens) (hname : t.isName = true) :
    t.IsNaming := by
  obtain ⟨before, after, form, -, -, hfirst, hkind⟩ := (tokenizeAt_eq_ok_iff.mp h).form_of_mem ht
  rw [isName, isIdentifier, Bool.or_eq_true, Bool.or_eq_true, Bool.and_eq_true, beq_iff_eq,
    beq_iff_eq, beq_iff_eq, Bool.not_eq_true'] at hname
  rcases hname with (hidentifier | hquoted) | hkeyword
  · rw [hkind] at hidentifier
    exact .inl ⟨hkind.trans hidentifier,
      isKeyword_of_kind (mem_of_firstForm? hfirst).1 hidentifier⟩
  · exact .inr (.inl hquoted)
  · exact .inr (.inr hkeyword)

end Token

namespace Grammar

/-! ## Definitions -/

/-- The token begins no main statement. -/
def NoVerb (t : Token) : Prop := t.isAnyWord statementVerbs = false

namespace Definition

variable (d : Definition)

/-- Behind the name of a definition no main statement begins, but in its groups. -/
theorem outside_behind_name : Outside NoVerb (d.head ++ d.body.tokens) := by
  have hgroup (g : Parenthesized) : Outside NoVerb g.tokens := by
    have hclose : NoVerb g.closeParen :=
      isAnyWord_of_kind (by rw [g.hclose]; decide) (by rw [g.hclose]; decide) _
    exact .group g.hopen g.hclose (g.isAnyWord _) hclose g.hinner
  have hword {t : Token} {word : String} (h : t.isWord word = true)
      (hno : (statementVerbs.all fun verb => !List.any [word] (eqIgnoreCase verb)) = true) :
      NoVerb t ∧ t.kind ≠ .leftParen ∧ t.kind ≠ .rightParen :=
    ⟨isAnyWord_of_ne (isAnyWord_of_isWord h) hno, kind_ne_of_isAnyWord (isAnyWord_of_isWord h)⟩
  have hcolumns : Outside NoVerb ((d.columns.map (·.tokens)).getD []) := by
    cases d.columns with
    | none => exact .nil
    | some g => exact hgroup g
  have hmaterialized : Outside NoVerb ((d.materialized.map (·.tokens)).getD []) := by
    cases d.materialized with
    | none => exact .nil
    | some m =>
        refine .of_forall fun t ht => ?_
        rcases List.mem_append.mp ht with ht | ht
        · exact hword (m.hnot t (Option.mem_toList.mp ht)) (by decide)
        · cases List.mem_singleton.mp ht
          exact hword m.hword (by decide)
  obtain ⟨has, hopen, hclose⟩ := hword d.hasWord (by decide)
  rw [head, List.append_assoc, List.cons_append]
  exact hcolumns.append (.cons has hopen hclose (hmaterialized.append (hgroup d.body)))

theorem outside (hname : NoVerb d.name) : Outside NoVerb d.tokens :=
  .cons hname (kind_ne_of_isName d.hname).1 (kind_ne_of_isName d.hname).2 d.outside_behind_name

/-- In a text the bare name `replace` is the only one that is a verb. -/
theorem isAnyWord_name {sql : String} {origin : Position} {tokens : List Token}
    (h : tokenizeAt sql origin = .ok tokens) (hd : d.name ∈ tokens) :
    d.name.isAnyWord statementVerbs = d.name.isWord "REPLACE" := by
  have hreserved : d.name.isAnyWord ["SELECT", "INSERT", "UPDATE", "DELETE", "VALUES"] = false :=
    (isNaming_of_tokenizeAt h hd d.hname).isAnyWord (by decide)
  simp only [isAnyWord, List.any_cons, List.any_nil, Bool.or_eq_false_iff] at hreserved
  simp only [isAnyWord, statementVerbs, List.any_cons, List.any_nil, hreserved, Bool.false_or,
    Bool.or_false]

end Definition

/-- Definitions whose names are no verbs have none outside their groups. -/
theorem outside_definitions {ts : List Token} {ds : List Definition}
    (h : Separated IsDefinition ts ds) (hnames : ∀ d ∈ ds, NoVerb d.name) :
    Outside NoVerb ts := by
  induction h with
  | nil => exact .nil
  | @single ts d hd =>
      rw [show ts = d.tokens from hd]
      exact d.outside (hnames d List.mem_cons_self)
  | @more xs ys d e es comma hd hcomma _ ih =>
      rw [show xs = d.tokens from hd]
      have hno : NoVerb comma :=
        isAnyWord_of_kind (by rw [hcomma.1]; decide) (by rw [hcomma.1]; decide) _
      exact (d.outside (hnames d List.mem_cons_self)).append
        (.cons hno (by rw [hcomma.1]; decide) (by rw [hcomma.1]; decide)
          (ih fun e he => hnames e (List.mem_cons_of_mem d he)))

namespace WithClause

variable (q : WithClause)

/-- The index of the first token behind the clause. -/
def mainStart : Nat := (q.recursiveWord.toList ++ q.inner).length + 1

theorem drop_mainStart : q.tokens.drop q.mainStart = q.main := by
  rw [tokens, mainStart, List.drop_succ_cons, ← List.append_assoc, List.drop_left]

theorem outside_recursive : Outside NoVerb q.recursiveWord.toList := by
  refine .of_forall fun t ht => ?_
  have hword := isAnyWord_of_isWord (q.hrecursive t (Option.mem_toList.mp ht))
  exact ⟨isAnyWord_of_ne hword (by decide), kind_ne_of_isAnyWord hword⟩

/-- The main statement is looked for behind what has no verb outside its groups. -/
theorem statementStart_of_outside {front rest : List Token} {verb : Token}
    (h : q.inner ++ q.main = front ++ verb :: rest) (hfront : Outside NoVerb front)
    (hverb : verb.isAnyWord statementVerbs = true) :
    statementStart q.tokens = (q.recursiveWord.toList ++ front).length + 1 := by
  have hkind := kind_ne_of_isAnyWord hverb
  have hfound := (q.outside_recursive.append hfront).findTopLevel?_append (verb :: rest)
  rw [findTopLevel?_first hkind.1 hkind.2 hverb, Option.map_some, Nat.zero_add] at hfound
  rw [tokens, statementStart, q.hwith, if_pos rfl, h, ← List.append_assoc, hfound]

/-- The search stops at the first definition whose name is a verb. -/
theorem statementStart_eq_of_item {j : Nat} {d : Definition} {xs earlier later : List Token}
    (hitem : Separated.ItemOf IsDefinition q.inner q.definitions j d xs earlier later)
    (hname : d.name.isAnyWord statementVerbs = true)
    (hearlier : ∀ e ∈ q.definitions.take j, NoVerb e.name) :
    statementStart q.tokens = (q.recursiveWord.toList ++ earlier).length + 1 := by
  have hsplit : q.inner ++ q.main =
      earlier ++ d.name :: (d.head ++ d.body.tokens ++ (later ++ q.main)) := by
    rw [hitem.tokens_eq, show xs = d.tokens from hitem.item, Definition.tokens]
    simp
  refine q.statementStart_of_outside hsplit ?_ hname
  rcases hitem.before with ⟨-, rfl⟩ | ⟨-, before, comma, hcomma, rfl, hbefore⟩
  · exact .nil
  · have hno : NoVerb comma :=
      isAnyWord_of_kind (by rw [hcomma.1]; decide) (by rw [hcomma.1]; decide) _
    exact (outside_definitions hbefore hearlier).append
      (.token hno (by rw [hcomma.1]; decide) (by rw [hcomma.1]; decide))

theorem name_mem_tokens {d : Definition} (hd : d ∈ q.definitions) : d.name ∈ q.tokens := by
  obtain ⟨j, hj⟩ := List.mem_iff_getElem?.mp hd
  obtain ⟨xs, earlier, later, hitem⟩ := q.hdefinitions.split hj
  have hname : d.name ∈ xs := by
    rw [show xs = d.tokens from hitem.item]
    exact List.mem_cons_self
  rw [tokens, hitem.tokens_eq]
  simp [hname]

/-- A definition whose name is a verb stands behind definitions whose names are none. -/
theorem exists_first_verb {d : Definition} (hd : d ∈ q.definitions)
    (hname : d.name.isAnyWord statementVerbs = true) :
    ∃ j e xs earlier later, e.name.isAnyWord statementVerbs = true ∧
      (∀ e ∈ q.definitions.take j, NoVerb e.name) ∧
      Separated.ItemOf IsDefinition q.inner q.definitions j e xs earlier later := by
  have hlt := List.findIdx_lt_length_of_exists
    (p := fun d : Definition => d.name.isAnyWord statementVerbs) ⟨d, hd, hname⟩
  have hfirst := List.findIdx_getElem (w := hlt)
  obtain ⟨xs, earlier, later, hitem⟩ := q.hdefinitions.split (List.getElem?_eq_getElem hlt)
  refine ⟨_, _, xs, earlier, later, hfirst, fun e he => ?_, hitem⟩
  obtain ⟨i, hi, rfl⟩ := List.mem_take_iff_getElem.mp he
  exact List.not_of_lt_findIdx (Nat.lt_of_lt_of_le hi (Nat.min_le_left _ _))

/-- However many definitions a clause has, they are all read, and the search for the main statement
finds it exactly where no definition has a verb for its bare name; otherwise it stops at the first
such name.  In the tokens of a text this name can only be `replace`. -/
theorem statementStart_eq_mainStart_iff
    (hmain : ∃ verb ∈ q.main.head?, verb.isAnyWord statementVerbs = true) :
    (∀ sql, (readWithClause sql q.tokens).1 = q.definitions.map fun d => d.cte sql) ∧
    q.tokens.drop q.mainStart = q.main ∧
    (statementStart q.tokens = q.mainStart ↔ ∀ d ∈ q.definitions, NoVerb d.name) ∧
    (∀ j d xs earlier later,
      Separated.ItemOf IsDefinition q.inner q.definitions j d xs earlier later →
      d.name.isAnyWord statementVerbs = true → (∀ e ∈ q.definitions.take j, NoVerb e.name) →
        statementStart q.tokens = (q.recursiveWord.toList ++ earlier).length + 1) ∧
    ∀ sql origin, tokenizeAt sql origin = .ok q.tokens →
      ∀ d ∈ q.definitions, NoVerb d.name ↔ d.name.isWord "REPLACE" = false := by
  refine ⟨fun sql => congrArg Prod.fst (q.readWithClause_eq sql), q.drop_mainStart, ⟨?_, ?_⟩,
    fun j d xs earlier later hitem hname hearlier =>
      q.statementStart_eq_of_item hitem hname hearlier,
    fun sql origin h d hd => ?_⟩
  · intro hstart d hd
    rw [NoVerb, Bool.eq_false_iff]
    intro hname
    obtain ⟨j, e, xs, earlier, later, hverb, hearlier, hitem⟩ := q.exists_first_verb hd hname
    -- The name that the search stops at stands in the clause.
    have hlength : q.inner.length = earlier.length + (xs.length + later.length) := by
      rw [hitem.tokens_eq, List.length_append, List.length_append]
    have hxs : 0 < xs.length := by
      rw [show xs = e.tokens from hitem.item]
      exact Nat.succ_pos _
    rw [q.statementStart_eq_of_item hitem hverb hearlier, mainStart, List.length_append,
      List.length_append] at hstart
    omega
  · intro hnames
    obtain ⟨verb, hhead, hverb⟩ := hmain
    obtain ⟨rest, hrest⟩ := List.head?_eq_some_iff.mp hhead
    exact q.statementStart_of_outside (by rw [hrest])
      (outside_definitions q.hdefinitions hnames) hverb
  · rw [NoVerb, d.isAnyWord_name h (q.name_mem_tokens hd)]

end WithClause

/-- A definition `x AS(SELECT 1)` behind the word `WITH`, where the name has seven characters. -/
def Definition.ofName (name : Token) (hname : name.isName = true) : Definition where
  name := name
  columns := none
  asWord := .inLine .keyword "AS" 14
  materialized := none
  body :=
    { openParen := .inLine .leftParen "(" 16
      inner := [.inLine .keyword "SELECT" 17, .inLine .integer "1" 24]
      closeParen := .inLine .rightParen ")" 25
      hopen := rfl
      hinner := by
        have hbody : Outside (fun _ => True) ([.inLine .keyword "SELECT" 17,
            .inLine .integer "1" 24] : List Token) := .of_forall (by decide)
        exact hbody.balanced
      hclose := rfl }
  hname := hname
  hasWord := by decide

/-- A statement `WITH x AS(SELECT 1) SELECT * FROM x` with such a name. -/
def WithClause.ofName (name relation : Token) (hname : name.isName = true)
    (hfirst : name.isWord "RECURSIVE" = false) : WithClause where
  withWord := ofTwo.withWord
  recursiveWord := none
  inner := (Definition.ofName name hname).tokens
  definitions := [.ofName name hname]
  main := [.inLine .keyword "SELECT" 27, .inLine .star "*" 34, .inLine .keyword "FROM" 36, relation]
  hwith := ofTwo.hwith
  hrecursive := by decide
  hdefinitions := .single rfl
  hsome := List.cons_ne_nil _ _
  hfirst := by
    rintro - d ⟨⟩
    exact hfirst
  hmain := by
    rintro t ⟨⟩
    decide

/-- The statement over a name in quotes. -/
def WithClause.ofQuoted : WithClause :=
  ofName (.inLine .quotedIdentifier "\"abcde\"" 6) (.inLine .quotedIdentifier "\"abcde\"" 41)
    (by decide) (by decide)

/-- The statement over the bare name `replace`. -/
def WithClause.ofReplace : WithClause :=
  ofName (.inLine .identifier "replace" 6) (.inLine .identifier "replace" 41) (by decide)
    (by decide)

theorem WithClause.tokenizeAt_ofReplace :
    tokenizeAt "WITH replace AS(SELECT 1) SELECT * FROM replace" .first =
      .ok ofReplace.tokens := by
  rw [tokenizeAt_ofList]
  decide +kernel

/-- The statement over the name in quotes is found, and the one over the bare name is not. -/
theorem WithClause.statementStart_of_ofName :
    statementStart ofQuoted.tokens = ofQuoted.mainStart ∧ statementStart ofReplace.tokens = 1 ∧
      ∀ d ∈ ofReplace.definitions, ¬ NoVerb d.name := by
  have hquoted := statementStart_eq_mainStart_iff ofQuoted ⟨_, rfl, by decide⟩
  have hreplace := statementStart_eq_mainStart_iff ofReplace ⟨_, rfl, by decide⟩
  have hitem : Separated.ItemOf IsDefinition ofReplace.inner ofReplace.definitions 0
      (.ofName (.inLine .identifier "replace" 6) (by decide)) ofReplace.inner [] [] := .single rfl
  have hearlier (e : Definition) (he : e ∈ ofReplace.definitions.take 0) : NoVerb e.name :=
    absurd he List.not_mem_nil
  have hstart := hreplace.2.2.2.1 0 _ _ [] [] hitem (by decide) hearlier
  refine ⟨hquoted.2.2.1.mpr ?_, hstart, fun d hd => ?_⟩
  · intro d hd
    cases List.mem_singleton.mp hd
    rw [NoVerb]
    decide
  · rw [hreplace.2.2.2.2 _ _ tokenizeAt_ofReplace d hd]
    cases List.mem_singleton.mp hd
    decide

/-- A definition with the bare name `replace` is read as it is written, but its name is taken for
the beginning of the main statement. -/
theorem WithClause.statementStart_of_replace :
    let sql := "WITH replace AS(SELECT 1) SELECT * FROM replace"
    tokenizeAt sql .first = .ok ofReplace.tokens ∧
      (readWithClause sql ofReplace.tokens).1.map (fun c => (c.name, c.body)) =
        [("replace", "SELECT 1")] ∧
      ofReplace.mainStart = 7 ∧ statementStart ofReplace.tokens = 1 :=
  ⟨tokenizeAt_ofReplace, by decide +kernel⟩

end Grammar

end TypedSql

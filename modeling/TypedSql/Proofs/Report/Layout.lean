import TypedSql.Proofs.Likeness.Analysis
import TypedSql.Proofs.Token.Cut

/-!
# Layout and letter case

Two texts with matching tokens are analyzed alike: white space, comments and the case of bare words
change nothing but the case of names.  A lone carriage return has to be excluded, as it ends no
line comment, and a text that is cut out of the statement would be read in another way.

Main statement: `analyze_matches`.
-/

namespace TypedSql

open Query Text Token

/-- The tokens have the same kind and the same text, where the case of words does not count. -/
def Token.Matches (t u : Token) : Prop :=
  t.kind = u.kind ∧
    if t.kind = .keyword ∨ t.kind = .identifier then eqIgnoreCase t.text u.text = true
    else t.text = u.text

instance (t u : Token) : Decidable (t.Matches u) := inferInstanceAs (Decidable (_ ∧ _))

/-- The columns have the same type, and the same names up to case. -/
def ResultColumn.Matches (c d : ResultColumn) : Prop :=
  eqIgnoreCase c.name d.name = true ∧ eqIgnoreCase c.relation d.relation = true ∧ c.type = d.type

/-- The parameters take the same values, under names that are the same up to case. -/
def ResultParam.Matches (p q : ResultParam) : Prop :=
  eqIgnoreCase p.name q.name = true ∧ p.type = q.type ∧ p.binding.style = q.binding.style ∧
    p.binding.number? = q.binding.number? ∧ p.variadic = q.variadic ∧ p.elements = q.elements

namespace Layout

/-- Tokens of the same index stand at these positions. -/
def SameIndex (ts us : List Token) (p q : Position) : Prop :=
  ∃ (i : Nat) (t u : Token), ts[i]? = some t ∧ us[i]? = some u ∧ t.position = p ∧ u.position = q

/-- The likeness of two statements with the tokens `ts` and `us`. -/
def likeness (ts us : List Token) : Likeness where
  exact := False
  place := SameIndex ts us
  cut s p s' p' := ∃ part part', CleanReads s.toList 0 p part ∧ CleanReads s'.toList 0 p' part' ∧
    List.Forall₂ (fun t u => t.Matches u ∧ SameIndex ts us t.position u.position) part part'

variable {ts us : List Token}

theorem tokenLike {t u : Token} (h : t.Matches u) (hp : SameIndex ts us t.position u.position) :
    (likeness ts us).TokenLike t u := by
  obtain ⟨hkind, htext⟩ := h
  refine ⟨hkind, ⟨?_, False.elim⟩, fun hkeyword hidentifier => ?_, hp⟩
  · split at htext
    · exact eqIgnoreCase_iff.mp htext
    · rw [htext]
  · rw [if_neg (not_or.mpr ⟨hkeyword, hidentifier⟩)] at htext
    exact htext

theorem index_unique {ts : List Token}
    (h : ts.Pairwise fun t u => t.position.Before u.position) {i j : Nat} {t u : Token}
    (hi : ts[i]? = some t) (hj : ts[j]? = some u) (hp : t.position = u.position) : i = j := by
  obtain ⟨hi', rfl⟩ := List.getElem?_eq_some_iff.mp hi
  obtain ⟨hj', rfl⟩ := List.getElem?_eq_some_iff.mp hj
  rcases Nat.lt_trichotomy i j with hlt | heq | hlt
  · exact absurd hp (List.pairwise_iff_getElem.mp h i j hi' hj' hlt).ne
  · exact heq
  · exact absurd hp.symm (List.pairwise_iff_getElem.mp h j i hj' hi' hlt).ne

/-- Both lists tell their tokens apart by position, and cutting is reading the same tokens. -/
theorem lawful (hts : ts.Pairwise fun t u => t.position.Before u.position)
    (hus : us.Pairwise fun t u => t.position.Before u.position) : (likeness ts us).Lawful where
  place_iff := by
    rintro p p' q q' ⟨i, t, t', hi, hi', rfl, rfl⟩ ⟨j, u, u', hj, hj', rfl, rfl⟩
    constructor
    · intro hp
      obtain rfl := index_unique hts hi hj hp
      rw [hi'] at hj'
      cases hj'
      rfl
    · intro hp
      obtain rfl := index_unique hus hi' hj' hp
      rw [hi] at hj
      cases hj
      rfl
  cut_exactly _ hexact := hexact.elim
  cut_tokens := by
    rintro s p s' p' ⟨part, part', hreads, hreads', hpart⟩
    unfold tokensOf tokenizeAt
    rw [readFrom_of_reads hreads, readFrom_of_reads hreads']
    exact hpart.imp fun _ _ htu => tokenLike htu.1 htu.2
  cut_part := by
    rintro s p s' p' before before' after after' t t' ts' us' ⟨part, part', hreads, hreads', hpart⟩
      htokens htokens' hbefore hlength
    unfold tokensOf tokenizeAt at htokens htokens'
    rw [readFrom_of_reads hreads] at htokens
    rw [readFrom_of_reads hreads'] at htokens'
    change part = before ++ (t :: ts' ++ after) at htokens
    change part' = before' ++ (t' :: us' ++ after') at htokens'
    subst htokens htokens'
    refine ⟨_, _, hreads.of_sourceText, hreads'.of_sourceText, ?_⟩
    have hmiddle := ((Memberwise.append_rel_iff (by simp [hlength])).mp
      ((Memberwise.append_rel_iff hbefore).mp hpart).2).1
    rw [List.forall₂_map_left_iff, List.forall₂_map_right_iff]
    exact hmiddle.imp fun _ _ htu => htu

theorem sameIndex_of_matches (h : List.Forall₂ Token.Matches ts us) :
    List.Forall₂ (fun t u => t.Matches u ∧ SameIndex ts us t.position u.position) ts us := by
  rw [List.forall₂_iff_get]
  refine ⟨h.length_eq, fun i hi hi' => ⟨h.get hi hi', i, ts[i], us[i], ?_, ?_, rfl, rfl⟩⟩
  · exact List.getElem?_eq_getElem hi
  · exact List.getElem?_eq_getElem hi'

theorem resultColumn_matches {L : Likeness} {c d : ResultColumn} (h : L.ResultColumnLike c d) :
    c.Matches d :=
  ⟨eqIgnoreCase_iff.mpr h.name.lower, eqIgnoreCase_iff.mpr h.relation.lower, h.type⟩

theorem resultParam_matches {L : Likeness} {p q : ResultParam} (h : L.ResultParamLike p q) :
    p.Matches q := by
  have hbinding : p.binding.style = q.binding.style ∧ p.binding.number? = q.binding.number? := by
    have hlike := h.binding
    generalize p.binding = a at hlike ⊢
    generalize q.binding = b at hlike ⊢
    cases hlike <;> exact ⟨rfl, rfl⟩
  exact ⟨eqIgnoreCase_iff.mpr h.name.lower, h.type, hbinding.1, hbinding.2, h.variadic, h.elements⟩

theorem typeHints_like {L : Likeness} (hexact : ¬ L.exact) (hints : List TypeHint) :
    List.Forall₂ L.TypeHintLike hints hints :=
  List.forall₂_same.mpr fun _ _ => ⟨rfl, rfl, rfl, fun h => absurd h hexact⟩

end Layout

/-- Blocks that differ only in the layout of their statement and in the case of its words have
matching columns and parameters. -/
theorem Analyzer.analyze_matches (a : Analyzer) {b c : Block} {ts us : List Token}
    (hblock : c = { b with sql := c.sql, query := c.query })
    (hquery : Query.parse b.sql b.position = .ok b.query)
    (hquery' : Query.parse c.sql c.position = .ok c.query)
    (hreturn : noBareReturn b.sql.toList = true) (hreturn' : noBareReturn c.sql.toList = true)
    (htokens : tokenizeAt b.sql b.position = .ok ts)
    (htokens' : tokenizeAt c.sql c.position = .ok us) (h : List.Forall₂ Token.Matches ts us) :
    List.Forall₂ ResultColumn.Matches (a.analyze b).columns (a.analyze c).columns ∧
      List.Forall₂ ResultParam.Matches (a.analyze b).params (a.analyze c).params := by
  have hreads : CleanReads b.sql.toList 0 b.position ts :=
    (tokenizeAt_eq_ok_iff.mp htokens).clean hreturn
  have hreads' : CleanReads c.sql.toList 0 c.position us :=
    (tokenizeAt_eq_ok_iff.mp htokens').clean hreturn'
  have laws := Layout.lawful hreads.positions_increase hreads'.positions_increase
  have hcut : (Layout.likeness ts us).cut b.sql b.position c.sql c.position :=
    ⟨ts, us, hreads, hreads', Layout.sameIndex_of_matches h⟩
  have hlike : (Layout.likeness ts us).BlockLike b c := by
    refine ⟨hcut, .of_parse laws hcut hquery hquery', ?_, ?_, False.elim⟩
    · rw [hblock]
      exact Layout.typeHints_like id b.paramHints
    · rw [hblock]
      exact Layout.typeHints_like id b.columnHints
  have hresolve := (hlike.resolve laws a).value
  rw [tokensOf_eq htokens, tokensOf_eq htokens'] at hresolve
  unfold Analyzer.analyze
  rw [htokens, htokens']
  exact ⟨hresolve.1.imp fun _ _ => Layout.resultColumn_matches,
    hresolve.2.imp fun _ _ => Layout.resultParam_matches⟩

/-- A block that holds a statement and no annotations. -/
def Query.Block.plain (sql : String) : Block :=
  ⟨"Plain", .many, "plain.sql", .first, sql, none,
    (Query.parse sql .first).toOption.getD .unread, [], []⟩

theorem Query.Block.query_plain {sql : String} {query : Query}
    (h : Query.parse sql .first = .ok query) : (Block.plain sql).query = query := by
  show (Query.parse sql .first).toOption.getD .unread = query
  rw [h]
  rfl

theorem Query.Block.parse_plain {sql : String} {ts : List Token}
    (h : tokenizeAt sql .first = .ok ts) :
    Query.parse sql .first = .ok (Block.plain sql).query ∧
      (Block.plain sql).query = Query.ofTokens sql ts := by
  have hparse : Query.parse sql .first = .ok (Query.ofTokens sql ts) := by
    rw [Query.parse, h]
    rfl
  exact ⟨query_plain hparse ▸ hparse, query_plain hparse⟩

/-- What an analysis finds in a literal is computed from its characters. -/
theorem Analyzer.analyze_plain_ofList (a : Analyzer) (cs : List Char) :
    a.analyze (.plain (String.ofList cs)) =
      match readFrom cs 0 .first with
      | .error e => ⟨[], [], Diagnostic.distinct "plain.sql" [e.toDiagnostic "plain.sql"]⟩
      | .ok tokens =>
          let sql := String.ofList cs
          let found := a.resolve ⟨"Plain", .many, "plain.sql", .first, sql, none,
            Query.ofTokens sql tokens, [], []⟩ tokens
          ⟨found.value.1, found.value.2, Diagnostic.distinct "plain.sql" found.notes⟩ := by
  rw [← tokenizeAt_ofList]
  unfold analyze Query.Block.plain Query.parse
  cases tokenizeAt (String.ofList cs) .first with
  | error e => rfl
  | ok tokens => rfl

/-- The analyzer for one table of users. -/
def Analyzer.ofUsers : Analyzer where
  catalog := some (Catalog.empty.addTable { Table.bare "users" with
    columns := [.plain "id" "INTEGER", .plain "name" "TEXT"] })
  overrides := .empty

/-- Other white space, a comment and other letter case between the same tokens. -/
theorem analyze_matches_of_users :
    List.Forall₂ ResultColumn.Matches
        (Analyzer.ofUsers.analyze (.plain "SELECT ?, id FROM users")).columns
        (Analyzer.ofUsers.analyze (.plain "select ?,ID--\n from USERS")).columns ∧
      List.Forall₂ ResultParam.Matches
        (Analyzer.ofUsers.analyze (.plain "SELECT ?, id FROM users")).params
        (Analyzer.ofUsers.analyze (.plain "select ?,ID--\n from USERS")).params :=
  @Analyzer.analyze_matches _ _ _ (tokensOf "SELECT ?, id FROM users" .first)
    (tokensOf "select ?,ID--\n from USERS" .first) rfl (by decide +kernel) (by decide +kernel)
    (by decide +kernel) (by decide +kernel) (by decide +kernel) (by decide +kernel)
    (by decide +kernel)

end TypedSql

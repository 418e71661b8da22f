import Mathlib.Data.List.Nodup
import TypedSql.Analysis.InsertTarget
import TypedSql.Proofs.Reference.InList

/-!
# Rows of inserted values

A statement `INSERT INTO "t" ("c", …) VALUES (…), (…)`, with or without the list of columns, is one
segment and names one relation.  An item of a row is a `?` or a literal.  The columns of a row are
counted by its items, so every `?` goes into the column that has its number, in whichever row it
stands.

Main definition: `Grammar.Insertion`.  Main statements: `Insertion.split`,
`Insertion.references_eq`, `Insertion.assigned`, `Insertion.exists_between`.
-/

namespace TypedSql

open Query Text Token

namespace Grammar

/-! ## Parameters and their indices -/

/-- The parameters among tokens with their indices, where the first token has index `i`. -/
def marksFrom (i : Nat) (xs : List Token) : List (Token × Nat) :=
  (xs.zipIdx i).filter (·.1.kind == .parameter)

theorem marksFrom_append (i : Nat) (xs ys : List Token) :
    marksFrom i (xs ++ ys) = marksFrom i xs ++ marksFrom (i + xs.length) ys := by
  rw [marksFrom, List.zipIdx_append, List.filter_append]
  rfl

theorem marksFrom_eq_nil {xs : List Token} (h : ∀ t ∈ xs, t.kind ≠ .parameter) (i : Nat) :
    marksFrom i xs = [] :=
  List.filter_eq_nil_iff.mpr fun m hm => Bool.eq_false_iff.mp
    (beq_eq_false_iff_ne.mpr (h m.1 (List.fst_mem_of_mem_zipIdx hm)))

theorem marksFrom_cons {t : Token} (h : t.kind ≠ .parameter) (i : Nat) (ts : List Token) :
    marksFrom i (t :: ts) = marksFrom (i + 1) ts := by
  rw [marksFrom, List.zipIdx_cons, List.filter_cons_of_neg (by rwa [beq_iff_eq])]
  rfl

theorem map_fst_marksFrom (i : Nat) (xs : List Token) :
    (marksFrom i xs).map (·.1) = xs.filter (·.kind == .parameter) := by
  have hfilter := List.filter_map (f := Prod.fst) (p := fun t : Token => t.kind == .parameter)
    (l := xs.zipIdx i)
  rw [List.zipIdx_map_fst] at hfilter
  exact hfilter.symm

/-- No two parameters have one index. -/
theorem nodup_marksFrom (i : Nat) (xs : List Token) : ((marksFrom i xs).map (·.2)).Nodup := by
  refine List.Nodup.sublist (List.filter_sublist.map _) ?_
  rw [List.zipIdx_map_snd]
  exact List.nodup_range'

theorem mem_marksFrom {mark : Token} {i : Nat} {xs : List Token} (h : (mark, i) ∈ marksFrom 0 xs) :
    xs[i]? = some mark ∧ mark.kind = .parameter := by
  obtain ⟨hmem, hkind⟩ := List.mem_filter.mp h
  exact ⟨List.mk_mem_zipIdx_iff_getElem?.mp hmem, beq_iff_eq.mp hkind⟩

/-! ## Rows -/

/-- A token of a literal: no parenthesis, comma or parameter, and not the first word of a macro. -/
def IsPlain (t : Token) : Prop :=
  t.kind ∉ [Kind.leftParen, .rightParen, .comma, .parameter] ∧ t.isWord "sqlc" = false

instance (t : Token) : Decidable (IsPlain t) := inferInstanceAs (Decidable (_ ∧ _))

/-- An item of a row is a `?` or a literal. -/
inductive Value : List Token → Bool → Prop
  | mark {t : Token} (ht : t.Is .parameter "?") : Value [t] true
  | literal {xs : List Token} (hne : xs ≠ []) (hxs : ∀ t ∈ xs, IsPlain t) : Value xs false

/-- A row in its parentheses; of every item it is known whether it is a `?`. -/
inductive Row : List Token → List Bool → Prop
  | mk {o c : Token} {inner : List Token} {row : List Bool} (ho : o.kind = .leftParen)
      (hc : c.kind = .rightParen) (hinner : Separated Value inner row) :
      Row (o :: (inner ++ [c])) row

/-- A column in quotes. -/
def IsColumn (xs : List Token) (name : String) : Prop :=
  ∃ t : Token, xs = [t] ∧ t.kind = .quotedIdentifier ∧ t.value = name

/-- The list of columns in its parentheses, or nothing. -/
inductive ColumnList : List Token → Option (List String) → Prop
  | omitted : ColumnList [] none
  | written {o c : Token} {inner : List Token} {names : List String} (ho : o.kind = .leftParen)
      (hc : c.kind = .rightParen) (hinner : Separated IsColumn inner names) :
      ColumnList (o :: (inner ++ [c])) (some names)

/-- The columns that the `?` of a row go into. -/
def insertedRow (names : List String) (row : List Bool) : List String :=
  ((row.zip names).filter (·.1)).map (·.2)

theorem IsPlain.kind_ne {t : Token} (h : IsPlain t) {kind : Kind}
    (hkind : kind ∈ [Kind.leftParen, .rightParen, .comma, .parameter]) : t.kind ≠ kind := by
  rintro rfl
  exact h.1 hkind

theorem apart_value : Separated.Apart Value := by
  rintro xs isMark (⟨⟨hkind, -⟩⟩ | ⟨hne, hxs⟩)
  · exact ⟨List.cons_ne_nil _ _,
      @noComma_of_kind _ [.parameter] (List.mem_singleton.mpr hkind) (by decide)⟩
  · exact ⟨hne, .of_forall fun t ht => ⟨(hxs t ht).kind_ne (by decide),
      (hxs t ht).kind_ne (by decide), (hxs t ht).kind_ne (by decide)⟩⟩

theorem apart_isColumn : Separated.Apart IsColumn := by
  rintro _ name ⟨t, rfl, hkind, -⟩
  exact ⟨List.cons_ne_nil _ _,
    @noComma_of_kind _ [.quotedIdentifier] (List.mem_singleton.mpr hkind) (by decide)⟩

theorem apart_row : Separated.Apart Row := by
  rintro _ row ⟨ho, hc, hinner⟩
  refine ⟨List.cons_ne_nil _ _, .group ho hc ?_ ?_ (hinner.balanced apart_value)⟩
  · show _ ≠ Kind.comma
    rw [ho]
    decide
  · show _ ≠ Kind.comma
    rw [hc]
    decide

/-- The only token of a parameter. -/
theorem Value.eq_mark {xs : List Token} {isMark : Bool} {k : Nat} {t : Token} (h : Value xs isMark)
    (hk : xs[k]? = some t) (ht : t.kind = .parameter) : xs = [t] ∧ k = 0 := by
  cases h with
  | @mark u hu =>
      obtain ⟨hlt, rfl⟩ := List.getElem?_eq_some_iff.mp hk
      obtain rfl : k = 0 := Nat.lt_one_iff.mp hlt
      exact ⟨rfl, rfl⟩
  | literal _ hxs => exact absurd ht ((hxs t (List.mem_of_getElem? hk)).kind_ne (by decide))

/-- A token of a group that is none of its parentheses stands between them. -/
theorem getElem?_group {o c t : Token} {inner : List Token} {k : Nat}
    (h : (o :: (inner ++ [c]))[k]? = some t) (ho : t ≠ o) (hc : t ≠ c) :
    ∃ m, inner[m]? = some t ∧ k = m + 1 := by
  cases k with
  | zero => exact absurd (Option.some.inj h).symm ho
  | succ m =>
      rw [List.getElem?_cons_succ, List.getElem?_append] at h
      split at h
      · exact ⟨m, h, rfl⟩
      · exact absurd (List.mem_singleton.mp (List.mem_of_getElem? h)) hc

/-- A token that begins no macro and, if it is a parameter, is a `?`. -/
def Positional (t : Token) : Prop := t.isWord "sqlc" = false ∧ (t.kind = .parameter → t.text = "?")

theorem positional_of_kind {t : Token} (hkeyword : t.kind ≠ .keyword)
    (hidentifier : t.kind ≠ .identifier) (hparameter : t.kind ≠ .parameter) : Positional t :=
  ⟨isWord_of_isAnyWord (isAnyWord_of_kind hkeyword hidentifier ["sqlc"]) List.mem_cons_self,
    fun h => absurd h hparameter⟩

theorem positional_of_keyword {t : Token} {word : String} (h : t.IsKeyword word)
    (hword : eqIgnoreCase word "sqlc" = false) : Positional t := by
  refine ⟨by rw [h.isWord, hword], fun hkind => ?_⟩
  rw [h.1] at hkind
  cases hkind

theorem positional_of_comma {comma : Token} (h : comma.Is .comma ",") : Positional comma :=
  positional_of_kind (by rw [h.1]; decide) (by rw [h.1]; decide) (by rw [h.1]; decide)

theorem Value.positional {xs : List Token} {isMark : Bool} (h : Value xs isMark) :
    ∀ t ∈ xs, Positional t := by
  cases h with
  | mark ht =>
      refine List.forall_mem_singleton.mpr ⟨?_, fun _ => ht.2⟩
      rw [isWord, ht.1]
      rfl
  | literal _ hxs =>
      exact fun t ht => ⟨(hxs t ht).2, fun h => absurd h ((hxs t ht).kind_ne (by decide))⟩

theorem forall_mem_group {p : Token → Prop} {o c : Token} {inner : List Token} (ho : p o) (hc : p c)
    (hinner : ∀ t ∈ inner, p t) : ∀ t ∈ o :: (inner ++ [c]), p t :=
  List.forall_mem_cons.mpr
    ⟨ho, List.forall_mem_append.mpr ⟨hinner, List.forall_mem_singleton.mpr hc⟩⟩

theorem Row.positional {xs : List Token} {row : List Bool} (h : Row xs row) :
    ∀ t ∈ xs, Positional t := by
  obtain ⟨ho, hc, hinner⟩ := h
  exact forall_mem_group
    (positional_of_kind (by rw [ho]; decide) (by rw [ho]; decide) (by rw [ho]; decide))
    (positional_of_kind (by rw [hc]; decide) (by rw [hc]; decide) (by rw [hc]; decide))
    (hinner.forall_mem (fun _ _ => Value.positional) fun _ => positional_of_comma)

/-! ## Targets of rows -/

/-- The targets put parameters, in order, into these columns of a table. -/
structure Assigned (table : String) (marks : List (Token × Nat)) (names : List String)
    (targets : List InsertTarget) : Prop where
  length : marks.length = names.length
  targets_eq : targets = (marks.zip names).map fun x => ⟨x.1.2, table, x.2⟩

section Targets

variable {table : String} {marks others : List (Token × Nat)} {names columns : List String}
  {targets : List InsertTarget}

theorem Assigned.nil : Assigned table [] [] [] := ⟨rfl, rfl⟩

theorem Assigned.append {more : List String} {behind : List InsertTarget}
    (h : Assigned table marks names targets) (h' : Assigned table others more behind) :
    Assigned table (marks ++ others) (names ++ more) (targets ++ behind) where
  length := by rw [List.length_append, List.length_append, h.length, h'.length]
  targets_eq := by rw [h.targets_eq, h'.targets_eq, List.zip_append h.length, List.map_append]

/-- No two parameters have one index, so the target of a parameter is found at its index. -/
theorem Assigned.find?_eq (h : Assigned table marks names targets)
    (hnodup : (marks.map (·.2)).Nodup) {x : (Token × Nat) × String} (hx : x ∈ marks.zip names) :
    (targets.find? fun target => target.index == x.1.2) = some ⟨x.1.2, table, x.2⟩ := by
  have hindices : ((marks.zip names).map (·.1.2)).Nodup := by
    have hmarks := List.map_fst_zip (Nat.le_of_eq h.length)
    rw [← hmarks, List.map_map] at hnodup
    exact hnodup
  have hfound : (marks.zip names).find? (fun y => y.1.2 == x.1.2) = some x := by
    cases hsome : (marks.zip names).find? fun y => y.1.2 == x.1.2 with
    | none => exact absurd (beq_iff_eq.mpr rfl) (List.find?_eq_none.mp hsome x hx)
    | some y =>
        have hindex : y.1.2 = x.1.2 := beq_iff_eq.mp (List.find?_some hsome :)
        exact congrArg some
          (List.inj_on_of_nodup_map hindices (List.mem_of_find?_eq_some hsome) hx hindex)
  rw [h.targets_eq, List.find?_map]
  exact congrArg (Option.map _) hfound

theorem insertedRow_cons (name : String) (isMark : Bool) (row : List Bool) :
    insertedRow (name :: names) (isMark :: row) =
      insertedRow [name] [isMark] ++ insertedRow names row := by
  cases isMark <;> rfl

theorem ofRow_cons (name : String) (item : List Place) (items : List (List Place)) :
    InsertTarget.ofRow table (name :: names) (item :: items) =
      InsertTarget.ofRow table [name] [item] ++ InsertTarget.ofRow table names items :=
  List.filterMap_append (l := [(item, name)])

/-- A `?` has a target, and a literal has none. -/
theorem Value.assigned {xs : List Token} {isMark : Bool} (h : Value xs isMark) (name : String)
    (i : Nat) (before : Option Token) (d : Nat) :
    Assigned table (marksFrom i xs) (insertedRow [name] [isMark])
      (InsertTarget.ofRow table [name] [placesAt i before d xs]) := by
  cases h with
  | @mark t ht =>
      have hplaces : placesAt i before d [t] = [⟨i, d, before, t⟩] := by
        rw [placesAt_cons (by rw [ht.1]; decide) (by rw [ht.1]; decide)]
        rfl
      have hparam : InsertTarget.isParam [⟨i, d, before, t⟩] = true := by
        have hkind : nextIsKind .parameter [⟨i, d, before, t⟩] = true := beq_iff_eq.mpr ht.1
        rw [InsertTarget.isParam, hkind]
        rfl
      have htargets : InsertTarget.ofRow table [name] [[⟨i, d, before, t⟩]] =
          [⟨i, table, name⟩] := by
        simp [InsertTarget.ofRow, hparam]
      have hmarks : marksFrom i [t] = [(t, i)] := by
        simp [marksFrom, ht.1]
      rw [hplaces, htargets, hmarks]
      exact ⟨rfl, rfl⟩
  | literal hne hxs =>
      obtain ⟨t, ts, rfl⟩ := List.exists_cons_of_ne_nil hne
      have hthis := hxs t List.mem_cons_self
      have hfirst (p : Token → Bool) : nextIs p (placesAt i before d (t :: ts)) = p t := by
        have hnext := nextIs_placesAt p i before d t ts []
        rwa [List.append_nil] at hnext
      have hparam : InsertTarget.isParam (placesAt i before d (t :: ts)) = false := by
        have hkind : (t.kind == Kind.parameter) = false :=
          beq_eq_false_iff_ne.mpr (hthis.kind_ne (by decide))
        rw [InsertTarget.isParam, nextIsKind, hfirst, nextIsWord, hfirst, hkind, hthis.2,
          Bool.and_false, Bool.and_false]
        rfl
      have htargets : InsertTarget.ofRow table [name] [placesAt i before d (t :: ts)] = [] := by
        revert hparam
        generalize placesAt i before d (t :: ts) = item
        intro hparam
        cases item with
        | nil => rfl
        | cons p ps => simp [InsertTarget.ofRow, hparam]
      rw [htargets, marksFrom_eq_nil fun u hu => (hxs u hu).kind_ne (by decide)]
      exact .nil

/-- The targets of a row are those of its `?`, in the columns with their numbers. -/
theorem assigned_row {inner : List Token} {row : List Bool} (h : Separated Value inner row)
    (hlength : row.length ≤ columns.length) (i : Nat) (before : Option Token) (d : Nat) :
    Assigned table (marksFrom i inner) (insertedRow columns row)
      (InsertTarget.ofRow table columns (placePieces (placesAt i before d inner))) := by
  induction h generalizing i before columns with
  | nil => exact .nil
  | @single xs isMark hx =>
      obtain ⟨name, names, rfl⟩ := List.exists_cons_of_length_pos hlength
      obtain ⟨hne, hout⟩ := apart_value _ _ hx
      have hrest : InsertTarget.ofRow table names [] = [] := rfl
      rw [placePieces_single hout hne, ofRow_cons, hrest, List.append_nil, insertedRow_cons]
      exact (List.append_nil (insertedRow [name] [isMark])).symm ▸ hx.assigned name i before d
  | @more xs ys isMark other row comma hx hcomma _ ih =>
      obtain ⟨name, names, rfl⟩ := List.exists_cons_of_length_pos
        (Nat.lt_of_lt_of_le (Nat.succ_pos _) hlength)
      obtain ⟨hne, hout⟩ := apart_value _ _ hx
      have hmarks : marksFrom i (xs ++ comma :: ys) =
          marksFrom i xs ++ marksFrom (i + xs.length + 1) ys := by
        rw [marksFrom_append, marksFrom_cons (by rw [hcomma.1]; decide)]
      rw [placePieces_append hout hne hcomma.1, ofRow_cons, insertedRow_cons, hmarks]
      exact (hx.assigned name i before d).append
        (ih (Nat.le_of_succ_le_succ hlength) (i + xs.length + 1) (some comma))

theorem ofRows_group (table : String) (columns : List String) {o c : Token} {inner : List Token}
    (ho : o.kind = .leftParen) (hc : c.kind = .rightParen) (hinner : Balanced inner) (i : Nat)
    (before : Option Token) (rest : List Place) :
    InsertTarget.ofRows table columns (placesAt i before 0 (o :: (inner ++ [c])) ++ rest) =
      InsertTarget.ofRow table columns (placePieces (placesAt (i + 1) (some o) 1 inner)) ++
        InsertTarget.ofRows table columns
          (if nextIsKind .comma rest then rest.drop 1 else rest) := by
  have hgroup : groupPlaces? (placesAt i before 0 (o :: (inner ++ [c])) ++ rest) =
      some (placesAt (i + 1) (some o) 1 inner, rest) := by
    rw [placesAt_group ho hc hinner, List.cons_append, List.append_assoc, List.singleton_append]
    exact groupPlaces?_eq ho hc (by rwa [map_token_placesAt]) rest
  rw [InsertTarget.ofRows_eq, hgroup]

/-- The targets of all rows are those of their `?`. -/
theorem assigned_rows {ts : List Token} {rows : List (List Bool)} (h : Separated Row ts rows)
    (hlength : ∀ row ∈ rows, row.length ≤ columns.length) (i : Nat) (before : Option Token) :
    Assigned table (marksFrom i ts) (rows.flatMap (insertedRow columns))
      (InsertTarget.ofRows table columns (placesAt i before 0 ts)) := by
  have hparens {o c : Token} {inner : List Token} (ho : o.kind = .leftParen)
      (hc : c.kind = .rightParen) (j : Nat) :
      marksFrom j (o :: (inner ++ [c])) = marksFrom (j + 1) inner := by
    rw [marksFrom_cons (by rw [ho]; decide), marksFrom_append,
      marksFrom_cons (t := c) (by rw [hc]; decide)]
    exact List.append_nil _
  have hnil : InsertTarget.ofRows table columns [] = [] := by
    rw [InsertTarget.ofRows_eq]
    rfl
  induction h generalizing i before with
  | nil =>
      show Assigned table [] [] (InsertTarget.ofRows table columns [])
      rw [hnil]
      exact .nil
  | @single xs row hx =>
      obtain ⟨ho, hc, hinner⟩ := hx
      have hrow := ofRows_group table columns ho hc (hinner.balanced apart_value) i before []
      have hrest : (if nextIsKind .comma [] then ([] : List Place).drop 1 else []) = [] := rfl
      rw [List.append_nil, hrest, hnil, List.append_nil] at hrow
      rw [hrow, hparens ho hc, List.flatMap_singleton]
      exact assigned_row hinner (hlength row List.mem_cons_self) (i + 1) _ 1
  | @more xs ys row other rows comma hx hcomma _ ih =>
      have hbalanced := (apart_row _ _ hx).2.balanced
      obtain ⟨ho, hc, hinner⟩ := hx
      have hnext (p : Place) (ps : List Place) (hp : p.token = comma) :
          (if nextIsKind .comma (p :: ps) then (p :: ps).drop 1 else p :: ps) = ps := by
        have hyes : nextIsKind .comma (p :: ps) = true := beq_iff_eq.mpr (hp ▸ hcomma.1)
        rw [hyes, if_pos rfl]
        rfl
      rw [placesAt_append hbalanced, ofRows_group table columns ho hc (hinner.balanced apart_value),
        placesAt_cons (by rw [hcomma.1]; decide) (by rw [hcomma.1]; decide), hnext _ _ rfl,
        marksFrom_append, hparens ho hc, marksFrom_cons (by rw [hcomma.1]; decide),
        List.flatMap_cons]
      exact (assigned_row hinner (hlength row List.mem_cons_self) (i + 1) _ 1).append
        (ih (fun r hr => hlength r (List.mem_cons_of_mem _ hr)) _ _)

/-- The names of a list of columns are read back. -/
theorem names_placePieces {inner : List Token} {names : List String}
    (h : Separated IsColumn inner names) (i : Nat) (before : Option Token) (d : Nat) :
    ((placePieces (placesAt i before d inner)).filterMap fun piece =>
      piece.head?.map (·.token.value)) = names := by
  have hname {t : Token} (ht : t.kind = .quotedIdentifier) (j : Nat) (before : Option Token) :
      placesAt j before d [t] = [⟨j, d, before, t⟩] := by
    rw [placesAt_cons (by rw [ht]; decide) (by rw [ht]; decide)]
    rfl
  induction h generalizing i before with
  | nil => rfl
  | single hx =>
      obtain ⟨hne, hout⟩ := apart_isColumn _ _ hx
      obtain ⟨t, rfl, ht, rfl⟩ := hx
      rw [placePieces_single hout hne, hname ht]
      rfl
  | more hx hcomma _ ih =>
      obtain ⟨hne, hout⟩ := apart_isColumn _ _ hx
      obtain ⟨t, rfl, ht, rfl⟩ := hx
      rw [placePieces_append hout hne hcomma.1, hname ht, List.filterMap_cons, ih]
      rfl

end Targets

/-! ## The statement -/

/-- A statement `INSERT INTO "t" ("c", …) VALUES (…), (…)`, with or without the list of columns. -/
structure Insertion where
  insert : Token
  into : Token
  table : Token
  columnTokens : List Token
  columns : Option (List String)
  values : Token
  rowTokens : List Token
  rows : List (List Bool)
  hinsert : insert.IsKeyword "INSERT"
  hinto : into.IsKeyword "INTO"
  htable : table.kind = .quotedIdentifier
  hcolumns : ColumnList columnTokens columns
  hvalues : values.IsKeyword "VALUES"
  hrows : Separated Row rowTokens rows

theorem nextIs_of_head? {places : List Place} {p : Token → Bool}
    (h : ∀ q ∈ places.head?, p q.token = false) : nextIs p places = false := by
  cases places with
  | nil => rfl
  | cons q rest => exact h q rfl

theorem readTable_of_head? {places : List Place} (h : ∀ p ∈ places.head?, p.token.kind ≠ .dot)
    (table : String) : InsertTarget.readTable table places = (table, places) := by
  rcases places with _ | ⟨dot, _ | ⟨part, rest⟩⟩
  · rfl
  · rw [InsertTarget.readTable, if_neg (h dot rfl)]
  · rw [InsertTarget.readTable, if_neg (h dot rfl)]

/-- `INTO` begins a clause of one relation, which is no function. -/
theorem ofPlaces_into {word : Token} (hword : word.IsKeyword "INTO") (i : Nat)
    (before : Option Token) (xs : List Token) :
    let clause := RelationRef.readList false false (placesAt (i + 1) (some word) 0 xs)
    RelationRef.ofPlaces (placesAt i before 0 (word :: xs)) =
      clause.1 ++ RelationRef.ofPlaces clause.2 := by
  have hfrom : word.isWord "FROM" = false := by
    rw [hword.isWord]
    decide
  have hopens : RelationRef.opensClause ⟨i, 0, before, word⟩ = true := by
    have hclause : RelationRef.clauseWords.any (eqIgnoreCase "INTO") = true := by decide
    rw [RelationRef.opensClause, Place.isTopWord, hword.isAnyWord, hclause, hfrom, Bool.false_and]
    rfl
  have hbody (rest : List Place) : RelationRef.clauseBody ⟨i, 0, before, word⟩ rest = rest := by
    have hupdate : word.isWord "UPDATE" = false := by
      rw [hword.isWord]
      decide
    rw [RelationRef.clauseBody, hupdate, Bool.false_and]
    rfl
  have hinto : word.isWord "INTO" = true := by
    rw [hword.isWord]
    decide
  rw [placesAt_cons (by rw [hword.1]; decide) (by rw [hword.1]; decide), RelationRef.ofPlaces,
    hopens, if_pos rfl, hbody, hinto, hfrom]
  rfl

theorem ColumnList.outside {ts : List Token} {names : Option (List String)} {others : List String}
    (h : ColumnList ts names) : Outside (fun t => t.isAnyWord others = false) ts := by
  cases h with
  | omitted => exact .nil
  | written ho hc hinner => exact noWords_group ho hc (hinner.balanced apart_isColumn)

theorem ColumnList.kind {ts : List Token} {names : Option (List String)} (h : ColumnList ts names) :
    ∀ t ∈ ts, t.kind ∈ [Kind.leftParen, .rightParen, .comma, .quotedIdentifier] := by
  cases h with
  | omitted => nofun
  | @written o c inner names ho hc hinner =>
      refine forall_mem_group (by rw [ho]; decide) (by rw [hc]; decide)
        (hinner.forall_mem ?_ fun comma hcomma => by rw [hcomma.1]; decide)
      rintro _ name ⟨t, rfl, ht, -⟩
      exact List.forall_mem_singleton.mpr (by rw [ht]; decide)

theorem ColumnList.kind_ne {ts : List Token} {names : Option (List String)}
    (h : ColumnList ts names) {kind : Kind}
    (hkind : kind ∉ [Kind.leftParen, .rightParen, .comma, .quotedIdentifier]) :
    ∀ t ∈ ts, t.kind ≠ kind := by
  rintro t ht rfl
  exact hkind (h.kind t ht)

/-- The columns that are named are read, or else those of the table are taken. -/
theorem ColumnList.readColumns?_eq {ts : List Token} {names : Option (List String)}
    (h : ColumnList ts names) {c : Catalog} {table : String} {t : Table}
    (ht : c.table? table = some t) {values : Token} (hvalues : values.IsKeyword "VALUES")
    (rest : List Token) (i : Nat) (before : Option Token) :
    InsertTarget.readColumns? c table (placesAt i before 0 (ts ++ values :: rest)) =
      some (names.getD (t.columns.map (·.name)),
        ⟨i + ts.length, 0, ts.getLast?.or before, values⟩ ::
          placesAt (i + ts.length + 1) (some values) 0 rest) := by
  have hplaces (i : Nat) (before : Option Token) : placesAt i before 0 (values :: rest) =
      ⟨i, 0, before, values⟩ :: placesAt (i + 1) (some values) 0 rest :=
    placesAt_cons (by rw [hvalues.1]; decide) (by rw [hvalues.1]; decide) ..
  cases h with
  | omitted =>
      have hno (p : Place) (ps : List Place) (hp : p.token = values) :
          nextIsKind .leftParen (p :: ps) = false := by
        refine beq_eq_false_iff_ne.mpr ?_
        rw [hp, hvalues.1]
        decide
      rw [List.nil_append, hplaces, InsertTarget.readColumns?, hno _ _ rfl,
        if_neg Bool.false_ne_true, ht]
      rfl
  | @written o c inner names ho hc hinner =>
      have hbalanced := hinner.balanced apart_isColumn
      have hyes (p : Place) (ps : List Place) (hp : p.token = o) :
          nextIsKind .leftParen (p :: ps) = true := beq_iff_eq.mpr (hp ▸ ho)
      have hlist : Balanced (o :: (inner ++ [c])) := .group ho hc hbalanced
      rw [placesAt_append hlist, placesAt_group ho hc hbalanced, List.cons_append,
        InsertTarget.readColumns?, hyes _ _ rfl, if_pos rfl, List.append_assoc,
        List.singleton_append, groupPlaces?_eq ho hc (by rwa [map_token_placesAt]), Option.map_some,
        names_placePieces hinner, hplaces]
      rfl

theorem ColumnList.head?_append {ts : List Token} {names : Option (List String)}
    (h : ColumnList ts names) {values : Token} (hvalues : values.IsKeyword "VALUES")
    (rest : List Token) : ∀ t ∈ (ts ++ values :: rest).head?,
      t.kind ≠ .dot ∧ t.isWord "AS" = false ∧ t.isName = false := by
  cases h with
  | omitted =>
      intro t ht
      obtain ⟨hdot, -, has, hname⟩ := ends_of_keyword hvalues (by decide) (by decide) _ t ht
      exact ⟨hdot, has, hname⟩
  | written ho _ _ =>
      rintro t ⟨⟩
      refine ⟨by rw [ho]; decide, ?_, ?_⟩
      · rw [isWord, ho]
        rfl
      · rw [isName, isIdentifier, ho]
        rfl

namespace Insertion

variable (q : Insertion)

/-- What stands behind the table. -/
def behind : List Token := q.columnTokens ++ q.values :: q.rowTokens

/-- The tokens of the statement. -/
def tokens : List Token := q.insert :: q.into :: q.table :: q.behind

/-- What stands in front of the rows. -/
def lead : List Token := q.insert :: q.into :: q.table :: (q.columnTokens ++ [q.values])

/-- The relation that is named. -/
def reference : RelationRef := ⟨q.table.value, none, q.table.position, false, [2]⟩

/-- The columns that are named, or else those of the table. -/
def columnNames (t : Table) : List String := q.columns.getD (t.columns.map (·.name))

/-- The columns that the parameters go into, one behind the other. -/
def inserted (names : List String) : List String := q.rows.flatMap (insertedRow names)

theorem tokens_eq : q.tokens = q.lead ++ q.rowTokens := by
  simp [tokens, lead, behind]

theorem insert_isWord : q.insert.isWord "WITH" = false := by
  rw [q.hinsert.isWord]
  decide

/-- Behind the table stands no alias, and its name does not go on. -/
theorem head?_behind : ∀ t ∈ q.behind.head?,
    t.kind ≠ .dot ∧ t.isWord "AS" = false ∧ t.isName = false :=
  q.hcolumns.head?_append q.hvalues q.rowTokens

section Outside

variable {others : List String}

/-- Outside all groups stand no words but those of the statement. -/
theorem outside_behind (h : others.any (eqIgnoreCase "VALUES") = false) :
    Outside (fun t => t.isAnyWord others = false) q.behind := by
  have hrows : Outside (fun t => t.isAnyWord others = false) q.rowTokens := by
    refine q.hrows.outside ?_ fun comma hcomma =>
      isAnyWord_of_kind (by rw [hcomma.1]; decide) (by rw [hcomma.1]; decide) _
    rintro _ row ⟨ho, hc, hinner⟩
    exact noWords_group ho hc (hinner.balanced apart_value)
  exact q.hcolumns.outside.append ((noWords_of_keyword q.hvalues h).append hrows)

theorem outside (hinsert : others.any (eqIgnoreCase "INSERT") = false)
    (hinto : others.any (eqIgnoreCase "INTO") = false)
    (hvalues : others.any (eqIgnoreCase "VALUES") = false) :
    Outside (fun t => t.isAnyWord others = false) q.tokens := by
  have htable : Outside (fun t => t.isAnyWord others = false) [q.table] :=
    .token (isAnyWord_of_kind (by rw [q.htable]; decide) (by rw [q.htable]; decide) _)
      (by rw [q.htable]; decide) (by rw [q.htable]; decide)
  exact (noWords_of_keyword q.hinsert hinsert).append ((noWords_of_keyword q.hinto hinto).append
    (htable.append (q.outside_behind hvalues)))

end Outside

theorem statementStart_eq : statementStart q.tokens = 0 :=
  statementStart_of_not_with (q.insert_isWord) _

/-- The statement is one segment: no query is inserted. -/
theorem split (base : Scope) :
    Segment.split base q.tokens = [⟨[⟨0, q.tokens.length⟩], base.narrow q.tokens, false⟩] := by
  have hquery : Segment.insertedQuery? (places q.tokens) 0 = none := by
    have hnone : (places q.tokens).find? (fun p => p.isTopWord ["SELECT"]) = none :=
      List.find?_eq_none.mpr fun p hp => Bool.eq_false_iff.mp
        (isTopWord_of_outside (q.outside (by decide) (by decide) (by decide)) hp)
    rw [Segment.insertedQuery?, List.drop_zero, hnone]
    exact ite_self _
  exact split_of_noQuery q.statementStart_eq hquery (fun p hp =>
    isTopWord_of_outside (q.outside (by decide) (by decide) (by decide)) hp) base

theorem places_eq : places q.tokens =
    ⟨0, 0, none, q.insert⟩ :: ⟨1, 0, some q.insert, q.into⟩ :: ⟨2, 0, some q.into, q.table⟩ ::
      placesAt 3 (some q.table) 0 q.behind := by
  show placesAt 0 none 0 q.tokens = _
  rw [tokens, placesAt_cons (by rw [q.hinsert.1]; decide) (by rw [q.hinsert.1]; decide),
    placesAt_cons (by rw [q.hinto.1]; decide) (by rw [q.hinto.1]; decide),
    placesAt_cons (by rw [q.htable]; decide) (by rw [q.htable]; decide)]

/-- The statement names its one relation. -/
theorem references_eq : RelationRef.ofTokens q.tokens = [q.reference] := by
  have hhead (p : Place) (hp : p ∈ (placesAt 3 (some q.table) 0 q.behind).head?) :=
    q.head?_behind _ (mem_head?_placesAt hp)
  have hname : q.table.isName = true := isName_of_quoted q.htable
  have hread : RelationRef.read? false (placesAt 2 (some q.into) 0 (q.table :: q.behind)) =
      some (q.reference, placesAt 3 (some q.table) 0 q.behind) := by
    rw [placesAt_cons (by rw [q.htable]; decide) (by rw [q.htable]; decide)]
    simp only [RelationRef.read?, q.htable, hname, readParts_of_head? fun p hp => (hhead p hp).1,
      readAlias_of_head? fun p hp => (hhead p hp).2, reduceCtorEq, if_false, if_true,
      Bool.false_and, Bool.false_eq_true, Option.map_some]
    rfl
  have hlead : NoClause [q.insert] := noWords_of_keyword q.hinsert (by decide)
  have hnone : RelationRef.ofPlaces (placesAt 3 (some q.table) 0 q.behind) = [] :=
    ofPlaces_eq_nil fun p hp => isTopWord_of_outside (q.outside_behind (by decide)) hp
  show RelationRef.ofPlaces (placesAt 0 none 0 ([q.insert] ++ q.into :: q.table :: q.behind)) = _
  rw [ofPlaces_pass hlead]
  refine (ofPlaces_into q.hinto 1 (some q.insert) (q.table :: q.behind)).trans ?_
  rw [RelationRef.readList_of_last hread (Bool.false_and _), hnone]
  rfl

/-! ## The values -/

/-- Behind `INTO` the reading of targets begins. -/
theorem ofTokens_eq (c : Catalog) :
    InsertTarget.ofTokens c q.tokens =
      InsertTarget.ofInsertion c (⟨2, 0, some q.into, q.table⟩ ::
        placesAt 3 (some q.table) 0 q.behind) := by
  have hinsert : nextIs (fun u => u.isAnyWord ["INSERT", "REPLACE"]) (places q.tokens) = true := by
    rw [places_eq]
    show q.insert.isAnyWord ["INSERT", "REPLACE"] = true
    rw [q.hinsert.isAnyWord]
    decide
  have hfirst : Place.isTopWord ⟨0, 0, none, q.insert⟩ ["INTO"] = false := by
    show q.insert.isAnyWord ["INTO"] = false
    rw [q.hinsert.isAnyWord]
    decide
  have hsecond : Place.isTopWord ⟨1, 0, some q.insert, q.into⟩ ["INTO"] = true := by
    show q.into.isAnyWord ["INTO"] = true
    rw [q.hinto.isAnyWord]
    decide
  rw [InsertTarget.ofTokens, q.statementStart_eq, List.drop_zero, hinsert, if_pos rfl, places_eq,
    List.dropWhile_cons_of_pos (by rw [hfirst]; rfl),
    List.dropWhile_cons_of_neg (by rw [hsecond]; decide)]
  rfl

/-- The rows are read behind `VALUES`, with the columns in front of it or else those of the
table. -/
theorem ofTokens_eq_ofRows {c : Catalog} {t : Table} (ht : c.table? q.table.value = some t) :
    InsertTarget.ofTokens c q.tokens =
      InsertTarget.ofRows q.table.value (q.columnNames t)
        (placesAt (3 + q.columnTokens.length + 1) (some q.values) 0 q.rowTokens) := by
  have hname : q.table.isName = true := isName_of_quoted q.htable
  have htable : InsertTarget.readTable q.table.value (placesAt 3 (some q.table) 0 q.behind) =
      (q.table.value, placesAt 3 (some q.table) 0 q.behind) :=
    readTable_of_head? (fun p hp => (q.head?_behind _ (mem_head?_placesAt hp)).1) _
  have has : nextIsWord "AS" (placesAt 3 (some q.table) 0 q.behind) = false :=
    nextIs_of_head? fun p hp => (q.head?_behind _ (mem_head?_placesAt hp)).2.1
  have hcolumns : InsertTarget.readColumns? c q.table.value (placesAt 3 (some q.table) 0 q.behind) =
      some (q.columnNames t, ⟨3 + q.columnTokens.length, 0,
        q.columnTokens.getLast?.or (some q.table), q.values⟩ ::
          placesAt (3 + q.columnTokens.length + 1) (some q.values) 0 q.rowTokens) :=
    q.hcolumns.readColumns?_eq ht q.hvalues q.rowTokens 3 (some q.table)
  have hvalues (before : Option Token) (rest : List Place) (i : Nat) :
      nextIsWord "VALUES" (⟨i, 0, before, q.values⟩ :: rest) = true := by
    show q.values.isWord "VALUES" = true
    rw [q.hvalues.isWord]
    decide
  rw [ofTokens_eq]
  simp only [InsertTarget.ofInsertion, hname, if_true, htable, has, Bool.false_eq_true, if_false,
    hcolumns, hvalues, List.drop_succ_cons, List.drop_zero]

/-- The statement inserts into a table of the catalog: it names columns of the table, and no row is
longer than the list of columns. -/
structure InsertsInto (c : Catalog) (t : Table) : Prop where
  table : c.table? q.table.value = some t
  columns : ∀ names ∈ q.columns, ∀ name ∈ names, t.hasColumn name = true
  rows : ∀ row ∈ q.rows, row.length ≤ (q.columnNames t).length

variable {q} in
/-- Every column that values go into is one of the table. -/
theorem InsertsInto.exists_column {c : Catalog} {t : Table} (h : q.InsertsInto c t) {name : String}
    (hname : name ∈ q.columnNames t) : ∃ d, t.column? name = some d := by
  refine Option.isSome_iff_exists.mp ?_
  unfold columnNames at hname
  cases hnames : q.columns with
  | some names =>
      rw [hnames] at hname
      exact h.columns names hnames name hname
  | none =>
      rw [hnames] at hname
      obtain ⟨d, hd, rfl⟩ := List.mem_map.mp hname
      exact List.find?_isSome.mpr ⟨d, hd, eqIgnoreCase_iff.mpr rfl⟩

theorem mem_columnNames_of_inserted {t : Table} {name : String}
    (h : name ∈ q.inserted (q.columnNames t)) : name ∈ q.columnNames t := by
  obtain ⟨row, -, hname⟩ := List.mem_flatMap.mp h
  obtain ⟨x, hx, rfl⟩ := List.mem_map.mp hname
  exact (List.of_mem_zip (List.mem_of_mem_filter hx)).2

variable {q} in
/-- The targets of the statement are those of its `?`, in the columns with their numbers. -/
theorem InsertsInto.assigned {c : Catalog} {t : Table} (h : q.InsertsInto c t) :
    Assigned q.table.value (marksFrom 0 q.tokens) (q.inserted (q.columnNames t))
      (InsertTarget.ofTokens c q.tokens) := by
  have hmarks : marksFrom 0 q.tokens = marksFrom (3 + q.columnTokens.length + 1) q.rowTokens := by
    rw [tokens, behind, marksFrom_cons (by rw [q.hinsert.1]; decide),
      marksFrom_cons (by rw [q.hinto.1]; decide), marksFrom_cons (by rw [q.htable]; decide),
      marksFrom_append, marksFrom_eq_nil (q.hcolumns.kind_ne (by decide)), List.nil_append,
      marksFrom_cons (by rw [q.hvalues.1]; decide)]
  rw [q.ofTokens_eq_ofRows h.table, hmarks]
  exact assigned_rows q.hrows h.rows _ _

/-- The parameters of the statement with the columns that they go into. -/
def placed (t : Table) : List ((Token × Nat) × String) :=
  (marksFrom 0 q.tokens).zip (q.inserted (q.columnNames t))

/-- In front of the rows stands no parameter. -/
theorem kind_lead : ∀ t ∈ q.lead, t.kind ≠ .parameter := by
  intro t ht
  simp only [lead, List.mem_cons, List.mem_append, List.not_mem_nil, or_false] at ht
  rcases ht with rfl | rfl | rfl | ht | rfl
  · rw [q.hinsert.1]; decide
  · rw [q.hinto.1]; decide
  · rw [q.htable]; decide
  · exact q.hcolumns.kind_ne (by decide) t ht
  · rw [q.hvalues.1]; decide

/-- In front of a row stand `VALUES` or a comma. -/
theorem startsWith_in {earlier : List Token} (h : ∀ t ∈ earlier.getLast?, t.kind = .comma) :
    startsWith "IN" (q.lead ++ earlier).reverse = false := by
  have hlead : q.lead.getLast? = some q.values := by
    simp [lead, List.getLast?_cons]
  rw [startsWith, List.head?_reverse, List.getLast?_append]
  cases hlast : earlier.getLast? with
  | none =>
      rw [hlead]
      show q.values.isWord "IN" = false
      rw [q.hvalues.isWord]
      decide
  | some u =>
      show u.isWord "IN" = false
      rw [isWord, h u hlast]
      rfl

/-- A `?` is an item of its own. -/
theorem ownItem {mark : Token} {i : Nat} (h : q.tokens[i]? = some mark)
    (hkind : mark.kind = .parameter) : Neighbor.OwnItem q.tokens i := by
  have hne {t : Token} {kind : Kind} (ht : t.kind = kind) (hother : kind ≠ .parameter) :
      mark ≠ t := by
    rintro rfl
    exact hother (ht.symm.trans hkind)
  have hlead : q.lead.length ≤ i := by
    refine Nat.le_of_not_lt fun hi => ?_
    rw [tokens_eq, List.getElem?_append_left hi] at h
    exact q.kind_lead mark (List.mem_of_getElem? h) hkind
  rw [tokens_eq, List.getElem?_append_right hlead] at h
  obtain ⟨j, row, xs, earlier, later, k, hk, hi, hrow⟩ :=
    q.hrows.exists_itemOf h (by rw [hkind]; decide)
  have hlast := hrow.last
  obtain ⟨htokens, @⟨o, c, inner, row, ho, hc, hinner⟩, -, -⟩ := hrow
  obtain ⟨m, hm, rfl⟩ := getElem?_group hk (hne ho (by decide)) (hne hc (by decide))
  obtain ⟨_, isMark, ys, before, after, n, hn, rfl, hitem⟩ :=
    hinner.exists_itemOf hm (by rw [hkind]; decide)
  obtain ⟨rfl, rfl⟩ := hitem.item.eq_mark hn hkind
  have hrows : q.tokens = (q.lead ++ earlier) ++ o :: before ++ mark :: (after ++ c :: later) := by
    rw [tokens_eq, htokens, hitem.tokens_eq]
    simp
  have hindex : i = ((q.lead ++ earlier) ++ o :: before).length := by
    simp only [List.length_append, List.length_cons]
    omega
  rw [hrows, hindex]
  refine .of_group ho (hitem.balanced apart_value) hitem.last (q.startsWith_in hlast) ?_
  intro t ht
  rw [List.head?_append] at ht
  cases hafter : after.head? with
  | none =>
      rw [hafter] at ht
      cases ht
      exact delimits_of_kind hc (by decide)
  | some u =>
      rw [hafter] at ht
      cases ht
      exact delimits_of_kind (hitem.behind _ hafter) (by decide)

/-- Every parameter of the statement is a `?`, and none is a macro. -/
theorem positional : ∀ t ∈ q.tokens, Positional t := by
  intro t ht
  simp only [tokens, behind, List.mem_cons, List.mem_append] at ht
  rcases ht with rfl | rfl | rfl | ht | rfl | ht
  · exact positional_of_keyword q.hinsert (by decide)
  · exact positional_of_keyword q.hinto (by decide)
  · exact positional_of_kind (by rw [q.htable]; decide) (by rw [q.htable]; decide)
      (by rw [q.htable]; decide)
  · exact positional_of_kind (q.hcolumns.kind_ne (by decide) t ht)
      (q.hcolumns.kind_ne (by decide) t ht) (q.hcolumns.kind_ne (by decide) t ht)
  · exact positional_of_keyword q.hvalues (by decide)
  · exact q.hrows.forall_mem (fun _ _ => Row.positional) (fun _ => positional_of_comma) t ht

end Insertion

end Grammar

end TypedSql

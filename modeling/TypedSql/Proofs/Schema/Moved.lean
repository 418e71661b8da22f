import TypedSql.Proofs.Schema.Change
import TypedSql.Proofs.Schema.Run
import TypedSql.Proofs.Schema.Statements

/-!
# Schema statements that stand in another file

What a statement does to a catalog depends on its tokens and the catalog only.  The same tokens
further on in another file do the same: the views that come from the file get the path and the
positions of the other one, and so do the problems.

Main definitions: `Move`, `Move.catalog`, `Move.Keeps`.  Main statements:
`Move.applyStatement_moved`, `Move.applyStatements_moved`.
-/

namespace TypedSql

open Text

namespace OrderedMap

variable {α : Type}

theorem mapValues_insert (f : String → α → α) (m : OrderedMap α) (key : String) (value : α) :
    (m.insert key value).mapValues f = (m.mapValues f).insert key (f key value) := by
  have hkeys : key ∈ (m.mapValues f).keys ↔ key ∈ m.keys := by rw [keys_mapValues]
  apply OrderedMap.ext
  unfold insert
  by_cases hkey : key ∈ m.keys
  · rw [dif_pos hkey, dif_pos (hkeys.mpr hkey)]
    simp only [modify, mapValues, List.map_map]
    refine List.map_congr_left fun e _ => ?_
    simp only [Function.comp]
    split
    · next h => rw [h]
    · rfl
  · rw [dif_neg hkey, dif_neg (mt hkeys.mp hkey)]
    simp [mapValues]

theorem mapValues_erase (f : String → α → α) (m : OrderedMap α) (key : String) :
    (m.erase key).mapValues f = (m.mapValues f).erase key := by
  apply OrderedMap.ext
  simp [erase, mapValues, List.filter_map, Function.comp_def]

theorem values_mapValues (f : α → α) (m : OrderedMap α) :
    (m.mapValues fun _ => f).values = m.values.map f := by
  simp [values, mapValues]

end OrderedMap

namespace Schema

open Token

/-! ## Moves -/

/-- How the statements of one file stand in another one. -/
structure Move where
  source : Source
  target : Source
  /-- How many bytes further on. -/
  bytes : Nat
  /-- How many lines further down. -/
  lines : Nat

namespace Move

variable (m : Move)

/-- The tokens in the other file. -/
abbrev tokens (ts : List Token) : List Token := allMoved m.bytes m.lines ts

/-- The problem in the other file. -/
def problem (d : Diagnostic) : Diagnostic :=
  { d with path := m.target.path, position := d.position.down m.lines }

/-- A view that comes from the file comes from the other file. -/
def view (v : View) : View :=
  if v.path = m.source.path then
    { v with path := m.target.path, position := v.position.down m.lines }
  else v

/-- The catalog with the views from the other file. -/
def catalog (c : Catalog) : Catalog := { c with views := c.views.mapValues fun _ => m.view }

/-- What an attempt comes to in the other file. -/
def result {α β : Type} (f : α → β) : Attempt α → Attempt β
  | .ok a => .ok (f a)
  | .error found => .error (found.map m.problem)

/-- The text from one of the tokens to another is the same in both files. -/
def Keeps (ts : List Token) : Prop :=
  ∀ t ∈ ts, ∀ u ∈ ts, slice m.target.sql (t.span.start + m.bytes) (u.span.stop + m.bytes) =
    slice m.source.sql t.span.start u.span.stop

variable {m} {c : Catalog} {ts us : List Token} {position : Position}

theorem Keeps.mono (h : m.Keeps ts) (hsub : us ⊆ ts) : m.Keeps us :=
  fun t ht u hu => h t (hsub ht) u (hsub hu)

/-- Attempts one after the other. -/
theorem result_bind {α β γ δ : Type} {f : α → β} {g : γ → δ} {x : Attempt α}
    {k : α → Attempt γ} {k' : β → Attempt δ}
    (h : ∀ a, x = .ok a → k' (f a) = m.result g (k a)) :
    (m.result f x >>= k') = m.result g (x >>= k) := by
  cases x with
  | error found => rfl
  | ok a => exact h a rfl

/-- Both files go the same way at a fork. -/
theorem ite_eq {α β : Type} {f : α → β} {b b' : Bool} {x y : α} {x' y' : β} (hb : b' = b)
    (hx : x' = f x) (hy : y' = f y) : (if b' then x' else y') = f (if b then x else y) := by
  subst hb
  split
  · exact hx
  · exact hy

/-! ## Names and texts -/

theorem tokens_cons (t : Token) (ts : List Token) :
    m.tokens (t :: ts) = t.moved m.bytes m.lines :: m.tokens ts := rfl

theorem skip_tokens (word : String) (ts : List Token) :
    skip word (m.tokens ts) = m.tokens (skip word ts) := skip_moved word ts

theorem drop_tokens (n : Nat) (ts : List Token) : (m.tokens ts).drop n = m.tokens (ts.drop n) :=
  List.map_drop.symm

theorem sourceText_moved (h : m.Keeps ts) :
    sourceText m.target.sql (m.tokens ts) = sourceText m.source.sql ts := by
  unfold sourceText
  rw [List.head?_map, List.getLast?_map]
  cases hfirst : ts.head? with
  | none => rfl
  | some first =>
      cases hlast : ts.getLast? with
      | none => rfl
      | some last => exact h first (List.mem_of_mem_head? hfirst) last (List.mem_of_getLast? hlast)

theorem startsWithAll_moved (words : List String) (ts : List Token) :
    startsWithAll words (m.tokens ts) = startsWithAll words ts := by
  induction words generalizing ts with
  | nil => rfl
  | cons w ws ih =>
      cases ts with
      | nil => rfl
      | cons t ts => exact congrArg (t.isWord w && ·) (ih ts)

theorem skipAll_moved (words : List String) (ts : List Token) :
    skipAll words (m.tokens ts) = m.tokens (skipAll words ts) := by
  unfold skipAll
  rw [startsWithAll_moved]
  split
  · exact List.map_drop.symm
  · rfl

theorem skipAll_subset (words : List String) (ts : List Token) : skipAll words ts ⊆ ts :=
  (skipAll_suffix words ts).subset

theorem relationName?_moved (ts : List Token) :
    relationName? (m.tokens ts) =
      (relationName? ts).map fun found => (found.1.moved m.bytes m.lines, m.tokens found.2) := by
  fun_induction relationName? ts with
  | case1 => rfl
  | case2 t ht => exact if_pos ht
  | case3 t ht => exact if_neg ht
  | case4 t dot rest hdot ih => exact (if_pos hdot).trans ih
  | case5 t dot rest hdot ht => exact (if_neg hdot).trans (if_pos ht)
  | case6 t dot rest hdot ht => exact (if_neg hdot).trans (if_neg ht)

theorem subset_of_relationName? {found : Token × List Token} (h : relationName? ts = some found) :
    found.2 ⊆ ts := ((List.suffix_cons _ _).trans (suffix_of_relationName? h)).subset

theorem requireName_moved (code : Diagnostic.Code) (position : Position) (message : String)
    (ts : List Token) :
    requireName m.target code (position.down m.lines) message (m.tokens ts) =
      m.result (fun found => (found.1.moved m.bytes m.lines, m.tokens found.2))
        (requireName m.source code position message ts) := by
  unfold requireName
  rw [relationName?_moved]
  cases relationName? ts <;> rfl

theorem subset_of_requireName {source : Source} {code : Diagnostic.Code} {message : String}
    {found : Token × List Token} (h : requireName source code position message ts = .ok found) :
    found.2 ⊆ ts := by
  unfold requireName at h
  split at h
  · next hname =>
      cases h
      exact subset_of_relationName? hname
  · cases h

/-! ## Columns -/

theorem defaultValue_moved (h : m.Keeps ts) :
    defaultValue m.target.sql (m.tokens ts) =
      ((defaultValue m.source.sql ts).1, m.tokens (defaultValue m.source.sql ts).2) := by
  cases ts with
  | nil => rfl
  | cons t ts =>
      have hgroup : group? (m.tokens (t :: ts)) = _ := group?_moved (t :: ts)
      rw [tokens_cons] at hgroup ⊢
      have hsign : isSign (t.moved m.bytes m.lines) = isSign t := rfl
      by_cases hopen : t.kind = .leftParen
      · simp only [defaultValue, kind_moved, hopen, if_true, hgroup]
        cases hg : group? (t :: ts) with
        | none => rfl
        | some g =>
            have htext := sourceText_moved (h.mono (inner_subset_of_group? hg))
            exact congrArg (fun text => (some text, m.tokens g.rest)) htext
      · simp only [defaultValue, kind_moved, hopen, if_false, hsign]
        split
        · cases ts <;> rfl
        · rfl

theorem defaultValue_subset (sql : String) (ts : List Token) : (defaultValue sql ts).2 ⊆ ts := by
  unfold defaultValue
  split
  · exact List.nil_subset _
  · next t ts =>
      split
      · split
        · next hg => exact rest_subset_of_group? hg
        · exact List.Subset.refl _
      · split
        · split
          · exact List.nil_subset _
          · next u us =>
              exact List.Subset.trans (List.subset_cons_self u us) (List.subset_cons_self t _)
        · exact List.subset_cons_self t ts

theorem readConstraints_moved (column : Column) (h : m.Keeps ts) :
    readConstraints m.target.sql column (m.tokens ts) =
      readConstraints m.source.sql column ts := by
  fun_induction readConstraints m.source.sql column ts with
  | case1 column => simp only [tokens, allMoved, List.map_nil, readConstraints]
  | case2 column t ts hnot ih =>
      have ih := ih (h.mono
        (List.Subset.trans (List.drop_subset 1 ts) (List.subset_cons_self t ts)))
      rw [tokens_cons, readConstraints]
      simp only [isWord_moved, startsWith_moved, hnot, if_true, drop_tokens]
      exact ih
  | case3 column t ts hnot hkey ih =>
      have ih := ih (h.mono
        (List.Subset.trans (List.drop_subset 1 ts) (List.subset_cons_self t ts)))
      rw [tokens_cons, readConstraints]
      simp only [isWord_moved, startsWith_moved, hnot, hkey, if_true, drop_tokens,
        Bool.false_eq_true, if_false]
      exact ih
  | case4 column t ts hnot hkey hdefault ih =>
      have htail : m.Keeps ts := h.mono (List.subset_cons_self t ts)
      have ih := ih (htail.mono (defaultValue_subset _ ts))
      rw [tokens_cons, readConstraints, defaultValue_moved htail]
      simp only [isWord_moved, startsWith_moved, hnot, hkey, hdefault, if_true,
        Bool.false_eq_true, if_false]
      exact ih
  | case5 column t ts hnot hkey hdefault hopen g hg ih =>
      have ih := ih (h.mono (rest_subset_of_group? hg))
      have hgroup : group? (m.tokens (t :: ts)) = some (g.moved m.bytes m.lines) := by
        rw [group?_moved, hg]
        rfl
      rw [tokens_cons] at hgroup ⊢
      rw [readConstraints]
      simp only [isWord_moved, startsWith_moved, kind_moved, hnot, hkey, hdefault, hopen, if_true,
        Bool.false_eq_true, if_false]
      split
      · next g' hg' =>
          cases hgroup.symm.trans hg'
          exact ih
      · next hnone => cases hgroup.symm.trans hnone
  | case6 column t ts hnot hkey hdefault hopen hg =>
      have hgroup : group? (m.tokens (t :: ts)) = none := by
        rw [group?_moved, hg]
        rfl
      rw [tokens_cons] at hgroup ⊢
      rw [readConstraints]
      simp only [isWord_moved, startsWith_moved, kind_moved, hnot, hkey, hdefault, hopen, if_true,
        Bool.false_eq_true, if_false]
      split
      · next g' hg' => cases hgroup.symm.trans hg'
      · rfl
  | case7 column t ts hnot hkey hdefault hopen ih =>
      have ih := ih (h.mono (List.subset_cons_self t ts))
      rw [tokens_cons, readConstraints]
      simp only [isWord_moved, startsWith_moved, kind_moved, hnot, hkey, hdefault, hopen,
        Bool.false_eq_true, if_false]
      exact ih

theorem readColumn_moved (h : m.Keeps ts) :
    readColumn m.target (m.tokens ts) = m.result id (readColumn m.source ts) := by
  cases ts with
  | nil => rfl
  | cons name rest =>
      have hrest : m.Keeps rest := h.mono (List.subset_cons_self name rest)
      have hname : canName (name.moved m.bytes m.lines) = canName name := rfl
      rw [tokens_cons]
      unfold readColumn
      simp only [hname, List.takeWhile_map, List.dropWhile_map]
      split
      · have htype : m.Keeps (rest.takeWhile fun t => !t.isAnyWord constraintWords) :=
          hrest.mono (List.takeWhile_subset _)
        have hbehind : m.Keeps (rest.dropWhile fun t => !t.isAnyWord constraintWords) :=
          hrest.mono (List.dropWhile_suffix _).subset
        show Except.ok (readConstraints m.target.sql (.plain name.value (sourceText m.target.sql
            (m.tokens (rest.takeWhile fun t => !t.isAnyWord constraintWords))))
          (m.tokens (rest.dropWhile fun t => !t.isAnyWord constraintWords))) = _
        rw [sourceText_moved htype, readConstraints_moved _ hbehind]
        rfl
      · rfl

/-! ## Table bodies -/

variable (m) in
/-- The draft with its problems in the other file. -/
def draft (d : Draft) : Draft := { d with problems := d.problems.map m.problem }

theorem draft_note (d : Draft) (code : Diagnostic.Code) (position : Position) (message : String) :
    (m.draft d).note (m.target.problem code (position.down m.lines) message) =
      m.draft (d.note (m.source.problem code position message)) := by
  simp [draft, Draft.note, problem, Source.problem, Diagnostic.error]

theorem addDefinition_moved (d : Draft) (first : Token) (h : m.Keeps ts) :
    (m.draft d).addDefinition m.target (m.tokens ts) (first.moved m.bytes m.lines) =
      m.draft (d.addDefinition m.source ts first) := by
  unfold Draft.addDefinition
  rw [readColumn_moved h]
  cases readColumn m.source ts with
  | error found =>
      cases found with
      | none => rfl
      | some problem => simp [result, draft, Draft.note]
  | ok column => exact ite_eq rfl (draft_note d _ _ _) rfl

theorem addElement_moved (d : Draft) (h : m.Keeps ts) :
    (m.draft d).addElement m.target (m.tokens ts) = m.draft (d.addElement m.source ts) := by
  have hrest : (if startsWith "CONSTRAINT" (m.tokens ts) then (m.tokens ts).drop 2
      else m.tokens ts) = m.tokens (if startsWith "CONSTRAINT" ts then ts.drop 2 else ts) :=
    ite_eq (startsWith_moved _ ts) (drop_tokens 2 ts) rfl
  unfold Draft.addElement
  simp only [hrest]
  cases (if startsWith "CONSTRAINT" ts then ts.drop 2 else ts) with
  | nil => rfl
  | cons first behind =>
      rw [tokens_cons]
      refine ite_eq rfl ?_ (ite_eq rfl (ite_eq (startsWith_moved _ behind) ?_ rfl)
        (ite_eq rfl rfl (addDefinition_moved d first h)))
      · rw [group?_moved]
        cases group? behind with
        | none => rfl
        | some g => exact congrArg (m.draft d).addUnique (leadingValues_moved g.inner)
      · rw [drop_tokens, group?_moved]
        cases group? (behind.drop 1) with
        | none => rfl
        | some g => exact congrArg (m.draft d).extendKey (leadingValues_moved g.inner)

theorem markKey_moved (position : Position) (d : Draft) (key : String) :
    (m.draft d).markKey m.target (position.down m.lines) key =
      m.draft (d.markKey m.source position key) :=
  ite_eq rfl rfl (draft_note d _ _ _)

theorem readTable_moved (name : String) (position : Position) (h : m.Keeps ts) :
    readTable m.target name (position.down m.lines) (m.tokens ts) =
      m.draft (readTable m.source name position ts) := by
  -- The table is drafted by two folds: its elements, then the keys that they name.
  have helements (pieces : List (List Token)) (hpieces : ∀ piece ∈ pieces, m.Keeps piece)
      (d : Draft) : (pieces.map m.tokens).foldl (Draft.addElement m.target) (m.draft d) =
        m.draft (pieces.foldl (Draft.addElement m.source) d) := by
    induction pieces generalizing d with
    | nil => rfl
    | cons piece pieces ih =>
        rw [List.map_cons, List.foldl_cons, List.foldl_cons,
          addElement_moved d (hpieces piece List.mem_cons_self)]
        exact ih (fun other hother => hpieces other (List.mem_cons_of_mem piece hother)) _
  have hkeys (keys : List String) (d : Draft) :
      keys.foldl (Draft.markKey m.target (position.down m.lines)) (m.draft d) =
        m.draft (keys.foldl (Draft.markKey m.source position) d) := by
    induction keys generalizing d with
    | nil => rfl
    | cons key keys ih => rw [List.foldl_cons, List.foldl_cons, markKey_moved, ih]
  have hbody := helements (commaPieces ts)
    (fun piece hpiece => h.mono (subset_of_mem_commaPieces hpiece)) ⟨.bare name, []⟩
  unfold readTable
  simp only
  rw [commaPieces_moved]
  have hstart : (⟨.bare name, []⟩ : Draft) = m.draft ⟨.bare name, []⟩ := rfl
  rw [hstart, hbody]
  exact hkeys _ _

/-! ## Statements -/

@[simp] theorem table?_catalog (c : Catalog) (name : String) :
    (m.catalog c).table? name = c.table? name := rfl

@[simp] theorem name_view (v : View) : (m.view v).name = v.name := by
  unfold view
  split <;> rfl

theorem view_of_eq {v : View} (h : v.path = m.source.path) :
    m.view v = { v with path := m.target.path, position := v.position.down m.lines } := if_pos h

theorem view_of_ne {v : View} (h : v.path ≠ m.source.path) : m.view v = v := if_neg h

theorem catalog_addView (c : Catalog) (v : View) :
    m.catalog (c.addView v) = (m.catalog c).addView (m.view v) := by
  unfold catalog Catalog.addView
  simp only [OrderedMap.mapValues_insert, name_view]

theorem isSome_view?_catalog (c : Catalog) (name : String) :
    ((m.catalog c).view? name).isSome = (c.view? name).isSome := by
  show ((c.views.mapValues fun _ => m.view).get? _).isSome = _
  rw [OrderedMap.get?_mapValues, Option.isSome_map]
  rfl

theorem any_views_catalog (c : Catalog) (name : String) :
    ((m.catalog c).views.values.any fun v => eqIgnoreCase v.name name) =
      c.views.values.any fun v => eqIgnoreCase v.name name := by
  have hname : (fun v : View => eqIgnoreCase v.name name) ∘ m.view =
      fun v => eqIgnoreCase v.name name :=
    funext fun v => by rw [Function.comp, name_view]
  show ((c.views.mapValues fun _ => m.view).values.any _) = _
  rw [OrderedMap.values_mapValues, List.any_map, hname]

/-- A view that the statement declares comes from its file. -/
theorem registerView_moved (name : String) (columns : Option (List String)) (h : m.Keeps ts) :
    registerView m.target (m.catalog c) name columns (m.tokens ts) (position.down m.lines) =
      m.result m.catalog (registerView m.source c name columns ts position) := by
  cases ts with
  | nil => rfl
  | cons first rest =>
      have hview : m.view ⟨name, columns, sourceText m.source.sql (first :: rest), m.source.path,
          first.position⟩ = ⟨name, columns, sourceText m.source.sql (first :: rest),
          m.target.path, first.position.down m.lines⟩ := if_pos rfl
      show Except.ok ((m.catalog c).addView ⟨name, columns,
        sourceText m.target.sql (m.tokens (first :: rest)), m.target.path,
        first.position.down m.lines⟩) = Except.ok (m.catalog (c.addView _))
      rw [catalog_addView, hview, sourceText_moved h]

variable (m) in
/-- The catalog and the problems in the other file. -/
def outcome (r : Catalog × List Diagnostic) : Catalog × List Diagnostic :=
  (m.catalog r.1, r.2.map m.problem)

theorem defineTable_moved (name : Token) (h : m.Keeps ts) :
    defineTable m.target (m.catalog c) (name.moved m.bytes m.lines) (m.tokens ts) =
      m.result m.outcome (defineTable m.source c name ts) := by
  unfold defineTable
  refine ite_eq (startsWithKind_moved _ ts) ?_ rfl
  rw [group?_moved]
  cases hg : group? ts with
  | none => rfl
  | some g =>
      have htable := readTable_moved name.value name.position (h.mono (inner_subset_of_group? hg))
      exact congrArg (fun d : Draft => Except.ok ((m.catalog c).addTable d.table, d.problems))
        htable

theorem createTable_moved (h : m.Keeps ts) :
    createTable m.target (position.down m.lines) (m.catalog c) (m.tokens ts) =
      m.result m.outcome (createTable m.source position c ts) := by
  unfold createTable
  rw [startsWithAll_moved, skipAll_moved, requireName_moved]
  refine result_bind fun ⟨name, rest⟩ hname => ?_
  have hrest : m.Keeps rest :=
    h.mono (List.Subset.trans (subset_of_requireName hname) (skipAll_subset _ _))
  refine ite_eq rfl (ite_eq rfl rfl rfl) (ite_eq (startsWith_moved _ rest) ?_ ?_)
  · rw [position_moved, value_moved, drop_tokens,
      registerView_moved _ _ (hrest.mono (List.drop_subset 1 rest))]
    exact result_bind fun c' _ => rfl
  · exact defineTable_moved name hrest

theorem createIndex_moved (unique : Bool) (ts : List Token) :
    createIndex m.target (position.down m.lines) unique (m.catalog c) (m.tokens ts) =
      m.result m.catalog (createIndex m.source position unique c ts) := by
  unfold createIndex
  rw [skipAll_moved, requireName_moved]
  refine result_bind fun ⟨name, rest⟩ _ => ?_
  refine ite_eq (congrArg Bool.not (startsWith_moved _ rest)) rfl ?_
  rw [value_moved, drop_tokens, requireName_moved]
  refine result_bind fun ⟨table, rest⟩ _ => ite_eq rfl ?_ rfl
  rw [group?_moved]
  cases group? rest with
  | none => rfl
  | some g =>
      have hcolumns : leadingValues (g.moved m.bytes m.lines).inner = leadingValues g.inner :=
        leadingValues_moved g.inner
      simp only [Option.map_some, hcolumns]
      rfl

theorem createView_moved (h : m.Keeps ts) :
    createView m.target (position.down m.lines) (m.catalog c) (m.tokens ts) =
      m.result m.catalog (createView m.source position c ts) := by
  unfold createView
  rw [startsWithAll_moved, skipAll_moved, requireName_moved]
  refine result_bind fun ⟨name, rest⟩ hname => ?_
  have hrest : m.Keeps rest :=
    h.mono (List.Subset.trans (subset_of_requireName hname) (skipAll_subset _ _))
  refine ite_eq (congrArg ((c.table? name.value).isSome || ·) (any_views_catalog c name.value))
    (ite_eq rfl rfl rfl) ?_
  -- Names of columns in parentheses are read alike, and so is what stands behind them.
  rw [group?_moved]
  cases hg : group? rest with
  | none =>
      refine ite_eq (startsWith_moved _ rest) ?_ rfl
      rw [drop_tokens]
      exact registerView_moved _ _ (hrest.mono (List.drop_subset 1 rest))
  | some g =>
      refine ite_eq (startsWith_moved _ g.rest) ?_ rfl
      have hcolumns : leadingValues (g.moved m.bytes m.lines).inner = leadingValues g.inner :=
        leadingValues_moved g.inner
      have hbehind : (g.moved m.bytes m.lines).rest.drop 1 = m.tokens (g.rest.drop 1) :=
        drop_tokens 1 g.rest
      rw [hcolumns, hbehind]
      exact registerView_moved _ _ (hrest.mono
        (List.Subset.trans (List.drop_subset 1 g.rest) (rest_subset_of_group? hg)))

theorem addColumn_moved (table : String) (h : m.Keeps ts) :
    addColumn m.target (position.down m.lines) (m.catalog c) table (m.tokens ts) =
      m.result m.catalog (addColumn m.source position c table ts) := by
  have hposition : (((m.tokens ts).head?.map (·.position)).getD (position.down m.lines)) =
      ((ts.head?.map (·.position)).getD position).down m.lines := by
    cases ts <;> rfl
  unfold addColumn
  rw [readColumn_moved h, hposition]
  exact result_bind fun column _ => ite_eq rfl rfl rfl

theorem renameTable_moved (table : String) (ts : List Token) :
    renameTable (m.catalog c) table (m.tokens ts) =
      m.result m.catalog (renameTable c table ts) := by
  unfold renameTable
  rw [relationName?_moved, table?_catalog]
  cases relationName? ts with
  | none => rfl
  | some found => cases c.table? table <;> rfl

theorem renameColumn_moved (table : String) (ts : List Token) :
    renameColumn m.target (position.down m.lines) (m.catalog c) table (m.tokens ts) =
      m.result m.catalog (renameColumn m.source position c table ts) := by
  match ts with
  | [] => rfl
  | [_] => rfl
  | [_, _] => rfl
  | _ :: _ :: _ :: _ => exact ite_eq rfl (ite_eq rfl rfl rfl) rfl

theorem dropColumn_moved (table : String) (ts : List Token) :
    dropColumn m.target (m.catalog c) table (m.tokens ts) =
      m.result m.catalog (dropColumn m.source c table ts) := by
  cases ts with
  | nil => rfl
  | cons column rest => exact ite_eq rfl rfl rfl

theorem alterTable_moved (h : m.Keeps ts) :
    alterTable m.target (position.down m.lines) (m.catalog c) (m.tokens ts) =
      m.result m.catalog (alterTable m.source position c ts) := by
  unfold alterTable
  rw [requireName_moved]
  refine result_bind fun ⟨name, rest⟩ hname => ?_
  have hrest : m.Keeps rest := h.mono (subset_of_requireName hname)
  simp only [drop_tokens, skip_tokens]
  refine ite_eq rfl rfl (ite_eq (startsWith_moved _ rest) ?_
    (ite_eq (startsWithAll_moved _ rest) ?_ (ite_eq (startsWith_moved _ rest) ?_
      (ite_eq (startsWith_moved _ rest) ?_ rfl))))
  · exact addColumn_moved _
      (hrest.mono (List.Subset.trans (skip_subset _ _) (List.drop_subset 1 rest)))
  · exact renameTable_moved _ _
  · exact renameColumn_moved _ _
  · exact dropColumn_moved _ _

theorem isIn_catalog (kind : Dropped) (name : String) (c : Catalog) :
    kind.isIn name (m.catalog c) = kind.isIn name c := by
  cases kind with
  | table => rfl
  | view => exact isSome_view?_catalog c name
  | index => rfl

theorem remove_catalog (kind : Dropped) (name : String) (c : Catalog) :
    kind.remove name (m.catalog c) = m.catalog (kind.remove name c) := by
  cases kind with
  | table => rfl
  | view =>
      unfold Dropped.remove Catalog.removeView catalog
      simp only [OrderedMap.mapValues_erase]
  | index => rfl

theorem dropObject_moved (ts : List Token) :
    dropObject m.target (m.catalog c) (m.tokens ts) =
      m.result m.catalog (dropObject m.source c ts) := by
  cases ts with
  | nil => rfl
  | cons word rest =>
      have hkind : Dropped.ofToken? (word.moved m.bytes m.lines) = Dropped.ofToken? word := rfl
      unfold dropObject
      rw [tokens_cons]
      simp only [hkind, skipAll_moved, relationName?_moved]
      cases Dropped.ofToken? word with
      | none => rfl
      | some kind =>
          cases relationName? (skipAll ["IF", "EXISTS"] rest) with
          | none => rfl
          | some found =>
              refine ite_eq (isIn_catalog kind _ c) ?_
                (ite_eq (startsWithAll_moved _ rest) rfl rfl)
              exact congrArg Except.ok (remove_catalog kind _ c)

theorem createObject_moved (h : m.Keeps ts) :
    createObject m.target (position.down m.lines) (m.catalog c) (m.tokens ts) =
      m.result m.outcome (createObject m.source position c ts) := by
  have hmodifiers : (if startsWith "TEMP" (m.tokens (skip "UNIQUE" ts))
      then (m.tokens (skip "UNIQUE" ts)).drop 1
      else skip "TEMPORARY" (m.tokens (skip "UNIQUE" ts))) =
      m.tokens (if startsWith "TEMP" (skip "UNIQUE" ts) then (skip "UNIQUE" ts).drop 1
        else skip "TEMPORARY" (skip "UNIQUE" ts)) :=
    ite_eq (startsWith_moved _ _) (drop_tokens 1 _) (skip_tokens _ _)
  have hsub : (if startsWith "TEMP" (skip "UNIQUE" ts) then (skip "UNIQUE" ts).drop 1
      else skip "TEMPORARY" (skip "UNIQUE" ts)) ⊆ ts := by
    split
    · exact List.Subset.trans (List.drop_subset 1 _) (skip_subset _ ts)
    · exact List.Subset.trans (skip_subset _ _) (skip_subset _ ts)
  have hrest := h.mono hsub
  -- Behind the modifiers, which are passed alike, the word tells what is created.
  unfold createObject
  simp only [startsWith_moved "UNIQUE" ts, skip_tokens "UNIQUE" ts, hmodifiers]
  generalize (if startsWith "TEMP" (skip "UNIQUE" ts) then (skip "UNIQUE" ts).drop 1
      else skip "TEMPORARY" (skip "UNIQUE" ts)) = rest at hrest ⊢
  cases rest with
  | nil => rfl
  | cons word rest =>
      have htail : m.Keeps rest := hrest.mono (List.subset_cons_self word rest)
      refine ite_eq rfl (createTable_moved htail) (ite_eq rfl ?_ (ite_eq rfl ?_ rfl))
      · rw [createIndex_moved]
        exact result_bind fun c' _ => rfl
      · rw [createView_moved htail]
        exact result_bind fun c' _ => rfl

theorem attempt_moved (c : Catalog) (h : m.Keeps ts) :
    attempt m.target (m.catalog c) (m.tokens ts) =
      m.result m.outcome (attempt m.source c ts) := by
  unfold attempt
  cases ts with
  | nil => rfl
  | cons first rest =>
      have hrest : m.Keeps rest := h.mono (List.subset_cons_self first rest)
      refine ite_eq rfl (createObject_moved hrest) (ite_eq ?_ ?_ (ite_eq rfl ?_ rfl))
      · exact congrArg (first.isWord "ALTER" && ·) (startsWith_moved _ rest)
      · rw [drop_tokens, position_moved, alterTable_moved (hrest.mono (List.drop_subset 1 rest))]
        exact result_bind fun c' _ => rfl
      · rw [dropObject_moved]
        exact result_bind fun c' _ => rfl

/-- A statement does the same in the other file. -/
theorem applyStatement_moved (c : Catalog) (h : m.Keeps ts) :
    applyStatement m.target (m.catalog c) (m.tokens ts) =
      m.outcome (applyStatement m.source c ts) := by
  unfold applyStatement
  rw [attempt_moved c h]
  cases attempt m.source c ts with
  | ok r => rfl
  | error found => cases found <;> rfl

/-- Statements do the same in the other file. -/
theorem applyStatements_moved (c : Catalog) {ss : List (List Token)}
    (h : ∀ s ∈ ss, m.Keeps s) :
    applyStatements m.target (m.catalog c) (ss.map m.tokens) =
      m.outcome (applyStatements m.source c ss) := by
  induction ss generalizing c with
  | nil => rfl
  | cons s ss ih =>
      have hs := applyStatement_moved c (h s List.mem_cons_self)
      have hrest := ih (applyStatement m.source c s).1 fun other hother =>
        h other (List.mem_cons_of_mem s hother)
      rw [List.map_cons, applyStatements_cons, applyStatements_cons, hs]
      simp only [outcome, List.map_append] at hrest ⊢
      rw [hrest]

end Move

end Schema

end TypedSql

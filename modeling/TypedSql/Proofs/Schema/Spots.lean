import TypedSql.Proofs.Diagnostic.Distinct
import TypedSql.Proofs.Schema.Change
import TypedSql.Proofs.Schema.Moved

/-!
# The spots of problems

A statement that fails blames one of its tokens: a name that it found, or the word that it begins
with.  So the problem stands in the file of the statement, at the position of that token.

Main definitions: `Step.spots`, `Attempt.At`.  Main statement: `attempt_at`.
-/

namespace TypedSql

open Token

namespace Schema

/-- The place of a token of a file. -/
def Source.spot (source : Source) (t : Token) : Spot := (source.path, t.position)

/-- The places of the tokens of a statement. -/
def Step.spots (s : Step) : List Spot := s.statement.map s.source.spot

/-! ## Attempts -/

/-- If the attempt ends with a problem, the problem is at one of the places. -/
def Attempt.At {α : Type} (spots : List Spot) (x : Attempt α) : Prop :=
  ∀ problem, x = .error (some problem) → problem.spot ∈ spots

section

variable {α β : Type} {spots : List Spot} {x : Attempt α}

theorem Attempt.At.ok (a : α) : Attempt.At spots (.ok a : Attempt α) := nofun

theorem Attempt.At.ignore : Attempt.At spots (ignore : Attempt α) := nofun

theorem Attempt.At.refuse {source : Source} {position : Position}
    (h : (source.path, position) ∈ spots) (code : Diagnostic.Code) (message : String) :
    Attempt.At spots (source.refuse code position message : Attempt α) := by
  intro problem heq
  cases heq
  exact h

theorem Attempt.At.bind {f : α → Attempt β} (hx : x.At spots)
    (hf : ∀ a, x = .ok a → (f a).At spots) : Attempt.At spots (x >>= f) := by
  cases x with
  | error problem => exact fun other heq => hx other (by cases heq; rfl)
  | ok a => exact hf a rfl

theorem Attempt.At.ite {p : Prop} [Decidable p] {y : Attempt α} (hx : p → x.At spots)
    (hy : ¬ p → y.At spots) : Attempt.At spots (if p then x else y) := by
  split
  · next h => exact hx h
  · next h => exact hy h

/-- What is returned without a problem changes nothing in where a problem stands. -/
theorem Attempt.At.map {f : α → β} (hx : x.At spots) :
    Attempt.At spots (x >>= fun a => .ok (f a)) := hx.bind fun a _ => .ok (f a)

end

/-! ## Statements -/

section Statements

variable {source : Source} {spots : List Spot} {tokens : List Token} {position : Position}
  {c : Catalog}

/-- The places of the tokens are among `spots`. -/
def Source.Within (source : Source) (spots : List Spot) (tokens : List Token) : Prop :=
  ∀ t ∈ tokens, source.spot t ∈ spots

theorem Source.Within.mono {us : List Token} (h : source.Within spots tokens) (hsub : us ⊆ tokens) :
    source.Within spots us := fun t ht => h t (hsub ht)

theorem Source.Within.suffix {us : List Token} (h : source.Within spots tokens)
    (hsuffix : us <:+ tokens) : source.Within spots us := h.mono hsuffix.subset

theorem Source.Within.head {t : Token} {ts : List Token} (h : source.Within spots (t :: ts)) :
    (source.path, t.position) ∈ spots := h t List.mem_cons_self

/-- Both the name and what stands behind it are part of the tokens. -/
theorem Source.Within.name {found : Token × List Token} (h : source.Within spots tokens)
    (hname : relationName? tokens = some found) :
    (source.path, found.1.position) ∈ spots ∧ source.Within spots found.2 := by
  have hboth := h.suffix (suffix_of_relationName? hname)
  exact ⟨hboth.head, hboth.mono (List.subset_cons_self _ _)⟩

theorem requireName_at (hposition : (source.path, position) ∈ spots) (code : Diagnostic.Code)
    (message : String) (tokens : List Token) :
    (requireName source code position message tokens).At spots := by
  unfold requireName
  split
  · exact .ok _
  · exact .refuse hposition code message

theorem registerView_at (hposition : (source.path, position) ∈ spots) (c : Catalog)
    (name : String) (columns : Option (List String)) (body : List Token) :
    (registerView source c name columns body position).At spots := by
  unfold registerView
  split
  · exact .refuse hposition _ _
  · exact .ok _

theorem readColumn_at (h : source.Within spots tokens) : (readColumn source tokens).At spots := by
  unfold readColumn
  split
  · exact .ignore
  · refine .ite (fun _ => .ok _) fun _ => .refuse h.head _ _

theorem createTable_at (hposition : (source.path, position) ∈ spots)
    (h : source.Within spots tokens) : (createTable source position c tokens).At spots := by
  refine .bind (requireName_at hposition _ _ _) fun found hfound => ?_
  obtain ⟨hname, -⟩ := (h.suffix (skipAll_suffix _ _)).name (requireName_eq_ok.mp hfound)
  refine .ite (fun _ => .ite (fun _ => .ignore) fun _ => .refuse hname _ _) fun _ =>
    .ite (fun _ => (registerView_at hname _ _ _ _).map) fun _ => ?_
  unfold defineTable
  refine .ite (fun _ => ?_) fun _ => .refuse hname _ _
  split
  · exact .ok _
  · exact .refuse hname _ _

theorem createIndex_at (hposition : (source.path, position) ∈ spots)
    (h : source.Within spots tokens) (unique : Bool) :
    (createIndex source position unique c tokens).At spots := by
  refine .bind (requireName_at hposition _ _ _) fun found hfound => ?_
  obtain ⟨hname, hrest⟩ := (h.suffix (skipAll_suffix _ _)).name (requireName_eq_ok.mp hfound)
  refine .ite (fun _ => .refuse hposition _ _) fun _ =>
    .bind (requireName_at hposition _ _ _) fun table htable => ?_
  obtain ⟨htable, -⟩ := (hrest.suffix (List.drop_suffix _ _)).name (requireName_eq_ok.mp htable)
  exact .ite (fun _ => .ok _) fun _ => .refuse htable _ _

theorem createView_at (hposition : (source.path, position) ∈ spots)
    (h : source.Within spots tokens) : (createView source position c tokens).At spots := by
  refine .bind (requireName_at hposition _ _ _) fun found hfound => ?_
  obtain ⟨hname, -⟩ := (h.suffix (skipAll_suffix _ _)).name (requireName_eq_ok.mp hfound)
  refine .ite (fun _ => .ite (fun _ => .ignore) fun _ => .refuse hname _ _) fun _ => ?_
  dsimp only
  split <;> exact .ite (fun _ => registerView_at hname _ _ _ _) fun _ => .refuse hname _ _

theorem addColumn_at (hposition : (source.path, position) ∈ spots)
    (h : source.Within spots tokens) (table : String) :
    (addColumn source position c table tokens).At spots := by
  refine .bind (readColumn_at h) fun column _ => .ite (fun _ => .refuse ?_ _ _) fun _ => .ok _
  cases tokens with
  | nil => exact hposition
  | cons t ts => exact h.head

theorem renameTable_at (table : String) (tokens : List Token) :
    (renameTable c table tokens).At spots := by
  unfold renameTable
  split
  · exact .ok _
  · exact .ignore

theorem renameColumn_at (hposition : (source.path, position) ∈ spots)
    (h : source.Within spots tokens) (table : String) :
    (renameColumn source position c table tokens).At spots := by
  unfold renameColumn
  split
  · exact .ite (fun _ => .ite (fun _ => .ok _) fun _ => .refuse h.head _ _) fun _ =>
      .refuse hposition _ _
  · exact .refuse hposition _ _

theorem dropColumn_at (h : source.Within spots tokens) (table : String) :
    (dropColumn source c table tokens).At spots := by
  unfold dropColumn
  split
  · exact .ignore
  · exact .ite (fun _ => .ok _) fun _ => .refuse h.head _ _

theorem alterTable_at (hposition : (source.path, position) ∈ spots)
    (h : source.Within spots tokens) : (alterTable source position c tokens).At spots := by
  refine .bind (requireName_at hposition _ _ _) fun found hfound => ?_
  obtain ⟨hname, hrest⟩ := h.name (requireName_eq_ok.mp hfound)
  have hbehind := hrest.suffix ((skip_suffix "COLUMN" _).trans (List.drop_suffix 1 _))
  exact .ite (fun _ => .refuse hname _ _) fun _ =>
    .ite (fun _ => addColumn_at hposition hbehind _) fun _ =>
    .ite (fun _ => renameTable_at _ _) fun _ =>
    .ite (fun _ => renameColumn_at hposition hbehind _) fun _ =>
    .ite (fun _ => dropColumn_at hbehind _) fun _ => .ignore

theorem dropObject_at (h : source.Within spots tokens) :
    (dropObject source c tokens).At spots := by
  unfold dropObject
  split
  · exact .ignore
  · next word rest =>
      split
      · next kind name behind _ hname =>
          have hrest := h.suffix ((skipAll_suffix ["IF", "EXISTS"] rest).trans
            (List.suffix_cons word rest))
          exact .ite (fun _ => .ok _) fun _ => .ite (fun _ => .ignore) fun _ =>
            .refuse (hrest.name hname).1 _ _
      · exact .ignore

theorem createObject_at (hposition : (source.path, position) ∈ spots)
    (h : source.Within spots tokens) : (createObject source position c tokens).At spots := by
  have hmodifiers := afterModifiers_suffix tokens
  unfold createObject
  dsimp only
  split
  · exact .ignore
  · next word rest heq =>
      rw [show afterModifiers tokens = word :: rest from heq] at hmodifiers
      have hrest := h.suffix ((List.suffix_cons word rest).trans hmodifiers)
      exact .ite (fun _ => createTable_at hposition hrest) fun _ =>
        .ite (fun _ => (createIndex_at hposition hrest _).map) fun _ =>
        .ite (fun _ => (createView_at hposition hrest).map) fun _ => .ignore

/-- A statement that fails blames one of its tokens. -/
theorem attempt_at (source : Source) (c : Catalog) (statement : List Token) :
    (attempt source c statement).At (statement.map source.spot) := by
  have hwithin : source.Within (statement.map source.spot) statement :=
    fun t ht => List.mem_map_of_mem ht
  cases statement with
  | nil => exact .ignore
  | cons first rest =>
      have hrest := hwithin.suffix (List.suffix_cons first rest)
      exact .ite (fun _ => createObject_at hwithin.head hrest) fun _ =>
        .ite (fun _ => (alterTable_at hwithin.head (hrest.suffix (List.drop_suffix 1 _))).map)
          fun _ => .ite (fun _ => (dropObject_at hrest).map) fun _ => .ignore

end Statements

end Schema

end TypedSql

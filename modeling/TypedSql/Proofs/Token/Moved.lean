import TypedSql.Proofs.Likeness.Nesting
import TypedSql.Proofs.Text.Boundary

/-!
# Tokens that stand further on

A token that is moved has the same kind and the same text in another place.  What only looks at
kinds and texts finds the same groups, pieces and words among moved tokens.
-/

namespace TypedSql.Token

open Text

/-- The token `bytes` bytes further on and `lines` lines further down. -/
def moved (bytes lines : Nat) (t : Token) : Token :=
  { t with
    span := ⟨t.span.start + bytes, t.span.stop + bytes⟩
    position := t.position.down lines }

/-- The tokens further on. -/
abbrev allMoved (bytes lines : Nat) (ts : List Token) : List Token := ts.map (moved bytes lines)

/-- The group further on. -/
def Group.moved (bytes lines : Nat) (g : Group) : Group :=
  ⟨allMoved bytes lines g.inner, allMoved bytes lines g.rest⟩

variable {bytes lines : Nat}

@[simp] theorem kind_moved (t : Token) : (t.moved bytes lines).kind = t.kind := rfl

@[simp] theorem value_moved (t : Token) : (t.moved bytes lines).value = t.value := rfl

@[simp] theorem position_moved (t : Token) :
    (t.moved bytes lines).position = t.position.down lines := rfl

@[simp] theorem isWord_moved (t : Token) (word : String) :
    (t.moved bytes lines).isWord word = t.isWord word := rfl

theorem allMoved_zero (ts : List Token) : allMoved 0 0 ts = ts := List.map_id ts

/-- The likeness of tokens with the same kinds and texts, wherever they stand. -/
def wordsLikeness : Likeness where
  exact := True
  place _ _ := True
  cut _ _ _ _ := False

theorem allMoved_like (bytes lines : Nat) (ts : List Token) :
    wordsLikeness.TokensLike ts (allMoved bytes lines ts) :=
  List.forall₂_map_right_iff.mpr
    (List.forall₂_same.mpr fun _ _ => ⟨rfl, .refl _, fun _ _ => rfl, trivial⟩)

theorem startsWith_moved (word : String) (ts : List Token) :
    startsWith word (allMoved bytes lines ts) = startsWith word ts := by
  cases ts <;> rfl

theorem startsWithKind_moved (kind : Kind) (ts : List Token) :
    startsWithKind kind (allMoved bytes lines ts) = startsWithKind kind ts := by
  cases ts <;> rfl

theorem skip_moved (word : String) (ts : List Token) :
    skip word (allMoved bytes lines ts) = allMoved bytes lines (skip word ts) := by
  unfold skip
  rw [startsWith_moved]
  split
  · exact List.map_drop.symm
  · rfl

theorem group?_moved (ts : List Token) :
    group? (allMoved bytes lines ts) = (group? ts).map (Group.moved bytes lines) := by
  unfold group?
  rw [← Likeness.TokensLike.matchingParen? (allMoved_like bytes lines ts) 0, Option.map_map]
  congr 1
  funext close
  simp [Group.moved, List.map_drop, List.map_take]

theorem range_moved (r : Range) (ts : List Token) :
    r.tokens (allMoved bytes lines ts) = allMoved bytes lines (r.tokens ts) := by
  simp [Range.tokens, List.map_drop, List.map_take]

theorem commaPieces_moved (ts : List Token) :
    commaPieces (allMoved bytes lines ts) = (commaPieces ts).map (allMoved bytes lines) := by
  unfold commaPieces
  rw [← Likeness.TokensLike.splitTopLevelCommas (allMoved_like bytes lines ts), List.map_map]
  exact List.map_congr_left fun r _ => range_moved r ts

theorem leadingValues_moved (ts : List Token) :
    leadingValues (allMoved bytes lines ts) = leadingValues ts := by
  unfold leadingValues
  rw [commaPieces_moved, List.filterMap_map]
  congr 1
  funext piece
  cases piece <;> rfl

/-! ## Tokens of a part of the list -/

theorem inner_subset_of_group? {ts : List Token} {g : Group} (h : group? ts = some g) :
    g.inner ⊆ ts := by
  obtain ⟨close, -, rfl⟩ := Option.map_eq_some_iff.mp h
  exact fun t ht => List.mem_of_mem_take (List.mem_of_mem_drop ht)

theorem rest_subset_of_group? {ts : List Token} {g : Group} (h : group? ts = some g) :
    g.rest ⊆ ts := by
  obtain ⟨close, -, rfl⟩ := Option.map_eq_some_iff.mp h
  exact List.drop_subset _ _

theorem subset_of_mem_commaPieces {ts piece : List Token} (h : piece ∈ commaPieces ts) :
    piece ⊆ ts := by
  obtain ⟨r, -, rfl⟩ := List.mem_map.mp h
  exact fun t ht => List.mem_of_mem_drop (List.mem_of_mem_take ht)

theorem skip_subset (word : String) (ts : List Token) : skip word ts ⊆ ts := by
  unfold skip
  split
  · exact List.drop_subset _ _
  · exact List.Subset.refl _

end TypedSql.Token

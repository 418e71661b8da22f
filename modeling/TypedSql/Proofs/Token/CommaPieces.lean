import TypedSql.Proofs.Token.Balanced
import TypedSql.Token.Nesting

/-!
# The pieces between commas

The pieces between the commas outside all parentheses are parts of the list, and none is empty.
Every balanced list is its pieces with commas between them, where no piece has a comma outside its
groups.  A piece can be empty: at the beginning, at the end, or between two commas.  The splitter
gives the others.

Main definition: `Pieced`.  Main statements: `Balanced.exists_pieced`, `Pieced.commaPieces_eq`,
`Pieced.leadingValues_eq`.
-/

namespace TypedSql.Token

/-! ## The pieces of any list -/

theorem mem_rangeOrNone {start stop : Nat} {r : Range} (h : r ∈ rangeOrNone start stop) :
    r = ⟨start, stop⟩ ∧ start < stop := by
  unfold rangeOrNone at h
  split at h
  · next hlt => exact ⟨List.mem_singleton.mp h, hlt⟩
  · cases h

/-- Every piece has a token, and lies in the list. -/
theorem bounds_of_mem_splitFrom {start i : Nat} {xs : List (Nat × Token)} {r : Range}
    (h : r ∈ splitFrom start i xs) : r.start < r.stop ∧ r.stop ≤ i + xs.length := by
  induction xs generalizing start i with
  | nil =>
      obtain ⟨rfl, hlt⟩ := mem_rangeOrNone h
      exact ⟨hlt, Nat.le_refl _⟩
  | cons x xs ih =>
      rw [splitFrom] at h
      split at h
      · rcases List.mem_append.mp h with h | h
        · obtain ⟨rfl, hlt⟩ := mem_rangeOrNone h
          exact ⟨hlt, Nat.le_add_right _ _⟩
        · have := ih h
          rw [List.length_cons]
          omega
      · have := ih h
        rw [List.length_cons]
        omega

theorem ne_nil_of_mem_commaPieces {tokens piece : List Token} (h : piece ∈ commaPieces tokens) :
    piece ≠ [] := by
  obtain ⟨r, hr, rfl⟩ := List.mem_map.mp h
  have hbounds := bounds_of_mem_splitFrom hr
  have hlength : (withDepths tokens).length = tokens.length := by simp [withDepths, depths]
  rw [hlength] at hbounds
  intro hnil
  have := congrArg List.length hnil
  simp only [Range.tokens, List.length_take, List.length_drop, List.length_nil] at this
  omega

/-! ## The pieces of a balanced list -/

/-- The list is these pieces with a comma between any two that follow each other, and no piece has
a comma outside its groups. -/
inductive Pieced : List Token → List (List Token) → Prop
  | last {xs : List Token} (hx : Outside NoComma xs) : Pieced xs [xs]
  | more {xs ys : List Token} {pieces : List (List Token)} {comma : Token}
      (hx : Outside NoComma xs) (hcomma : comma.kind = .comma) (hy : Pieced ys pieces) :
      Pieced (xs ++ comma :: ys) (xs :: pieces)

/-- Where two lists meet, the last piece of the one and the first piece of the other are one. -/
theorem Pieced.exists_append {xs ys : List Token} {ps qs : List (List Token)} (hx : Pieced xs ps)
    (hy : Pieced ys qs) : ∃ pieces, Pieced (xs ++ ys) pieces := by
  induction hx with
  | last hx =>
      cases hy with
      | last hy => exact ⟨_, .last (hx.append hy)⟩
      | more hy hcomma hrest =>
          rw [← List.append_assoc]
          exact ⟨_, .more (hx.append hy) hcomma hrest⟩
  | more hx hcomma _ ih =>
      obtain ⟨pieces, hpieces⟩ := ih
      rw [List.append_assoc]
      exact ⟨_, .more hx hcomma hpieces⟩

/-- Every balanced list has its pieces. -/
theorem Balanced.exists_pieced {xs : List Token} (h : Balanced xs) :
    ∃ pieces, Pieced xs pieces := by
  induction h with
  | nil => exact ⟨_, .last .nil⟩
  | @token t hopen hclose =>
      by_cases hcomma : t.kind = .comma
      · exact ⟨_, .more .nil hcomma (.last .nil)⟩
      · exact ⟨_, .last (.token hcomma hopen hclose)⟩
  | append _ _ hx hy =>
      obtain ⟨ps, hps⟩ := hx
      obtain ⟨qs, hqs⟩ := hy
      exact hps.exists_append hqs
  | group hopen hclose hx _ =>
      refine ⟨_, .last (.group hopen hclose ?_ ?_ hx)⟩
      · rw [NoComma, hopen]
        decide
      · rw [NoComma, hclose]
        decide

/-- A comma at the beginning ends an empty piece, which the splitter leaves out. -/
theorem commaPieces_comma {comma : Token} (hcomma : comma.kind = .comma) (ys : List Token) :
    commaPieces (comma :: ys) = commaPieces ys := by
  have hother : withDepthsFrom 0 (comma :: ys) = (0, comma) :: withDepthsFrom 0 ys :=
    withDepthsFrom_other (by rw [hcomma]; decide) (by rw [hcomma]; decide)
  have hsplit : splitTopLevelCommas (comma :: ys) =
      (splitTopLevelCommas ys).map (Range.shift [comma].length) := by
    show splitFrom 0 0 (withDepthsFrom 0 (comma :: ys)) = _
    rw [hother, splitFrom, if_pos ⟨rfl, hcomma⟩, rangeOrNone, if_neg (Nat.lt_irrefl 0),
      List.nil_append]
    exact splitFrom_shift 1 0 0 (withDepthsFrom 0 ys)
  rw [commaPieces, hsplit, List.map_map, commaPieces]
  exact List.map_congr_left fun r _ => r.tokens_shift [comma] ys

/-- The splitter gives the pieces that are not empty. -/
theorem Pieced.commaPieces_eq {xs : List Token} {pieces : List (List Token)}
    (h : Pieced xs pieces) : commaPieces xs = pieces.filter fun piece => !piece.isEmpty := by
  induction h with
  | @last xs hx =>
      cases xs with
      | nil => rfl
      | cons t ts => rw [hx.commaPieces_eq (List.cons_ne_nil t ts)]; rfl
  | @more xs ys pieces comma hx hcomma _ ih =>
      cases xs with
      | nil => rw [List.nil_append, commaPieces_comma hcomma, ih]; rfl
      | cons t ts =>
          rw [hx.commaPieces_append (List.cons_ne_nil t ts) hcomma, ih]
          rfl

/-- The values of the first tokens of the pieces; an empty piece has none. -/
theorem Pieced.leadingValues_eq {xs : List Token} {pieces : List (List Token)}
    (h : Pieced xs pieces) :
    leadingValues xs = pieces.filterMap fun piece => piece.head?.map value := by
  rw [leadingValues, h.commaPieces_eq, List.filterMap_filter]
  congr 1
  funext piece
  cases piece <;> rfl

end TypedSql.Token

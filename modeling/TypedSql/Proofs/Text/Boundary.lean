import TypedSql.Position

/-!
# Places in a text

A byte offset is a boundary if a character begins there, or the text ends.  A piece stands at an
offset if the text goes on with it from there.  The position of a boundary is the position after
everything before it, so positions of pieces of pieces add up, and later boundaries have later
positions.
-/

namespace TypedSql

namespace Text

/-- A character of the text begins at byte `k`, or the text ends there. -/
def IsBoundary (text : String) (k : Nat) : Prop :=
  ∃ before after, text.toList = before ++ after ∧ byteLength before = k

/-- The text goes on with `piece` from byte `k`. -/
def StandsAt (text : String) (k : Nat) (piece : String) : Prop :=
  ∃ before after, text.toList = before ++ (piece.toList ++ after) ∧ byteLength before = k

theorem StandsAt.isBoundary {text piece : String} {k : Nat} (h : StandsAt text k piece) :
    IsBoundary text k := by
  obtain ⟨before, after, htext, hk⟩ := h
  exact ⟨before, piece.toList ++ after, htext, hk⟩

/-- What stands in a piece stands in the text, behind what is before the piece. -/
theorem StandsAt.trans {text piece part : String} {k m : Nat} (h : StandsAt text k piece)
    (hpart : StandsAt piece m part) : StandsAt text (k + m) part := by
  obtain ⟨before, after, htext, rfl⟩ := h
  obtain ⟨before', after', hpiece, rfl⟩ := hpart
  refine ⟨before ++ before', after' ++ after, ?_, byteLength_append before before'⟩
  rw [htext, hpiece]
  simp

/-- A slice from a boundary on stands there, wherever it ends. -/
theorem standsAt_slice {text : String} {k : Nat} (h : IsBoundary text k) (stop : Nat) :
    StandsAt text k (slice text k stop) := by
  obtain ⟨before, after, htext, rfl⟩ := h
  refine ⟨before, dropBytes (stop - byteLength before) after, ?_, rfl⟩
  have hslice : (slice text (byteLength before) stop).toList =
      takeBytes (stop - byteLength before) after := by
    rw [slice, String.toList_ofList, htext, dropBytes_byteLength]
  rw [hslice, takeBytes_append_dropBytes, htext]

theorem slice_eq {text : String} {before piece after : List Char}
    (h : text.toList = before ++ (piece ++ after)) :
    slice text (byteLength before) (byteLength before + byteLength piece) =
      String.ofList piece := by
  rw [slice, h, dropBytes_byteLength, Nat.add_sub_cancel_left, takeBytes_byteLength]

end Text

namespace Position

open Text

theorem advance_byteLength (p : Position) {text : String} {before after : List Char}
    (h : text.toList = before ++ after) : p.advance text (byteLength before) = p.after before := by
  rw [advance, h, takeBytes_byteLength]

/-- A position in a piece is the position in the text. -/
theorem advance_advance (p : Position) {text piece : String} {k m : Nat}
    (h : StandsAt text k piece) (hm : IsBoundary piece m) :
    (p.advance text k).advance piece m = p.advance text (k + m) := by
  obtain ⟨before, after, htext, rfl⟩ := h
  obtain ⟨before', after', hpiece, rfl⟩ := hm
  have hwhole : text.toList = (before ++ before') ++ (after' ++ after) := by
    rw [htext, hpiece]; simp
  rw [advance_byteLength p htext, advance_byteLength _ hpiece, ← byteLength_append,
    advance_byteLength p hwhole, after_append]

/-- The position `n` lines further down. -/
def down (n : Nat) (p : Position) : Position := ⟨p.line + n, p.column⟩

theorem down_injective (n : Nat) {p q : Position} (h : p.down n = q.down n) : p = q := by
  cases p
  cases q
  simp [down] at h
  simp [h]

theorem step_down (n : Nat) (p : Position) (c : Char) : (p.down n).step c = (p.step c).down n := by
  unfold step down
  split
  · simp; omega
  · rfl

theorem after_down (n : Nat) (p : Position) (cs : List Char) :
    (p.down n).after cs = (p.after cs).down n := by
  induction cs generalizing p with
  | nil => rfl
  | cons c cs ih =>
      change ((p.down n).step c).after cs = ((p.step c).after cs).down n
      rw [step_down, ih]

/-- The position stands before the other one. -/
def Before (p q : Position) : Prop := p.line < q.line ∨ (p.line = q.line ∧ p.column < q.column)

theorem Before.trans {p q r : Position} (h : p.Before q) (h' : q.Before r) : p.Before r := by
  unfold Before at *
  omega

theorem Before.ne {p q : Position} (h : p.Before q) : p ≠ q := by
  rintro rfl
  unfold Before at h
  omega

theorem before_step (p : Position) (c : Char) : p.Before (p.step c) := by
  unfold step Before
  split <;> simp

/-- Reading on never goes back. -/
theorem before_after (p : Position) {cs : List Char} (h : cs ≠ []) : p.Before (p.after cs) := by
  induction cs generalizing p with
  | nil => exact absurd rfl h
  | cons c cs ih =>
      change p.Before ((p.step c).after cs)
      cases cs with
      | nil => exact before_step p c
      | cons d ds => exact (before_step p c).trans (ih (p.step c) (by simp))

end Position

end TypedSql

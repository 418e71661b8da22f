import TypedSql.Proofs.Text.Boundary
import TypedSql.Token.Reader

/-!
# The readings of a text

`Reads` says which tokens a text gives without computing them: each token is a piece that the
first accepting form takes, behind a gap of trivia, and the reading goes on behind the piece.

Main statements: `reads_of_readFrom` and `readFrom_of_reads` (the readings are the results of the
reader), `Reads.standsAt` and `Reads.position` (a token stands where its span says, at the
position of that offset), `Reads.positions_increase` (no two tokens have the same position).
-/

namespace TypedSql.Token

open Text

/-- The tokens of `cs`, which stands at byte `o` of a text and at `p` in the file.  Wherever a
token begins, `good` holds of what is left of the text. -/
inductive Reads (good : List Char → Prop) : List Char → Nat → Position → List Token → Prop
  | done {cs : List Char} {o : Nat} {p : Position} (hgap : cs.length ≤ triviaLength cs) :
      Reads good cs o p []
  | token {cs gap piece more : List Char} {o : Nat} {p : Position} {form : Form}
      {tokens : List Token} (hcs : cs = gap ++ (piece ++ more))
      (hgap : triviaLength cs = gap.length) (hgood : good (piece ++ more))
      (hopen : ¬ ['/', '*'] <+: piece ++ more)
      (hform : firstForm? (piece ++ more) = some (form, piece.length))
      (hrest : Reads good more (o + byteLength gap + byteLength piece)
        ((p.after gap).after piece) tokens) :
      Reads good cs o p
        (⟨form.kind (String.ofList piece), String.ofList piece,
          ⟨o + byteLength gap, o + byteLength gap + byteLength piece⟩, p.after gap⟩ :: tokens)

/-- A reading of any kind. -/
abbrev PlainReads : List Char → Nat → Position → List Token → Prop := Reads fun _ => True

theorem drop_triviaLength_eq_nil {cs : List Char} (h : cs.length ≤ triviaLength cs) :
    cs.drop (triviaLength cs) = [] := List.drop_eq_nil_iff.mpr h

theorem reads_of_readFrom {cs : List Char} {o : Nat} {p : Position} {tokens : List Token}
    (h : readFrom cs o p = .ok tokens) : PlainReads cs o p tokens := by
  fun_induction readFrom cs o p generalizing tokens with
  | case1 cs o p gap rest =>
      rename_i hrest
      cases h
      exact .done (List.drop_eq_nil_iff.mp hrest)
  | case2 => cases h
  | case3 => cases h
  | case4 cs o p gap o' p' rest c more hopen hrest form n hform piece text stop token =>
      rename_i ih
      cases hmore : readFrom (rest.drop n) stop (p'.after piece) with
      | error e => rw [hmore] at h; cases h
      | ok others =>
          rw [hmore] at h
          cases h
          have hbounds := firstForm?_bounds hform
          have hsplit : rest = piece ++ rest.drop n := (List.take_append_drop n rest).symm
          have hlength : piece.length = n := by
            rw [List.length_take]
            exact Nat.min_eq_left hbounds.2
          have hcs : cs = cs.take gap ++ (piece ++ rest.drop n) := by
            rw [← hsplit]
            exact (List.take_append_drop gap cs).symm
          have hgap : triviaLength cs = (cs.take gap).length := by
            rw [List.length_take]
            exact (Nat.min_eq_left (trivia_length_le cs)).symm
          refine .token hcs hgap trivial ?_ ?_ (ih hmore)
          · rw [← hsplit, hrest]
            rintro ⟨tail, htail⟩
            simp only [List.cons_append, List.nil_append, List.cons.injEq] at htail
            exact hopen tail htail.1.symm htail.2.symm
          · rw [← hsplit, hlength]
            exact hform

/-- Where a form accepts a piece behind the trivia, the piece is the first token. -/
theorem readFrom_token {cs gap piece more : List Char} {form : Form}
    (hcs : cs = gap ++ (piece ++ more)) (hgap : triviaLength cs = gap.length)
    (hopen : ¬ ['/', '*'] <+: piece ++ more)
    (hform : firstForm? (piece ++ more) = some (form, piece.length)) (o : Nat) (p : Position) :
    readFrom cs o p =
      (readFrom more (o + byteLength gap + byteLength piece) ((p.after gap).after piece)).map
        (⟨form.kind (String.ofList piece), String.ofList piece,
          ⟨o + byteLength gap, o + byteLength gap + byteLength piece⟩, p.after gap⟩ :: ·) := by
  have hdrop : cs.drop (triviaLength cs) = piece ++ more := by
    rw [hgap, hcs, List.drop_left]
  have htake : cs.take (triviaLength cs) = gap := by
    rw [hgap, hcs, List.take_left]
  have hpos := (firstForm?_bounds hform).1
  rw [readFrom]
  split
  · next heq =>
      have := congrArg List.length (hdrop.symm.trans heq)
      simp only [List.length_append, List.length_nil] at this
      omega
  · next tail heq => exact absurd ⟨tail, (hdrop.symm.trans heq).symm⟩ hopen
  · next c behind _ heq =>
      split
      · next hnone =>
          rw [hdrop, hform] at hnone
          cases hnone
      · next form' n hsome =>
          rw [hdrop, hform] at hsome
          cases hsome
          rw [hdrop, htake, List.take_left, List.drop_left]

theorem readFrom_of_reads {good : List Char → Prop} {cs : List Char} {o : Nat} {p : Position}
    {tokens : List Token} (h : Reads good cs o p tokens) : readFrom cs o p = .ok tokens := by
  induction h with
  | done hgap =>
      rw [readFrom]
      simp only [drop_triviaLength_eq_nil hgap]
  | token hcs hgap _ hopen hform _ ih =>
      rw [readFrom_token hcs hgap hopen hform, ih]
      rfl

theorem tokenizeAt_eq_ok_iff {sql : String} {origin : Position} {tokens : List Token} :
    tokenizeAt sql origin = .ok tokens ↔ PlainReads sql.toList 0 origin tokens :=
  ⟨reads_of_readFrom, readFrom_of_reads⟩

namespace Reads

variable {good : List Char → Prop} {cs : List Char} {o : Nat} {p : Position} {tokens : List Token}

/-- Every token is a piece of the text; its span and its position say where it stands. -/
theorem mem {t : Token} (h : Reads good cs o p tokens) (ht : t ∈ tokens) :
    ∃ before after, cs = before ++ (t.text.toList ++ after) ∧
      t.span.start = o + byteLength before ∧
      t.span.stop = o + byteLength before + byteLength t.text.toList ∧
      t.position = p.after before := by
  induction h with
  | done => cases ht
  | @token cs gap piece more o p form tokens hcs _ _ _ _ _ ih =>
      cases ht with
      | head => exact ⟨gap, more, by simp [hcs], rfl, by simp, rfl⟩
      | tail _ ht =>
          obtain ⟨before, after, hmore, hstart, hstop, hposition⟩ := ih ht
          refine ⟨gap ++ piece ++ before, after, by simp [hcs, hmore], ?_, ?_, ?_⟩
          · rw [hstart, byteLength_append, byteLength_append]; omega
          · rw [hstop, byteLength_append, byteLength_append]; omega
          · rw [hposition, Position.after_append, Position.after_append]

/-- The positions of a reading increase from token to token. -/
theorem positions_increase (h : Reads good cs o p tokens) :
    tokens.Pairwise fun t u => t.position.Before u.position := by
  induction h with
  | done => exact .nil
  | @token cs gap piece more o p form tokens _ _ _ _ hform hrest ih =>
      refine .cons (fun u hu => ?_) ih
      obtain ⟨before, after, -, -, -, hposition⟩ := hrest.mem hu
      have hpiece : piece ++ before ≠ [] := by
        have := (firstForm?_bounds hform).1
        intro hnil
        have := congrArg List.length hnil
        simp only [List.length_append, List.length_nil] at this
        omega
      change (p.after gap).Before u.position
      rw [hposition, ← Position.after_append]
      exact Position.before_after _ hpiece

end Reads

/-! ## The place of the text -/

/-- The token `n` lines further down. -/
def down (n : Nat) (t : Token) : Token := { t with position := t.position.down n }

/-- The error `n` lines further down. -/
def ReadError.down (n : Nat) (e : ReadError) : ReadError := { e with position := e.position.down n }

/-- A text that stands further down gives the same tokens, or the same error, further down. -/
theorem readFrom_down (n : Nat) (cs : List Char) (o : Nat) (p : Position) :
    readFrom cs o (p.down n) =
      match readFrom cs o p with
      | .ok tokens => .ok (tokens.map (down n))
      | .error e => .error (e.down n) := by
  fun_induction readFrom cs o p with
  | case1 cs o p gap rest =>
      rename_i hrest
      rw [readFrom]
      split <;> rename_i heq
      · rfl
      · cases hrest.symm.trans heq
      · rename_i heq'
        cases hrest.symm.trans heq
  | case2 cs o p gap p' rest tail =>
      rename_i hrest
      rw [readFrom]
      split
      · next heq => cases hrest.symm.trans heq
      · rw [Position.after_down]; rfl
      · next hopen heq =>
          cases hrest.symm.trans heq
          exact absurd rfl (hopen tail rfl)
  | case3 cs o p gap p' rest c more hopen hrest hform =>
      rw [readFrom]
      split
      · next heq => cases hrest.symm.trans heq
      · next tail heq =>
          cases hrest.symm.trans heq
          exact absurd rfl (hopen tail rfl)
      · next heq =>
          cases hrest.symm.trans heq
          split
          · rw [Position.after_down]; rfl
          · next hsome => cases hform.symm.trans hsome
  | case4 cs o p gap o' p' rest c more hopen hrest form n' hform piece text stop token =>
      rename_i ih
      rw [readFrom]
      split
      · next heq => cases hrest.symm.trans heq
      · next tail heq =>
          cases hrest.symm.trans heq
          exact absurd rfl (hopen tail rfl)
      · next heq =>
          cases hrest.symm.trans heq
          split
          · next hnone => cases hform.symm.trans hnone
          · next hsome =>
              cases hform.symm.trans hsome
              simp only [Position.after_down]
              rw [ih]
              cases readFrom (rest.drop n') stop (p'.after piece) with
              | ok tokens => rfl
              | error e => rfl

theorem tokenizeAt_down (n : Nat) (sql : String) (p : Position) :
    tokenizeAt sql (p.down n) =
      match tokenizeAt sql p with
      | .ok tokens => .ok (tokens.map (down n))
      | .error e => .error (e.down n) :=
  readFrom_down n sql.toList 0 p

/-- An error stands at a boundary of the text. -/
theorem readFrom_error {cs : List Char} {o : Nat} {p : Position} {e : ReadError}
    (h : readFrom cs o p = .error e) :
    ∃ before after, cs = before ++ after ∧ e.position = p.after before := by
  fun_induction readFrom cs o p generalizing e with
  | case1 => cases h
  | case2 cs o p gap =>
      cases h
      exact ⟨cs.take gap, cs.drop gap, (List.take_append_drop gap cs).symm, rfl⟩
  | case3 cs o p gap =>
      cases h
      exact ⟨cs.take gap, cs.drop gap, (List.take_append_drop gap cs).symm, rfl⟩
  | case4 cs o p gap o' p' rest c more _ _ form n _ piece text stop token =>
      rename_i ih
      cases hmore : readFrom (rest.drop n) stop (p'.after piece) with
      | ok others => rw [hmore] at h; cases h
      | error e' =>
          rw [hmore] at h
          cases h
          obtain ⟨before, after, hsplit, hposition⟩ := ih hmore
          refine ⟨cs.take gap ++ (piece ++ before), after, ?_, ?_⟩
          · rw [List.append_assoc, List.append_assoc, ← hsplit, List.take_append_drop,
              List.take_append_drop]
          · rw [hposition, Position.after_append, Position.after_append]

end TypedSql.Token

import Mathlib.Data.List.Basic
import TypedSql.Proofs.Token.FormCut
import TypedSql.Proofs.Token.FormLead
import TypedSql.Proofs.Token.Reads
import TypedSql.Token.Nesting

/-!
# Reading a text that was cut out

The analysis cuts the bodies of common table expressions and the projected expressions out of a
statement and reads them again.  It gets the tokens that it had: cutting behind a token changes no
decision of the reader before it.  A lone carriage return would spoil this, as it turns a line
comment into operators; a text without one never leaves two dashes where a token begins.

Main statements: `Reads.clean`, `Reads.of_sourceText` and `tokenizeAt_slice`.
-/

namespace TypedSql.Token

open Text

/-! ## Forms -/

/-- Behind the letter x, a quote that is never closed ends the piece. -/
theorem length?_of_open_blob {f : Form} {x : Char} {rest : List Char} {n : Nat} (hf : f ∈ forms)
    (hx : x = 'x' ∨ x = 'X') (hopen : doubledTail? '\'' rest = none)
    (h : f.length? (x :: '\'' :: rest) = some n) : n = 1 := by
  have hlead : f.lead = 'x' := by
    rw [← leadOf_eq_lead hf h]
    rcases hx with rfl | rfl <;> decide
  have hletter : f = .blob ∨ f = .word := by
    have hall : (forms.all fun g => g.lead != 'x' || g == .blob || g == .word) = true := by decide
    have hthis := List.all_eq_true.mp hall f hf
    rw [hlead] at hthis
    simpa using hthis
  rcases hletter with rfl | rfl
  · rw [Form.length?, if_pos hx, hopen] at h
    cases h
  · have hcount : countWhile isNameChar ('\'' :: rest) = 0 := by
      rw [countWhile, List.takeWhile_cons_of_neg (by decide)]
      rfl
    simp only [Form.length?, hcount] at h
    split at h
    · cases h
      rfl
    · cases h

/-- A form whose first characters begin no other one does not begin to accept anything where the
text is cut, as long as another form accepts a piece of the text. -/
theorem Form.length?_take_none_of_isAlone {f g : Form} {cs : List Char} {n : Nat} (hf : f ∈ forms)
    (h : f.length? cs = some n) (hg : g ∈ forms) (halone : g.isAlone = true)
    (hnone : g.length? cs = none) (m : Nat) : g.length? (cs.take m) = none := by
  cases cs with
  | nil => simp
  | cons c cs =>
  cases m with
  | zero => exact g.length?_nil
  | succ m =>
  rw [List.take_succ_cons]
  cases htake : g.length? (c :: cs.take m) with
  | none => rfl
  | some k =>
      rw [Form.eq_of_isAlone hf h halone (leadOf_eq_lead hg htake), hnone] at h
      cases h

theorem shape_of_blob {cs : List Char} {n : Nat} (h : Form.blob.length? cs = some n) :
    ∃ x rest, cs = x :: '\'' :: rest ∧ (x = 'x' ∨ x = 'X') := by
  match cs with
  | [] => simp at h
  | [c] => simp [Form.length?] at h
  | x :: d :: rest =>
      by_cases hd : d = '\''
      · subst hd
        by_cases hx : x = 'x' ∨ x = 'X'
        · exact ⟨x, rest, rfl, hx⟩
        · simp [Form.length?, hx] at h
      · simp [Form.length?, hd] at h

/-- A quote at the beginning of the text is closed. -/
def QuoteClosed (cs : List Char) : Prop := ∀ rest, cs = '\'' :: rest → doubledTail? '\'' rest ≠ none

/-- A blob does not begin to be one where the text is cut: its quote would be open in the whole
text, behind a piece that is the letter x alone. -/
theorem length?_blob_take_none {piece more : List Char} {form : Form} (hform : form ∈ forms)
    (h : form.length? (piece ++ more) = some piece.length) (hclosed : QuoteClosed more)
    (hnone : Form.blob.length? (piece ++ more) = none) (m : Nat) :
    Form.blob.length? ((piece ++ more).take m) = none := by
  cases htake : Form.blob.length? ((piece ++ more).take m) with
  | none => rfl
  | some k =>
      obtain ⟨x, cs, hcut, hx⟩ := shape_of_blob htake
      obtain ⟨behind, hbehind⟩ := List.take_prefix m (piece ++ more)
      rw [hcut] at hbehind
      rw [← hbehind] at hnone h
      have hopen : doubledTail? '\'' (cs ++ behind) = none := by
        simpa [Form.length?, hx] using hnone
      obtain ⟨c, rfl⟩ := List.length_eq_one_iff.mp (length?_of_open_blob hform hx hopen h)
      have hmore : more = '\'' :: (cs ++ behind) := by
        injection hbehind with _ hbehind
        exact hbehind.symm
      exact absurd hopen (hclosed _ hmore)

/-- The reader takes the same piece of a text that is cut behind it. -/
theorem firstForm?_take {piece more : List Char} {form : Form} {m : Nat}
    (h : firstForm? (piece ++ more) = some (form, piece.length)) (hclosed : QuoteClosed more)
    (hm : piece.length ≤ m) :
    firstForm? ((piece ++ more).take m) = some (form, piece.length) := by
  obtain ⟨hmem, hlength⟩ := mem_of_firstForm? h
  obtain ⟨earlier, f, later, hforms, hf, hearlier⟩ := List.findSome?_eq_some_iff.mp h
  obtain ⟨k, hk, heq⟩ := Option.map_eq_some_iff.mp hf
  cases heq
  refine List.findSome?_eq_some_iff.mpr ⟨earlier, form, later, hforms, ?_, fun g hg => ?_⟩
  · rw [Form.length?_take hlength hm]
    rfl
  · have hnone : g.length? (piece ++ more) = none :=
      Option.map_eq_none_iff.mp (hearlier g hg)
    rw [Option.map_eq_none_iff]
    -- Only a form of doubled quotes can begin to accept something where the text is cut.
    cases g with
    | text =>
        exact Form.length?_take_none_of_isAlone hmem hlength (by decide) rfl hnone m
    | doubleQuoted =>
        exact Form.length?_take_none_of_isAlone hmem hlength (by decide) rfl hnone m
    | blob => exact length?_blob_take_none hmem hlength hclosed hnone m
    | _ => exact Form.length?_take_none hnone ⟨by simp, by simp, by simp⟩ m

/-! ## Trivia -/

theorem blockBody?_take {cs : List Char} {n m : Nat} (h : blockBody? cs = some n) (hm : n ≤ m) :
    blockBody? (cs.take m) = some n := by
  induction cs generalizing n m with
  | nil => cases h
  | cons c cs ih =>
      cases cs with
      | nil => cases h
      | cons d cs =>
          rw [blockBody?] at h
          split at h
          · next hend =>
              cases h
              obtain ⟨m, rfl⟩ : ∃ j, m = j + 2 := ⟨m - 2, by omega⟩
              simp [blockBody?, hend]
          · next hend =>
              obtain ⟨k, hk, rfl⟩ := Option.map_eq_some_iff.mp h
              have hpos : 0 < k := by
                rcases cs with _ | ⟨e, cs⟩
                · cases hk
                · rw [blockBody?] at hk
                  split at hk
                  · cases hk; omega
                  · obtain ⟨j, -, rfl⟩ := Option.map_eq_some_iff.mp hk; omega
              obtain ⟨m, rfl⟩ : ∃ j, m = j + 2 := ⟨m - 2, by omega⟩
              have := ih hk (m := m + 1) (by omega)
              rw [List.take_succ_cons] at this
              simp [blockBody?, hend, this]

theorem drop_countWhile (p : Char → Bool) (cs : List Char) :
    cs.drop (countWhile p cs) = cs.dropWhile p := by
  induction cs with
  | nil => rfl
  | cons c cs ih =>
      unfold countWhile at ih ⊢
      rw [List.takeWhile_cons, List.dropWhile_cons]
      split
      · exact ih
      · rfl

theorem triviaPiece?_of_space {cs : List Char} (h : 0 < countWhile isSpace cs) :
    triviaPiece? cs = some (countWhile isSpace cs) := by
  unfold triviaPiece?
  exact if_pos h

theorem triviaLength_of_some {cs : List Char} {n : Nat} (h : triviaPiece? cs = some n) :
    triviaLength cs = n + triviaLength (cs.drop n) := by
  rw [triviaLength]
  split
  · next hnone => rw [hnone] at h; cases h
  · next hsome => rw [hsome] at h; cases h; rfl

theorem triviaLength_of_none {cs : List Char} (h : triviaPiece? cs = none) :
    triviaLength cs = 0 := by
  rw [triviaLength]
  split
  · rfl
  · next hsome => rw [hsome] at h; cases h

/-- The body of a line comment ends where the text is cut behind its line end. -/
theorem lineBody?_take {cs : List Char} {n m : Nat} (h : lineBody? cs = some n)
    (hm : n + triviaLength (cs.drop n) < m) : lineBody? (cs.take m) = some n := by
  have hcount : countWhile (fun c => !isLineEnd c) cs = n := by
    unfold lineBody? at h
    split at h
    · cases h; rfl
    · cases h
    · cases h; rfl
  have htake : countWhile (fun c => !isLineEnd c) (cs.take m) = n := by
    rw [countWhile_take, hcount]; omega
  have hdrop : (cs.take m).dropWhile (fun c => !isLineEnd c) = (cs.drop n).take (m - n) := by
    rw [← drop_countWhile, htake, List.drop_take]
  have hrest : cs.dropWhile (fun c => !isLineEnd c) = cs.drop n := by
    rw [← drop_countWhile, hcount]
  obtain ⟨j, hj⟩ : ∃ j, m - n = j + 1 := ⟨m - n - 1, by omega⟩
  unfold lineBody? at h ⊢
  rw [hrest] at h
  rw [hdrop, htake, hj]
  split at h
  · next tail heq =>
      have htrivia : 2 ≤ triviaLength (cs.drop n) := by
        have hspace : 2 ≤ countWhile isSpace (cs.drop n) := by
          rw [heq, countWhile, List.takeWhile_cons_of_pos (by decide),
            List.takeWhile_cons_of_pos (by decide)]
          simp
        rw [triviaLength_of_some (triviaPiece?_of_space (by omega))]
        omega
      obtain ⟨i, rfl⟩ : ∃ i, j = i + 1 := ⟨j - 1, by omega⟩
      rw [heq]
      rfl
  · cases h
  · next hcrlf hcr =>
      split
      · rfl
      · next heq =>
          have hhead := congrArg List.head? heq
          rw [List.head?_take, if_neg (by omega)] at hhead
          obtain ⟨more, hmore⟩ := List.head?_eq_some_iff.mp hhead
          exact absurd hmore (hcr more)
      · rfl

theorem triviaPiece?_take {cs : List Char} {n m : Nat} (h : triviaPiece? cs = some n)
    (hm : triviaLength cs < m) : triviaPiece? (cs.take m) = some n := by
  rw [triviaLength_of_some h] at hm
  unfold triviaPiece? at h ⊢
  rw [countWhile_take]
  split at h
  · cases h
    rw [if_pos (by omega)]
    congr 1
    omega
  · next hspace =>
      rw [if_neg (by omega)]
      split at h
      · next rest =>
          obtain ⟨k, hk, rfl⟩ := Option.map_eq_some_iff.mp h
          obtain ⟨m, rfl⟩ : ∃ j, m = j + 2 := ⟨m - 2, by omega⟩
          have hline := lineBody?_take (m := m) hk (by
            rw [show k + 2 = k + 1 + 1 from rfl, List.drop_succ_cons, List.drop_succ_cons] at hm
            omega)
          simp [hline]
      · next rest =>
          obtain ⟨k, hk, rfl⟩ := Option.map_eq_some_iff.mp h
          obtain ⟨m, rfl⟩ : ∃ j, m = j + 2 := ⟨m - 2, by omega⟩
          simp [blockBody?_take (m := m) hk (by omega)]
      · cases h

theorem triviaPiece?_take_none {cs : List Char} (h : triviaPiece? cs = none)
    (hdashes : ¬ ['-', '-'] <+: cs) (hopen : ¬ ['/', '*'] <+: cs) (m : Nat) :
    triviaPiece? (cs.take m) = none := by
  have hspace : countWhile isSpace cs = 0 := by
    unfold triviaPiece? at h
    split at h
    · cases h
    · omega
  unfold triviaPiece?
  rw [countWhile_take, hspace, if_neg (by omega)]
  split
  · next tail heq =>
      exact absurd ((show ['-', '-'] <+: cs.take m from heq ▸ ⟨tail, rfl⟩).trans
        (List.take_prefix m cs)) hdashes
  · next tail heq =>
      exact absurd ((show ['/', '*'] <+: cs.take m from heq ▸ ⟨tail, rfl⟩).trans
        (List.take_prefix m cs)) hopen
  · rfl

theorem triviaPiece?_drop_triviaLength (cs : List Char) :
    triviaPiece? (cs.drop (triviaLength cs)) = none := by
  fun_induction triviaLength cs with
  | case1 cs h => exact h
  | case2 cs n h ih => rw [← List.drop_drop]; exact ih

/-- Trivia is read alike in a text that is cut behind it, where no comment can begin. -/
theorem triviaLength_take {cs : List Char} {m : Nat} (hm : triviaLength cs < m)
    (hdashes : ¬ ['-', '-'] <+: cs.drop (triviaLength cs))
    (hopen : ¬ ['/', '*'] <+: cs.drop (triviaLength cs)) :
    triviaLength (cs.take m) = triviaLength cs := by
  fun_induction triviaLength cs generalizing m with
  | case1 cs h =>
      exact triviaLength_of_none (triviaPiece?_take_none h hdashes hopen m)
  | case2 cs n h ih =>
      have htake := triviaPiece?_take (m := m) h (by rw [triviaLength_of_some h]; exact hm)
      rw [triviaLength_of_some htake, List.drop_take]
      rw [← List.drop_drop] at hdashes hopen
      rw [ih (by omega) hdashes hopen]

/-! ## Readings -/

/-- The text does not begin with two dashes. -/
def NoDashes (cs : List Char) : Prop := ¬ ['-', '-'] <+: cs

/-- A reading that meets no two dashes where a token begins. -/
abbrev CleanReads : List Char → Nat → Position → List Token → Prop := Reads NoDashes

/-- Every carriage return of the text has a line feed behind it. -/
def noBareReturn : List Char → Bool
  | [] => true
  | c :: rest => (c != '\r' || rest.head? == some '\n') && noBareReturn rest

theorem noBareReturn_drop {cs : List Char} (h : noBareReturn cs = true) (n : Nat) :
    noBareReturn (cs.drop n) = true := by
  induction cs generalizing n with
  | nil => simpa using h
  | cons c cs ih =>
      cases n with
      | zero => exact h
      | succ n =>
          rw [noBareReturn, Bool.and_eq_true] at h
          exact ih h.2 n

theorem lineBody?_ne_none {cs : List Char} (h : noBareReturn cs = true) : lineBody? cs ≠ none := by
  unfold lineBody?
  split
  · simp
  · next tail hcrlf heq =>
      have hrest := noBareReturn_drop h (countWhile (fun c => !isLineEnd c) cs)
      rw [drop_countWhile, heq, noBareReturn, Bool.and_eq_true] at hrest
      obtain ⟨more, hmore⟩ : ∃ more, tail = '\n' :: more := by
        simpa [List.head?_eq_some_iff] using hrest.1
      exact absurd hmore (hcrlf more)
  · simp

/-- Where no comment begins, a text without lone carriage returns has no two dashes. -/
theorem noDashes_of_noBareReturn {cs : List Char} (h : noBareReturn cs = true)
    (htrivia : triviaPiece? cs = none) : NoDashes cs := by
  rintro ⟨tail, rfl⟩
  have htail : noBareReturn tail = true := noBareReturn_drop h 2
  have hspace : countWhile isSpace (['-', '-'] ++ tail) = 0 := by
    rw [countWhile, List.cons_append, List.takeWhile_cons_of_neg (by decide)]
    rfl
  unfold triviaPiece? at htrivia
  rw [if_neg (by omega)] at htrivia
  exact lineBody?_ne_none htail (Option.map_eq_none_iff.mp htrivia)

namespace Reads

variable {good : List Char → Prop} {cs : List Char} {o : Nat} {p : Position} {tokens : List Token}

theorem clean (h : Reads good cs o p tokens) (hreturn : noBareReturn cs = true) :
    CleanReads cs o p tokens := by
  induction h with
  | done hgap => exact .done hgap
  | @token cs gap piece more o p form tokens hcs hgap hgood hopen hform hrest ih =>
      have hdrop : cs.drop (triviaLength cs) = piece ++ more := by
        rw [hgap, hcs, List.drop_left]
      have hmore : cs.drop (gap.length + piece.length) = more := by
        rw [hcs, ← List.append_assoc, ← List.length_append, List.drop_left]
      refine .token hcs hgap ?_ hopen hform (ih (hmore ▸ noBareReturn_drop hreturn _))
      rw [← hdrop]
      exact noDashes_of_noBareReturn (noBareReturn_drop hreturn _)
        (triviaPiece?_drop_triviaLength cs)

theorem quoteClosed (h : Reads good cs o p tokens) : QuoteClosed cs := by
  rintro rest rfl hopen
  have htrivia : triviaLength ('\'' :: rest) = 0 := triviaLength_of_none rfl
  cases h with
  | done hgap =>
      rw [htrivia] at hgap
      cases hgap
  | @token _ gap piece more _ _ form _ hcs hgap _ _ hform _ =>
      have hnil : gap = [] := List.length_eq_zero_iff.mp (hgap.symm.trans htrivia)
      subst hnil
      rw [List.nil_append] at hcs
      rw [← hcs] at hform
      obtain ⟨hmem, hlength⟩ := mem_of_firstForm? hform
      rw [Form.eq_of_isAlone (g := .text) hmem hlength rfl rfl] at hlength
      simp [Form.length?, hopen] at hlength

/-- A reading behind the first token of a text that is cut somewhere behind the token. -/
theorem token_of_cut {gap piece more rest : List Char} {form : Form}
    (hgap : triviaLength (gap ++ (piece ++ (more ++ rest))) = gap.length)
    (hgood : NoDashes (piece ++ (more ++ rest)))
    (hopen : ¬ ['/', '*'] <+: piece ++ (more ++ rest))
    (hform : firstForm? (piece ++ (more ++ rest)) = some (form, piece.length))
    (hclosed : QuoteClosed (more ++ rest))
    (hrest : CleanReads more (o + byteLength gap + byteLength piece)
      ((p.after gap).after piece) tokens) :
    CleanReads (gap ++ (piece ++ more)) o p
      (⟨form.kind (String.ofList piece), String.ofList piece,
        ⟨o + byteLength gap, o + byteLength gap + byteLength piece⟩, p.after gap⟩ :: tokens) := by
  have hpos := (firstForm?_bounds hform).1
  have hprefix : piece ++ more <+: piece ++ (more ++ rest) := ⟨rest, by simp⟩
  refine .token rfl ?_ (fun hd => hgood (hd.trans hprefix)) (fun hs => hopen (hs.trans hprefix)) ?_
    hrest
  · have hcut : gap ++ (piece ++ more) =
        (gap ++ (piece ++ (more ++ rest))).take (gap ++ (piece ++ more)).length := by
      rw [show gap ++ (piece ++ (more ++ rest)) = (gap ++ (piece ++ more)) ++ rest by simp,
        List.take_left]
    have hdrop : (gap ++ (piece ++ (more ++ rest))).drop gap.length = piece ++ (more ++ rest) :=
      List.drop_left
    rw [hcut, ← hgap]
    apply triviaLength_take
    · rw [hgap]
      simp only [List.length_append]
      omega
    · rw [hgap, hdrop]
      exact hgood
    · rw [hgap, hdrop]
      exact hopen
  · have hcut : piece ++ more = (piece ++ (more ++ rest)).take (piece ++ more).length := by
      rw [show piece ++ (more ++ rest) = (piece ++ more) ++ rest by simp, List.take_left]
    rw [hcut]
    exact firstForm?_take hform hclosed (by simp)

/-- The first tokens of a text are the tokens of the text that ends with the last one of them. -/
theorem cut {first : Token} {ts us : List Token} (h : CleanReads cs o p (first :: ts ++ us)) :
    ∃ body rest, cs = body ++ rest ∧ CleanReads body o p (first :: ts) ∧
      ((first :: ts).getLast (by simp)).span.stop = o + byteLength body := by
  induction ts generalizing first cs o p with
  | nil =>
      cases h with
      | @token _ gap piece more _ _ form _ hcs hgap hgood hopen hform hrest =>
          refine ⟨gap ++ (piece ++ []), more, by simp [hcs], ?_, ?_⟩
          · exact token_of_cut (hcs ▸ hgap) hgood hopen hform hrest.quoteClosed (.done (by simp))
          · simp [byteLength_append, Nat.add_assoc]
  | cons second ts ih =>
      cases h with
      | @token _ gap piece more _ _ form _ hcs hgap hgood hopen hform hrest =>
          obtain ⟨body, rest, rfl, hbody, hstop⟩ := ih hrest
          refine ⟨gap ++ (piece ++ body), rest, by simp [hcs], ?_, ?_⟩
          · exact token_of_cut (hcs ▸ hgap) hgood hopen hform hrest.quoteClosed hbody
          · rw [List.getLast_cons (by simp), hstop]
            simp [byteLength_append, Nat.add_assoc]

/-- The tokens from some token on are the tokens of the text from there on. -/
theorem drop {first : Token} {ts us : List Token} (h : Reads good cs o p (us ++ first :: ts)) :
    ∃ before rest, cs = before ++ rest ∧ first.span.start = o + byteLength before ∧
      first.position = p.after before ∧
      Reads good rest (o + byteLength before) (p.after before) (first :: ts) := by
  induction us generalizing cs o p with
  | nil =>
      cases h with
      | @token _ gap piece more _ _ form _ hcs hgap hgood hopen hform hrest =>
          refine ⟨gap, piece ++ more, hcs, rfl, rfl, ?_⟩
          have hzero : triviaLength (piece ++ more) = 0 := by
            have hdrop : cs.drop (triviaLength cs) = piece ++ more := by
              rw [hgap, hcs, List.drop_left]
            rw [← hdrop]
            exact triviaLength_of_none (triviaPiece?_drop_triviaLength cs)
          exact .token (List.nil_append _).symm hzero hgood hopen hform hrest
  | cons t us ih =>
      cases h with
      | @token _ gap piece more _ _ form _ hcs _ _ _ _ hrest =>
          obtain ⟨before, rest, rfl, hstart, hposition, hreads⟩ := ih hrest
          refine ⟨gap ++ piece ++ before, rest, by simp [hcs], ?_, ?_, ?_⟩
          · rw [hstart, byteLength_append, byteLength_append]; omega
          · rw [hposition, Position.after_append, Position.after_append]
          · rw [Position.after_append, Position.after_append, byteLength_append,
              byteLength_append, ← Nat.add_assoc, ← Nat.add_assoc]
            exact hreads

end Reads

/-- The token with its span counted from byte `k` on. -/
def back (k : Nat) (t : Token) : Token := { t with span := ⟨t.span.start - k, t.span.stop - k⟩ }

theorem Reads.rebase {good : List Char → Prop} {cs : List Char} {o k : Nat} {p : Position}
    {tokens : List Token} (h : Reads good cs (k + o) p tokens) :
    Reads good cs o p (tokens.map (back k)) := by
  generalize hstart : k + o = start at h
  induction h generalizing o with
  | done hgap => exact .done hgap
  | @token cs gap piece more start p form tokens hcs hgap hgood hopen hform hrest ih =>
      subst hstart
      have hrest' := ih (o := o + byteLength gap + byteLength piece) (by omega)
      have hthis := Reads.token (o := o) hcs hgap hgood hopen hform hrest'
      have h1 : k + o + byteLength gap - k = o + byteLength gap := by omega
      have h2 : k + o + byteLength gap + byteLength piece - k =
          o + byteLength gap + byteLength piece := by omega
      rw [List.map_cons, back]
      simp only [h1, h2]
      exact hthis

/-- The text from the first to the last of some tokens, where it is known to stand. -/
theorem sourceText_eq {sql : String} {front body rest : List Char} {first : Token}
    {ts : List Token} (hsql : sql.toList = front ++ (body ++ rest))
    (hstart : first.span.start = byteLength front)
    (hstop : ((first :: ts).getLast (by simp)).span.stop = byteLength front + byteLength body) :
    sourceText sql (first :: ts) = String.ofList body := by
  unfold sourceText
  rw [List.getLast?_eq_some_getLast (by simp : first :: ts ≠ [])]
  simp only [List.head?_cons]
  rw [hstop, hstart]
  exact slice_eq hsql

/-- The text from the first to the last of some tokens gives these tokens again. -/
theorem Reads.of_sourceText {sql : String} {p : Position} {before after ts : List Token}
    {first : Token} (h : CleanReads sql.toList 0 p (before ++ (first :: ts ++ after))) :
    CleanReads (Token.sourceText sql (first :: ts)).toList 0 first.position
      ((first :: ts).map (back first.span.start)) := by
  obtain ⟨front, behind, hsql, hstart, hposition, hbehind⟩ := h.drop
  obtain ⟨body, rest, rfl, hbody, hstop⟩ := hbehind.cut
  rw [Nat.zero_add] at hstart hstop hbody
  rw [sourceText_eq hsql hstart hstop, String.toList_ofList, hstart, hposition]
  exact Reads.rebase (o := 0) hbody

/-- From some token on, no token begins before it or ends before its own beginning. -/
theorem Reads.start_le {good : List Char → Prop} {cs : List Char} {o : Nat} {p : Position}
    {before ts : List Token} {first t : Token} (h : Reads good cs o p (before ++ first :: ts))
    (ht : t ∈ first :: ts) :
    first.span.start ≤ t.span.start ∧ t.span.start ≤ t.span.stop := by
  obtain ⟨front, rest, -, hstart, -, hrest⟩ := h.drop
  obtain ⟨gap, behind, -, htstart, htstop, -⟩ := hrest.mem ht
  omega

/-- The tokens from index `i` to index `j` begin with the one at `i` and end with the one at `j`,
and they stand between those before `i` and those behind `j`. -/
theorem Range.tokens_eq {tokens : List Token} {i j : Nat} (hij : i ≤ j) (hj : j < tokens.length) :
    ∃ ts, (Range.mk i (j + 1)).tokens tokens = tokens[i] :: ts ∧
      (tokens[i] :: ts).getLast? = some tokens[j] ∧
      tokens = tokens.take i ++ (tokens[i] :: ts ++ tokens.drop (j + 1)) := by
  have hi : i < tokens.length := by omega
  have hfirst : tokens.drop i = tokens[i] :: tokens.drop (i + 1) := List.drop_eq_getElem_cons hi
  have hrange : (Range.mk i (j + 1)).tokens tokens =
      tokens[i] :: (tokens.drop (i + 1)).take (j - i) := by
    show (tokens.drop i).take (j + 1 - i) = _
    rw [hfirst, show j + 1 - i = j - i + 1 by omega, List.take_succ_cons]
  refine ⟨(tokens.drop (i + 1)).take (j - i), hrange, ?_, ?_⟩
  · rw [← hrange]
    show ((tokens.drop i).take (j + 1 - i)).getLast? = some tokens[j]
    have hlength : ((tokens.drop i).take (j + 1 - i)).length = j - i + 1 := by
      rw [List.length_take, List.length_drop]
      omega
    rw [List.getLast?_eq_getElem?, hlength, Nat.add_sub_cancel,
      List.getElem?_take_of_lt (by omega), List.getElem?_drop, show i + (j - i) = j by omega,
      List.getElem?_eq_getElem hj]
  · have hrest : tokens.drop (j + 1) = (tokens.drop (i + 1)).drop (j - i) := by
      rw [List.drop_drop]
      congr 1
      omega
    rw [hrest, List.cons_append, List.take_append_drop, ← hfirst, List.take_append_drop]

/-- The text from one token to another gives the tokens between them again, with the same kinds,
texts and positions, and with spans counted from the beginning of the first one. -/
theorem tokenizeAt_slice {sql : String} {origin : Position} {tokens : List Token}
    (hreturn : noBareReturn sql.toList = true) (htokens : tokenizeAt sql origin = .ok tokens)
    {i j : Nat} (hij : i ≤ j) (hj : j < tokens.length) :
    tokenizeAt (slice sql tokens[i].span.start tokens[j].span.stop) tokens[i].position =
        .ok (((Range.mk i (j + 1)).tokens tokens).map (back tokens[i].span.start)) ∧
      ∀ t ∈ (Range.mk i (j + 1)).tokens tokens,
        tokens[i].span.start ≤ t.span.start ∧ t.span.start ≤ t.span.stop := by
  obtain ⟨ts, hrange, hlast, hsplit⟩ := Range.tokens_eq hij hj
  have hreads : CleanReads sql.toList 0 origin
      (tokens.take i ++ (tokens[i] :: ts ++ tokens.drop (j + 1))) := by
    rw [← hsplit]
    exact (tokenizeAt_eq_ok_iff.mp htokens).clean hreturn
  have htext : sourceText sql (tokens[i] :: ts) =
      slice sql tokens[i].span.start tokens[j].span.stop := by
    rw [sourceText, hlast]
    rfl
  rw [hrange]
  refine ⟨?_, fun t ht => ?_⟩
  · rw [← htext]
    exact readFrom_of_reads (Reads.of_sourceText hreads)
  · -- The subtraction in `back` never stops at zero.
    rw [List.cons_append] at hreads
    exact hreads.start_le (List.mem_cons.mpr ((List.mem_cons.mp ht).imp_right
      (List.mem_append_left _)))

/-- A statement whose comment opens a quote and is ended by both line end characters. -/
def commented : String := "SELECT a||'it''s' -- x'\r\n,x'0f' FROM t"

/-- The tokens of `commented`. -/
def commentedTokens : List Token :=
  [⟨.keyword, "SELECT", ⟨0, 6⟩, ⟨1, 1⟩⟩, ⟨.identifier, "a", ⟨7, 8⟩, ⟨1, 8⟩⟩,
    ⟨.operator, "||", ⟨8, 10⟩, ⟨1, 9⟩⟩, ⟨.string, "'it''s'", ⟨10, 17⟩, ⟨1, 11⟩⟩,
    ⟨.comma, ",", ⟨25, 26⟩, ⟨2, 1⟩⟩, ⟨.blob, "x'0f'", ⟨26, 31⟩, ⟨2, 2⟩⟩,
    ⟨.keyword, "FROM", ⟨32, 36⟩, ⟨2, 8⟩⟩, ⟨.identifier, "t", ⟨37, 38⟩, ⟨2, 13⟩⟩]

/-- From the text in quotes to the blob, over the comment. -/
theorem tokenizeAt_slice_of_commented :
    tokenizeAt (slice commented 10 31) ⟨1, 11⟩ =
      .ok [⟨.string, "'it''s'", ⟨0, 7⟩, ⟨1, 11⟩⟩, ⟨.comma, ",", ⟨15, 16⟩, ⟨2, 1⟩⟩,
        ⟨.blob, "x'0f'", ⟨16, 21⟩, ⟨2, 2⟩⟩] := by
  have hreturn : noBareReturn commented.toList = true := by decide +kernel
  have htokens : tokenizeAt commented .first = .ok commentedTokens := by
    rw [commented, tokenizeAt_ofList]
    decide +kernel
  have hij : 3 ≤ 5 := by decide
  have hj : 5 < commentedTokens.length := by decide
  exact (tokenizeAt_slice hreturn htokens hij hj).1

end TypedSql.Token

import TypedSql.Proofs.Token.Lossless
import TypedSql.Proofs.Token.Quotes
import TypedSql.Proofs.Token.Seam

/-!
# Texts that cannot be read

A text fails where its readable beginning ends: what stands there is no trivia, and it opens a
comment that is never closed or begins with no token.  The error stands at this place, and its code
says what is wrong with the rest of the text, which is decided by the first two characters.

Main definitions: `StartsTrivia`, `ReadsTo`, `Unreadable`, `Fault.Explains`.  Main statements:
`triviaLength_of_isTrivia`, `readFrom_of_readsTo`, `readsTo_of_readFrom`,
`tokenizeAt_eq_error_iff`.
-/

namespace TypedSql.Token

open Text

/-! ## Trivia -/

/-- A piece of trivia stands at the beginning of the text. -/
def StartsTrivia (cs : List Char) : Prop :=
  ∃ gap rest, gap ≠ [] ∧ cs = gap ++ rest ∧ IsTrivia rest gap

theorem lineBody?_of_lineEnds {body behind : List Char} (hbody : '\n' ∉ body ∧ '\r' ∉ body)
    (hend : LineEnds behind) : lineBody? (body ++ behind) = some body.length := by
  have hplain : ∀ c ∈ body, (!isLineEnd c) = true := by
    intro c hc
    have hline : c ≠ '\n' := fun h => hbody.1 (h ▸ hc)
    have hreturn : c ≠ '\r' := fun h => hbody.2 (h ▸ hc)
    simp [isLineEnd, hline, hreturn]
  unfold lineBody?
  rw [countWhile, List.takeWhile_append_of_pos hplain, List.dropWhile_append_of_pos hplain]
  rcases hend with rfl | ⟨more, rfl⟩ | ⟨more, rfl⟩
  · simp
  · simp [isLineEnd]
  · simp [isLineEnd]

theorem blockBody?_of_body {body : List Char} (hbody : ¬ ['*', '/'] <:+: body ++ ['*'])
    (behind : List Char) : blockBody? (body ++ '*' :: '/' :: behind) = some (body.length + 2) := by
  induction body with
  | nil => rfl
  | cons c body ih =>
      have ih := ih fun hinfix => hbody (List.infix_cons hinfix)
      -- The next character is one of the comment, or the first one of the sign that closes it.
      cases htail : body ++ '*' :: '/' :: behind with
      | nil => simp at htail
      | cons d ds =>
          have hopen : ¬ (c = '*' ∧ d = '/') := by
            rintro ⟨rfl, rfl⟩
            cases body with
            | nil => cases htail
            | cons e body =>
                cases htail
                exact hbody ⟨[], body ++ ['*'], rfl⟩
          rw [htail] at ih
          rw [List.cons_append, htail, blockBody?, if_neg hopen, ih]
          rfl

theorem blockBody?_eq_none {cs : List Char} (h : blockBody? cs = none) :
    ¬ ['*', '/'] <:+: cs := by
  fun_induction blockBody? cs with
  | case1 => exact fun hinfix => absurd hinfix.length_le (by decide)
  | case2 c => exact fun hinfix => absurd hinfix.length_le (by simp)
  | case3 => cases h
  | case4 c d cs hopen ih =>
      intro hinfix
      rcases List.infix_cons_iff.mp hinfix with hprefix | hinfix
      · obtain ⟨hfirst, hsecond⟩ := List.cons_prefix_cons.mp hprefix
        exact hopen ⟨hfirst.symm, (List.cons_prefix_cons.mp hsecond).1.symm⟩
      · exact ih (Option.map_eq_none_iff.mp h) hinfix

theorem isSpace_of_cases {c : Char} (hc : c = ' ' ∨ c = '\t' ∨ c = '\r' ∨ c = '\n') :
    isSpace c = true := by
  rcases hc with rfl | rfl | rfl | rfl <;> rfl

theorem triviaPiece?_lineComment {body behind : List Char} (hbody : '\n' ∉ body ∧ '\r' ∉ body)
    (hend : LineEnds behind) :
    triviaPiece? ('-' :: '-' :: (body ++ behind)) = some (body.length + 2) := by
  show (lineBody? (body ++ behind)).map (· + 2) = _
  rw [lineBody?_of_lineEnds hbody hend]
  rfl

theorem triviaPiece?_blockComment {body : List Char} (hbody : ¬ ['*', '/'] <:+: body ++ ['*'])
    (behind : List Char) :
    triviaPiece? ('/' :: '*' :: (body ++ '*' :: '/' :: behind)) = some (body.length + 4) := by
  show (blockBody? (body ++ '*' :: '/' :: behind)).map (· + 2) = _
  rw [blockBody?_of_body hbody]
  rfl

/-- The reader finds a piece of trivia wherever one stands. -/
theorem triviaPiece?_eq_none_iff {cs : List Char} : triviaPiece? cs = none ↔ ¬ StartsTrivia cs := by
  constructor
  · rintro hnone ⟨gap, rest, hne, rfl, hgap⟩
    cases hgap with
    | nil => exact hne rfl
    | space hc _ =>
        rw [List.cons_append, triviaPiece?_of_space (by
          rw [countWhile, List.takeWhile_cons_of_pos (isSpace_of_cases hc), List.length_cons]
          omega)] at hnone
        cases hnone
    | @lineComment body cs hbody hend _ =>
        rw [List.cons_append, List.cons_append, List.append_assoc,
          triviaPiece?_lineComment hbody hend] at hnone
        cases hnone
    | @blockComment body cs hbody _ =>
        rw [List.cons_append, List.cons_append, List.append_assoc, List.cons_append,
          List.cons_append, triviaPiece?_blockComment hbody] at hnone
        cases hnone
  · intro hnot
    cases hpiece : triviaPiece? cs with
    | none => rfl
    | some n =>
        have hbounds := triviaPiece?_bounds hpiece
        have hlength : (cs.take n).length = n := List.length_take_of_le hbounds.2
        have hsplit : cs = cs.take n ++ cs.drop n := (List.take_append_drop n cs).symm
        have hgap : IsTrivia (cs.drop n) (cs.take n ++ []) :=
          isTrivia_append (by rw [List.nil_append, ← hsplit, hlength, hpiece]) .nil
        rw [List.append_nil] at hgap
        refine absurd ⟨cs.take n, cs.drop n, ?_, hsplit, hgap⟩ hnot
        exact List.ne_nil_of_length_pos (by omega)

/-- Trivia is skipped up to what is no trivia. -/
theorem triviaLength_of_isTrivia {gap rest : List Char} (hgap : IsTrivia rest gap)
    (hrest : ¬ StartsTrivia rest) : triviaLength (gap ++ rest) = gap.length := by
  induction hgap with
  | nil => exact triviaLength_of_none (triviaPiece?_eq_none_iff.mpr hrest)
  | @space c cs hc _ ih =>
      rw [List.cons_append, triviaLength_space (isSpace_of_cases hc), ih, List.length_cons,
        Nat.add_comm]
  | @lineComment body cs hbody hend _ ih =>
      have hdrop : ('-' :: '-' :: (body ++ (cs ++ rest))).drop (body.length + 2) = cs ++ rest :=
        List.drop_left
      rw [List.cons_append, List.cons_append, List.append_assoc,
        triviaLength_of_some (triviaPiece?_lineComment hbody hend), hdrop, ih]
      simp only [List.length_cons, List.length_append]
      omega
  | @blockComment body cs hbody _ ih =>
      have hdrop : ('/' :: '*' :: (body ++ '*' :: '/' :: (cs ++ rest))).drop (body.length + 4) =
          cs ++ rest := by
        rw [List.drop_succ_cons, List.drop_succ_cons, ← List.drop_drop, List.drop_left]
        rfl
      rw [List.cons_append, List.cons_append, List.append_assoc, List.cons_append,
        List.cons_append, triviaLength_of_some (triviaPiece?_blockComment hbody _), hdrop, ih]
      simp only [List.length_cons, List.length_append]
      omega

/-- What is skipped is the whole run of trivia. -/
theorem triviaLength_eq_length_iff {gap rest : List Char} :
    triviaLength (gap ++ rest) = gap.length ↔ IsTrivia rest gap ∧ ¬ StartsTrivia rest := by
  refine ⟨fun h => ⟨isTrivia_of_triviaLength h, triviaPiece?_eq_none_iff.mp ?_⟩,
    fun h => triviaLength_of_isTrivia h.1 h.2⟩
  have hdrop := triviaPiece?_drop_triviaLength (gap ++ rest)
  rwa [h, List.drop_left] at hdrop

/-! ## Readings that stop -/

/-- The characters, which stand at byte `o` of a text and at `p` in the file, are these tokens with
trivia between them, in front of `rest`. -/
inductive ReadsTo (rest : List Char) : List Char → Nat → Position → List Token → Prop
  | stop {gap : List Char} {o : Nat} {p : Position} (hgap : IsTrivia rest gap) :
      ReadsTo rest gap o p []
  | token {gap piece more : List Char} {o : Nat} {p : Position} {form : Form} {tokens : List Token}
      (hgap : IsTrivia (piece ++ (more ++ rest)) gap)
      (htrivia : ¬ StartsTrivia (piece ++ (more ++ rest)))
      (hopen : ¬ ['/', '*'] <+: piece ++ (more ++ rest))
      (hform : firstForm? (piece ++ (more ++ rest)) = some (form, piece.length))
      (hmore : ReadsTo rest more (o + byteLength gap + byteLength piece)
        ((p.after gap).after piece) tokens) :
      ReadsTo rest (gap ++ (piece ++ more)) o p
        (⟨form.kind (String.ofList piece), String.ofList piece,
          ⟨o + byteLength gap, o + byteLength gap + byteLength piece⟩, p.after gap⟩ :: tokens)

/-- Something stands here that is no trivia and begins with no token. -/
structure Unreadable (rest : List Char) : Prop where
  nonempty : rest ≠ []
  noTrivia : ¬ StartsTrivia rest
  noToken : ['/', '*'] <+: rest ∨ ∀ f ∈ forms, f.length? rest = none

/-- The code says what the rest of a text begins with: a comment, a text or a name that is never
closed, or another character, which the message then names. -/
structure Fault.Explains (fault : Fault) (rest : List Char) : Prop where
  comment : fault.code = .unterminatedComment ↔ ['/', '*'] <+: rest
  /-- The comment is never closed. -/
  neverClosed : ['/', '*'] <+: rest → ¬ ['*', '/'] <:+: rest.drop 2
  string : fault.code = .unterminatedString ↔ Quotes.single.NeverClosed rest
  name : fault.code = .unterminatedName ↔ ∃ s : Quotes, s ≠ .single ∧ s.NeverClosed rest
  character : fault.code = .invalidCharacter ↔
    ¬ ['/', '*'] <+: rest ∧ ∀ s : Quotes, ¬ s.NeverClosed rest
  message : fault.code = .invalidCharacter → ∃ c, rest.head? = some c ∧
    fault.message = "unexpected character '" ++ String.ofList [c] ++ "'"
  noOther : fault.code ∈ [.unterminatedComment, .unterminatedString, .unterminatedName,
    .invalidCharacter]

namespace Unreadable

variable {rest : List Char}

theorem firstForm?_eq_none (h : Unreadable rest) (hopen : ¬ ['/', '*'] <+: rest) :
    firstForm? rest = none := by
  rcases h.noToken with hthis | hnone
  · exact absurd hthis hopen
  · exact List.findSome?_eq_none_iff.mpr fun f hf => Option.map_eq_none_iff.mpr (hnone f hf)

/-- No text and no name in quotes is closed here. -/
theorem length?_form (h : Unreadable rest) (s : Quotes) : s.form.length? rest = none := by
  rcases h.noToken with ⟨more, rfl⟩ | hnone
  · exact (s.length?_form_cons '/' _).trans (if_neg (by cases s <;> decide))
  · exact hnone _ s.form_mem

/-- Quotes that open here are never closed. -/
theorem neverClosed_iff (h : Unreadable rest) (s : Quotes) :
    s.NeverClosed rest ↔ rest.head? = some s.opening := by
  refine ⟨And.left, fun hhead => ⟨hhead, ?_⟩⟩
  rintro ⟨text, more, hbegins⟩
  have hsome := Quotes.length?_form.mpr ⟨text, more, hbegins, rfl⟩
  rw [h.length?_form s] at hsome
  cases hsome

/-- A comment that opens here is never closed. -/
theorem not_closed (h : Unreadable rest) (hopen : ['/', '*'] <+: rest) :
    ¬ ['*', '/'] <:+: rest.drop 2 := by
  obtain ⟨more, rfl⟩ := hopen
  have hnone : (blockBody? more).map (· + 2) = none := triviaPiece?_eq_none_iff.mpr h.noTrivia
  exact blockBody?_eq_none (Option.map_eq_none_iff.mp hnone)

end Unreadable

namespace Fault

theorem explains_comment {rest : List Char} (h : Unreadable rest) (hopen : ['/', '*'] <+: rest) :
    unterminatedComment.Explains rest := by
  have hquotes (s : Quotes) : ¬ s.NeverClosed rest := by
    rw [h.neverClosed_iff]
    obtain ⟨more, rfl⟩ := hopen
    cases s <;> exact fun hhead => absurd (Option.some.inj hhead) (by decide)
  refine ⟨⟨fun _ => hopen, fun _ => rfl⟩, h.not_closed, ?_, ?_, ?_, nofun, .head _⟩
  · exact ⟨nofun, fun hthis => absurd hthis (hquotes _)⟩
  · exact ⟨nofun, fun ⟨s, _, hthis⟩ => absurd hthis (hquotes s)⟩
  · exact ⟨nofun, fun hthis => absurd hopen hthis.1⟩

/-- The fault of quotes that are never closed. -/
def ofQuotes : Quotes → Fault
  | .single => unterminatedString
  | _ => unterminatedName

theorem explains_quotes {rest : List Char} {s : Quotes} (h : Unreadable rest)
    (hhead : rest.head? = some s.opening) : (ofQuotes s).Explains rest := by
  have hquotes (s' : Quotes) : s'.NeverClosed rest ↔ s' = s := by
    rw [h.neverClosed_iff, hhead, Option.some.injEq]
    exact ⟨fun heq => (Quotes.opening_injective heq).symm, fun heq => heq ▸ rfl⟩
  have hopen : ¬ ['/', '*'] <+: rest := by
    rintro ⟨more, rfl⟩
    cases s <;> cases hhead
  have hcode : (ofQuotes s).code ≠ .unterminatedComment ∧
      (ofQuotes s).code ≠ .invalidCharacter := by
    cases s <;> decide
  refine ⟨?_, h.not_closed, ?_, ?_, ?_, fun hthis => absurd hthis hcode.2, ?_⟩
  · exact ⟨fun hthis => absurd hthis hcode.1, fun hthis => absurd hthis hopen⟩
  · rw [hquotes]
    cases s <;> decide
  · simp only [hquotes, exists_eq_right]
    cases s <;> decide
  · refine ⟨fun hthis => absurd hthis hcode.2, fun hthis => ?_⟩
    exact absurd ((hquotes s).mpr rfl) (hthis.2 s)
  · cases s <;> decide

theorem explains_unexpected {c : Char} {more : List Char} (h : Unreadable (c :: more))
    (hopen : ¬ ['/', '*'] <+: c :: more) (hquote : ∀ s : Quotes, c ≠ s.opening) :
    (unexpected c).Explains (c :: more) := by
  have hquotes (s : Quotes) : ¬ s.NeverClosed (c :: more) := by
    rw [h.neverClosed_iff, List.head?_cons, Option.some.injEq]
    exact hquote s
  refine ⟨?_, h.not_closed, ?_, ?_, ⟨fun _ => ⟨hopen, hquotes⟩, fun _ => rfl⟩,
    fun _ => ⟨c, rfl, rfl⟩, .tail _ (.tail _ (.tail _ (.head _)))⟩
  · exact ⟨nofun, fun hthis => absurd hthis hopen⟩
  · exact ⟨nofun, fun hthis => absurd hthis (hquotes _)⟩
  · exact ⟨nofun, fun ⟨s, _, hthis⟩ => absurd hthis (hquotes s)⟩

/-- The first characters of an unreadable text decide the fault.  No fault is about the letter of a
blob, as it is a word by itself. -/
theorem explains_ofText {c : Char} {more : List Char} (h : Unreadable (c :: more))
    (hopen : ¬ ['/', '*'] <+: c :: more) : (ofText c more).Explains (c :: more) := by
  by_cases hquote : ∃ s : Quotes, c = s.opening
  · obtain ⟨s, rfl⟩ := hquote
    have hfault : ofText s.opening more = ofQuotes s := by cases s <;> rfl
    rw [hfault]
    exact explains_quotes h rfl
  · have hquote (s : Quotes) : c ≠ s.opening := fun hc => hquote ⟨s, hc⟩
    have hletter : ¬ (c = 'x' ∨ c = 'X') := by
      have hword := (h.noToken.resolve_left hopen) .word (by decide)
      rintro (rfl | rfl) <;> cases hword
    have hfault : ofText c more = unexpected c := by
      have hsingle : c ≠ '\'' := hquote .single
      have hdouble : c ≠ '"' := hquote .double
      have hback : c ≠ '\x60' := hquote .back
      have hbracket : c ≠ '[' := hquote .brackets
      simp [ofText, hletter, hsingle, hdouble, hback, hbracket]
    rw [hfault]
    exact explains_unexpected h hopen hquote

theorem eq_of_between {before behind : String} {c d : Char}
    (h : before ++ String.ofList [c] ++ behind = before ++ String.ofList [d] ++ behind) :
    c = d := by
  have hchars : before.toList ++ [c] ++ behind.toList = before.toList ++ [d] ++ behind.toList := by
    simpa only [String.toList_append, String.toList_ofList] using congrArg String.toList h
  exact List.head_eq_of_cons_eq (List.append_cancel_left (List.append_cancel_right hchars))

/-- What the rest of a text begins with decides the fault. -/
theorem Explains.unique {f g : Fault} {rest : List Char} (hf : f.Explains rest)
    (hg : g.Explains rest) : f = g := by
  have hcode : f.code = g.code := by
    have hother := hf.noOther
    simp only [List.mem_cons, List.not_mem_nil, or_false] at hother
    rcases hother with h | h | h | h
    · rw [h, hg.comment.mpr (hf.comment.mp h)]
    · rw [h, hg.string.mpr (hf.string.mp h)]
    · rw [h, hg.name.mpr (hf.name.mp h)]
    · rw [h, hg.character.mpr (hf.character.mp h)]
  cases f with
  | unexpected c =>
      cases g with
      | unexpected d =>
          obtain ⟨c', hc, hfmessage⟩ := hf.message rfl
          obtain ⟨d', hd, hgmessage⟩ := hg.message rfl
          have hsame : c' = d' := Option.some.inj (hc.symm.trans hd)
          rw [eq_of_between hfmessage, eq_of_between hgmessage, hsame]
      | _ => cases hcode
  | _ => cases g <;> first | rfl | cases hcode

end Fault

/-! ## Errors -/

/-- Where nothing can be read behind the trivia, the reader stops and says why. -/
theorem readFrom_of_unreadable {gap rest : List Char} (hgap : IsTrivia rest gap)
    (hrest : Unreadable rest) (o : Nat) (p : Position) :
    ∃ fault : Fault, fault.Explains rest ∧
      readFrom (gap ++ rest) o p = .error ⟨fault, p.after gap⟩ := by
  have hlength := triviaLength_of_isTrivia hgap hrest.noTrivia
  have hdrop : (gap ++ rest).drop (triviaLength (gap ++ rest)) = rest := by
    rw [hlength, List.drop_left]
  have htake : (gap ++ rest).take (triviaLength (gap ++ rest)) = gap := by
    rw [hlength, List.take_left]
  rw [readFrom]
  split
  · next heq => exact absurd (hdrop.symm.trans heq) hrest.nonempty
  · next tail heq =>
      have hopen : ['/', '*'] <+: rest := ⟨tail, (hdrop.symm.trans heq).symm⟩
      exact ⟨_, Fault.explains_comment hrest hopen, by rw [htake]⟩
  · next c more hclear heq =>
      cases hdrop.symm.trans heq
      have hopen : ¬ ['/', '*'] <+: c :: more := by
        rintro ⟨tail, htail⟩
        cases htail
        exact hclear tail rfl rfl
      split
      · exact ⟨_, Fault.explains_ofText hrest hopen, by rw [htake]⟩
      · next hsome =>
          rw [hdrop, hrest.firstForm?_eq_none hopen] at hsome
          cases hsome

/-- A text that is read up to what cannot be read gives the error at this place. -/
theorem readFrom_of_readsTo {before rest : List Char} {o : Nat} {p : Position}
    {tokens : List Token} (h : ReadsTo rest before o p tokens) (hrest : Unreadable rest) :
    ∃ fault : Fault, fault.Explains rest ∧
      readFrom (before ++ rest) o p = .error ⟨fault, p.after before⟩ := by
  induction h with
  | stop hgap => exact readFrom_of_unreadable hgap hrest _ _
  | @token gap piece more o p form tokens hgap htrivia hopen hform _ ih =>
      obtain ⟨fault, hfault, hmore⟩ := ih
      refine ⟨fault, hfault, ?_⟩
      have hsplit : (gap ++ (piece ++ more)) ++ rest = gap ++ (piece ++ (more ++ rest)) := by
        simp only [List.append_assoc]
      rw [hsplit, readFrom_token rfl (triviaLength_of_isTrivia hgap htrivia) hopen hform, hmore,
        Position.after_append, Position.after_append]
      rfl

/-- Where reading fails, everything before is trivia and tokens, and nothing can be read there. -/
theorem readsTo_of_readFrom {cs : List Char} {o : Nat} {p : Position} {e : ReadError}
    (h : readFrom cs o p = .error e) :
    ∃ before rest tokens, cs = before ++ rest ∧ ReadsTo rest before o p tokens ∧
      Unreadable rest := by
  -- Behind the trivia stands no trivia.
  have hgap (cs : List Char) : IsTrivia (cs.drop (triviaLength cs)) (cs.take (triviaLength cs)) ∧
      ¬ StartsTrivia (cs.drop (triviaLength cs)) := by
    refine triviaLength_eq_length_iff.mp ?_
    rw [List.take_append_drop, List.length_take_of_le (trivia_length_le cs)]
  fun_induction readFrom cs o p generalizing e with
  | case1 => cases h
  | case2 cs o p gap p' rest more =>
      rename_i hrest
      refine ⟨cs.take gap, rest, [], (List.take_append_drop gap cs).symm, .stop (hgap cs).1, ?_⟩
      exact ⟨by rw [hrest]; exact List.cons_ne_nil _ _, (hgap cs).2, .inl ⟨more, hrest.symm⟩⟩
  | case3 cs o p gap p' rest c more hopen hrest =>
      rename_i hnone
      refine ⟨cs.take gap, rest, [], (List.take_append_drop gap cs).symm, .stop (hgap cs).1, ?_⟩
      refine ⟨by rw [hrest]; exact List.cons_ne_nil _ _, (hgap cs).2, .inr fun f hf => ?_⟩
      exact Option.map_eq_none_iff.mp (List.findSome?_eq_none_iff.mp hnone f hf)
  | case4 cs o p gap o' p' rest c more hopen hrest form n hform piece text stop token =>
      rename_i ih
      cases hmore : readFrom (rest.drop n) stop (p'.after piece) with
      | ok others => rw [hmore] at h; cases h
      | error e' =>
          obtain ⟨before, behind, tokens, hsplit, hreads, hunreadable⟩ := ih hmore
          have hpiece : rest = piece ++ (before ++ behind) := by
            rw [← hsplit]
            exact (List.take_append_drop n rest).symm
          have hlength : piece.length = n := List.length_take_of_le (firstForm?_bounds hform).2
          have hcs : cs = cs.take gap ++ rest := (List.take_append_drop gap cs).symm
          refine ⟨cs.take gap ++ (piece ++ before), behind, token :: tokens, ?_,
            .token ?_ ?_ ?_ ?_ hreads, hunreadable⟩
          · rw [List.append_assoc, List.append_assoc, ← hpiece]
            exact hcs
          · exact hpiece ▸ (hgap cs).1
          · exact hpiece ▸ (hgap cs).2
          · rw [← hpiece, hrest]
            rintro ⟨tail, htail⟩
            cases htail
            exact hopen tail rfl rfl
          · rw [← hpiece, hlength]
            exact hform

/-- A text fails where its readable beginning ends, with the code that the rest explains, and
nowhere else. -/
theorem tokenizeAt_eq_error_iff {sql : String} {origin : Position} {e : ReadError} :
    tokenizeAt sql origin = .error e ↔
      ∃ before rest tokens, sql.toList = before ++ rest ∧ ReadsTo rest before 0 origin tokens ∧
        Unreadable rest ∧ e.fault.Explains rest ∧
        e.position = origin.advance sql (byteLength before) := by
  constructor
  · intro h
    obtain ⟨before, rest, tokens, hsql, hreads, hrest⟩ := readsTo_of_readFrom h
    obtain ⟨fault, hfault, herror⟩ := readFrom_of_readsTo hreads hrest
    rw [← hsql] at herror
    cases herror.symm.trans h
    exact ⟨before, rest, tokens, hsql, hreads, hrest, hfault,
      (Position.advance_byteLength origin hsql).symm⟩
  · rintro ⟨before, rest, tokens, hsql, hreads, hrest, hfault, hposition⟩
    obtain ⟨fault, hthis, herror⟩ := readFrom_of_readsTo hreads hrest
    rw [Position.advance_byteLength origin hsql] at hposition
    rw [tokenizeAt, hsql, herror, hthis.unique hfault, ← hposition]

/-- The quotes of a blob that is never closed stand behind a word, and the error is about them. -/
example : tokenizeAt "x'0f" .first = .error ⟨.unterminatedString, ⟨1, 2⟩⟩ := by decide +kernel

end TypedSql.Token

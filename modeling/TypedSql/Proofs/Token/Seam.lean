import TypedSql.Proofs.Token.Cut
import TypedSql.Proofs.Token.Moved

/-!
# Reading two texts that a line feed parts

No token but a text or a name in quotes goes over a line feed, and a text that was read has no open
quotes or comments.  So a text that goes on behind a line feed gives its tokens and then those that
stand behind the line feed: the reader merges nothing across the seam.

Main statements: `Reads.append_line`, `tokenize_append_line`.
-/

namespace TypedSql.Token

open Text

/-! ## Forms -/

theorem countWhile_append_line {p : Char → Bool} (hp : p '\n' = false) (cs more : List Char) :
    countWhile p (cs ++ '\n' :: more) = countWhile p cs := by
  induction cs with
  | nil => simp [countWhile, hp]
  | cons c cs ih =>
      unfold countWhile at ih ⊢
      rw [List.cons_append, List.takeWhile_cons, List.takeWhile_cons]
      split
      · rw [List.length_cons, List.length_cons, ih]
      · rfl

theorem digits?_append_line (cs more : List Char) :
    digits? (cs ++ '\n' :: more) = digits? cs := by
  unfold digits?
  rw [countWhile_append_line (by decide)]

theorem exponent?_append_line (cs more : List Char) :
    exponent? (cs ++ '\n' :: more) = exponent? cs := by
  match cs with
  | [] => cases more <;> rfl
  | [e] => simp [exponent?, digits?_cons_none]
  | e :: sign :: rest =>
      unfold exponent?
      simp only [List.cons_append, digits?_append_line]
      rw [← List.cons_append, digits?_append_line]

theorem exponentLength_append_line (cs more : List Char) :
    exponentLength (cs ++ '\n' :: more) = exponentLength cs := by
  unfold exponentLength
  rw [exponent?_append_line]

/-- A closed text in quotes is closed at the same place where the text goes on in a new line. -/
theorem doubledTail?_append_line {q : Char} (hq : q ≠ '\n') {cs : List Char} {n : Nat}
    (h : doubledTail? q cs = some n) (more : List Char) :
    doubledTail? q (cs ++ '\n' :: more) = some n := by
  fun_induction doubledTail? q cs generalizing n with
  | case1 => cases h
  | case2 => simpa [doubledTail?, hq.symm] using h
  | case3 => cases h
  | case4 cs ih =>
      obtain ⟨k, hk, rfl⟩ := Option.map_eq_some_iff.mp h
      simp [doubledTail?, ih hk]
  | case5 d cs hd => simpa [doubledTail?, hd] using h
  | case6 c d cs hc ih =>
      obtain ⟨k, hk, rfl⟩ := Option.map_eq_some_iff.mp h
      have := ih hk
      rw [List.cons_append] at this
      simp [doubledTail?, hc, this]

theorem plainTail?_append {q : Char} {cs : List Char} {n : Nat} (h : plainTail? q cs = some n)
    (more : List Char) : plainTail? q (cs ++ more) = some n := by
  induction cs generalizing n with
  | nil => cases h
  | cons c cs ih =>
      rw [List.cons_append, plainTail?]
      rw [plainTail?] at h
      split at h
      · next hc => rw [if_pos hc, h]
      · next hc =>
          obtain ⟨k, hk, rfl⟩ := Option.map_eq_some_iff.mp h
          rw [if_neg hc, ih hk]
          rfl

/-- The form of a text or a name in quotes, which can go over lines. -/
def Form.isQuoted : Form → Bool
  | .text | .blob | .doubleQuoted | .backquoted | .bracketed => true
  | _ => false

/-- No mark has a line feed. -/
theorem not_mem_of_mark_mem {kind : Kind} {first : Char} {rest : List Char}
    (h : Form.mark kind first rest ∈ forms) : '\n' ∉ first :: rest := by
  have hthis := mark_of_all (p := fun mark => !mark.2.contains '\n') (by decide) h
  simpa using hthis

theorem isPrefixOf_append_line {mark : List Char} (h : '\n' ∉ mark) (cs more : List Char) :
    mark.isPrefixOf (cs ++ '\n' :: more) = mark.isPrefixOf cs := by
  induction mark generalizing cs with
  | nil => simp
  | cons c mark ih =>
      rw [List.mem_cons, not_or] at h
      cases cs with
      | nil =>
          have hc : (c == '\n') = false := beq_eq_false_iff_ne.mpr (Ne.symm h.1)
          show (c == '\n' && mark.isPrefixOf more) = false
          rw [hc, Bool.false_and]
      | cons d cs => rw [List.cons_append, List.isPrefixOf, List.isPrefixOf, ih h.2]

/-- A form without quotes reads no further than to the end of the line. -/
theorem Form.length?_append_line {f : Form} (hf : f ∈ forms) (hplain : f.isQuoted = false)
    (cs more : List Char) : f.length? (cs ++ '\n' :: more) = f.length? cs := by
  have hname (cs : List Char) := countWhile_append_line (p := isNameChar) (by decide) cs more
  have hdigit (cs : List Char) := countWhile_append_line (p := Char.isDigit) (by decide) cs more
  cases f with
  | text => cases hplain
  | blob => cases hplain
  | doubleQuoted => cases hplain
  | backquoted => cases hplain
  | bracketed => cases hplain
  | hexadecimal =>
      have hhex (cs : List Char) := countWhile_append_line (p := isHexDigit) (by decide) cs more
      match cs with
      | [] => rfl
      | [c] => simp [Form.length?]
      | c :: d :: rest =>
          by_cases hc : c = '0' ∧ d = 'x'
          · obtain ⟨rfl, rfl⟩ := hc
            simp [Form.length?, hhex]
          · rw [List.cons_append, List.cons_append, length?_hexadecimal_of_ne hc,
              length?_hexadecimal_of_ne hc]
  | pointed =>
      simp only [Form.length?, digits?_append_line]
      cases hn : digits? cs with
      | none => rfl
      | some n =>
          have hle := (digits?_bounds hn).2
          rw [Option.bind_some, Option.bind_some, List.drop_append_of_le_length hle]
          cases hdrop : cs.drop n with
          | nil => rfl
          | cons c rest =>
              by_cases hc : c = '.'
              · subst hc
                have hcount := countWhile_le Char.isDigit rest
                simp only [List.cons_append, hdigit, List.drop_append_of_le_length hcount,
                  exponentLength_append_line]
              · simp [hc]
  | leadingPoint =>
      cases cs with
      | nil => rfl
      | cons c rest =>
          by_cases hc : c = '.'
          · subst hc
            simp only [Form.length?, List.cons_append, digits?_append_line]
            cases hn : digits? rest with
            | none => rfl
            | some n =>
                have hle := (digits?_bounds hn).2
                rw [Option.map_some, Option.map_some, List.drop_append_of_le_length hle,
                  exponentLength_append_line]
          · simp [Form.length?, hc]
  | exponential =>
      simp only [Form.length?, digits?_append_line]
      cases hn : digits? cs with
      | none => rfl
      | some n =>
          have hle := (digits?_bounds hn).2
          rw [Option.bind_some, Option.bind_some, List.drop_append_of_le_length hle,
            exponent?_append_line]
  | digits => exact digits?_append_line cs more
  | place =>
      cases cs with
      | nil => rfl
      | cons c rest =>
          by_cases hc : c = '?'
          · subst hc
            simp only [Form.length?, List.cons_append, hdigit]
          · simp [Form.length?, hc]
  | named =>
      cases cs with
      | nil => rfl
      | cons c rest => simp only [Form.length?, List.cons_append, hname]
  | word =>
      cases cs with
      | nil => rfl
      | cons c rest => simp only [Form.length?, List.cons_append, hname]
  | mark kind first rest =>
      simp only [Form.length?, isPrefixOf_append_line (not_mem_of_mark_mem hf)]

/-- A form accepts the same piece where the text goes on in a new line. -/
theorem Form.length?_append_line_of_some {f : Form} (hf : f ∈ forms) {cs : List Char} {n : Nat}
    (h : f.length? cs = some n) (more : List Char) :
    f.length? (cs ++ '\n' :: more) = some n := by
  by_cases hquoted : f.isQuoted = true
  · unfold Form.length? at h
    split at h
    · obtain ⟨k, hk, rfl⟩ := Option.map_eq_some_iff.mp h
      simp [Form.length?, doubledTail?_append_line (by decide) hk]
    · split at h
      · next hx =>
          obtain ⟨k, hk, rfl⟩ := Option.map_eq_some_iff.mp h
          simp [Form.length?, hx, doubledTail?_append_line (by decide) hk]
      · cases h
    · obtain ⟨k, hk, rfl⟩ := Option.map_eq_some_iff.mp h
      simp [Form.length?, doubledTail?_append_line (by decide) hk]
    · obtain ⟨k, hk, rfl⟩ := Option.map_eq_some_iff.mp h
      simp [Form.length?, plainTail?_append hk]
    · obtain ⟨k, hk, rfl⟩ := Option.map_eq_some_iff.mp h
      simp [Form.length?, plainTail?_append hk]
    all_goals first
      | cases hquoted
      | cases h
  · rw [Form.length?_append_line hf (by simpa using hquoted), h]

/-- The reader takes the same piece of a text that goes on in a new line. -/
theorem firstForm?_append_line {piece rest : List Char} {form : Form}
    (h : firstForm? (piece ++ rest) = some (form, piece.length)) (hclosed : QuoteClosed rest)
    (more : List Char) :
    firstForm? (piece ++ rest ++ '\n' :: more) = some (form, piece.length) := by
  obtain ⟨hmem, hlength⟩ := mem_of_firstForm? h
  have hpos := (firstForm?_bounds h).1
  obtain ⟨earlier, f, later, hforms, hf, hearlier⟩ := List.findSome?_eq_some_iff.mp h
  obtain ⟨k, hk, heq⟩ := Option.map_eq_some_iff.mp hf
  cases heq
  -- The form that accepted the piece still does.  What is left is that no form tried before it
  -- begins to accept something, now that the text is longer.
  refine List.findSome?_eq_some_iff.mpr ⟨earlier, form, later, hforms, ?_, fun g hg => ?_⟩
  · rw [Form.length?_append_line_of_some hmem hlength]
    rfl
  · have hnone : g.length? (piece ++ rest) = none := Option.map_eq_none_iff.mp (hearlier g hg)
    have hgmem : g ∈ forms := by
      rw [hforms]
      exact List.mem_append_left _ hg
    have hne : g ≠ form := by
      rintro rfl
      rw [hnone] at hlength
      cases hlength
    rw [Option.map_eq_none_iff]
    by_cases hplain : g.isQuoted = true
    · -- A form of quotes that accepts nothing here does not begin here.
      obtain ⟨c, tail, hcs⟩ : ∃ c tail, piece ++ rest = c :: tail := by
        cases piece with
        | nil => simp at hpos
        | cons c piece => exact ⟨c, piece ++ rest, rfl⟩
      rw [hcs] at hnone hlength ⊢
      rw [List.cons_append]
      cases g with
      | text =>
          by_cases hc : c = '\''
          · subst hc
            exact absurd (Form.eq_of_isAlone hmem hlength rfl rfl).symm hne
          · simp [Form.length?, hc]
      | doubleQuoted =>
          by_cases hc : c = '"'
          · subst hc
            exact absurd (Form.eq_of_isAlone hmem hlength rfl rfl).symm hne
          · simp [Form.length?, hc]
      | backquoted =>
          by_cases hc : c = '\x60'
          · subst hc
            exact absurd (Form.eq_of_isAlone hmem hlength rfl rfl).symm hne
          · simp [Form.length?, hc]
      | bracketed =>
          by_cases hc : c = '['
          · subst hc
            exact absurd (Form.eq_of_isAlone hmem hlength rfl rfl).symm hne
          · simp [Form.length?, hc]
      | blob =>
          cases tail with
          | nil => simp [Form.length?]
          | cons d tail =>
              rw [List.cons_append]
              by_cases hx : d = '\'' ∧ (c = 'x' ∨ c = 'X')
              · -- An open blob: the piece is its `x` as a word, and the quote behind it stays open.
                obtain ⟨rfl, hx⟩ := hx
                have hopen : doubledTail? '\'' tail = none := by
                  simpa [Form.length?, hx] using hnone
                obtain ⟨c', rfl⟩ :=
                  List.length_eq_one_iff.mp (length?_of_open_blob hmem hx hopen hlength)
                have hrest : rest = '\'' :: tail := by injection hcs
                exact absurd hopen (hclosed tail hrest)
              · by_cases hd : d = '\''
                · have hc : ¬ (c = 'x' ∨ c = 'X') := fun h => hx ⟨hd, h⟩
                  subst hd
                  simp [Form.length?, hc]
                · simp [Form.length?, hd]
      | _ => cases hplain
    · rw [Form.length?_append_line hgmem (by simpa using hplain), hnone]

/-! ## Trivia -/

theorem lineBody?_append_line {cs : List Char} {n : Nat} (h : lineBody? cs = some n)
    (more : List Char) : lineBody? (cs ++ '\n' :: more) = some n := by
  have hcount : countWhile (fun c => !isLineEnd c) (cs ++ '\n' :: more) =
      countWhile (fun c => !isLineEnd c) cs := countWhile_append_line rfl cs more
  have hle := countWhile_le (fun c => !isLineEnd c) cs
  unfold lineBody? at h ⊢
  rw [← drop_countWhile] at h ⊢
  rw [hcount, List.drop_append_of_le_length hle]
  split at h
  · next heq =>
      rw [heq]
      exact h
  · cases h
  · next hcrlf hcr =>
      generalize cs.drop (countWhile (fun c => !isLineEnd c) cs) = behind at hcr ⊢
      cases behind with
      | nil => exact h
      | cons c behind =>
          by_cases hc : c = '\r'
          · exact absurd (hc ▸ rfl) (hcr behind)
          · rw [List.cons_append]
            split
            · next heq => exact absurd (List.cons.inj heq).1 hc
            · next heq => exact absurd (List.cons.inj heq).1 hc
            · exact h

theorem blockBody?_append {cs : List Char} {n : Nat} (h : blockBody? cs = some n)
    (more : List Char) : blockBody? (cs ++ more) = some n := by
  induction cs generalizing n with
  | nil => cases h
  | cons c cs ih =>
      cases cs with
      | nil => cases h
      | cons d cs =>
          rw [blockBody?] at h
          rw [List.cons_append, List.cons_append, blockBody?]
          split at h
          · next hend => rw [if_pos hend, h]
          · next hend =>
              obtain ⟨k, hk, rfl⟩ := Option.map_eq_some_iff.mp h
              have := ih hk
              rw [List.cons_append] at this
              rw [if_neg hend, this]
              rfl

/-- White space counts on over what is appended to it. -/
theorem countWhile_append_of_all {p : Char → Bool} {cs : List Char}
    (h : countWhile p cs = cs.length) (more : List Char) :
    countWhile p (cs ++ more) = cs.length + countWhile p more := by
  induction cs with
  | nil => simp
  | cons c cs ih =>
      unfold countWhile at h ih ⊢
      rw [List.takeWhile_cons] at h
      split at h
      · next hc =>
          rw [List.cons_append, List.takeWhile_cons, if_pos hc, List.length_cons,
            ih (by simpa using h), List.length_cons]
          omega
      · simp at h

theorem countWhile_append_of_lt {p : Char → Bool} {cs : List Char}
    (h : countWhile p cs < cs.length) (more : List Char) :
    countWhile p (cs ++ more) = countWhile p cs := by
  induction cs with
  | nil => simp at h
  | cons c cs ih =>
      unfold countWhile at h ih ⊢
      rw [List.cons_append, List.takeWhile_cons, List.takeWhile_cons]
      rw [List.takeWhile_cons] at h
      split at h
      · next hc => rw [if_pos hc, if_pos hc, List.length_cons, List.length_cons,
          ih (by simpa using h)]
      · next hc => rw [if_neg hc, if_neg hc]

/-- White space in front of a text is trivia of its own. -/
theorem triviaLength_space {c : Char} (hc : isSpace c = true) (cs : List Char) :
    triviaLength (c :: cs) = 1 + triviaLength cs := by
  have hcount : countWhile isSpace (c :: cs) = 1 + countWhile isSpace cs := by
    rw [countWhile, List.takeWhile_cons_of_pos hc, List.length_cons, Nat.add_comm]
    rfl
  rw [triviaLength_of_some (triviaPiece?_of_space (by omega)), hcount, Nat.add_assoc,
    Nat.add_comm 1 (countWhile isSpace cs), List.drop_succ_cons]
  by_cases hspace : 0 < countWhile isSpace cs
  · rw [triviaLength_of_some (triviaPiece?_of_space hspace), Nat.add_comm]
  · have hzero : countWhile isSpace cs = 0 := by omega
    rw [hzero, List.drop_zero, Nat.zero_add, Nat.add_comm]

/-- A piece of trivia that ends before the text does is the same piece where the text goes on. -/
theorem triviaPiece?_append_line {cs : List Char} {n : Nat} (h : triviaPiece? cs = some n)
    (hlt : n < cs.length) (more : List Char) : triviaPiece? (cs ++ '\n' :: more) = some n := by
  unfold triviaPiece? at h
  split at h
  · next hspace =>
      cases h
      have hcount := countWhile_append_of_lt hlt ('\n' :: more)
      rw [← hcount] at hspace ⊢
      exact triviaPiece?_of_space hspace
  · next hspace =>
      have hcount : countWhile isSpace (cs ++ '\n' :: more) = countWhile isSpace cs :=
        countWhile_append_of_lt (by omega) _
      unfold triviaPiece?
      rw [hcount, if_neg hspace]
      split at h
      · next rest =>
          obtain ⟨k, hk, rfl⟩ := Option.map_eq_some_iff.mp h
          simp [lineBody?_append_line hk]
      · next rest =>
          obtain ⟨k, hk, rfl⟩ := Option.map_eq_some_iff.mp h
          simp [blockBody?_append hk]
      · cases h

/-- A piece of trivia that ends with the text either ends there as well where the text goes on, or
goes on over the line feed. -/
theorem triviaLength_append_line_of_whole {cs : List Char}
    (h : triviaPiece? cs = some cs.length) (more : List Char) :
    triviaLength (cs ++ '\n' :: more) = cs.length + triviaLength ('\n' :: more) := by
  have hpos := (triviaPiece?_bounds h).1
  have hdrop (k : Nat) : (cs ++ '\n' :: more).drop (cs.length + k) = ('\n' :: more).drop k := by
    rw [← List.drop_drop, List.drop_left]
  by_cases hspace : countWhile isSpace cs = cs.length
  · -- White space goes on over the line feed.
    have hcount := countWhile_append_of_all hspace ('\n' :: more)
    have hline : 0 < countWhile isSpace ('\n' :: more) := by
      rw [countWhile, List.takeWhile_cons_of_pos (by decide)]
      simp
    rw [triviaLength_of_some (triviaPiece?_of_space (by omega)), hcount, hdrop,
      triviaLength_of_some (triviaPiece?_of_space hline), Nat.add_assoc]
  · -- A comment that ends with the text is over, and the line feed begins another piece.
    have hle := countWhile_le isSpace cs
    have hcount : countWhile isSpace (cs ++ '\n' :: more) = countWhile isSpace cs :=
      countWhile_append_of_lt (by omega) _
    have hpiece : triviaPiece? (cs ++ '\n' :: more) = some cs.length := by
      unfold triviaPiece? at h ⊢
      rw [hcount]
      split at h
      · next hpos =>
          rw [if_pos hpos]
          exact h
      · next hpos =>
          rw [if_neg hpos]
          split at h
          · next rest =>
              obtain ⟨k, hk, heq⟩ := Option.map_eq_some_iff.mp h
              simpa [lineBody?_append_line hk] using heq
          · next rest =>
              obtain ⟨k, hk, heq⟩ := Option.map_eq_some_iff.mp h
              simpa [blockBody?_append hk] using heq
          · cases h
    rw [triviaLength_of_some hpiece, ← Nat.add_zero cs.length, hdrop, Nat.add_zero, List.drop_zero]

theorem triviaPiece?_append_line_none {cs : List Char} (h : triviaPiece? cs = none)
    (hne : cs ≠ []) (hdashes : NoDashes cs) (hopen : ¬ ['/', '*'] <+: cs) (more : List Char) :
    triviaPiece? (cs ++ '\n' :: more) = none := by
  have hspace : countWhile isSpace cs = 0 := by
    unfold triviaPiece? at h
    split at h
    · cases h
    · omega
  have hpos := List.length_pos_of_ne_nil hne
  have hcount : countWhile isSpace (cs ++ '\n' :: more) = countWhile isSpace cs :=
    countWhile_append_of_lt (by omega) _
  unfold triviaPiece?
  rw [hcount, hspace, if_neg (by omega)]
  match cs, hne with
  | [c], _ =>
      split
      · next heq => cases heq
      · next heq => cases heq
      · rfl
  | c :: d :: cs, _ =>
      split
      · next heq => cases heq; exact absurd ⟨cs, rfl⟩ hdashes
      · next heq => cases heq; exact absurd ⟨cs, rfl⟩ hopen
      · rfl

/-- Trivia that ends before the text does ends there as well where the text goes on. -/
theorem triviaLength_append_line {cs : List Char} (hlt : triviaLength cs < cs.length)
    (hdashes : NoDashes (cs.drop (triviaLength cs)))
    (hopen : ¬ ['/', '*'] <+: cs.drop (triviaLength cs)) (more : List Char) :
    triviaLength (cs ++ '\n' :: more) = triviaLength cs := by
  fun_induction triviaLength cs with
  | case1 cs h =>
      exact triviaLength_of_none
        (triviaPiece?_append_line_none h (List.ne_nil_of_length_pos hlt) hdashes hopen more)
  | case2 cs n h ih =>
      rw [← List.drop_drop] at hdashes hopen
      have hn : n < cs.length := by omega
      have ih := ih (by rw [List.length_drop]; omega) hdashes hopen
      rw [triviaLength_of_some (triviaPiece?_append_line h hn more),
        List.drop_append_of_le_length (by omega), ih]

/-- A text that is nothing but trivia goes on with the trivia behind it. -/
theorem triviaLength_append_line_of_le {cs : List Char} (h : cs.length ≤ triviaLength cs)
    (more : List Char) :
    triviaLength (cs ++ '\n' :: more) = cs.length + triviaLength ('\n' :: more) := by
  fun_induction triviaLength cs with
  | case1 cs _ =>
      have hnil : cs = [] := List.length_eq_zero_iff.mp (by omega)
      simp [hnil]
  | case2 cs n hpiece ih =>
      have hbounds := triviaPiece?_bounds hpiece
      by_cases hn : n < cs.length
      · rw [triviaLength_of_some (triviaPiece?_append_line hpiece hn more),
          List.drop_append_of_le_length hbounds.2, ih (by rw [List.length_drop]; omega),
          List.length_drop]
        omega
      · have hwhole : n = cs.length := by omega
        exact triviaLength_append_line_of_whole (hwhole ▸ hpiece) more

/-! ## Readings -/

namespace Reads

variable {good : List Char → Prop} {cs more : List Char} {o : Nat} {p : Position}
  {ts us : List Token}

/-- Where a text ends, a reading can go on in a new line. -/
theorem append_line (h : CleanReads cs o p ts)
    (hmore : PlainReads ('\n' :: more) (o + byteLength cs) (p.after cs) us) :
    PlainReads (cs ++ '\n' :: more) o p (ts ++ us) := by
  induction h with
  | @done cs o p hgap =>
      -- The trivia at the end becomes part of the gap before the first token of the new line.
      have htrivia := triviaLength_append_line_of_le hgap more
      cases hmore with
      | done hgap' =>
          refine .done ?_
          rw [htrivia, List.length_append]
          omega
      | @token _ gap piece rest _ _ form _ hcs hgap' _ hopen hform hrest =>
          have hstart : o + byteLength cs + byteLength gap = o + byteLength (cs ++ gap) := by
            rw [byteLength_append, Nat.add_assoc]
          rw [hstart, ← Position.after_append p cs gap] at hrest ⊢
          refine .token ?_ ?_ trivial hopen hform hrest
          · rw [hcs, List.append_assoc]
          · rw [htrivia, hgap', List.length_append]
  | @token cs gap piece rest o p form tokens hcs hgap hgood hopen hform hrest ih =>
      have hpos := (firstForm?_bounds hform).1
      have hdrop : cs.drop (triviaLength cs) = piece ++ rest := by
        rw [hgap, hcs, List.drop_left]
      have hsplit : cs ++ '\n' :: more = gap ++ (piece ++ (rest ++ '\n' :: more)) := by simp [hcs]
      -- The gap, the absence of an open comment and the piece itself: none sees the new line.
      refine .token hsplit ?_ trivial ?_ ?_ (ih ?_)
      · rw [← hgap]
        refine triviaLength_append_line ?_ (hdrop ▸ hgood) (hdrop ▸ hopen) more
        rw [hgap, hcs]
        simp only [List.length_append]
        omega
      · rw [← List.append_assoc]
        intro hprefix
        have hne : piece ++ rest ≠ [] := by
          intro hnil
          have := congrArg List.length hnil
          simp only [List.length_append, List.length_nil] at this
          omega
        match hpiece : piece ++ rest, hne with
        | [c], _ =>
            rw [hpiece] at hprefix
            obtain ⟨tail, htail⟩ := hprefix
            cases htail
        | c :: d :: behind, _ =>
            rw [hpiece] at hprefix hopen
            obtain ⟨tail, htail⟩ := hprefix
            cases htail
            exact hopen ⟨behind, rfl⟩
      · rw [← List.append_assoc]
        exact firstForm?_append_line hform hrest.quoteClosed more
      · rw [hcs] at hmore
        simpa [byteLength_append, Nat.add_assoc] using hmore

end Reads

/-! ## Two texts parted by a semicolon -/

/-- A text that stands further on gives the same tokens further on. -/
theorem Reads.moved {good : List Char → Prop} {cs : List Char} {o : Nat} {p : Position}
    {ts : List Token} (h : Reads good cs o p ts) (bytes lines : Nat) :
    Reads good cs (o + bytes) (p.down lines) (allMoved bytes lines ts) := by
  induction h with
  | done hgap => exact .done hgap
  | @token cs gap piece more o p form tokens hcs hgap hgood hopen hform hrest ih =>
      have hstart : o + byteLength gap + bytes = o + bytes + byteLength gap := by omega
      have hstop : o + byteLength gap + byteLength piece + bytes =
          o + bytes + byteLength gap + byteLength piece := by omega
      rw [allMoved, List.map_cons, Token.moved]
      simp only [hstop, hstart, ← Position.after_down] at ih ⊢
      exact .token hcs hgap hgood hopen hform ih

/-- White space in front of a text changes nothing but the places. -/
theorem Reads.space {c : Char} (hc : isSpace c = true) {cs : List Char} {o : Nat} {p : Position}
    {ts : List Token} (h : PlainReads cs (o + c.utf8Size) (p.after [c]) ts) :
    PlainReads (c :: cs) o p ts := by
  cases h with
  | done hgap =>
      refine .done ?_
      rw [triviaLength_space hc, List.length_cons]
      omega
  | @token _ gap piece more _ _ form tokens hcs hgap hgood hopen hform hrest =>
      have hstart : o + c.utf8Size + byteLength gap = o + byteLength (c :: gap) := by
        rw [byteLength, Nat.add_assoc]
      rw [hstart, ← Position.after_append p [c] gap, List.singleton_append] at hrest ⊢
      refine .token ?_ ?_ trivial hopen hform hrest
      · rw [hcs, List.cons_append]
      · rw [triviaLength_space hc, hgap, List.length_cons, Nat.add_comm]

theorem firstForm?_of_semicolon (cs : List Char) :
    firstForm? (';' :: cs) = some (.mark .semicolon ';' [], 1) :=
  firstForm?_of_isAlone (by decide) rfl (by decide)

/-- A semicolon at the beginning of a text is its first token. -/
theorem Reads.semicolon {cs : List Char} {o : Nat} {p : Position} {ts : List Token}
    (h : PlainReads cs (o + 1) (p.after [';']) ts) :
    PlainReads (';' :: cs) o p (⟨.semicolon, ";", ⟨o, o + 1⟩, p⟩ :: ts) := by
  have htrivia : triviaLength (';' :: cs) = ([] : List Char).length := triviaLength_of_none rfl
  have hopen : ¬ ['/', '*'] <+: [';'] ++ cs := by
    rintro ⟨tail, htail⟩
    cases htail
  have hsplit : ';' :: cs = [] ++ ([';'] ++ cs) := rfl
  exact .token hsplit htrivia trivial hopen (firstForm?_of_semicolon cs) h

theorem after_line (p : Position) (cs : List Char) :
    (p.after cs).after ['\n'] = ⟨p.line + cs.count '\n' + 1, 1⟩ := by
  have hline : (p.after cs).line = p.line + cs.count '\n' := by
    induction cs generalizing p with
    | nil => rfl
    | cons c cs ih =>
        show ((p.step c).after cs).line = _
        rw [ih, List.count_cons]
        unfold Position.step
        by_cases hc : c = '\n'
        · simp [hc]
          omega
        · simp [hc]
  rw [← hline]
  rfl

/-- Between two texts that are read by themselves, a semicolon on a line of its own is a token, and
nothing is read otherwise. -/
theorem tokenize_append_line {a b : String} {ts us : List Token}
    (hreturn : noBareReturn a.toList = true) (ha : tokenize a = .ok ts)
    (hb : tokenize b = .ok us) :
    ∃ t, t.kind = .semicolon ∧
      tokenize (a ++ "\n;\n" ++ b) =
        .ok (ts ++ t :: allMoved (byteLength a.toList + 3) (a.toList.count '\n' + 2) us) := by
  have hposition : ((((Position.first.after a.toList).after ['\n']).after [';']).after ['\n']) =
      Position.first.down (a.toList.count '\n' + 2) := by
    rw [after_line, after_line]
    rfl
  have hsecond : PlainReads b.toList (byteLength a.toList + 1 + 1 + 1)
      ((((Position.first.after a.toList).after ['\n']).after [';']).after ['\n'])
      (allMoved (byteLength a.toList + 3) (a.toList.count '\n' + 2) us) := by
    have hmoved := (tokenizeAt_eq_ok_iff.mp hb).moved (byteLength a.toList + 3)
      (a.toList.count '\n' + 2)
    rw [hposition]
    rw [Nat.zero_add] at hmoved
    exact hmoved
  have hfirst := (tokenizeAt_eq_ok_iff.mp ha).clean hreturn
  have hseam : PlainReads (a.toList ++ '\n' :: ';' :: '\n' :: b.toList) 0 .first _ :=
    hfirst.append_line (by
      rw [Nat.zero_add]
      exact .space rfl (.semicolon (.space rfl hsecond)))
  have htext : (a ++ "\n;\n" ++ b).toList = a.toList ++ '\n' :: ';' :: '\n' :: b.toList := by simp
  refine ⟨_, ?_, Eq.trans ?_ (readFrom_of_reads hseam)⟩
  · rfl
  · rw [tokenize, tokenizeAt, htext]

end TypedSql.Token

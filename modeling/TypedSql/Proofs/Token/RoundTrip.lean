import TypedSql.Proofs.Token.Longest
import TypedSql.Proofs.Token.Quoted
import TypedSql.Proofs.Lists

/-!
# Texts in quotes are read back

A text that is written in quotes is one token with the text as its value, wherever the reader takes
the quotes for one token; in backquotes it is a token for each piece between the backquotes of the
text.  The other way round, every token that is a text or a name in quotes is its value, written in
quotes that hold it.

Main statements: `Quotes.tokenizeAt_back`, `Quotes.tokenizeAt_write`.
-/

namespace TypedSql.Token

open Text

namespace Quotes

/-- A text in quotes that close behind it is the first word. -/
theorem readsAs_write {s : Quotes} {text : String} {more : List Char} {words : List (Kind × String)}
    (hholds : s.Holds text) (hclosed : s.doubles = true → more.head? ≠ some s.closing)
    (h : ReadsAs more words) :
    ReadsAs ((s.write text).toList ++ more) ((s.kind, s.write text) :: words) := by
  have hfirst : firstForm? ((s.write text).toList ++ more) = _ :=
    firstForm?_of_begins ⟨hholds, rfl, hclosed⟩
  have htrivia : triviaPiece? ((s.write text).toList ++ more) = none := by
    rw [toList_write]
    cases s <;> rfl
  have hopen : ¬ ['/', '*'] <+: (s.write text).toList ++ more := by
    rw [toList_write]
    exact notOpen_cons (by cases s <;> decide) _
  have hreads := ReadsAs.bare htrivia hopen hfirst h
  rwa [kind_form, String.ofList_toList] at hreads

theorem tokenizeAt_of_readsAs {sql : String} {words : List (Kind × String)}
    (h : ReadsAs sql.toList words) (origin : Position) :
    ∃ ts, tokenizeAt sql origin = .ok ts ∧ ts.map (fun t => (t.kind, t.text)) = words := by
  obtain ⟨ts, hreads, hwords⟩ := h 0 origin
  exact ⟨ts, tokenizeAt_eq_ok_iff.mpr hreads, hwords⟩

/-! ## Backquotes -/

/-- Each backquote of the text closes a name and, doubled, opens the next one: every piece between
two stands in backquotes of its own. -/
theorem toList_write_back (cs : List Char) :
    (back.write (String.ofList cs)).toList =
      (cs.splitOn '\x60').flatMap fun piece => (back.write (String.ofList piece)).toList := by
  have hwrite (cs : List Char) : (back.write (String.ofList cs)).toList =
      '\x60' :: (Token.double '\x60' cs ++ ['\x60']) := by
    rw [toList_write, String.toList_ofList]
    rfl
  simp only [hwrite]
  induction cs with
  | nil => rfl
  | cons c cs ih =>
      rw [List.splitOn_cons_eq_if_modifyHead]
      by_cases hc : c = '\x60'
      · subst hc
        rw [if_pos (beq_self_eq_true _), List.flatMap_cons, ← ih]
        rfl
      · rw [if_neg (fun h => hc (beq_iff_eq.mp h)), Token.double, if_neg hc]
        cases hpieces : cs.splitOn '\x60' with
        | nil => exact absurd hpieces (List.splitOnP_ne_nil _ cs)
        | cons first pieces =>
            rw [hpieces, List.flatMap_cons, List.cons_append, List.cons_inj_right] at ih
            rw [List.modifyHead_cons, List.flatMap_cons, Token.double, if_neg hc, List.cons_append,
              ih]
            rfl

theorem readsAs_backs {pieces : List (List Char)} (h : ∀ piece ∈ pieces, '\x60' ∉ piece) :
    ReadsAs (pieces.flatMap fun piece => (back.write (String.ofList piece)).toList)
      (pieces.map fun piece => (.quotedIdentifier, back.write (String.ofList piece))) := by
  induction pieces with
  | nil => exact .nil
  | cons piece pieces ih =>
      obtain ⟨hpiece, hpieces⟩ := List.forall_mem_cons.mp h
      exact readsAs_write (.inr (by rwa [String.toList_ofList])) (fun h => by cases h) (ih hpieces)

/-- A text in backquotes is read as its pieces between the backquotes, each a name. -/
theorem tokenizeAt_back (text : String) (origin : Position) :
    ∃ ts, tokenizeAt (back.write text) origin = .ok ts ∧
      List.Forall₂ (fun t piece => t.kind = .quotedIdentifier ∧
          t.text = back.write (String.ofList piece) ∧ t.value = String.ofList piece)
        ts (text.toList.splitOn '\x60') := by
  have hreads := readsAs_backs fun piece (h : piece ∈ text.toList.splitOn '\x60') =>
    Lists.not_mem_of_mem_splitOn h
  rw [← toList_write_back, String.ofList_toList] at hreads
  obtain ⟨ts, hts, hwords⟩ := tokenizeAt_of_readsAs hreads origin
  refine ⟨ts, hts, ?_⟩
  rw [← List.forall₂_eq_eq_eq, List.forall₂_map_left_iff, List.forall₂_map_right_iff] at hwords
  refine hwords.imp fun t piece hword => ?_
  have hkind : t.kind = .quotedIdentifier := congrArg Prod.fst hword
  have htext : t.text = back.write (String.ofList piece) := congrArg Prod.snd hword
  exact ⟨hkind, htext, value_write (s := back) hkind htext⟩

/-! ## Round trips -/

/-- A token that is a text or a name in quotes has the form of some quotes. -/
theorem exists_form_eq {form : Form} {piece : String} (hform : form ∈ forms)
    (h : form.kind piece = .string ∨ form.kind piece = .quotedIdentifier) :
    ∃ s : Quotes, form = s.form := by
  cases form with
  | text => exact ⟨single, rfl⟩
  | doubleQuoted => exact ⟨double, rfl⟩
  | backquoted => exact ⟨back, rfl⟩
  | bracketed => exact ⟨brackets, rfl⟩
  | word =>
      rw [Form.kind] at h
      cases hword : isKeyword piece <;> simp [hword] at h
  | mark kind first more =>
      have hthis := mark_of_all
        (p := fun mark => mark.1 != .string && mark.1 != .quotedIdentifier) (by decide) hform
      rw [Bool.and_eq_true, bne_iff_ne, bne_iff_ne] at hthis
      rcases h with h | h
      · exact absurd h hthis.1
      · exact absurd h hthis.2
  | _ => rcases h with h | h <;> cases h

/-- A token that is a text or a name in quotes is its value in some quotes. -/
theorem text_eq_write {sql : String} {origin : Position} {tokens : List Token} {t : Token}
    (h : tokenizeAt sql origin = .ok tokens) (ht : t ∈ tokens)
    (hkind : t.kind = .string ∨ t.kind = .quotedIdentifier) :
    ∃ s : Quotes, t.kind = s.kind ∧ s.Holds t.value ∧ t.text = s.write t.value := by
  obtain ⟨before, after, form, -, -, hfirst, hform⟩ := (tokenizeAt_eq_ok_iff.mp h).form_of_mem ht
  rw [hform] at hkind
  obtain ⟨s, rfl⟩ := exists_form_eq (mem_of_firstForm? hfirst).1 hkind
  rw [kind_form] at hform
  obtain ⟨text, more, hbegins, hlength⟩ := begins_of_firstForm? hfirst
  have htext : t.text = s.write text :=
    String.toList_inj.mp (List.append_inj hbegins.chars hlength).1
  have hvalue : t.value = text := value_write hform htext
  rw [hvalue]
  exact ⟨s, hform, hbegins.holds, htext⟩

theorem kind_cases (s : Quotes) : s.kind = .string ∨ s.kind = .quotedIdentifier := by
  cases s <;> decide

/-- A text in quotes is read as one token exactly where the quotes can hold it, and the value of
the token is the text; in backquotes it is read as its pieces between backquotes; and every token
that is a text or a name in quotes is its value in quotes that hold it. -/
theorem tokenizeAt_write (s : Quotes) (text : String) (origin : Position) :
    (s.Holds text ↔
      ∃ t, tokenizeAt (s.write text) origin = .ok [t] ∧ t.kind = s.kind ∧ t.text = s.write text ∧
        t.value = text) ∧
    (∃ ts, tokenizeAt (back.write text) origin = .ok ts ∧
      List.Forall₂ (fun t piece => t.kind = .quotedIdentifier ∧
          t.text = back.write (String.ofList piece) ∧ t.value = String.ofList piece)
        ts (text.toList.splitOn '\x60')) ∧
    ∀ (sql : String) (tokens : List Token), tokenizeAt sql origin = .ok tokens → ∀ t ∈ tokens,
      t.kind = .string ∨ t.kind = .quotedIdentifier →
        ∃ s' : Quotes, t.kind = s'.kind ∧ s'.Holds t.value ∧ t.text = s'.write t.value := by
  refine ⟨⟨fun hholds => ?_, ?_⟩, tokenizeAt_back text origin,
    fun sql tokens h t ht hkind => text_eq_write h ht hkind⟩
  · have hreads : ReadsAs ((s.write text).toList ++ []) [(s.kind, s.write text)] :=
      readsAs_write hholds (fun _ => by simp) .nil
    rw [List.append_nil] at hreads
    obtain ⟨ts, hts, hwords⟩ := tokenizeAt_of_readsAs hreads origin
    obtain ⟨t, rfl, hword⟩ := List.map_eq_singleton_iff.mp hwords
    have hkind : t.kind = s.kind := congrArg Prod.fst hword
    have htext : t.text = s.write text := congrArg Prod.snd hword
    exact ⟨t, hts, hkind, htext, value_write hkind htext⟩
  · rintro ⟨t, htokens, hkind, htext, hvalue⟩
    obtain ⟨s', -, hholds, htext'⟩ :=
      text_eq_write htokens List.mem_cons_self (hkind ▸ s.kind_cases)
    rw [hvalue] at hholds htext'
    have hchars := congrArg String.toList (htext.symm.trans htext')
    rw [toList_write, toList_write] at hchars
    rwa [opening_injective (List.cons.inj hchars).1]

/-- A text that is a quote, in single quotes, and a name that ends with one, in double quotes. -/
theorem tokenizeAt_write_of_quotes :
    (∃ t, tokenizeAt "''''" .first = .ok [t] ∧ t.kind = .string ∧ t.text = "''''" ∧
      t.value = "'") ∧
    ∃ s : Quotes, .quotedIdentifier = s.kind ∧ s.Holds "a\"" ∧ "\"a\"\"\"" = s.write "a\"" := by
  have hquote : single.write "'" = "''''" := by decide
  have hread := (tokenizeAt_write single "'" .first).1.mp (by decide)
  rw [hquote] at hread
  have hname : tokenizeAt "\"a\"\"\"" .first =
      .ok [⟨.quotedIdentifier, "\"a\"\"\"", ⟨0, 5⟩, .first⟩] := by decide +kernel
  obtain ⟨s, hkind, hholds, htext⟩ :=
    (tokenizeAt_write double "a\"" .first).2.2 _ _ hname _ List.mem_cons_self (.inr rfl)
  have hvalue : value ⟨.quotedIdentifier, "\"a\"\"\"", ⟨0, 5⟩, .first⟩ = "a\"" := by decide
  rw [hvalue] at hholds htext
  exact ⟨hread, s, hkind, hholds, htext⟩

/-- A backquote in a name is doubled when it is written, and taken for two quotes when it is read,
although taking the quotes off would give the name. -/
theorem tokenizeAt_write_of_backquote :
    back.write "a\x60b" = "\x60a\x60\x60b\x60" ∧ unquote "\x60a\x60\x60b\x60" = "a\x60b" ∧
      tokenizeAt "\x60a\x60\x60b\x60" .first =
        .ok [⟨.quotedIdentifier, "\x60a\x60", ⟨0, 3⟩, ⟨1, 1⟩⟩,
          ⟨.quotedIdentifier, "\x60b\x60", ⟨3, 6⟩, ⟨1, 4⟩⟩] := by
  decide +kernel

end Quotes

end TypedSql.Token

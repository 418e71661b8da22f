import TypedSql.Proofs.Token.FormLead

/-!
# Quotes

A text can stand in single quotes, and a name in double quotes, backquotes or brackets.  Writing
doubles every quote in the text, and brackets leave it as it is; taking the quotes off gives the
text again.  The forms of the token grammar accept a text in quotes where the quotes can hold it:
always for single and double quotes, and for backquotes and brackets unless the closing sign is in
it.  Backquotes are not doubled for the reader: they close a name, and the next one opens another.

Main definitions: `Quotes`, `Quotes.write`, `Quotes.Holds`, `Quotes.Begins`, `Quotes.NeverClosed`.
Main statements: `Quotes.unquote_write`, `Quotes.length?_form`, `Quotes.firstForm?_of_begins`.
-/

namespace TypedSql.Token

open Text

/-- What a text can stand in. -/
inductive Quotes
  | single
  | double
  | back
  | brackets
deriving DecidableEq, Repr

namespace Quotes

def opening : Quotes → Char
  | single => '\''
  | double => '"'
  | back => '\x60'
  | brackets => '['

def closing : Quotes → Char
  | brackets => ']'
  | s => s.opening

/-- The kind of a token in these quotes. -/
def kind : Quotes → Kind
  | single => .string
  | _ => .quotedIdentifier

def form : Quotes → Form
  | single => .text
  | double => .doubleQuoted
  | back => .backquoted
  | brackets => .bracketed

/-- What stands between the quotes for a text. -/
def inner (s : Quotes) (cs : List Char) : List Char :=
  match s with
  | brackets => cs
  | _ => Token.double s.opening cs

/-- The text in quotes, the quotes in it doubled. -/
def write (s : Quotes) (text : String) : String :=
  String.ofList (s.opening :: (s.inner text.toList ++ [s.closing]))

/-- For the reader two closing quotes in a row are a quote of the text. -/
def doubles : Quotes → Bool
  | single | double => true
  | back | brackets => false

/-- The text has no sign that would close the quotes. -/
def Holds (s : Quotes) (text : String) : Prop := s.doubles = true ∨ s.closing ∉ text.toList

instance (s : Quotes) (text : String) : Decidable (s.Holds text) :=
  inferInstanceAs (Decidable (_ ∨ _))

/-- The characters begin with the text in quotes, and go on with `more`. -/
structure Begins (s : Quotes) (cs : List Char) (text : String) (more : List Char) : Prop where
  holds : s.Holds text
  chars : cs = (s.write text).toList ++ more
  closed : s.doubles = true → more.head? ≠ some s.closing

/-- The quotes open at the beginning of the characters and are never closed. -/
def NeverClosed (s : Quotes) (cs : List Char) : Prop :=
  cs.head? = some s.opening ∧ ¬ ∃ text more, s.Begins cs text more

theorem toList_write (s : Quotes) (text : String) :
    (s.write text).toList = s.opening :: (s.inner text.toList ++ [s.closing]) :=
  String.toList_ofList

theorem opening_injective {s s' : Quotes} (h : s.opening = s'.opening) : s = s' := by
  cases s <;> cases s' <;> first | rfl | cases h

/-! ## The values -/

/-- Taking the quotes off gives the text, whatever is in it. -/
theorem unquote_write (s : Quotes) (text : String) : unquote (s.write text) = text := by
  have hchars : unquoteChars (s.write text).toList = text.toList := by
    rw [toList_write]
    cases s with
    | single => exact unquoteChars_double '\'' (by decide) _
    | double => exact unquoteChars_double '"' (by decide) _
    | back => exact unquoteChars_double '\x60' (by decide) _
    | brackets =>
        show unquoteChars ('[' :: (text.toList ++ [']'])) = text.toList
        cases htext : text.toList ++ [']'] with
        | nil => simp at htext
        | cons d ds =>
            have hlast : (d :: ds).getLast (by simp) = ']' := by simp [← htext]
            have hinit : (d :: ds).dropLast = text.toList := by simp [← htext]
            simp [unquoteChars, hlast, hinit]
  rw [unquote, hchars, String.ofList_toList]

theorem value_write {s : Quotes} {t : Token} {text : String} (hkind : t.kind = s.kind)
    (htext : t.text = s.write text) : t.value = text := by
  have hvalue : t.value = unquote t.text := by
    rw [value, hkind]
    cases s <;> rfl
  rw [hvalue, htext, unquote_write]

/-! ## The pieces that are accepted -/

/-- The first quote that is not doubled closes the text. -/
theorem doubledTail?_double {q : Char} {more : List Char} (hmore : more.head? ≠ some q)
    (cs : List Char) :
    doubledTail? q (Token.double q cs ++ q :: more) = some (Token.double q cs ++ [q]).length := by
  induction cs with
  | nil =>
      cases more with
      | nil => simp [Token.double, doubledTail?]
      | cons c more =>
          have hc : c ≠ q := fun h => hmore (congrArg some h)
          simp [Token.double, doubledTail?, hc]
  | cons c cs ih =>
      by_cases hc : c = q
      · simp only [Token.double, if_pos hc, List.cons_append, doubledTail?, ih, Option.map_some]
        simp
      · rw [Token.double, if_neg hc, List.cons_append]
        -- Behind the character stands at least the closing quote.
        cases htail : Token.double q cs ++ q :: more with
        | nil => simp at htail
        | cons d ds =>
            rw [htail] at ih
            rw [doubledTail?, if_neg hc, ih, Option.map_some, List.cons_append,
              List.length_cons (a := c)]

theorem plainTail?_eq_some_iff {q : Char} {cs : List Char} {n : Nat} :
    plainTail? q cs = some n ↔
      ∃ body more, cs = body ++ q :: more ∧ q ∉ body ∧ n = body.length + 1 := by
  induction cs generalizing n with
  | nil => simp [plainTail?]
  | cons c cs ih =>
      rw [plainTail?]
      constructor
      · intro h
        split at h
        · next hc =>
            cases h
            exact ⟨[], cs, by rw [hc]; rfl, List.not_mem_nil, rfl⟩
        · next hc =>
            obtain ⟨k, hk, rfl⟩ := Option.map_eq_some_iff.mp h
            obtain ⟨body, more, rfl, hbody, rfl⟩ := ih.mp hk
            exact ⟨c :: body, more, rfl, List.not_mem_cons_of_ne_of_not_mem (Ne.symm hc) hbody, rfl⟩
      · rintro ⟨body, more, hcs, hbody, rfl⟩
        cases body with
        | nil =>
            cases hcs
            rw [if_pos rfl]
            rfl
        | cons d body =>
            cases hcs
            rw [List.mem_cons, not_or] at hbody
            rw [if_neg (Ne.symm hbody.1), ih.mpr ⟨body, more, rfl, hbody.2, rfl⟩]
            rfl

/-- The quotes close at the first quote that is not one of a pair. -/
theorem doubledTail?_eq_some {q : Char} {cs : List Char} {n : Nat}
    (h : doubledTail? q cs = some n) :
    ∃ text more, cs = Token.double q text ++ q :: more ∧ more.head? ≠ some q ∧
      n = (Token.double q text).length + 1 := by
  fun_induction doubledTail? q cs generalizing n with
  | case1 => cases h
  | case2 =>
      cases h
      exact ⟨[], [], rfl, by simp, rfl⟩
  | case3 => cases h
  | case4 cs ih =>
      obtain ⟨k, hk, rfl⟩ := Option.map_eq_some_iff.mp h
      obtain ⟨text, more, rfl, hmore, rfl⟩ := ih hk
      exact ⟨q :: text, more, by simp [Token.double], hmore, by simp [Token.double]⟩
  | case5 d cs hd =>
      cases h
      exact ⟨[], d :: cs, rfl, fun hhead => hd (Option.some.inj hhead), rfl⟩
  | case6 c d cs hc ih =>
      obtain ⟨k, hk, rfl⟩ := Option.map_eq_some_iff.mp h
      obtain ⟨text, more, hcs, hmore, rfl⟩ := ih hk
      exact ⟨c :: text, more, by simp [Token.double, hc, hcs], hmore, by simp [Token.double, hc]⟩

theorem double_of_not_mem {q : Char} {cs : List Char} (h : q ∉ cs) : Token.double q cs = cs := by
  induction cs with
  | nil => rfl
  | cons c cs ih =>
      rw [List.mem_cons, not_or] at h
      rw [Token.double, if_neg (Ne.symm h.1), ih h.2]

/-- Between quotes that are not doubled the text stands as it is. -/
theorem inner_of_holds {s : Quotes} {text : String} (hdoubles : s.doubles = false)
    (h : s.Holds text) : s.inner text.toList = text.toList := by
  have hnone : s.closing ∉ text.toList := by
    rcases h with h | h
    · rw [hdoubles] at h
      cases h
    · exact h
  cases s with
  | single => cases hdoubles
  | double => cases hdoubles
  | back => exact double_of_not_mem hnone
  | brackets => rfl

theorem inner_of_doubles {s : Quotes} (hdoubles : s.doubles = true) (cs : List Char) :
    s.inner cs = Token.double s.closing cs := by
  cases s with
  | single => rfl
  | double => rfl
  | back => cases hdoubles
  | brackets => cases hdoubles

/-- The length of what stands behind the opening sign, the closing sign included. -/
def tail? (s : Quotes) (cs : List Char) : Option Nat :=
  if s.doubles then doubledTail? s.closing cs else plainTail? s.closing cs

theorem tail?_eq_some_iff {s : Quotes} {cs : List Char} {n : Nat} :
    s.tail? cs = some n ↔ ∃ text more, s.Begins (s.opening :: cs) text more ∧
      n = (s.inner text.toList).length + 1 := by
  have hchars (text : String) (more : List Char) :
      s.opening :: cs = (s.write text).toList ++ more ↔
        cs = s.inner text.toList ++ s.closing :: more := by
    rw [toList_write, List.cons_append, List.append_assoc, List.singleton_append,
      List.cons_inj_right]
  cases hdoubles : s.doubles with
  | true =>
      rw [tail?, if_pos hdoubles]
      constructor
      · intro h
        obtain ⟨text, more, hcs, hmore, rfl⟩ := doubledTail?_eq_some h
        rw [← String.toList_ofList (l := text), ← inner_of_doubles hdoubles] at hcs ⊢
        exact ⟨_, more, ⟨.inl hdoubles, (hchars _ _).mpr hcs, fun _ => hmore⟩, rfl⟩
      · rintro ⟨text, more, h, rfl⟩
        rw [(hchars _ _).mp h.chars, inner_of_doubles hdoubles,
          doubledTail?_double (h.closed hdoubles), List.length_append]
        rfl
  | false =>
      rw [tail?, if_neg (by rw [hdoubles]; exact Bool.false_ne_true), plainTail?_eq_some_iff]
      constructor
      · rintro ⟨body, more, hcs, hbody, rfl⟩
        have hholds : s.Holds (String.ofList body) := .inr (by rwa [String.toList_ofList])
        have hinner := inner_of_holds hdoubles hholds
        rw [String.toList_ofList] at hinner
        refine ⟨String.ofList body, more, ⟨hholds, (hchars _ _).mpr ?_, ?_⟩, ?_⟩
        · rw [String.toList_ofList, hinner, hcs]
        · intro h
          rw [hdoubles] at h
          cases h
        · rw [String.toList_ofList, hinner]
      · rintro ⟨text, more, h, rfl⟩
        have hinner := inner_of_holds hdoubles h.holds
        refine ⟨text.toList, more, ?_, ?_, by rw [hinner]⟩
        · rw [(hchars _ _).mp h.chars, hinner]
        · rcases h.holds with hthis | hnone
          · rw [hdoubles] at hthis
            cases hthis
          · exact hnone

/-- The form of the quotes only accepts what begins with the opening sign. -/
theorem length?_form_cons (s : Quotes) (c : Char) (cs : List Char) :
    s.form.length? (c :: cs) = if c = s.opening then (s.tail? cs).map (· + 1) else none := by
  by_cases hc : c = s.opening
  · subst hc
    rw [if_pos rfl]
    cases s <;> rfl
  · rw [if_neg hc]
    cases s <;> simp [opening] at hc <;> simp [form, Form.length?, hc]

/-- The form of the quotes accepts a text in them, and nothing else. -/
theorem length?_form {s : Quotes} {cs : List Char} {n : Nat} :
    s.form.length? cs = some n ↔
      ∃ text more, s.Begins cs text more ∧ n = (s.write text).toList.length := by
  have hlength (text : String) :
      (s.write text).toList.length = (s.inner text.toList).length + 1 + 1 := by
    rw [toList_write, List.length_cons, List.length_append]
    rfl
  cases cs with
  | nil =>
      constructor
      · intro h
        cases s <;> cases h
      · rintro ⟨text, more, h, -⟩
        have hchars := h.chars
        rw [toList_write] at hchars
        cases hchars
  | cons c cs =>
      rw [length?_form_cons]
      constructor
      · intro h
        split at h
        · next hc =>
            obtain ⟨k, hk, rfl⟩ := Option.map_eq_some_iff.mp h
            obtain ⟨text, more, hbegins, rfl⟩ := tail?_eq_some_iff.mp hk
            exact ⟨text, more, hc ▸ hbegins, (hlength text).symm⟩
        · cases h
      · rintro ⟨text, more, h, rfl⟩
        have hchars := h.chars
        rw [toList_write] at hchars
        have hc : c = s.opening := (List.cons.inj hchars).1
        rw [if_pos hc, tail?_eq_some_iff.mpr ⟨text, more, hc ▸ h, rfl⟩, hlength]
        rfl

/-! ## The form that is taken -/

theorem form_mem (s : Quotes) : s.form ∈ forms := by cases s <;> decide

theorem isAlone_form (s : Quotes) : s.form.isAlone = true := by cases s <;> decide

theorem kind_form (s : Quotes) (piece : String) : s.form.kind piece = s.kind := by cases s <;> rfl

theorem firstForm?_of_begins {s : Quotes} {cs more : List Char} {text : String}
    (h : s.Begins cs text more) :
    firstForm? cs = some (s.form, (s.write text).toList.length) := by
  have hlength := length?_form.mpr ⟨text, more, h, rfl⟩
  cases cs with
  | nil => cases s <;> cases hlength
  | cons c cs => exact firstForm?_of_isAlone s.form_mem hlength s.isAlone_form

/-- The first form that accepts is that of the quotes, where it accepts at all. -/
theorem begins_of_firstForm? {s : Quotes} {cs : List Char} {n : Nat}
    (h : firstForm? cs = some (s.form, n)) :
    ∃ text more, s.Begins cs text more ∧ n = (s.write text).toList.length :=
  length?_form.mp (mem_of_firstForm? h).2

end Quotes

end TypedSql.Token

import TypedSql.Json.Parser
import TypedSql.Json.Printer

/-!
# Printed values are read back

A value stands in a text with white space between its parts or with none.  The reader reads it from
any such text, so that it reads what either of the two printers writes.  The values are those whose
numbers are natural numbers: what another number is spelled like is not looked at.

Main definitions: `Writes`, `Exact`.  Main statements: `Writes.parse?_eq`, `Exact.parse?_compact`,
`Exact.parse?_pretty`.
-/

namespace TypedSql.Json

/-! ## Texts -/

theorem hexQuad?_control : ∀ n < 32,
    hexQuad? '0' '0' (hexDigit (n / 16)) (hexDigit (n % 16)) = some n := by decide

/-- What is read of a text that begins with a character, from what is read behind it. -/
def following (c : Char) (found : List Char × List Char) : List Char × List Char :=
  (c :: found.1, found.2)

theorem readText_escape {e c : Char} (h : shortEscape? e = some c) (cs : List Char) :
    readText ('\\' :: e :: cs) = (readText cs).map (following c) := by
  have hu : e ≠ 'u' := by
    rintro rfl
    cases h
  rw [readText.eq_5 e cs (fun _ _ _ _ _ _ _ _ _ he => absurd he hu)
    (fun _ _ _ _ _ he => absurd he hu), h]
  cases readText cs <;> rfl

/-- An escape of a character that is no surrogate, also where another escape stands behind it. -/
theorem readText_hex {a b c d : Char} {n : Nat} (h : hexQuad? a b c d = some n) (hn : n < 0xd800)
    (cs : List Char) :
    readText ('\\' :: 'u' :: a :: b :: c :: d :: cs) =
      (readText cs).map (following (Char.ofNat n)) := by
  -- Where another escape stands behind it, the reader looks whether both are one character.
  by_cases hcs : ∃ e f g h rest, cs = '\\' :: 'u' :: e :: f :: g :: h :: rest
  · obtain ⟨e, f, g, i, rest, rfl⟩ := hcs
    rw [readText.eq_3, h]
    simp only [Option.bind_eq_bind, Option.bind_some, show ¬ (0xdc00 ≤ n ∧ n < 0xe000) by omega,
      show ¬ (0xd800 ≤ n ∧ n < 0xdc00) by omega, if_false]
    cases readText ('\\' :: 'u' :: e :: f :: g :: i :: rest) <;> rfl
  · rw [readText.eq_4 a b c d cs fun e f g i rest hrest => hcs ⟨e, f, g, i, rest, hrest⟩, h]
    simp only [Option.bind_eq_bind, Option.bind_some, show ¬ (0xd800 ≤ n ∧ n < 0xe000) by omega,
      if_false]
    cases readText cs <;> rfl

theorem readText_plain {c : Char} (hquote : c ≠ '"') (hbackslash : c ≠ '\\')
    (hcontrol : ¬ c.toNat < 32) (cs : List Char) :
    readText (c :: cs) = (readText cs).map (following c) := by
  rw [readText.eq_6 c cs hquote (fun _ _ _ _ _ _ _ _ _ hc => absurd hc hbackslash)
    (fun _ _ _ _ _ hc => absurd hc hbackslash) (fun _ _ hc => absurd hc hbackslash),
    if_neg hcontrol]
  cases readText cs <;> rfl

theorem readText_escapeChar (c : Char) (cs : List Char) :
    readText (escapeChar c ++ cs) = (readText cs).map (following c) := by
  unfold escapeChar
  split
  · exact readText_escape rfl cs
  · exact readText_escape rfl cs
  · exact readText_escape rfl cs
  · exact readText_escape rfl cs
  · exact readText_escape rfl cs
  · exact readText_escape rfl cs
  · exact readText_escape rfl cs
  · next hquote hbackslash _ _ _ _ _ =>
      split
      · next hcontrol =>
          have hread := readText_hex (hexQuad?_control c.toNat hcontrol)
            (Nat.lt_trans hcontrol (by decide)) cs
          rwa [Char.ofNat_toNat] at hread
      · next hcontrol => exact readText_plain hquote hbackslash hcontrol cs

/-- A text in quotes is read up to its closing quote. -/
theorem readText_flatMap (text rest : List Char) :
    readText (text.flatMap escapeChar ++ '"' :: rest) = some (text, rest) := by
  induction text with
  | nil => exact readText.eq_2 rest
  | cons c text ih =>
      rw [List.flatMap_cons, List.append_assoc, readText_escapeChar, ih]
      rfl

theorem toList_quote (s : String) :
    (quote s).toList = '"' :: (s.toList.flatMap escapeChar ++ ['"']) := by
  simp [quote]

/-! ## Numbers -/

/-- Nothing stands here, or something that a number cannot go on with. -/
def Ends (rest : List Char) : Prop :=
  ∀ c ∈ rest.head?, isSpace c = true ∨ c ∈ [',', ']', '\x7d']

namespace Ends

variable {c : Char} {rest : List Char}

/-- What can stand behind a number is no part of one. -/
theorem head_ne (h : Ends (c :: rest)) :
    c.isDigit = false ∧ c ≠ '.' ∧ c ≠ 'e' ∧ c ≠ 'E' := by
  rcases h c rfl with h | h
  · simp only [isSpace, Bool.or_eq_true, beq_iff_eq] at h
    obtain ((rfl | rfl) | rfl) | rfl := h <;> decide
  · simp only [List.mem_cons, List.not_mem_nil, or_false] at h
    obtain rfl | rfl | rfl := h <;> decide

theorem takeWhile_append (h : Ends rest) {digits : List Char}
    (hdigits : ∀ c ∈ digits, c.isDigit = true) :
    (digits ++ rest).takeWhile Char.isDigit = digits := by
  rw [List.takeWhile_append_of_pos hdigits]
  cases rest with
  | nil => exact List.append_nil _
  | cons c rest =>
      rw [List.takeWhile_cons_of_neg (by rw [h.head_ne.1]; exact Bool.false_ne_true),
        List.append_nil]

theorem readFraction_eq (h : Ends rest) : readFraction rest = some ([], rest) := by
  cases rest with
  | nil => rfl
  | cons c rest =>
      exact readFraction.eq_2 (c :: rest) fun _ hc => h.head_ne.2.1 (List.cons.inj hc).1

theorem readExponent_eq (h : Ends rest) : readExponent rest = some ([], rest) := by
  cases rest with
  | nil => rfl
  | cons c rest => simp [readExponent, h.head_ne]

end Ends

/-- A number but zero is written without a leading zero. -/
theorem toDigits_of_ne_zero {n : Nat} (hn : n ≠ 0) :
    ∃ d ds, Nat.toDigits 10 n = d :: ds ∧ d ≠ '0' := by
  induction n using Nat.strongRecOn with
  | _ n ih =>
      by_cases hsmall : n < 10
      · have hdigit : ∀ n < 10, n ≠ 0 → Nat.digitChar n ≠ '0' := by decide
        exact ⟨_, [], Nat.toDigits_of_lt_base hsmall, hdigit n hsmall hn⟩
      · obtain ⟨d, ds, hdigits, hd⟩ := ih (n / 10) (by omega) (by omega)
        rw [Nat.toDigits_of_base_le (by decide) (by omega), hdigits]
        exact ⟨d, _, rfl, hd⟩

/-- A natural number is written in digits, and with a leading zero only where it is zero. -/
theorem toList_toString (n : Nat) :
    ∃ d ds, (toString n).toList = d :: ds ∧ (∀ c ∈ d :: ds, c.isDigit = true) ∧
      (d = '0' → ds = []) := by
  have htext : (toString n).toList = Nat.toDigits 10 n := String.toList_ofList
  have hdigits : ∀ c ∈ Nat.toDigits 10 n, c.isDigit = true := fun c hc =>
    Nat.isDigit_of_mem_toDigits (by decide) (by decide) hc
  rw [htext]
  by_cases hn : n = 0
  · rw [hn] at hdigits ⊢
    exact ⟨'0', [], rfl, hdigits, fun _ => rfl⟩
  · obtain ⟨d, ds, hds, hd⟩ := toDigits_of_ne_zero hn
    exact ⟨d, ds, hds, hds ▸ hdigits, fun hzero => absurd hzero hd⟩

/-- A number is read as far as its digits go. -/
theorem readNumber_append {d : Char} {ds rest : List Char}
    (hdigits : ∀ c ∈ d :: ds, c.isDigit = true) (hzero : d = '0' → ds = []) (h : Ends rest) :
    readNumber ((d :: ds) ++ rest) = some (nat (natOfDigits (d :: ds)), rest) := by
  have hd : d ≠ '-' := by
    rintro rfl
    exact absurd (hdigits '-' List.mem_cons_self) (by decide)
  have hsign : ((d :: ds ++ rest).take 1).filter (fun c => c == '-') = [] := by simp [hd]
  unfold readNumber
  dsimp only
  rw [hsign, List.length_nil, List.drop_zero]
  -- Behind a leading zero the reader takes no more digits.
  split
  · next hcons =>
      obtain ⟨rfl, -⟩ := List.cons.inj hcons
      cases hzero rfl
      simp [h.readFraction_eq, h.readExponent_eq]
  · rw [h.takeWhile_append hdigits]
    simp [h.readFraction_eq, h.readExponent_eq]

theorem readNumber_toString (n : Nat) {rest : List Char} (h : Ends rest) :
    readNumber ((toString n).toList ++ rest) = some (nat n, rest) := by
  obtain ⟨d, ds, hds, hdigits, hzero⟩ := toList_toString n
  have hvalue : natOfDigits (toString n).toList = n := by
    show natOfDigits (String.ofList (Nat.toDigits 10 n)).toList = n
    rw [String.toList_ofList]
    exact Nat.ofDigitChars_ten_toDigits
  rw [hds, readNumber_append hdigits hzero h, ← hds, hvalue]

/-! ## Written values -/

/-- White space. -/
def Spaces (s : String) : Prop := ∀ c ∈ s.toList, isSpace c = true

/-- A member: its name, and the text of its value behind a colon. -/
def memberText (inner : String) (part : String × String × Json) : String :=
  quote part.1 ++ ":" ++ inner ++ part.2.1

/-- The text writes the value.  There can be white space in front of every item or member, behind
the last one, and between the name of a member and its value. -/
inductive Writes : String → Json → Prop
  | null : Writes "null" null
  | bool (b : Bool) : Writes (if b then "true" else "false") (bool b)
  | nat (n : Nat) : Writes (toString n) (nat n)
  | string (s : String) : Writes (quote s) (string s)
  | noItems : Writes "[]" (array [])
  | items {gap last : String} {parts : List (String × Json)} (hgap : Spaces gap)
      (hlast : Spaces last) (hparts : parts ≠ []) (h : ∀ part ∈ parts, Writes part.1 part.2) :
      Writes ("[" ++ gap ++ joined ("," ++ gap) (parts.map (·.1)) ++ last ++ "]")
        (array (parts.map (·.2)))
  | noMembers : Writes "\x7b\x7d" (object [])
  | members {gap last inner : String} {parts : List (String × String × Json)} (hgap : Spaces gap)
      (hlast : Spaces last) (hinner : Spaces inner) (hparts : parts ≠ [])
      (h : ∀ part ∈ parts, Writes part.2.1 part.2.2) :
      Writes ("\x7b" ++ gap ++ joined ("," ++ gap) (parts.map (memberText inner)) ++ last ++ "\x7d")
        (object (parts.map fun part => (part.1, part.2.2)))

theorem isSpace_of_isDigit {c : Char} (h : c.isDigit = true) : isSpace c = false := by
  cases hc : isSpace c with
  | false => rfl
  | true =>
      simp only [isSpace, Bool.or_eq_true, beq_iff_eq] at hc
      obtain ((rfl | rfl) | rfl) | rfl := hc <;> cases h

/-- A written value begins with no white space and with no closing bracket. -/
theorem Writes.begins {text : String} {v : Json} (h : Writes text v) :
    ∃ c cs, text.toList = c :: cs ∧ isSpace c = false ∧ c ≠ ']' := by
  cases h with
  | null => exact ⟨_, _, rfl, rfl, by decide⟩
  | bool b => cases b <;> exact ⟨_, _, rfl, rfl, by decide⟩
  | nat n =>
      obtain ⟨d, ds, hds, hdigits, -⟩ := toList_toString n
      have hd := hdigits d List.mem_cons_self
      refine ⟨d, ds, hds, isSpace_of_isDigit hd, ?_⟩
      rintro rfl
      cases hd
  | string s => exact ⟨_, _, toList_quote s, rfl, by decide⟩
  | noItems => exact ⟨_, _, rfl, rfl, by decide⟩
  | items => exact ⟨'[', _, by simp [String.toList_append]; rfl, rfl, by decide⟩
  | noMembers => exact ⟨_, _, rfl, rfl, by decide⟩
  | members => exact ⟨'\x7b', _, by simp [String.toList_append]; rfl, rfl, by decide⟩

/-! ## White space -/

section Spaces

variable {gap : String}

theorem skipSpace_append (h : Spaces gap) (cs : List Char) :
    skipSpace (gap.toList ++ cs) = skipSpace cs := List.dropWhile_append_of_pos h

theorem skipSpace_cons {c : Char} (h : isSpace c = false) (cs : List Char) :
    skipSpace (c :: cs) = c :: cs :=
  List.dropWhile_cons_of_neg (by rw [h]; exact Bool.false_ne_true)

theorem readValue_spaces (h : Spaces gap) (fuel : Nat) (cs : List Char) :
    readValue fuel (gap.toList ++ cs) = readValue fuel cs := by
  cases fuel with
  | zero => rw [readValue, readValue]
  | succ fuel => rw [readValue, readValue, skipSpace_append h]

theorem readItems_spaces (h : Spaces gap) (fuel : Nat) (cs : List Char) :
    readItems fuel (gap.toList ++ cs) = readItems fuel cs := by
  cases fuel with
  | zero => rw [readItems, readItems]
  | succ fuel => rw [readItems, readItems, readValue_spaces h]

theorem readMembers_spaces (h : Spaces gap) (fuel : Nat) (cs : List Char) :
    readMembers fuel (gap.toList ++ cs) = readMembers fuel cs := by
  cases fuel with
  | zero => rw [readMembers, readMembers]
  | succ fuel => rw [readMembers, readMembers, skipSpace_append h]

theorem Ends.append (h : Spaces gap) {cs : List Char} (hcs : Ends cs) :
    Ends (gap.toList ++ cs) := by
  cases hgap : gap.toList with
  | nil => exact hcs
  | cons c gap' =>
      intro d hd
      cases hd
      exact .inl (h c (by rw [hgap]; exact List.mem_cons_self))

end Spaces

/-! ## Reading written values -/

/-- The value is read from the text, whatever stands behind it but more of a number. -/
def Reads (text : String) (v : Json) : Prop :=
  ∀ fuel rest, text.toList.length ≤ fuel → Ends rest →
    readValue fuel (text.toList ++ rest) = some (v, rest)

section Parts

variable {gap last inner : String}

theorem toList_joined (gap first second : String) (others : List String) :
    (joined ("," ++ gap) (first :: second :: others)).toList =
      first.toList ++ ',' :: (gap.toList ++ (joined ("," ++ gap) (second :: others)).toList) := by
  rw [joined.eq_3 _ _ _ (List.cons_ne_nil _ _), String.toList_append, String.toList_append,
    String.toList_append, List.append_assoc, List.append_assoc]
  rfl

theorem ends_cons {c : Char} (h : c ∈ [',', ']', '\x7d']) (cs : List Char) : Ends (c :: cs) := by
  intro d hd
  cases hd
  exact .inr h

/-- A reader of items or members reads a part from its text: the last one up to the bracket that
closes them all, and any other one up to a comma, with those behind it. -/
structure ReadsPart {β : Type} (read : Nat → List Char → Option (List β × List Char))
    (close : Char) (text : String) (v : β) : Prop where
  last : ∀ {fuel cs rest}, text.toList.length ≤ fuel → Ends cs → skipSpace cs = close :: rest →
    read (fuel + 1) (text.toList ++ cs) = some ([v], rest)
  more : ∀ {fuel cs rest vs after}, text.toList.length ≤ fuel → Ends cs →
    skipSpace cs = ',' :: rest → read fuel rest = some (vs, after) →
      read (fuel + 1) (text.toList ++ cs) = some (v :: vs, after)

/-- Parts with commas between them are read up to the bracket that closes them. -/
theorem read_joined {α β : Type} {read : Nat → List Char → Option (List β × List Char)}
    {close : Char} {text : α → String} {value : α → β}
    (hgap : ∀ fuel cs, read fuel (gap.toList ++ cs) = read fuel cs) (hlast : Spaces last)
    (hclose : close ∈ [',', ']', '\x7d']) (hspace : isSpace close = false) {parts : List α}
    (hparts : parts ≠ []) (h : ∀ part ∈ parts, ReadsPart read close (text part) (value part))
    {fuel : Nat} (hfuel : (joined ("," ++ gap) (parts.map text)).toList.length < fuel)
    (rest : List Char) :
    read fuel ((joined ("," ++ gap) (parts.map text)).toList ++ (last.toList ++ close :: rest)) =
      some (parts.map value, rest) := by
  induction parts generalizing fuel with
  | nil => exact absurd rfl hparts
  | cons part parts ih =>
      -- A part takes one from the fuel, and at least that much from the text.
      obtain ⟨fuel, rfl⟩ := Nat.exists_eq_succ_of_ne_zero (Nat.ne_of_gt (Nat.zero_lt_of_lt hfuel))
      have hpart := h part List.mem_cons_self
      cases parts with
      | nil =>
          rw [List.map_singleton, joined] at hfuel ⊢
          exact hpart.last (Nat.le_of_lt_succ hfuel) (.append hlast (ends_cons hclose rest))
            (by rw [skipSpace_append hlast, skipSpace_cons hspace])
      | cons other parts =>
          have hrest := @ih (List.cons_ne_nil _ _)
            (fun part hpart => h part (List.mem_cons_of_mem _ hpart)) fuel
          rw [List.map_cons] at hrest
          rw [List.map_cons, List.map_cons, toList_joined] at hfuel ⊢
          rw [List.length_append, List.length_cons, List.length_append] at hfuel
          rw [List.append_assoc, List.cons_append, List.append_assoc]
          refine hpart.more (by omega) (ends_cons List.mem_cons_self _)
            (skipSpace_cons (by decide) _) ?_
          rw [hgap]
          exact hrest (by omega)

theorem readsPart_item {text : String} {v : Json} (h : Reads text v) :
    ReadsPart readItems ']' text v where
  last hfuel hcs hrest := by
    rw [readItems, h _ _ hfuel hcs]
    simp only [Option.bind_eq_bind, Option.bind_some, hrest, Option.pure_def]
  more hfuel hcs hrest hmore := by
    rw [readItems, h _ _ hfuel hcs]
    simp only [Option.bind_eq_bind, Option.bind_some, hrest, hmore, Option.pure_def]

theorem toList_memberText (inner : String) (part : String × String × Json) :
    (memberText inner part).toList =
      '"' :: (part.1.toList.flatMap escapeChar ++
        '"' :: ':' :: (inner.toList ++ part.2.1.toList)) := by
  simp [memberText, String.toList_append, toList_quote]

theorem readsPart_member (hinner : Spaces inner) {part : String × String × Json}
    (h : Reads part.2.1 part.2.2) :
    ReadsPart readMembers '\x7d' (memberText inner part) (part.1, part.2.2) := by
  have htext (cs : List Char) : (memberText inner part).toList ++ cs =
      '"' :: (part.1.toList.flatMap escapeChar ++
        '"' :: ':' :: (inner.toList ++ (part.2.1.toList ++ cs))) := by
    simp [toList_memberText]
  have hvalue {fuel : Nat} {cs : List Char} (hfuel : (memberText inner part).toList.length ≤ fuel)
      (hcs : Ends cs) :
      readValue fuel (inner.toList ++ (part.2.1.toList ++ cs)) = some (part.2.2, cs) := by
    rw [toList_memberText] at hfuel
    simp only [List.length_cons, List.length_append] at hfuel
    rw [readValue_spaces hinner]
    exact h fuel cs (by omega) hcs
  have hcolon (cs : List Char) : skipSpace (':' :: cs) = ':' :: cs := skipSpace_cons (by decide) cs
  constructor
  · intro fuel cs rest hfuel hcs hrest
    rw [htext, readMembers, skipSpace_cons (by decide)]
    simp only [readText_flatMap, hcolon, hvalue hfuel hcs, hrest, Option.bind_eq_bind,
      Option.bind_some, Option.pure_def, String.ofList_toList]
  · intro fuel cs rest members after hfuel hcs hrest hmore
    rw [htext, readMembers, skipSpace_cons (by decide)]
    simp only [readText_flatMap, hcolon, hvalue hfuel hcs, hrest, hmore, Option.bind_eq_bind,
      Option.bind_some, Option.pure_def, String.ofList_toList]

/-- The first of the texts stands in front. -/
theorem exists_toList_joined (separator first : String) (others : List String) :
    ∃ more, (joined separator (first :: others)).toList = first.toList ++ more := by
  cases others with
  | nil => exact ⟨[], (List.append_nil _).symm⟩
  | cons second others =>
      rw [joined.eq_3 _ _ _ (List.cons_ne_nil _ _), String.toList_append, String.toList_append,
        List.append_assoc]
      exact ⟨_, rfl⟩

theorem reads_of_succ {text : String} {v : Json} {c : Char} {cs : List Char}
    (htext : text.toList = c :: cs)
    (h : ∀ fuel rest, cs.length ≤ fuel → Ends rest →
      readValue (fuel + 1) (c :: (cs ++ rest)) = some (v, rest)) : Reads text v := by
  intro fuel rest hfuel hrest
  rw [htext] at hfuel ⊢
  obtain ⟨fuel, rfl⟩ := Nat.exists_eq_succ_of_ne_zero
    (Nat.ne_of_gt (Nat.lt_of_lt_of_le (Nat.zero_lt_succ cs.length) hfuel))
  exact h fuel rest (Nat.le_of_succ_le_succ hfuel) hrest

theorem reads_nat (n : Nat) : Reads (toString n) (nat n) := by
  obtain ⟨d, ds, htext, hdigits, -⟩ := toList_toString n
  have hd := hdigits d List.mem_cons_self
  refine reads_of_succ htext fun fuel rest _ hrest => ?_
  have hnumber := readNumber_toString n hrest
  rw [htext] at hnumber
  rw [readValue, skipSpace_cons (isSpace_of_isDigit hd)]
  split
  · next h => cases (List.cons.inj h).1 ▸ hd
  · next h => cases (List.cons.inj h).1 ▸ hd
  · next h => cases (List.cons.inj h).1 ▸ hd
  · next h =>
      obtain ⟨rfl, rfl⟩ := List.cons.inj h
      rw [if_pos (by rw [hd, Bool.or_true])]
      exact hnumber
  · next h => cases h

theorem reads_string (s : String) : Reads (quote s) (string s) := by
  refine reads_of_succ (toList_quote s) fun fuel rest _ _ => ?_
  rw [List.append_assoc, List.singleton_append, readValue, skipSpace_cons (by decide)]
  simp only [readText_flatMap, Option.bind_eq_bind, Option.bind_some, String.ofList_toList]
  rfl

/-- A value between brackets. -/
theorem reads_enclosed {opening closing : String} (first final : Char)
    (hopening : opening.toList = [first]) (hclosing : closing.toList = [final]) {v : Json}
    (h : ∀ fuel rest, inner.toList.length < fuel →
      readValue (fuel + 1)
          (first :: (gap.toList ++ (inner.toList ++ (last.toList ++ final :: rest)))) =
        some (v, rest)) :
    Reads (opening ++ gap ++ inner ++ last ++ closing) v := by
  have htext : (opening ++ gap ++ inner ++ last ++ closing).toList =
      first :: (gap.toList ++ (inner.toList ++ (last.toList ++ [final]))) := by
    simp [String.toList_append, hopening, hclosing]
  refine reads_of_succ htext fun fuel rest hfuel _ => ?_
  simp only [List.length_append, List.length_cons] at hfuel
  have hread := h fuel rest (by omega)
  simpa using hread

/-- An array behind its opening bracket. -/
def arrayBehind (fuel : Nat) (cs : List Char) : Option (Json × List Char) :=
  match skipSpace cs with
  | ']' :: rest => some (array [], rest)
  | rest => do
      let (items, rest) ← readItems fuel rest
      return (array items, rest)

/-- An object behind its opening brace. -/
def objectBehind (fuel : Nat) (cs : List Char) : Option (Json × List Char) :=
  match skipSpace cs with
  | '\x7d' :: rest => some (object [], rest)
  | rest => do
      let (members, rest) ← readMembers fuel rest
      return (object members, rest)

theorem readValue_bracket (fuel : Nat) (cs : List Char) :
    readValue (fuel + 1) ('[' :: cs) = arrayBehind fuel cs := by
  rw [readValue, skipSpace_cons (by decide)]
  rfl

theorem readValue_brace (fuel : Nat) (cs : List Char) :
    readValue (fuel + 1) ('\x7b' :: cs) = objectBehind fuel cs := by
  rw [readValue, skipSpace_cons (by decide)]
  rfl

theorem reads_items (hgap : Spaces gap) (hlast : Spaces last) {parts : List (String × Json)}
    (hparts : parts ≠ []) (h : ∀ part ∈ parts, Writes part.1 part.2)
    (hread : ∀ part ∈ parts, Reads part.1 part.2) :
    Reads ("[" ++ gap ++ joined ("," ++ gap) (parts.map (·.1)) ++ last ++ "]")
      (array (parts.map (·.2))) := by
  refine reads_enclosed '[' ']' rfl rfl fun fuel rest hfuel => ?_
  have hitems := read_joined (readItems_spaces hgap) hlast (by decide) rfl hparts
    (fun part hpart => readsPart_item (hread part hpart)) hfuel rest
  obtain ⟨c, cs, htext, hspace, hbracket⟩ :
      ∃ c cs, (joined ("," ++ gap) (parts.map (·.1))).toList = c :: cs ∧ isSpace c = false ∧
        c ≠ ']' := by
    obtain ⟨part, others, rfl⟩ := List.exists_cons_of_ne_nil hparts
    obtain ⟨c, cs, htext, hc⟩ := (h part List.mem_cons_self).begins
    obtain ⟨more, hmore⟩ := exists_toList_joined ("," ++ gap) part.1 (others.map (·.1))
    exact ⟨c, cs ++ more, hmore.trans (by rw [htext]; rfl), hc⟩
  rw [htext, List.cons_append] at hitems
  rw [htext, List.cons_append, readValue_bracket, arrayBehind, skipSpace_append hgap,
    skipSpace_cons hspace]
  split
  · next hclose => exact absurd (List.cons.inj hclose).1 hbracket
  · rw [hitems]
    rfl

theorem reads_members (hgap : Spaces gap) (hlast : Spaces last) (hinner : Spaces inner)
    {parts : List (String × String × Json)} (hparts : parts ≠ [])
    (hread : ∀ part ∈ parts, Reads part.2.1 part.2.2) :
    Reads ("\x7b" ++ gap ++ joined ("," ++ gap) (parts.map (memberText inner)) ++ last ++ "\x7d")
      (object (parts.map fun part => (part.1, part.2.2))) := by
  refine reads_enclosed '\x7b' '\x7d' rfl rfl fun fuel rest hfuel => ?_
  have hmembers := read_joined (readMembers_spaces hgap) hlast (by decide) rfl hparts
    (fun part hpart => readsPart_member hinner (hread part hpart)) hfuel rest
  obtain ⟨cs, htext⟩ :
      ∃ cs, (joined ("," ++ gap) (parts.map (memberText inner))).toList = '"' :: cs := by
    obtain ⟨part, others, rfl⟩ := List.exists_cons_of_ne_nil hparts
    obtain ⟨more, hmore⟩ :=
      exists_toList_joined ("," ++ gap) (memberText inner part) (others.map (memberText inner))
    rw [toList_memberText] at hmore
    exact ⟨_, hmore⟩
  rw [htext, List.cons_append] at hmembers
  rw [htext, List.cons_append, readValue_brace, objectBehind, skipSpace_append hgap,
    skipSpace_cons (by decide)]
  show (readMembers fuel _ >>= _) = _
  rw [hmembers]
  rfl

end Parts

/-- A written value is read from its text. -/
theorem Writes.reads {text : String} {v : Json} (h : Writes text v) : Reads text v := by
  induction h with
  | null => exact reads_of_succ rfl fun fuel rest _ _ => by rw [readValue]; rfl
  | bool b => cases b <;> exact reads_of_succ rfl fun fuel rest _ _ => by rw [readValue]; rfl
  | nat n => exact reads_nat n
  | string s => exact reads_string s
  | noItems => exact reads_of_succ rfl fun fuel rest _ _ => by rw [readValue]; rfl
  | items hgap hlast hparts h ih => exact reads_items hgap hlast hparts h ih
  | noMembers => exact reads_of_succ rfl fun fuel rest _ _ => by rw [readValue]; rfl
  | members hgap hlast hinner hparts _ ih => exact reads_members hgap hlast hinner hparts ih

/-- The whole text is read, also with white space around it. -/
theorem Writes.parse?_eq {text : String} {v : Json} (h : Writes text v) {before after : String}
    (hbefore : Spaces before) (hafter : Spaces after) :
    parse? (before ++ text ++ after) = some v := by
  have htext : (before ++ text ++ after).toList =
      before.toList ++ (text.toList ++ (after.toList ++ [])) := by
    simp [String.toList_append]
  have hend : Ends (after.toList ++ []) := .append hafter fun c hc => by cases hc
  have hread : readValue (2 * (before ++ text ++ after).toList.length + 2)
      (before ++ text ++ after).toList = some (v, after.toList ++ []) := by
    rw [htext, readValue_spaces hbefore]
    refine h.reads _ _ ?_ hend
    simp only [List.length_append]
    omega
  unfold parse?
  simp only [hread, skipSpace_append hafter]
  rfl

/-! ## The printers -/

/-- The numbers in the value are natural numbers. -/
inductive Exact : Json → Prop
  | null : Exact null
  | bool (b : Bool) : Exact (bool b)
  | nat (n : Nat) : Exact (nat n)
  | string (s : String) : Exact (string s)
  | array {items : List Json} (h : ∀ v ∈ items, Exact v) : Exact (array items)
  | object {members : List (String × Json)} (h : ∀ member ∈ members, Exact member.2) :
      Exact (object members)

theorem compactItems_eq (items : List Json) : compactItems items = items.map compact := by
  induction items with
  | nil => rfl
  | cons v items ih => rw [compactItems, ih, List.map_cons]

theorem compactMembers_eq (members : List (String × Json)) :
    compactMembers members =
      members.map fun member => quote member.1 ++ ":" ++ compact member.2 := by
  induction members with
  | nil => rfl
  | cons member members ih =>
      obtain ⟨name, v⟩ := member
      rw [compactMembers, ih, List.map_cons]

theorem prettyItems_eq (level : Nat) (items : List Json) :
    prettyItems level items = items.map (prettyAt level) := by
  induction items with
  | nil => rfl
  | cons v items ih => rw [prettyItems, ih, List.map_cons]

theorem prettyMembers_eq (level : Nat) (members : List (String × Json)) :
    prettyMembers level members =
      members.map fun member => quote member.1 ++ ": " ++ prettyAt level member.2 := by
  induction members with
  | nil => rfl
  | cons member members ih =>
      obtain ⟨name, v⟩ := member
      rw [prettyMembers, ih, List.map_cons]

section Layout

variable {gap last inner : String} {print : Json → String}

/-- The printed items of an array. -/
theorem writes_array (hgap : Spaces gap) (hlast : Spaces last) {items : List Json}
    (hitems : items ≠ []) (h : ∀ v ∈ items, Writes (print v) v) :
    Writes ("[" ++ gap ++ joined ("," ++ gap) (items.map print) ++ last ++ "]") (array items) := by
  have hparts : ∀ part ∈ items.map fun v => (print v, v), Writes part.1 part.2 :=
    List.forall_mem_map.mpr h
  have hwrites := Writes.items hgap hlast (by simpa using hitems) hparts
  rw [List.map_map, List.map_map] at hwrites
  have hsame : items.map ((·.2) ∘ fun v => (print v, v)) = items := List.map_id' items
  rwa [hsame] at hwrites

/-- The printed members of an object. -/
theorem writes_object (hgap : Spaces gap) (hlast : Spaces last) (hinner : Spaces inner)
    {members : List (String × Json)} (hmembers : members ≠ [])
    (h : ∀ member ∈ members, Writes (print member.2) member.2) :
    Writes ("\x7b" ++ gap ++ joined ("," ++ gap)
          (members.map fun member => quote member.1 ++ ":" ++ inner ++ print member.2) ++
        last ++ "\x7d") (object members) := by
  have hparts : ∀ part ∈ members.map fun member => (member.1, print member.2, member.2),
      Writes part.2.1 part.2.2 := List.forall_mem_map.mpr h
  have hwrites := Writes.members hgap hlast hinner (by simpa using hmembers) hparts
  rw [List.map_map, List.map_map] at hwrites
  have hsame : members.map ((fun part => (part.1, part.2.2)) ∘
      fun member => (member.1, print member.2, member.2)) = members := List.map_id' members
  rwa [hsame] at hwrites

end Layout

theorem spaces_empty : Spaces "" := fun c hc => by cases hc

theorem spaces_lineBreak (level : Nat) : Spaces (lineBreak level) := by
  intro c hc
  rw [lineBreak, String.toList_append] at hc
  rcases List.mem_append.mp hc with hc | hc
  · rw [List.mem_singleton.mp hc]
    rfl
  · rw [String.toList_ofList] at hc
    rw [List.eq_of_mem_replicate hc]
    rfl

theorem Exact.writes_compact {v : Json} (h : Exact v) : Writes (compact v) v := by
  induction h with
  | null => exact .null
  | bool b => exact .bool b
  | nat n => exact .nat n
  | string s => exact .string s
  | @array items _ ih =>
      rw [compact, compactItems_eq]
      cases items with
      | nil => exact .noItems
      | cons v items =>
          have hwrites := writes_array spaces_empty spaces_empty (List.cons_ne_nil v items) ih
          simpa using hwrites
  | @object members _ ih =>
      rw [compact, compactMembers_eq]
      cases members with
      | nil => exact .noMembers
      | cons member members =>
          have hwrites := writes_object spaces_empty spaces_empty spaces_empty
            (List.cons_ne_nil member members) ih
          simpa using hwrites

theorem Exact.writes_prettyAt {v : Json} (h : Exact v) (level : Nat) :
    Writes (prettyAt level v) v := by
  induction h generalizing level with
  | null => exact .null
  | bool b => exact .bool b
  | nat n => exact .nat n
  | string s => exact .string s
  | @array items _ ih =>
      rw [prettyAt, prettyItems_eq]
      cases items with
      | nil => exact .noItems
      | cons v items =>
          exact writes_array (spaces_lineBreak (level + 1)) (spaces_lineBreak level)
            (List.cons_ne_nil v items) fun v hv => ih v hv (level + 1)
  | @object members _ ih =>
      rw [prettyAt, prettyMembers_eq]
      cases members with
      | nil => exact .noMembers
      | cons member members =>
          have hblank : Spaces " " := fun c hc => by
            rw [List.mem_singleton.mp hc]
            rfl
          have hwrites := writes_object (spaces_lineBreak (level + 1)) (spaces_lineBreak level)
            hblank (List.cons_ne_nil member members) fun member hm => ih member hm (level + 1)
          have hcolon (name : String) : quote name ++ ":" ++ " " = quote name ++ ": " :=
            String.append_assoc
          simp only [hcolon] at hwrites
          exact hwrites

/-- A printed value is read back. -/
theorem Exact.parse?_compact {v : Json} (h : Exact v) : parse? (compact v) = some v := by
  have hread := h.writes_compact.parse?_eq spaces_empty spaces_empty
  rwa [String.empty_append, String.append_empty] at hread

theorem Exact.parse?_pretty {v : Json} (h : Exact v) : parse? (pretty v) = some v := by
  have hread := (h.writes_prettyAt 0).parse?_eq spaces_empty spaces_empty
  rwa [String.empty_append, String.append_empty] at hread

end TypedSql.Json

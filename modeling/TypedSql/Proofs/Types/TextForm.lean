import TypedSql.Proofs.Json.RoundTrip
import TypedSql.Proofs.Text.Case
import TypedSql.Types.Affinity

/-!
# Types as texts

Generators get types as texts.  The text of a type names the type, also in other letters and between
blanks, so that no two types have one text, and what is known of a value is read back from the JSON
that it is printed as.

Main statement: `ValueType.parse_display`.
-/

namespace TypedSql

open Text

/-! ## Blanks around a text -/

/-- Without the blanks around it a text is itself, where it has none. -/
theorem Text.trim_append {before text after : List Char} (hbefore : ∀ c ∈ before, isBlank c = true)
    (htext : ∀ c ∈ text, isBlank c = false) (hafter : ∀ c ∈ after, isBlank c = true) :
    trim (before ++ text ++ after) = text := by
  have hstart : trimStart (before ++ text ++ after) = trimStart (text ++ after) := by
    rw [List.append_assoc]
    exact List.dropWhile_append_of_pos hbefore
  -- The end is trimmed as the start of the reversed text.
  have hend {cs : List Char} (hcs : ∀ c ∈ cs, isBlank c = false) :
      (after.reverse ++ cs).dropWhile isBlank = cs := by
    rw [List.dropWhile_append_of_pos fun c hc => hafter c (List.mem_reverse.mp hc)]
    cases cs with
    | nil => rfl
    | cons c cs => exact List.dropWhile_cons_of_neg (by simp [hcs c List.mem_cons_self])
  rw [trim, hstart]
  cases text with
  | nil =>
      have hnone : trimStart (after ++ []) = [] := List.dropWhile_append_of_pos hafter
      rw [List.append_nil] at hnone
      rw [List.nil_append, hnone]
      rfl
  | cons c cs =>
      have hkept : trimStart (c :: cs ++ after) = c :: cs ++ after :=
        List.dropWhile_cons_of_neg (by simp [htext c List.mem_cons_self])
      rw [hkept, trimEnd, trimEndWhile, List.reverse_append,
        hend fun d hd => htext d (List.mem_reverse.mp hd), List.reverse_reverse]

namespace ValueType

/-! ## Reading what is written -/

/-- The text of a type has no blanks and no capital letters. -/
theorem all_display (t : ValueType) :
    t.display.toList.all (fun c => !isBlank c && c.toLower == c) = true := by
  induction t with
  | int64 | float64 | string | bytes | bool => decide +kernel
  | list item ih =>
      rw [display, String.toList_append, String.toList_append, List.all_append, List.all_append, ih]
      decide +kernel

theorem of_mem_display {t : ValueType} {c : Char} (h : c ∈ t.display.toList) :
    isBlank c = false ∧ c.toLower = c := by
  have hc := List.all_eq_true.mp t.all_display c h
  rw [Bool.and_eq_true, Bool.not_eq_true', beq_iff_eq] at hc
  exact hc

theorem map_toLower_display (t : ValueType) :
    t.display.toList.map Char.toLower = t.display.toList :=
  (List.map_congr_left fun _ hc => (of_mem_display hc).2).trans (List.map_id' _)

/-- Where nothing but letter case and blanks tells a text from that of a type, it names the type. -/
theorem parseChars_of_lower {t : ValueType} {text : List Char}
    (h : (trim text).map Char.toLower = t.display.toList) :
    (parseChars text).toOption = some t := by
  induction t generalizing text with
  | int64 | float64 | string | bytes | bool =>
      rw [toOption_parseChars, h]
      decide +kernel
  | list item ih =>
      have hitem : itemText? (list item).display.toList = some item.display.toList := by
        have htext : (list item).display.toList =
            'l' :: 'i' :: 's' :: 't' :: '<' :: (item.display.toList ++ ['>']) := by
          simp [display]
        rw [htext, itemText?, List.getLast?_concat, if_pos rfl, List.dropLast_concat]
      have hinner : (trim item.display.toList).map Char.toLower = item.display.toList := by
        have hnone : ∀ c ∈ ([] : List Char), isBlank c = true := fun _ hc =>
          absurd hc List.not_mem_nil
        have hblank : ∀ c ∈ item.display.toList, isBlank c = false := fun _ hc =>
          (of_mem_display hc).1
        have htrim := trim_append hnone hblank hnone
        rw [List.nil_append, List.append_nil] at htrim
        rw [htrim, map_toLower_display]
      rw [toOption_parseChars, h, hitem]
      show (parseChars item.display.toList).toOption.map list = _
      rw [ih hinner]
      rfl

/-- The text of a type, in any letters and between blanks, names the type. -/
theorem parse?_of_lower {t : ValueType} {name : String} {before after : List Char}
    (hname : lowerCase name = t.display) (hbefore : ∀ c ∈ before, isBlank c = true)
    (hafter : ∀ c ∈ after, isBlank c = true) :
    parse? (String.ofList (before ++ name.toList ++ after)) = some t := by
  have hlower : name.toList.map Char.toLower = t.display.toList := by
    rw [← hname, toList_lowerCase]
  have hblank : ∀ c ∈ name.toList, isBlank c = false := fun c hc => by
    rw [← isBlank_toLower]
    exact (of_mem_display (hlower ▸ List.mem_map_of_mem hc)).1
  rw [parse?, toOption_parse, String.toList_ofList]
  exact parseChars_of_lower (by rw [trim_append hbefore hblank hafter, hlower])

theorem parse?_display (t : ValueType) : parse? t.display = some t := by
  have hname : lowerCase t.display = t.display := by
    rw [lowerCase, map_toLower_display, String.ofList_toList]
  have hnone : ∀ c ∈ ([] : List Char), isBlank c = true := fun _ hc =>
    absurd hc List.not_mem_nil
  have hparse := parse?_of_lower hname hnone hnone
  rwa [List.nil_append, List.append_nil, String.ofList_toList] at hparse

theorem display_injective : Function.Injective display := by
  intro s t h
  have hs := s.parse?_display
  rw [h, t.parse?_display] at hs
  exact (Option.some.inj hs).symm

end ValueType

/-! ## What is known of a value -/

namespace TypeInfo

theorem exact_toJson (info : TypeInfo) : info.toJson.Exact := by
  refine .object fun member hmember => ?_
  cases info with
  | unresolved =>
      rw [List.mem_singleton.mp hmember]
      exact .string _
  | resolved t nullable =>
      simp only [jsonMembers, List.mem_cons, List.not_mem_nil, or_false] at hmember
      obtain rfl | rfl | rfl := hmember
      · exact .string _
      · exact .string _
      · exact .bool _

theorem ofJson?_toJson (info : TypeInfo) : ofJson? info.toJson = some info := by
  cases info with
  | unresolved => rfl
  | resolved t nullable =>
      show resolvedOfJson? (.string t.display) (.bool nullable) = _
      rw [resolvedOfJson?]
      show (ValueType.parse? t.display >>= fun t => some (resolved t nullable)) = _
      rw [t.parse?_display]
      rfl

end TypeInfo

/-- Types survive their text form.  The text of a type, in any letters and with blanks around it,
names the type, in an annotation and in a cast too; different types have different texts; and what
is known of a value is read back from its JSON, as a value and as a text in either layout. -/
theorem ValueType.parse_display :
    (∀ (t : ValueType) (name : String) (before after : List Char), lowerCase name = t.display →
      (∀ c ∈ before, isBlank c = true) → (∀ c ∈ after, isBlank c = true) →
      parse (String.ofList (before ++ name.toList ++ after)) = .ok t ∧
        Affinity.named? (String.ofList (before ++ name.toList ++ after)) = some t) ∧
    Function.Injective display ∧
    ∀ info : TypeInfo, TypeInfo.ofJson? info.toJson = some info ∧
      (Json.parse? info.toJson.compact).bind TypeInfo.ofJson? = some info ∧
      (Json.parse? info.toJson.pretty).bind TypeInfo.ofJson? = some info := by
  refine ⟨fun t name before after hname hbefore hafter => ?_, display_injective, fun info => ?_⟩
  · have hparse := parse?_of_lower hname hbefore hafter
    refine ⟨?_, by rw [Affinity.named?, hparse, Option.some_or]⟩
    rw [parse?] at hparse
    generalize parse (String.ofList (before ++ name.toList ++ after)) = result at hparse ⊢
    cases result with
    | error text => cases hparse
    | ok found =>
        cases hparse
        rfl
  · rw [info.exact_toJson.parse?_compact, info.exact_toJson.parse?_pretty]
    exact ⟨info.ofJson?_toJson, info.ofJson?_toJson, info.ofJson?_toJson⟩

/-- A list of lists in mixed letters, with a wide blank in front and a line break behind. -/
theorem ValueType.parse_display_of_nested :
    parse "\u3000LIST<List<Int64>>\n" = .ok (.list (.list .int64)) ∧
      Affinity.named? "\u3000LIST<List<Int64>>\n" = some (.list (.list .int64)) :=
  ValueType.parse_display.1 (.list (.list .int64)) "LIST<List<Int64>>" ['\u3000'] ['\n']
    (by decide +kernel) (List.forall_mem_singleton.mpr (by decide +kernel))
    (List.forall_mem_singleton.mpr (by decide +kernel))

end TypedSql

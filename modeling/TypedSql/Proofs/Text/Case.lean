import TypedSql.Types.Affinity

/-!
# Letter case in the names of types

Names of types are read without regard to the case of ASCII letters.

Main statement: `Affinity.named?_of_lower_eq`.
-/

namespace TypedSql

namespace Text

/-- ASCII characters from A on are no blanks. -/
theorem isBlank_of_ge {c : Char} (h : 65 ≤ c.toNat) (h' : c.toNat < 128) : isBlank c = false := by
  have hspace : c ≠ ' ' := by
    rintro rfl
    exact absurd h (by decide)
  have hascii : isAscii c = true := decide_eq_true h'
  unfold isBlank
  rw [if_pos hascii, beq_eq_false_iff_ne.mpr hspace, decide_eq_false (by omega : ¬ c.toNat ≤ 13)]
  simp

theorem isBlank_toLower (c : Char) : isBlank c.toLower = isBlank c := by
  by_cases h : c.val ≥ 'A'.val ∧ c.val ≤ 'Z'.val
  · have h1 : 65 ≤ c.toNat := UInt32.le_iff_toNat_le.mp h.1
    have h2 : c.toNat ≤ 90 := UInt32.le_iff_toNat_le.mp h.2
    have hlower : c.toLower.toNat = c.toNat + 32 := by
      have hval : c.toLower.val = c.val + ('a'.val - 'A'.val) := by
        delta Char.toLower
        rw [dif_pos h]
      have hnat := congrArg UInt32.toNat hval
      have hc : c.val.toNat = c.toNat := rfl
      rw [UInt32.toNat_add, hc] at hnat
      change c.toLower.val.toNat = _
      rw [hnat]
      change (c.toNat + 32) % 4294967296 = c.toNat + 32
      omega
    rw [isBlank_of_ge h1 (by omega), isBlank_of_ge (by omega) (by omega)]
  · have hsame : c.toLower = c := by
      delta Char.toLower
      rw [dif_neg h]
    rw [hsame]

theorem trimStart_map_toLower (cs : List Char) :
    trimStart (cs.map Char.toLower) = (trimStart cs).map Char.toLower := by
  unfold trimStart
  rw [List.dropWhile_map]
  congr 2
  exact funext isBlank_toLower

theorem trim_map_toLower (cs : List Char) :
    trim (cs.map Char.toLower) = (trim cs).map Char.toLower := by
  unfold trim trimEnd trimEndWhile
  rw [trimStart_map_toLower, ← List.map_reverse, List.dropWhile_map, ← List.map_reverse]
  congr 3
  exact funext isBlank_toLower

end Text

open Text

/-- A list of what the inner text names, or what the whole text names. -/
theorem ValueType.toOption_parseChars (text : List Char) :
    (parseChars text).toOption =
      match itemText? ((trim text).map Char.toLower) with
      | some inner => (parseChars inner).toOption.map list
      | none => names.lookup (String.ofList ((trim text).map Char.toLower)) := by
  rw [parseChars]
  split
  · next inner h =>
      rw [h]
      dsimp only
      cases parseChars inner <;> rfl
  · next h =>
      rw [h]
      split
      · next t ht => rw [ht]; rfl
      · next ht => rw [ht]; rfl

theorem ValueType.toOption_parse (text : String) :
    (parse text).toOption = (parseChars text.toList).toOption := by
  unfold parse
  split
  · next h => rw [h]; rfl
  · next h => rw [h]; rfl

/-- Texts that differ in the case of letters name the same type. -/
theorem ValueType.parse?_of_lower_eq {a b : String} (h : lowerCase a = lowerCase b) :
    parse? a = parse? b := by
  have hlower : (trim a.toList).map Char.toLower = (trim b.toList).map Char.toLower := by
    have hchars := congrArg String.toList h
    rw [toList_lowerCase, toList_lowerCase] at hchars
    rw [← trim_map_toLower, hchars, trim_map_toLower]
  unfold parse?
  rw [toOption_parse, toOption_parse, toOption_parseChars, toOption_parseChars b.toList, hlower]

theorem Affinity.named?_of_lower_eq {a b : String} (h : lowerCase a = lowerCase b) :
    named? a = named? b := by
  unfold named? resolve? mentionsAny
  rw [ValueType.parse?_of_lower_eq h, h]

end TypedSql

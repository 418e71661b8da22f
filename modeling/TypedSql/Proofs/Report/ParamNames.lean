import Mathlib
import TypedSql.Proofs.Report.ParamTokens

/-!
# The names of parameters

A parameter brings a base name, and a base name that comes again gets its number behind it.  Two
base names that come for the first time differ, and so do two numbered names, as the digits behind
the last underscore can be read back.  Nothing keeps a numbered name from being the base name of
another parameter, so the names of a statement are distinct exactly where that does not happen.

Main definitions: `firstNames`, `repeatNames`.  Main statements: `numberedNames_perm`,
`Analyzer.nodup_paramNames_iff`.
-/

namespace TypedSql

open Diagnostic Query Text Token

/-! ## Numbers behind names -/

theorem lowerCase_append (a b : String) : lowerCase (a ++ b) = lowerCase a ++ lowerCase b := by
  apply String.toList_inj.mp
  rw [toList_lowerCase, String.toList_append, List.map_append, String.toList_append,
    toList_lowerCase, toList_lowerCase]

theorem isDigit_of_mem_toString {n : Nat} {c : Char} (h : c ∈ (toString n).toList) :
    c.isDigit = true := by
  have hc : c ∈ Nat.toDigits 10 n := by
    rwa [← String.toList_ofList (l := Nat.toDigits 10 n)]
  exact Nat.isDigit_of_mem_toDigits (by decide) (by decide) hc

theorem toLower_of_isDigit {c : Char} (h : c.isDigit = true) : c.toLower = c := by
  have hle : c.val ≤ 57 := by
    simp only [Char.isDigit, Bool.and_eq_true, decide_eq_true_eq] at h
    exact h.2
  delta Char.toLower
  rw [dif_neg]
  intro hupper
  have h65 : (65 : UInt32) ≤ c.val := hupper.1
  have := UInt32.le_iff_toNat_le.mp hle
  have := UInt32.le_iff_toNat_le.mp h65
  simp at *
  omega

theorem lowerCase_toString (n : Nat) : lowerCase (toString n) = toString n := by
  apply String.toList_inj.mp
  rw [toList_lowerCase]
  exact (List.map_congr_left fun c hc => toLower_of_isDigit (isDigit_of_mem_toString hc)).trans
    (List.map_id' _)

/-- Only the digits stand behind the last underscore of a numbered name. -/
theorem takeWhile_numbered (name : String) (n : Nat) :
    (name ++ "_" ++ toString n).toList.reverse.takeWhile (· != '_') =
      (toString n).toList.reverse := by
  have hdigits : ∀ c ∈ (toString n).toList.reverse, (c != '_') = true := by
    intro c hc
    have hdigit := isDigit_of_mem_toString (List.mem_reverse.mp hc)
    rw [bne_iff_ne]
    rintro rfl
    exact absurd hdigit (by decide)
  rw [String.toList_append, String.toList_append, List.reverse_append, List.reverse_append,
    List.takeWhile_append_of_pos hdigits]
  exact List.append_nil _

/-- A numbered name can be read back. -/
theorem numbered_injective {a b : String} {n m : Nat}
    (h : a ++ "_" ++ toString n = b ++ "_" ++ toString m) : a = b ∧ n = m := by
  have hdigits := congrArg (fun s : String => s.toList.reverse.takeWhile (· != '_')) h
  rw [takeWhile_numbered, takeWhile_numbered, List.reverse_inj, String.toList_inj] at hdigits
  rw [hdigits, String.append_left_inj, String.append_left_inj] at h
  exact ⟨h, Nat.repr_inj.mp hdigits⟩

theorem lowerCase_numbered (name : String) (n : Nat) :
    lowerCase (name ++ "_" ++ toString n) = lowerCase name ++ "_" ++ toString n := by
  rw [lowerCase_append, lowerCase_append, lowerCase_toString]
  rfl

/-! ## Names in order -/

/-- The base names that come for the first time. -/
def firstNames (used : List String) : List String → List String
  | [] => []
  | base :: rest =>
      if lowerCase base ∈ used then firstNames (lowerCase base :: used) rest
      else base :: firstNames (lowerCase base :: used) rest

/-- The names with a number, which the base names that come again get. -/
def repeatNames (used : List String) : List String → List String
  | [] => []
  | base :: rest =>
      if lowerCase base ∈ used then
        numberedName used base :: repeatNames (lowerCase base :: used) rest
      else repeatNames (lowerCase base :: used) rest

section Names

variable {used bases : List String} {base name : String}

theorem numberedName_of_notMem (h : lowerCase base ∉ used) : numberedName used base = base := by
  unfold numberedName
  exact if_pos (List.count_eq_zero.mpr h)

theorem numberedName_of_mem (h : lowerCase base ∈ used) :
    numberedName used base =
      base ++ "_" ++ toString (used.count (lowerCase base) + 1) := by
  unfold numberedName
  exact if_neg fun hzero => List.count_eq_zero.mp hzero h

/-- Every name is one that comes for the first time or one with a number. -/
theorem numberedNames_perm (used bases : List String) :
    (numberedNames used bases).Perm (firstNames used bases ++ repeatNames used bases) := by
  induction bases generalizing used with
  | nil => exact .refl _
  | cons base rest ih =>
      rw [numberedNames, firstNames, repeatNames]
      by_cases h : lowerCase base ∈ used
      · rw [if_pos h, if_pos h]
        exact ((ih _).cons _).trans List.perm_middle.symm
      · rw [if_neg h, if_neg h, numberedName_of_notMem h]
        exact (ih _).cons _

/-- The first names are the base names that were not used before. -/
theorem mem_lowerCase_firstNames :
    name ∈ (firstNames used bases).map lowerCase ↔ name ∈ bases.map lowerCase ∧ name ∉ used := by
  induction bases generalizing used with
  | nil => simp [firstNames]
  | cons base rest ih =>
      rw [firstNames]
      split
      · next h =>
          rw [ih, List.map_cons, List.mem_cons, List.mem_cons]
          constructor
          · rintro ⟨hrest, hused⟩
            exact ⟨.inr hrest, fun h => hused (.inr h)⟩
          · rintro ⟨rfl | hrest, hused⟩
            · exact absurd h hused
            · refine ⟨hrest, ?_⟩
              rintro (rfl | hmem)
              · exact hused h
              · exact hused hmem
      · next h =>
          rw [List.map_cons, List.mem_cons, ih, List.map_cons, List.mem_cons, List.mem_cons]
          constructor
          · rintro (rfl | ⟨hrest, hused⟩)
            · exact ⟨.inl rfl, h⟩
            · exact ⟨.inr hrest, fun h => hused (.inr h)⟩
          · rintro ⟨rfl | hrest, hused⟩
            · exact .inl rfl
            · by_cases hname : name = lowerCase base
              · exact .inl hname
              · exact .inr ⟨hrest, fun h => h.elim hname hused⟩

theorem nodup_firstNames (used bases : List String) :
    ((firstNames used bases).map lowerCase).Nodup := by
  induction bases generalizing used with
  | nil => exact .nil
  | cons base rest ih =>
      rw [firstNames]
      split
      · exact ih _
      · refine List.nodup_cons.mpr ⟨fun hmem => ?_, ih _⟩
        exact (mem_lowerCase_firstNames.mp hmem).2 List.mem_cons_self

/-- A repeat has a number greater than the number of times that its base name came before. -/
theorem exists_of_mem_repeatNames (h : name ∈ repeatNames used bases) :
    ∃ base n, name = base ++ "_" ++ toString (n + 1) ∧ used.count (lowerCase base) ≤ n := by
  induction bases generalizing used with
  | nil => cases h
  | cons base rest ih =>
      have hrest : name ∈ repeatNames (lowerCase base :: used) rest →
          ∃ base n, name = base ++ "_" ++ toString (n + 1) ∧ used.count (lowerCase base) ≤ n := by
        intro hmem
        obtain ⟨b, n, hname, hn⟩ := ih hmem
        exact ⟨b, n, hname, Nat.le_trans List.count_le_count_cons hn⟩
      rw [repeatNames] at h
      split at h
      · next hused =>
          rcases List.mem_cons.mp h with rfl | hmem
          · exact ⟨base, _, numberedName_of_mem hused, Nat.le_refl _⟩
          · exact hrest hmem
      · exact hrest h

theorem nodup_repeatNames (used bases : List String) :
    ((repeatNames used bases).map lowerCase).Nodup := by
  induction bases generalizing used with
  | nil => exact .nil
  | cons base rest ih =>
      rw [repeatNames]
      split
      · next hused =>
          refine List.nodup_cons.mpr ⟨fun hmem => ?_, ih _⟩
          obtain ⟨other, hother, hsame⟩ := List.mem_map.mp hmem
          obtain ⟨b, n, rfl, hn⟩ := exists_of_mem_repeatNames hother
          rw [numberedName_of_mem hused, lowerCase_numbered, lowerCase_numbered] at hsame
          obtain ⟨hbase, hnumber⟩ := numbered_injective hsame
          -- The later repeat of the same name has counted this one.
          rw [hbase, List.count_cons_self] at hn
          omega
      · exact ih _

/-- The names differ, up to case, where no numbered name is the base name of a parameter. -/
theorem nodup_numberedNames_iff (bases : List String) :
    ((numberedNames [] bases).map lowerCase).Nodup ↔
      ∀ name ∈ repeatNames [] bases, ∀ base ∈ bases, lowerCase name ≠ lowerCase base := by
  rw [((numberedNames_perm [] bases).map lowerCase).nodup_iff, List.map_append,
    List.nodup_append]
  constructor
  · rintro ⟨-, -, hdisjoint⟩ name hname base hbase hsame
    have hfirst : lowerCase base ∈ (firstNames [] bases).map lowerCase :=
      mem_lowerCase_firstNames.mpr ⟨List.mem_map_of_mem hbase, List.not_mem_nil⟩
    exact hdisjoint _ hfirst _ (List.mem_map_of_mem hname) hsame.symm
  · intro h
    refine ⟨nodup_firstNames _ _, nodup_repeatNames _ _, fun first hfirst other hother hsame => ?_⟩
    obtain ⟨base, hbase, rfl⟩ := List.mem_map.mp (mem_lowerCase_firstNames.mp hfirst).1
    obtain ⟨name, hname, rfl⟩ := List.mem_map.mp hother
    exact h name hname base hbase hsame.symm

end Names

namespace Analyzer

/-- The parameters are the base names in order, with numbers behind those that come again. -/
theorem paramNames_eq (a : Analyzer) (b : Block) :
    (a.analyze b).params.map (·.name) = numberedNames [] (a.baseNames b) := by
  unfold analyze baseNames
  cases tokenizeAt b.sql b.position with
  | error e => rfl
  | ok tokens =>
      show (a.resolve b tokens).value.2.map (·.name) = _
      rw [params_resolve]
      exact names_finishFrom _ _ _ _ _

/-- The names of the parameters of a block differ, up to case, exactly where no name that a repeat
gets is one that a parameter brings. -/
theorem nodup_paramNames_iff (a : Analyzer) (b : Block) :
    ((a.analyze b).params.map fun p => lowerCase p.name).Nodup ↔
      ∀ name ∈ repeatNames [] (a.baseNames b), ∀ base ∈ a.baseNames b,
        lowerCase name ≠ lowerCase base := by
  have hnames : ((a.analyze b).params.map fun p => lowerCase p.name) =
      (numberedNames [] (a.baseNames b)).map lowerCase := by
    rw [← paramNames_eq, List.map_map]
    rfl
  rw [hnames, nodup_numberedNames_iff]

/-- A statement whose third parameter brings the name that the second one gets. -/
def clashing : Block := .plain "SELECT id FROM users WHERE id = ? AND id = ? AND id = :id_2"

/-- Two parameters of the statement have the same name. -/
theorem paramNames_of_clashing :
    (ofUsers.analyze clashing).params.map (·.name) = ["id", "id_2", "id_2"] ∧
      ¬ ((ofUsers.analyze clashing).params.map fun p => lowerCase p.name).Nodup := by
  have hnames : (ofUsers.analyze clashing).params.map (·.name) = ["id", "id_2", "id_2"] := by
    rw [clashing, analyze_plain_ofList]
    decide +kernel
  have hlower := congrArg (List.map lowerCase) hnames
  rw [List.map_map] at hlower
  exact ⟨hnames, fun h => absurd (hlower ▸ h) (by decide)⟩

end Analyzer

end TypedSql

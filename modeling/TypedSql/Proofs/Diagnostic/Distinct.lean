import Mathlib.Data.List.Nodup
import TypedSql.Diagnostic.Collector

/-!
# Collected diagnostics

A collector stamps what it is given and keeps each issue once.  What is reported in two lists is
reported twice in one of them if the lists speak of different places.

Main definitions: `Issue.spot`, `Repeats`.  Main statements: `mem_distinct`, `exists_mem_distinct`,
`nodup_issue_distinct`, `errors_distinct_of_asides`, `repeats_append_iff`.
-/

namespace TypedSql

namespace Diagnostic

/-! ## The diagnostics that are kept -/

theorem position_stamp (path : String) (d : Diagnostic) : (d.stamp path).position = d.position := by
  unfold stamp
  split <;> rfl

theorem isError_stamp (path : String) (d : Diagnostic) : (d.stamp path).isError = d.isError := by
  unfold stamp
  split <;> rfl

theorem message_stamp (path : String) (d : Diagnostic) : (d.stamp path).message = d.message := by
  unfold stamp
  split <;> rfl

namespace Collector

variable {c : Collector} {d e : Diagnostic} {ds : List Diagnostic}

/-- The issue of what is pushed is there in any case. -/
theorem push_cases (c : Collector) (e : Diagnostic) :
    (c.knows e = true ∧ c.push e = c) ∨
      (c.knows e = false ∧
        c.push e = { c with diagnostics := c.diagnostics ++ [e.stamp c.path] }) := by
  cases hknows : c.knows e with
  | true => exact .inl ⟨rfl, if_pos hknows⟩
  | false => exact .inr ⟨rfl, if_neg (Bool.eq_false_iff.mp hknows)⟩

theorem path_push (c : Collector) (e : Diagnostic) : (c.push e).path = c.path := by
  rcases c.push_cases e with ⟨-, h⟩ | ⟨-, h⟩ <;> rw [h]

theorem subset_push (h : d ∈ c.diagnostics) : d ∈ (c.push e).diagnostics := by
  rcases c.push_cases e with ⟨-, heq⟩ | ⟨-, heq⟩ <;> rw [heq]
  · exact h
  · exact List.mem_append_left _ h

theorem mem_push (h : d ∈ (c.push e).diagnostics) : d ∈ c.diagnostics ∨ d = e.stamp c.path := by
  rcases c.push_cases e with ⟨-, heq⟩ | ⟨-, heq⟩ <;> rw [heq] at h
  · exact .inl h
  · rcases List.mem_append.mp h with h | h
    · exact .inl h
    · exact .inr (List.mem_singleton.mp h)

theorem exists_mem_push (c : Collector) (e : Diagnostic) :
    ∃ d ∈ (c.push e).diagnostics, d.issue = (e.stamp c.path).issue := by
  rcases c.push_cases e with ⟨hknows, heq⟩ | ⟨-, heq⟩ <;> rw [heq]
  · obtain ⟨d, hd, hissue⟩ := List.any_eq_true.mp hknows
    exact ⟨d, hd, beq_iff_eq.mp hissue⟩
  · exact ⟨_, List.mem_append_right _ (List.mem_singleton_self _), rfl⟩

theorem nodup_push (h : (c.diagnostics.map issue).Nodup) (e : Diagnostic) :
    ((c.push e).diagnostics.map issue).Nodup := by
  rcases c.push_cases e with ⟨-, heq⟩ | ⟨hknows, heq⟩ <;> rw [heq]
  · exact h
  · rw [List.map_append, List.map_singleton, List.nodup_append]
    refine ⟨h, List.pairwise_singleton _ _, ?_⟩
    rintro issue hissue other hother rfl
    obtain ⟨d, hd, rfl⟩ := List.mem_map.mp hissue
    have hnew := List.any_eq_false.mp hknows d hd
    exact hnew (beq_iff_eq.mpr (List.mem_singleton.mp hother))

theorem subset_extend (h : d ∈ c.diagnostics) : d ∈ (c.extend ds).diagnostics := by
  induction ds generalizing c with
  | nil => exact h
  | cons e es ih => exact ih (subset_push h)

theorem mem_extend (h : d ∈ (c.extend ds).diagnostics) :
    d ∈ c.diagnostics ∨ ∃ e ∈ ds, d = e.stamp c.path := by
  induction ds generalizing c with
  | nil => exact .inl h
  | cons e es ih =>
      rcases ih h with h | ⟨e', he', rfl⟩
      · rcases mem_push h with h | rfl
        · exact .inl h
        · exact .inr ⟨e, List.mem_cons_self, rfl⟩
      · exact .inr ⟨e', List.mem_cons_of_mem _ he', by rw [path_push]⟩

theorem exists_mem_extend (h : e ∈ ds) :
    ∃ d ∈ (c.extend ds).diagnostics, d.issue = (e.stamp c.path).issue := by
  induction ds generalizing c with
  | nil => cases h
  | cons e' es ih =>
      rcases List.mem_cons.mp h with rfl | h
      · obtain ⟨d, hd, hissue⟩ := c.exists_mem_push e
        exact ⟨d, subset_extend (c := c.push e) hd, hissue⟩
      · obtain ⟨d, hd, hissue⟩ := ih (c := c.push e') h
        exact ⟨d, hd, by rw [hissue, path_push]⟩

theorem nodup_extend (h : (c.diagnostics.map issue).Nodup) (ds : List Diagnostic) :
    ((c.extend ds).diagnostics.map issue).Nodup := by
  induction ds generalizing c with
  | nil => exact h
  | cons e es ih => exact ih (nodup_push h e)

end Collector

variable {path : String} {ds : List Diagnostic}

/-- What is kept was given. -/
theorem mem_distinct {d : Diagnostic} (h : d ∈ distinct path ds) : ∃ e ∈ ds, d = e.stamp path := by
  rcases Collector.mem_extend h with h | h
  · cases h
  · exact h

/-- Of what was given every issue is kept. -/
theorem exists_mem_distinct (path : String) {e : Diagnostic} (h : e ∈ ds) :
    ∃ d ∈ distinct path ds, d.issue = (e.stamp path).issue :=
  Collector.exists_mem_extend (c := .empty path) h

/-- No issue is kept twice. -/
theorem nodup_issue_distinct (path : String) (ds : List Diagnostic) :
    ((distinct path ds).map issue).Nodup :=
  Collector.nodup_extend (c := .empty path) List.nodup_nil ds

/-! ## Warnings aside -/

namespace Collector

variable {aside : String → Bool} {c c' : Collector} {d : Diagnostic} {ds : List Diagnostic}

/-- Two collectors hold the same errors, and the same diagnostics but for those with a message
aside. -/
structure SameBut (aside : String → Bool) (c c' : Collector) : Prop where
  path : c.path = c'.path
  errors : c.diagnostics.filter isError = c'.diagnostics.filter isError
  others : c.diagnostics.filter (fun d => !aside d.message) =
    c'.diagnostics.filter (fun d => !aside d.message)

namespace SameBut

theorem refl (c : Collector) : SameBut aside c c := ⟨rfl, rfl, rfl⟩

theorem symm (h : SameBut aside c c') : SameBut aside c' c :=
  ⟨h.path.symm, h.errors.symm, h.others.symm⟩

/-- A warning aside that one of them gets changes nothing. -/
theorem push_aside (h : SameBut aside c c') (hmessage : aside d.message = true)
    (hwarning : d.isError = false) : SameBut aside (c.push d) c' := by
  rcases c.push_cases d with ⟨-, heq⟩ | ⟨-, heq⟩ <;> rw [heq]
  · exact h
  · refine ⟨h.path, ?_, ?_⟩
    · have herror : ¬ (d.stamp c.path).isError = true := by
        rw [isError_stamp, hwarning]
        exact Bool.false_ne_true
      rw [List.filter_append, List.filter_cons_of_neg herror, List.filter_nil, List.append_nil,
        h.errors]
    · have hleft : [d.stamp c.path].filter (fun d => !aside d.message) = [] := by
        refine List.filter_cons_of_neg ?_
        rw [message_stamp, hmessage]
        exact Bool.false_ne_true
      rw [List.filter_append, hleft, List.append_nil, h.others]

theorem extend_aside (h : SameBut aside c c')
    (hds : ∀ d ∈ ds, aside d.message = true ∧ d.isError = false) :
    SameBut aside (c.extend ds) c' := by
  induction ds generalizing c with
  | nil => exact h
  | cons d ds ih =>
      rw [List.forall_mem_cons] at hds
      exact ih (h.push_aside hds.1.1 hds.1.2) hds.2

/-- An issue whose message is not aside is known to both or to none. -/
theorem knows_eq (h : SameBut aside c c') (hmessage : aside d.message = false) :
    c.knows d = c'.knows d := by
  have hothers (c : Collector) : c.knows d =
      (c.diagnostics.filter fun d => !aside d.message).any
        fun e => e.issue == (d.stamp c.path).issue := by
    rw [knows, List.any_filter]
    refine List.any_congr rfl fun e => ?_
    cases hsame : e.issue == (d.stamp c.path).issue with
    | false => rw [Bool.and_false]
    | true =>
        have hissue : e.message = (d.stamp c.path).message :=
          congrArg Issue.message (beq_iff_eq.mp hsame)
        rw [hissue, message_stamp, hmessage]
        rfl
  rw [hothers c, hothers c', h.others, h.path]

/-- What both of them get they keep or leave out alike, if it is no error aside. -/
theorem push (h : SameBut aside c c') (hd : d.isError = true → aside d.message = false) :
    SameBut aside (c.push d) (c'.push d) := by
  cases hmessage : aside d.message with
  | true =>
      have hwarning : d.isError = false := by
        rw [Bool.eq_false_iff]
        intro herror
        rw [hd herror] at hmessage
        cases hmessage
      exact ((h.push_aside hmessage hwarning).symm.push_aside hmessage hwarning).symm
  | false =>
      have hknows := h.knows_eq hmessage
      unfold Collector.push
      rw [← hknows]
      split
      · exact h
      · refine ⟨h.path, ?_, ?_⟩
        · rw [List.filter_append, List.filter_append, h.errors, h.path]
        · rw [List.filter_append, List.filter_append, h.others, h.path]

theorem extend (h : SameBut aside c c')
    (hds : ∀ d ∈ ds, d.isError = true → aside d.message = false) :
    SameBut aside (c.extend ds) (c'.extend ds) := by
  induction ds generalizing c c' with
  | nil => exact h
  | cons d ds ih =>
      rw [List.forall_mem_cons] at hds
      exact ih (h.push hds.1) hds.2

end SameBut

end Collector

/-- Other warnings aside in the middle of a list change no error, unless errors behind them have
such messages. -/
theorem errors_distinct_of_asides {aside : String → Bool} (path : String)
    {front asides asides' back : List Diagnostic}
    (h : ∀ d ∈ asides, aside d.message = true ∧ d.isError = false)
    (h' : ∀ d ∈ asides', aside d.message = true ∧ d.isError = false)
    (hback : ∀ d ∈ back, d.isError = true → aside d.message = false) :
    (distinct path (front ++ (asides ++ back))).filter isError =
      (distinct path (front ++ (asides' ++ back))).filter isError := by
  let c := (Collector.empty path).extend front
  have hextend (ds : List Diagnostic) : distinct path (front ++ (ds ++ back)) =
      ((c.extend ds).extend back).diagnostics := by
    unfold distinct Collector.extend
    rw [List.foldl_append, List.foldl_append]
    rfl
  have hsame : Collector.SameBut aside (c.extend asides) (c.extend asides') :=
    ((Collector.SameBut.refl c).extend_aside h' |>.symm.extend_aside h)
  rw [hextend, hextend]
  exact (hsame.extend hback).errors

end Diagnostic

/-! ## Issues that are reported twice -/

/-- A place in a file. -/
abbrev Spot := String × Position

namespace Diagnostic

/-- The place that an issue is about. -/
def Issue.spot (i : Issue) : Spot := (i.path, i.position)

/-- The place that a diagnostic is about. -/
def spot (d : Diagnostic) : Spot := d.issue.spot

/-- The issue is reported more than once. -/
def Repeats (i : Issue) (ds : List Diagnostic) : Prop := 2 ≤ (ds.map issue).count i

variable {i : Issue} {ds es : List Diagnostic}

theorem repeats_congr (h : ds.Perm es) : Repeats i ds ↔ Repeats i es := by
  unfold Repeats
  rw [(h.map issue).count_eq]

theorem nodup_issue_iff : (ds.map issue).Nodup ↔ ∀ i, ¬ Repeats i ds := by
  rw [List.nodup_iff_count_le_one]
  exact forall_congr' fun i => Nat.not_lt.symm

/-- Issues at different places differ. -/
theorem nodup_issue_of_spot (h : (ds.map spot).Nodup) : (ds.map issue).Nodup := by
  have hspot : ds.map spot = (ds.map issue).map Issue.spot := by rw [List.map_map]; rfl
  rw [hspot] at h
  exact List.Nodup.of_map Issue.spot h

/-- Where the places differ, an issue is repeated in one of the lists. -/
theorem repeats_append_iff (h : ∀ d ∈ ds, ∀ e ∈ es, d.spot ≠ e.spot) :
    Repeats i (ds ++ es) ↔ Repeats i ds ∨ Repeats i es := by
  have hapart : (ds.map issue).count i = 0 ∨ (es.map issue).count i = 0 := by
    by_contra hboth
    rw [not_or] at hboth
    obtain ⟨d, hd, rfl⟩ := List.mem_map.mp (List.count_pos_iff.mp (Nat.pos_of_ne_zero hboth.1))
    obtain ⟨e, he, hissue⟩ := List.mem_map.mp (List.count_pos_iff.mp (Nat.pos_of_ne_zero hboth.2))
    exact h d hd e he (congrArg Issue.spot hissue.symm)
  unfold Repeats
  rw [List.map_append, List.count_append]
  omega

end Diagnostic

end TypedSql

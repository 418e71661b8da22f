import Mathlib.Data.List.Basic
import TypedSql.Proofs.Scope.Lookup

/-!
# The references that count

The names and the aliases of the references of a statement are kept together.  A reference makes a
relation of the scope if one of its names is new among them; one that brings no new name is left
out, even where its name was hidden behind the alias of another reference.

Main definitions: `RelationRef.Counts`, `RelationRef.counted`, `RelationRef.EachCounts`.  Main
statements: `RelationRef.counted_eq_self_iff`, `Scope.Holds.foldl`.
-/

namespace TypedSql

open Text

namespace RelationRef

/-- The names that a reference brings, in lower case: that of its relation, and its alias. -/
def keys (r : RelationRef) : List String := lowerCase r.name :: (r.asName.map lowerCase).toList

/-- One of the names of the reference is not among those in `seen`. -/
def Counts (seen : List String) (r : RelationRef) : Prop := ∃ key ∈ r.keys, key ∉ seen

instance (seen : List String) (r : RelationRef) : Decidable (r.Counts seen) :=
  inferInstanceAs (Decidable (∃ key ∈ r.keys, key ∉ seen))

/-- The references that count, where the names in `seen` were brought before. -/
def counted (seen : List String) : List RelationRef → List RelationRef
  | [] => []
  | r :: rest =>
      if r.Counts seen then r :: counted (r.keys ++ seen) rest else counted (r.keys ++ seen) rest

/-- Every reference has a name that none before it brings. -/
def EachCounts (refs : List RelationRef) : Prop :=
  ∀ before r after, refs = before ++ r :: after → r.Counts (before.flatMap keys)

variable {seen seen' : List String} {refs : List RelationRef} {r : RelationRef}

theorem Counts.of_subset (h : r.Counts seen) (hsubset : ∀ key ∈ seen', key ∈ seen) :
    r.Counts seen' := by
  obtain ⟨key, hkey, hnew⟩ := h
  exact ⟨key, hkey, fun hold => hnew (hsubset key hold)⟩

theorem counted_sublist (seen : List String) (refs : List RelationRef) :
    (counted seen refs).Sublist refs := by
  induction refs generalizing seen with
  | nil => exact .slnil
  | cons r rest ih =>
      rw [counted]
      split
      · exact (ih _).cons_cons r
      · exact (ih _).cons r

theorem counted_eq_self_iff_of_seen :
    counted seen refs = refs ↔
      ∀ before r after, refs = before ++ r :: after → r.Counts (before.flatMap keys ++ seen) := by
  induction refs generalizing seen with
  | nil =>
      constructor
      · intro _ before r after h
        simp at h
      · intro _
        rfl
  | cons first rest ih =>
      rw [counted]
      by_cases hfirst : first.Counts seen
      · rw [if_pos hfirst, List.cons_inj_right, ih]
        constructor
        · intro h before r after heq
          cases before with
          | nil =>
              cases heq
              exact hfirst
          | cons r' before =>
              cases heq
              refine (h before r after rfl).of_subset fun key hkey => ?_
              simp only [List.flatMap_cons, List.mem_append] at hkey ⊢
              exact or_left_comm.mp (or_assoc.mp hkey)
        · intro h before r after heq
          refine (h (first :: before) r after (by rw [heq, List.cons_append])).of_subset
            fun key hkey => ?_
          simp only [List.flatMap_cons, List.mem_append] at hkey ⊢
          exact or_assoc.mpr (or_left_comm.mp hkey)
      · rw [if_neg hfirst]
        constructor
        · -- A reference was left out, so the list became shorter.
          intro h
          have hlength := (counted_sublist (first.keys ++ seen) rest).length_le
          rw [h, List.length_cons] at hlength
          omega
        · intro h
          exact absurd (h [] first rest rfl) hfirst

/-- Nothing is left out exactly where every reference counts. -/
theorem counted_eq_self_iff : counted [] refs = refs ↔ EachCounts refs := by
  rw [counted_eq_self_iff_of_seen, EachCounts]
  simp only [List.append_nil]

end RelationRef

namespace Scope

variable {base s : Scope} {seen : List String} {r : RelationRef} {e : Entry}

theorem keyed_ofCatalog (overrides : ColumnOverrides) (c : Catalog) :
    (ofCatalog overrides c).Keyed :=
  List.foldlRecOn _ _ keyed_empty fun _ hs _ _ => hs.addEntry _

theorem Keyed.lowerCase_name (h : base.Keyed) {name : String} (hentry : base.entry? name = some e) :
    lowerCase e.name = lowerCase name := by
  obtain ⟨slot, hslot, he⟩ := Option.bind_eq_some_iff.mp hentry
  obtain ⟨e', he', hname⟩ := h _ _ hslot
  cases he.symm.trans he'
  exact hname

/-- The names in `seen` lead somewhere, and no other ones do. -/
def Leads (names : OrderedMap Nat) (seen : List String) : Prop :=
  ∀ key, (names.get? key).isSome ↔ key ∈ seen

theorem Leads.insert {names : OrderedMap Nat} (h : Leads names seen) (key : String) (slot : Nat) :
    Leads (names.insert key slot) (key :: seen) := by
  intro other
  rw [OrderedMap.get?_insert, List.mem_cons, ← h other]
  by_cases hkey : other = key
  · rw [if_pos hkey]
    exact ⟨fun _ => .inl hkey, fun _ => rfl⟩
  · rw [if_neg hkey]
    exact ⟨.inr, fun h => h.resolve_left hkey⟩

theorem Leads.congr {names : OrderedMap Nat} {seen' : List String} (h : Leads names seen)
    (hsame : ∀ key, key ∈ seen ↔ key ∈ seen') : Leads names seen' :=
  fun key => (h key).trans (hsame key)

/-- The scope holds `entries`, every relation that was named is there, and the names in `seen` are
the ones that lead to an entry. -/
structure Holds (s : Scope) (entries : List Entry) (seen : List String) : Prop where
  entries : s.entries = entries
  names : Leads s.names seen
  missing : s.missing = []
  opaqueNames : s.opaqueNames = []

theorem holds_empty : Holds empty [] [] := ⟨rfl, fun _ => by simp [empty]; rfl, rfl, rfl⟩

variable {entries : List Entry}

/-- A reference to a relation that has its name already. -/
theorem Holds.addAgain (h : s.Holds entries seen) (hname : lowerCase r.name ∈ seen) (e : Entry) :
    (s.addAgain e r.asName).Holds (if r.Counts seen then entries ++ [e] else entries)
      (r.keys ++ seen) := by
  -- The name brings nothing new, so the alias decides.
  have hkeys (key : String) :
      key ∈ r.keys ++ seen ↔ key ∈ (r.asName.map lowerCase).toList ++ seen := by
    show key ∈ lowerCase r.name :: ((r.asName.map lowerCase).toList ++ seen) ↔ _
    rw [List.mem_cons, or_iff_right_of_imp]
    rintro rfl
    exact List.mem_append_right _ hname
  have hcounts : r.Counts seen ↔ ∃ name, r.asName = some name ∧ lowerCase name ∉ seen := by
    simp only [RelationRef.Counts, RelationRef.keys, List.mem_cons, Option.mem_toList,
      Option.map_eq_some_iff]
    constructor
    · rintro ⟨key, rfl | ⟨name, has, rfl⟩, hnew⟩
      · exact absurd hname hnew
      · exact ⟨name, has, hnew⟩
    · rintro ⟨name, has, hnew⟩
      exact ⟨_, .inr ⟨name, has, rfl⟩, hnew⟩
  unfold Scope.addAgain
  cases has : r.asName with
  | none =>
      rw [has] at hkeys hcounts
      rw [if_neg fun hr => absurd (hcounts.mp hr) (by simp)]
      exact ⟨h.entries, h.names.congr fun key => (hkeys key).symm, h.missing, h.opaqueNames⟩
  | some name =>
      rw [has] at hkeys hcounts
      have hslot : (s.slot? name).isSome ↔ lowerCase name ∈ seen := h.names _
      dsimp only
      by_cases htaken : lowerCase name ∈ seen
      · have hnot : ¬ r.Counts seen := by
          rintro hr
          obtain ⟨name', hname', hnew⟩ := hcounts.mp hr
          cases hname'
          exact hnew htaken
        rw [if_pos (hslot.mpr htaken), if_neg hnot]
        refine ⟨h.entries, h.names.congr fun key => ?_, h.missing, h.opaqueNames⟩
        rw [hkeys]
        show key ∈ seen ↔ key ∈ lowerCase name :: seen
        rw [List.mem_cons, or_iff_right_of_imp]
        rintro rfl
        exact htaken
      · rw [if_neg fun hsome => htaken (hslot.mp hsome), if_pos (hcounts.mpr ⟨name, rfl, htaken⟩)]
        exact ⟨congrArg (· ++ [e]) h.entries,
          (h.names.insert _ _).congr fun key => (hkeys key).symm, h.missing, h.opaqueNames⟩

/-- A reference to a relation whose name is new. -/
theorem Holds.addFirst (h : s.Holds entries seen) (hname : lowerCase r.name ∉ seen)
    (he : lowerCase e.name = lowerCase r.name) :
    ((s.addEntry e).addAlias? r.asName (s.slotFor e)).Holds (entries ++ [e]) (r.keys ++ seen) := by
  have hslot : s.slot? e.name = none := by
    have hnone : ¬ (s.slot? e.name).isSome := fun hsome => hname (he ▸ (h.names _).mp hsome)
    rwa [Option.not_isSome_iff_eq_none] at hnone
  have hadded : s.addEntry e =
      { s with
        entries := s.entries ++ [e]
        names := s.names.insert (lowerCase e.name) s.entries.length } := by
    rw [addEntry, hslot]
  have hnames := h.names.insert (lowerCase r.name) s.entries.length
  rw [hadded, he]
  cases has : r.asName with
  | none =>
      refine ⟨congrArg (· ++ [e]) h.entries, ?_, h.missing, h.opaqueNames⟩
      rw [RelationRef.keys, has]
      exact hnames
  | some name =>
      refine ⟨congrArg (· ++ [e]) h.entries, ?_, h.missing, h.opaqueNames⟩
      rw [RelationRef.keys, has]
      refine (hnames.insert (lowerCase name) _).congr fun key => ?_
      show key ∈ lowerCase name :: lowerCase r.name :: seen ↔
        key ∈ lowerCase r.name :: lowerCase name :: seen
      simp only [List.mem_cons]
      exact or_left_comm

/-- A reference adds its relation where it counts. -/
theorem Holds.addReference (h : s.Holds entries seen) (hbase : base.Keyed)
    (hderived : r.derived = false) (hentry : base.entry? r.name = some e) :
    (base.addReference s r).Holds (if r.Counts seen then entries ++ [e] else entries)
      (r.keys ++ seen) := by
  have hslot : (s.slot? r.name).isSome ↔ lowerCase r.name ∈ seen := h.names _
  have hthis : base.addReference s r =
      if (s.slot? r.name).isSome then s.addAgain e r.asName
      else (s.addEntry e).addAlias? r.asName (s.slotFor e) := by
    simp only [Scope.addReference, hderived, hentry, Bool.false_eq_true, if_false]
  rw [hthis]
  by_cases hname : lowerCase r.name ∈ seen
  · rw [if_pos (hslot.mpr hname)]
    exact h.addAgain hname e
  · rw [if_neg fun hsome => hname (hslot.mp hsome),
      if_pos ⟨lowerCase r.name, List.mem_cons_self, hname⟩]
    exact h.addFirst hname (hbase.lowerCase_name hentry)

/-- References to relations that are there add the relations of those that count, in order. -/
theorem Holds.foldl {refs : List RelationRef} (h : s.Holds entries seen) (hbase : base.Keyed)
    (hrefs : ∀ r ∈ refs, r.derived = false ∧ (base.entry? r.name).isSome) :
    ∃ seen', (refs.foldl base.addReference s).Holds
      (entries ++ (RelationRef.counted seen refs).filterMap fun r => base.entry? r.name) seen' := by
  induction refs generalizing s entries seen with
  | nil => exact ⟨seen, by rwa [RelationRef.counted, List.filterMap_nil, List.append_nil]⟩
  | cons r rest ih =>
      obtain ⟨hderived, hsome⟩ := hrefs r List.mem_cons_self
      obtain ⟨e, hentry⟩ := Option.isSome_iff_exists.mp hsome
      obtain ⟨seen', hholds⟩ := ih (h.addReference hbase hderived hentry)
        fun r hr => hrefs r (List.mem_cons_of_mem _ hr)
      refine ⟨seen', ?_⟩
      rw [List.foldl_cons, RelationRef.counted]
      by_cases hcounts : r.Counts seen
      · rw [if_pos hcounts] at hholds ⊢
        have hcons := List.filterMap_cons_some (f := fun r => base.entry? r.name)
          (l := RelationRef.counted (r.keys ++ seen) rest) hentry
        rw [hcons, List.append_cons]
        exact hholds
      · rw [if_neg hcounts] at hholds ⊢
        exact hholds

end Scope

end TypedSql

/-!
# Ordered maps

A map from texts that remembers the order in which its keys came.  A new value for a known key
takes the place of the old one; erasing keeps the order of the rest.  Keys are distinct by
construction.
-/

namespace TypedSql

/-- A map with distinct keys in order. -/
structure OrderedMap (α : Type) where
  entries : List (String × α)
  nodup : (entries.map Prod.fst).Nodup

namespace OrderedMap

variable {α : Type}

@[ext] theorem ext {m n : OrderedMap α} (h : m.entries = n.entries) : m = n := by
  cases m; cases n; cases h; rfl

instance [DecidableEq α] : DecidableEq (OrderedMap α) := fun m n =>
  decidable_of_iff (m.entries = n.entries) ⟨ext, fun h => h ▸ rfl⟩

/-- The map without keys. -/
def empty : OrderedMap α := ⟨[], List.nodup_nil⟩

instance : Inhabited (OrderedMap α) := ⟨empty⟩

def keys (m : OrderedMap α) : List String := m.entries.map Prod.fst

def values (m : OrderedMap α) : List α := m.entries.map Prod.snd

def size (m : OrderedMap α) : Nat := m.entries.length

def isEmpty (m : OrderedMap α) : Bool := m.entries.isEmpty

/-- The value of a key. -/
def get? (m : OrderedMap α) (key : String) : Option α := m.entries.lookup key

def contains (m : OrderedMap α) (key : String) : Bool := (m.get? key).isSome

/-- Changes the value of every key, which stays where it is. -/
def mapValues (f : String → α → α) (m : OrderedMap α) : OrderedMap α where
  entries := m.entries.map fun e => (e.1, f e.1 e.2)
  nodup := by
    have : (m.entries.map fun e => (e.1, f e.1 e.2)).map Prod.fst = m.keys := by
      simp [keys, Function.comp_def]
    rw [this]
    exact m.nodup

/-- Changes the value of one key, if it is there. -/
def modify (m : OrderedMap α) (key : String) (f : α → α) : OrderedMap α :=
  m.mapValues fun k v => if k = key then f v else v

/-- Sets the value of a key: in the place of the old value, or at the end. -/
def insert (m : OrderedMap α) (key : String) (value : α) : OrderedMap α :=
  if h : key ∈ m.keys then m.modify key fun _ => value
  else
    { entries := m.entries ++ [(key, value)]
      nodup := by
        rw [List.map_append, List.nodup_append]
        refine ⟨m.nodup, by simp, ?_⟩
        intro a ha b hb hab
        simp at hb
        subst hb hab
        exact h ha }

/-- Removes a key. -/
def erase (m : OrderedMap α) (key : String) : OrderedMap α where
  entries := m.entries.filter fun e => e.1 != key
  nodup := by
    have : (m.entries.filter fun e => e.1 != key).map Prod.fst = m.keys.filter (· != key) := by
      simp [keys, List.filter_map, Function.comp_def]
    rw [this]
    exact m.nodup.filter _

/-- Sets the values of a list of entries in order. -/
def ofList (entries : List (String × α)) : OrderedMap α :=
  entries.foldl (fun m e => m.insert e.1 e.2) empty

@[simp] theorem keys_mapValues (f : String → α → α) (m : OrderedMap α) :
    (m.mapValues f).keys = m.keys := by
  simp [keys, mapValues, Function.comp_def]

@[simp] theorem keys_modify (m : OrderedMap α) (key : String) (f : α → α) :
    (m.modify key f).keys = m.keys := by
  simp [modify]

theorem keys_insert (m : OrderedMap α) (key : String) (value : α) :
    (m.insert key value).keys = if key ∈ m.keys then m.keys else m.keys ++ [key] := by
  unfold insert
  split
  · simp
  · simp [keys]

/-- A new key comes last. -/
theorem entries_insert_of_notMem {m : OrderedMap α} {key : String} (h : key ∉ m.keys)
    (value : α) : (m.insert key value).entries = m.entries ++ [(key, value)] := by
  rw [insert, dif_neg h]

@[simp] theorem keys_erase (m : OrderedMap α) (key : String) :
    (m.erase key).keys = m.keys.filter (· != key) := by
  simp [keys, erase, List.filter_map, Function.comp_def]

/-! ## The value of a key -/

theorem get?_mapValues (f : String → α → α) (m : OrderedMap α) (key : String) :
    (m.mapValues f).get? key = (m.get? key).map (f key) := by
  obtain ⟨entries, nodup⟩ := m
  show (entries.map fun e => (e.1, f e.1 e.2)).lookup key = (entries.lookup key).map (f key)
  clear nodup
  induction entries with
  | nil => rfl
  | cons e es ih =>
      rw [List.map_cons, List.lookup_cons, List.lookup_cons, ih]
      cases hkey : key == e.1 with
      | true =>
          cases beq_iff_eq.mp hkey
          rfl
      | false => rfl

theorem get?_eq_none {m : OrderedMap α} {key : String} : m.get? key = none ↔ key ∉ m.keys := by
  rw [get?, List.lookup_eq_none_iff, keys, List.mem_map]
  constructor
  · rintro h ⟨e, he, rfl⟩
    exact absurd (h e he) (by rw [bne_self_eq_false]; exact Bool.false_ne_true)
  · intro h e he
    exact bne_iff_ne.mpr fun heq => h ⟨e, he, heq.symm⟩

theorem get?_of_mem {m : OrderedMap α} {e : String × α} (h : e ∈ m.entries) :
    m.get? e.1 = some e.2 := by
  obtain ⟨before, after, hsplit⟩ := List.append_of_mem h
  refine List.lookup_eq_some_iff.mpr ⟨before, after, hsplit, fun f hf => ?_⟩
  have hnodup := m.nodup
  rw [hsplit, List.map_append, List.map_cons, List.nodup_append] at hnodup
  exact bne_iff_ne.mpr fun heq =>
    hnodup.2.2 _ (List.mem_map_of_mem hf) _ List.mem_cons_self heq.symm

/-- A key leads to the value that stands with it. -/
theorem get?_eq_some {m : OrderedMap α} {key : String} {value : α} :
    m.get? key = some value ↔ (key, value) ∈ m.entries := by
  constructor
  · intro h
    obtain ⟨before, after, hsplit, -⟩ := List.lookup_eq_some_iff.mp h
    rw [hsplit]
    exact List.mem_append_right before List.mem_cons_self
  · exact get?_of_mem

/-- A key leads to the value that was set last. -/
theorem get?_insert (m : OrderedMap α) (key other : String) (value : α) :
    (m.insert key value).get? other = if other = key then some value else m.get? other := by
  unfold insert
  by_cases hkey : key ∈ m.keys
  · rw [dif_pos hkey, modify, get?_mapValues]
    by_cases hother : other = key
    · subst hother
      rw [if_pos rfl]
      cases hvalue : m.get? other with
      | none => exact absurd hkey (get?_eq_none.mp hvalue)
      | some old => simp only [Option.map_some, if_true]
    · rw [if_neg hother]
      simp only [if_neg hother, Option.map_id']
  · rw [dif_neg hkey]
    show (m.entries ++ [(key, value)]).lookup other = _
    rw [List.lookup_append, List.lookup_cons, List.lookup_nil]
    show (m.get? other).or _ = _
    by_cases hother : other = key
    · subst hother
      rw [if_pos rfl, get?_eq_none.mpr hkey, beq_self_eq_true]
      rfl
    · rw [if_neg hother, beq_eq_false_iff_ne.mpr hother, Option.or_none]

theorem get?_modify (m : OrderedMap α) (key other : String) (f : α → α) :
    (m.modify key f).get? other = (m.get? other).map fun v => if other = key then f v else v := by
  rw [modify, get?_mapValues]

/-- An erased key leads nowhere; the others lead where they led. -/
theorem get?_erase (m : OrderedMap α) (key other : String) :
    (m.erase key).get? other = if other = key then none else m.get? other := by
  obtain ⟨entries, nodup⟩ := m
  show (entries.filter fun e => e.1 != key).lookup other = if other = key then none
    else entries.lookup other
  clear nodup
  induction entries with
  | nil => simp
  | cons e es ih =>
      by_cases hkey : e.1 = key
      · -- The entry is removed, and it was none of another key.
        rw [List.filter_cons_of_neg (by simp [hkey]), ih]
        by_cases hother : other = key
        · simp [hother]
        · have hne : (other == e.1) = false := beq_eq_false_iff_ne.mpr (hkey ▸ hother)
          rw [List.lookup_cons, hne]
      · rw [List.filter_cons_of_pos (by simp [hkey]), List.lookup_cons, List.lookup_cons, ih]
        by_cases hother : other = e.1
        · simp [hother, hkey]
        · have hne : (other == e.1) = false := beq_eq_false_iff_ne.mpr hother
          rw [hne]

/-- The values are those that the keys lead to. -/
theorem mem_values_iff {m : OrderedMap α} {value : α} :
    value ∈ m.values ↔ ∃ key, m.get? key = some value := by
  obtain ⟨entries, nodup⟩ := m
  show value ∈ entries.map Prod.snd ↔ ∃ key, entries.lookup key = some value
  induction entries with
  | nil => simp
  | cons e es ih =>
      obtain ⟨key, v⟩ := e
      rw [List.map_cons, List.nodup_cons] at nodup
      rw [List.map_cons, List.mem_cons, ih nodup.2]
      constructor
      · rintro (rfl | ⟨other, hother⟩)
        · exact ⟨key, by simp⟩
        · -- Keys are distinct, so the first entry hides no other one.
          have hne : other ≠ key := by
            rintro rfl
            obtain ⟨before, behind, hes, -⟩ := List.lookup_eq_some_iff.mp hother
            exact nodup.1 (by simp [hes])
          refine ⟨other, ?_⟩
          rw [List.lookup_cons, beq_eq_false_iff_ne.mpr hne]
          exact hother
      · rintro ⟨other, hother⟩
        rw [List.lookup_cons] at hother
        by_cases hkey : other = key
        · left
          simpa [hkey] using hother.symm
        · right
          rw [beq_eq_false_iff_ne.mpr hkey] at hother
          exact ⟨other, hother⟩

end OrderedMap

end TypedSql

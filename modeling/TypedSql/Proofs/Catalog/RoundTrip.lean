import TypedSql.Catalog.Encoding
import TypedSql.Proofs.Json.RoundTrip

/-!
# Catalogs are read back

The JSON of a catalog holds everything that the catalog holds.  What is left out of it, a missing
default or a missing list of column names, is missing again when it is read, and the members of an
object come back as the keys of a map, each as new as it was when the map was made.

Main statements: `OrderedMap.ofList_entries`, `Catalog.ofJson?_toJson`,
`Catalog.parse?_toJson`.
-/

namespace TypedSql

open Json

/-! ## Lists and texts -/

/-- Items that are read back one by one are read back together. -/
theorem mapM_map_eq_some {α : Type} {write : α → Json} {read : Json → Option α} {items : List α}
    (h : ∀ a ∈ items, read (write a) = some a) : (items.map write).mapM read = some items := by
  induction items with
  | nil => rfl
  | cons a items ih =>
      rw [List.map_cons, List.mapM_cons, h a List.mem_cons_self,
        ih fun b hb => h b (List.mem_cons_of_mem a hb)]
      rfl

theorem textsOfJson?_ofList (texts : List String) :
    textsOfJson? (ofList .string texts) = some texts :=
  mapM_map_eq_some fun _ _ => rfl

theorem exact_ofList {α : Type} {write : α → Json} (h : ∀ a, (write a).Exact) (items : List α) :
    (ofList write items).Exact :=
  .array fun v hv => by
    obtain ⟨a, -, rfl⟩ := List.mem_map.mp hv
    exact h a

theorem exact_texts (texts : List String) : (ofList .string texts).Exact :=
  exact_ofList .string texts

/-- What is written of an optional value is what is written of the value. -/
theorem exact_optionalMember {α : Type} {name : String} {write : α → Json} {value : Option α}
    (h : ∀ a, (write a).Exact) {member : String × Json}
    (hmember : member ∈ optionalMember name write value) : member.2.Exact := by
  cases value with
  | none => cases hmember
  | some a =>
      rw [List.mem_singleton.mp hmember]
      exact h a

/-! ## Records -/

namespace Column

theorem ofJson?_toJson (c : Column) : ofJson? c.toJson = some c := by
  obtain ⟨name, declaration, notNull, primaryKey, defaultText⟩ := c
  cases defaultText <;> rfl

theorem exact_toJson (c : Column) : c.toJson.Exact := by
  refine .object fun member hmember => ?_
  rcases List.mem_append.mp hmember with h | h
  · simp only [List.mem_cons, List.not_mem_nil, or_false] at h
    obtain rfl | rfl | rfl | rfl := h
    · exact .string _
    · exact .string _
    · exact .bool _
    · exact .bool _
  · exact exact_optionalMember .string h

end Column

namespace Index

theorem ofJson?_toJson (i : Index) : ofJson? i.toJson = some i := by
  obtain ⟨name, columns, unique⟩ := i
  show (textsOfJson? (ofList .string columns)).bind _ = _
  rw [textsOfJson?_ofList]
  rfl

theorem exact_toJson (i : Index) : i.toJson.Exact := by
  refine .object fun member hmember => ?_
  simp only [List.mem_cons, List.not_mem_nil, or_false] at hmember
  obtain rfl | rfl | rfl := hmember
  · exact .string _
  · exact exact_texts _
  · exact .bool _

end Index

namespace Table

theorem ofJson?_toJson (t : Table) : ofJson? t.toJson = some t := by
  obtain ⟨name, columns, primaryKey, indexes, isView⟩ := t
  show ((columns.map Column.toJson).mapM Column.ofJson?).bind (fun columns' =>
    (textsOfJson? (ofList .string primaryKey)).bind fun primaryKey' =>
      ((indexes.map Index.toJson).mapM Index.ofJson?).bind fun indexes' =>
        some (Table.mk name columns' primaryKey' indexes' isView)) = _
  rw [mapM_map_eq_some fun c _ => c.ofJson?_toJson, textsOfJson?_ofList,
    mapM_map_eq_some fun i _ => i.ofJson?_toJson]
  rfl

theorem exact_toJson (t : Table) : t.toJson.Exact := by
  refine .object fun member hmember => ?_
  simp only [List.mem_cons, List.not_mem_nil, or_false] at hmember
  obtain rfl | rfl | rfl | rfl | rfl := hmember
  · exact .string _
  · exact exact_ofList Column.exact_toJson _
  · exact exact_texts _
  · exact exact_ofList Index.exact_toJson _
  · exact .bool _

end Table

theorem Position.ofJson?_toJson (p : Position) : ofJson? p.toJson = some p := rfl

theorem Position.exact_toJson (p : Position) : p.toJson.Exact := by
  refine .object fun member hmember => ?_
  simp only [List.mem_cons, List.not_mem_nil, or_false] at hmember
  obtain rfl | rfl := hmember <;> exact .nat _

namespace View

theorem ofJson?_toJson (v : View) : ofJson? v.toJson = some v := by
  obtain ⟨name, columns, sql, path, position⟩ := v
  cases columns with
  | none => rfl
  | some columns =>
      show ((textsOfJson? (ofList .string columns)).map some).bind _ = _
      rw [textsOfJson?_ofList]
      rfl

theorem exact_toJson (v : View) : v.toJson.Exact := by
  refine .object fun member hmember => ?_
  rcases List.mem_append.mp hmember with h | h
  · rcases List.mem_append.mp h with h | h
    · rw [List.mem_singleton.mp h]
      exact .string _
    · exact exact_optionalMember exact_texts h
  · simp only [List.mem_cons, List.not_mem_nil, or_false] at h
    obtain rfl | rfl | rfl := h
    · exact .string _
    · exact .string _
    · exact Position.exact_toJson _

end View

/-! ## Maps -/

namespace OrderedMap

variable {α : Type}

/-- Entries with new keys stand behind those of the map. -/
theorem entries_foldl_insert (entries : List (String × α)) (m : OrderedMap α)
    (h : ((m.entries ++ entries).map Prod.fst).Nodup) :
    (entries.foldl (fun m e => m.insert e.1 e.2) m).entries = m.entries ++ entries := by
  induction entries generalizing m with
  | nil => exact (List.append_nil _).symm
  | cons e entries ih =>
      have hnew : e.1 ∉ m.keys := by
        rw [List.map_append, List.map_cons] at h
        exact fun hmem => (List.nodup_append.mp h).2.2 _ hmem _ List.mem_cons_self rfl
      have hentries := entries_insert_of_notMem hnew e.2
      rw [List.foldl_cons, ih, hentries, List.append_assoc, List.singleton_append]
      rwa [hentries, List.append_assoc, List.singleton_append]

/-- Setting the values of the entries of a map one by one makes the map again. -/
theorem ofList_entries (m : OrderedMap α) : ofList m.entries = m :=
  OrderedMap.ext (entries_foldl_insert m.entries empty m.nodup)

theorem ofJson?_toJson {write : α → Json} {read : Json → Option α}
    (h : ∀ a, read (write a) = some a) (m : OrderedMap α) :
    ofJson? read (m.toJson write) = some m := by
  have hmembers : (m.entries.map fun e => (e.1, write e.2)).mapM
      (fun e => (read e.2).map fun v => (e.1, v)) = some m.entries := by
    induction m.entries with
    | nil => rfl
    | cons e entries ih =>
        rw [List.map_cons, List.mapM_cons, ih, h]
        rfl
  show ((m.entries.map fun e => (e.1, write e.2)).mapM
    fun e => (read e.2).map fun v => (e.1, v)).map ofList = _
  rw [hmembers, Option.map_some, ofList_entries]

theorem exact_toJson {write : α → Json} (h : ∀ a, (write a).Exact) (m : OrderedMap α) :
    (m.toJson write).Exact :=
  .object fun member hmember => by
    obtain ⟨e, -, rfl⟩ := List.mem_map.mp hmember
    exact h e.2

end OrderedMap

/-! ## Catalogs -/

namespace Catalog

theorem ofJson?_toJson (c : Catalog) : ofJson? c.toJson = some c := by
  show (OrderedMap.ofJson? Table.ofJson? (c.tables.toJson Table.toJson)).bind (fun tables =>
    (OrderedMap.ofJson? View.ofJson? (c.views.toJson View.toJson)).bind fun views =>
      some (Catalog.mk tables views)) = _
  rw [OrderedMap.ofJson?_toJson Table.ofJson?_toJson, OrderedMap.ofJson?_toJson View.ofJson?_toJson]
  rfl

theorem exact_toJson (c : Catalog) : c.toJson.Exact := by
  refine .object fun member hmember => ?_
  simp only [List.mem_cons, List.not_mem_nil, or_false] at hmember
  obtain rfl | rfl := hmember
  · exact OrderedMap.exact_toJson Table.exact_toJson _
  · exact OrderedMap.exact_toJson View.exact_toJson _

/-- A catalog is read back from its JSON, and from its JSON as either printer writes it: the same
relations under the same keys in the same order, with nothing added and nothing lost. -/
theorem parse?_toJson (c : Catalog) :
    ofJson? c.toJson = some c ∧
      (Json.parse? c.toJson.compact).bind ofJson? = some c ∧
      (Json.parse? c.toJson.pretty).bind ofJson? = some c := by
  refine ⟨c.ofJson?_toJson, ?_, ?_⟩
  · rw [c.exact_toJson.parse?_compact, Option.bind_some, c.ofJson?_toJson]
  · rw [c.exact_toJson.parse?_pretty, Option.bind_some, c.ofJson?_toJson]

end Catalog

end TypedSql

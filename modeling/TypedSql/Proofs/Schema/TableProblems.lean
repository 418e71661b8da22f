import Mathlib.Data.List.Count
import TypedSql.Proofs.Schema.KeyColumns
import TypedSql.Proofs.Schema.Spots
import TypedSql.Proofs.Token.CommaRanges

/-!
# The problems of a new table

Every element of a table body has its problem, if it has one, at a token of its own.  But what is
wrong with the primary key is said at the name of the table: once for each time that the key names
a column that the table does not have.

Main definition: `missingKey`.  Main statements: `problems_readTable`, `repeats_readTable_iff`.
-/

namespace TypedSql.Schema

open Diagnostic Token

variable {source : Source}

/-! ## Elements -/

namespace Draft

/-- The second draft has the problems of the first one, and more at some of the places, in their
order. -/
def NotesIn (spots : List Spot) (d d' : Draft) : Prop :=
  ∃ more, d'.problems = d.problems ++ more ∧ (more.map spot).Sublist spots

variable {xs ys : List Spot} {d d' d'' : Draft}

theorem NotesIn.of_eq (h : d'.problems = d.problems) : NotesIn xs d d' :=
  ⟨[], by rw [h, List.append_nil], List.nil_sublist _⟩

theorem NotesIn.note {problem : Diagnostic} (h : problem.spot ∈ xs) :
    NotesIn xs d (d.note problem) :=
  ⟨[problem], rfl, List.singleton_sublist.mpr h⟩

theorem NotesIn.trans (h : NotesIn xs d d') (h' : NotesIn ys d' d'') :
    NotesIn (xs ++ ys) d d'' := by
  obtain ⟨more, heq, hmore⟩ := h
  obtain ⟨more', heq', hmore'⟩ := h'
  refine ⟨more ++ more', by rw [heq', heq, List.append_assoc], ?_⟩
  rw [List.map_append]
  exact hmore.append hmore'

/-- What is wrong with an element is said at one of its tokens. -/
theorem notesIn_addElement (source : Source) (d : Draft) (element : List Token) :
    NotesIn (element.map source.spot) d (d.addElement source element) := by
  have hwithin : source.Within (element.map source.spot) element :=
    fun t ht => List.mem_map_of_mem ht
  have hrest : source.Within (element.map source.spot)
      (if startsWith "CONSTRAINT" element then element.drop 2 else element) := by
    split
    · exact hwithin.suffix (List.drop_suffix 2 _)
    · exact hwithin
  unfold addElement
  dsimp only
  split
  · exact .of_eq rfl
  · next first behind heq =>
      rw [heq] at hrest
      split
      · split
        · exact .of_eq rfl
        · exact .of_eq rfl
      · split
        · split
          · split
            · exact .of_eq rfl
            · exact .of_eq rfl
          · exact .of_eq rfl
        · split
          · exact .of_eq rfl
          · unfold addDefinition
            split
            · exact .of_eq rfl
            · next problem hproblem => exact .note (readColumn_at hwithin problem hproblem)
            · split
              · exact .note hrest.head
              · exact .of_eq rfl

theorem notesIn_foldl_addElement (source : Source) (elements : List (List Token)) (d : Draft) :
    NotesIn (elements.flatten.map source.spot) d
      (elements.foldl (Draft.addElement source) d) := by
  induction elements generalizing d with
  | nil => exact .of_eq rfl
  | cons element elements ih =>
      rw [List.flatten_cons, List.map_append]
      exact (d.notesIn_addElement source element).trans (ih _)

/-! ## Keys -/

/-- The problem of a key without a column. -/
def missingKey (source : Source) (position : Position) (table key : String) : Diagnostic :=
  source.problem .unknownSchemaColumn position
    ("primary key column '" ++ key ++ "' does not exist in table '" ++ table ++ "'")

theorem hasColumn_markKey (source : Source) (position : Position) (d : Draft) (key name : String) :
    (d.markKey source position key).table.hasColumn name = d.table.hasColumn name := by
  unfold markKey
  split
  · rw [Bool.eq_iff_iff, Table.hasColumn, Table.hasColumn, Table.isSome_column?_iff,
      Table.isSome_column?_iff,
      Table.columnKeys_modifyColumn (f := Column.withPrimaryKey) fun _ => rfl]
  · rfl

theorem name_markKey (source : Source) (position : Position) (d : Draft) (key : String) :
    (d.markKey source position key).table.name = d.table.name := by
  unfold markKey
  split
  · exact name_modifyColumn _ _ _
  · rfl

/-- Every key without a column is noted, each time that it is there. -/
theorem problems_foldl_markKey (source : Source) (position : Position) (keys : List String)
    (d : Draft) :
    let after := keys.foldl (Draft.markKey source position) d
    after.problems = d.problems ++ (keys.filter fun key => !d.table.hasColumn key).map
        (missingKey source position d.table.name) ∧
      after.table.name = d.table.name ∧
      ∀ name, after.table.hasColumn name = d.table.hasColumn name := by
  induction keys generalizing d with
  | nil => exact ⟨(List.append_nil _).symm, rfl, fun _ => rfl⟩
  | cons key keys ih =>
      -- A mark changes no name, so the other keys find what they find in front of it.
      obtain ⟨hproblems, hname, hcolumns⟩ := ih (d.markKey source position key)
      refine ⟨?_, hname.trans (d.name_markKey source position key),
        fun name => (hcolumns name).trans (d.hasColumn_markKey source position key name)⟩
      have hthis : (d.markKey source position key).problems =
          d.problems ++ ([key].filter fun key => !d.table.hasColumn key).map
            (missingKey source position d.table.name) := by
        unfold markKey
        split
        · next hthere => simp [hthere]
        · next hthere => simp [hthere, note, missingKey]
      rw [List.foldl_cons, hproblems, hthis, d.name_markKey]
      simp only [hasColumn_markKey]
      rw [List.append_assoc, ← List.map_append, ← List.filter_append, List.singleton_append]

end Draft

/-! ## Tables -/

/-- The problems of a table are those of its elements, and the missing columns of its key. -/
theorem problems_readTable (source : Source) (name : String) (position : Position)
    (body : List Token) :
    let t := (readTable source name position body).table
    ∃ found, (readTable source name position body).problems =
        found ++ (t.primaryKey.filter fun key => !t.hasColumn key).map
          (Draft.missingKey source position name) ∧
      (found.map spot).Sublist (body.map source.spot) := by
  let draft := (commaPieces body).foldl (Draft.addElement source) ⟨.bare name, []⟩
  obtain ⟨hproblems, hname, hcolumns⟩ :=
    draft.problems_foldl_markKey source position draft.table.primaryKey
  obtain ⟨hkey, -⟩ := Draft.foldl_markKey source position draft.table.primaryKey draft
  obtain ⟨found, hfound, hspots⟩ :=
    Draft.notesIn_foldl_addElement source (commaPieces body) ⟨.bare name, []⟩
  have hthis : draft.table.name = name := hname.symm.trans (name_readTable name position body)
  have hcolumns' : (fun key => !draft.table.hasColumn key) =
      fun key => !(readTable source name position body).table.hasColumn key :=
    funext fun key => congrArg _ (hcolumns key).symm
  refine ⟨found, ?_, hspots.trans ((flatten_commaPieces_sublist body).map _)⟩
  have hkey' : draft.table.primaryKey = (readTable source name position body).table.primaryKey :=
    hkey.symm
  calc (readTable source name position body).problems
      = draft.problems ++ (draft.table.primaryKey.filter fun key => !draft.table.hasColumn key).map
          (Draft.missingKey source position draft.table.name) := hproblems
    _ = _ := by rw [hthis, hcolumns', show draft.problems = found from hfound, hkey']

/-- Every problem of a table stands at its name or in its body. -/
theorem spot_mem_of_mem_readTable {name : String} {position : Position} {body : List Token}
    {d : Diagnostic} (h : d ∈ (readTable source name position body).problems) :
    d.spot ∈ (source.path, position) :: body.map source.spot := by
  obtain ⟨found, hproblems, hspots⟩ := problems_readTable source name position body
  rw [hproblems] at h
  rcases List.mem_append.mp h with h | h
  · exact List.mem_cons_of_mem _ (hspots.subset (List.mem_map_of_mem h))
  · obtain ⟨key, -, rfl⟩ := List.mem_map.mp h
    exact List.mem_cons_self

theorem missingKey_injective (source : Source) (position : Position) (table : String) :
    Function.Injective (issue ∘ Draft.missingKey source position table) := by
  intro key key' h
  have hmessage : (Draft.missingKey source position table key).message =
      (Draft.missingKey source position table key').message := congrArg Issue.message h
  have hletters := congrArg String.toList hmessage
  simp only [Draft.missingKey, Source.problem, Diagnostic.error, String.toList_append,
    List.append_assoc] at hletters
  exact String.toList_injective (List.append_cancel_right (List.append_cancel_left hletters))

/-- The name of a table is not in its body, so that an issue is repeated only where the primary key
repeats a name that no column has. -/
theorem repeats_readTable_iff {name : String} {position : Position} {body : List Token}
    (h : ((source.path, position) :: body.map source.spot).Nodup) (i : Issue) :
    let t := (readTable source name position body).table
    Repeats i (readTable source name position body).problems ↔
      ∃ key, 2 ≤ t.primaryKey.count key ∧ t.hasColumn key = false ∧
        i = (Draft.missingKey source position name key).issue := by
  intro t
  obtain ⟨found, hproblems, hspots⟩ := problems_readTable source name position body
  have hnodup : (found.map spot).Nodup := (List.nodup_cons.mp h).2.sublist hspots
  -- What is wrong with the key is said at the name, and the name is no token of the body.
  have hapart : ∀ d ∈ found, ∀ e ∈ (t.primaryKey.filter fun key => !t.hasColumn key).map
      (Draft.missingKey source position name), d.spot ≠ e.spot := by
    intro d hd e he hsame
    obtain ⟨key, -, rfl⟩ := List.mem_map.mp he
    have hbody : d.spot ∈ body.map source.spot := hspots.subset (List.mem_map_of_mem hd)
    rw [hsame] at hbody
    exact (List.nodup_cons.mp h).1 hbody
  have hcount (key : String) (hmissing : t.hasColumn key = false) :
      ((t.primaryKey.filter fun key => !t.hasColumn key).map
        (issue ∘ Draft.missingKey source position name)).count
          ((issue ∘ Draft.missingKey source position name) key) = t.primaryKey.count key := by
    rw [List.count_map_of_injective _ _ (missingKey_injective source position name),
      List.count_filter (by rw [hmissing]; rfl)]
  rw [hproblems, repeats_append_iff hapart,
    or_iff_right (nodup_issue_iff.mp (nodup_issue_of_spot hnodup) i), Repeats, List.map_map]
  constructor
  · intro htwice
    obtain ⟨key, hkey, rfl⟩ := List.mem_map.mp
      (List.count_pos_iff.mp (Nat.lt_of_lt_of_le (by decide) htwice))
    have hmissing : t.hasColumn key = false := by simpa using (List.mem_filter.mp hkey).2
    exact ⟨key, hcount key hmissing ▸ htwice, hmissing, rfl⟩
  · rintro ⟨key, htwice, hmissing, rfl⟩
    exact (hcount key hmissing).symm ▸ htwice

end TypedSql.Schema

import Mathlib.Data.Fintype.EquivFin
import TypedSql.Proofs.Report.Append
import TypedSql.Proofs.Schema.Moved
import TypedSql.Proofs.Token.Seam

/-!
# Two schema files one behind the other

A schema file ends its last statement.  So two files one behind the other, parted by a semicolon on
a line of its own, are applied to a catalog as the first file and then the second one: what differs
are the lines of what comes from the second file.

Main definition: `Declares`.  Main statement: `Schema.applyFile_append`.
-/

namespace TypedSql

open Text

/-! ## Slices of two texts one behind the other -/

namespace Text

theorem dropBytes_append (n : Nat) (xs ys : List Char) :
    dropBytes (n + byteLength xs) (xs ++ ys) = dropBytes n ys := by
  induction xs with
  | nil => rfl
  | cons c cs ih =>
      have hsize := c.utf8Size_pos
      have hlength : n + byteLength (c :: cs) - c.utf8Size = n + byteLength cs := by
        rw [byteLength]
        omega
      have hne : ¬ n + byteLength (c :: cs) = 0 := by
        rw [byteLength]
        omega
      rw [List.cons_append, dropBytes, if_neg hne, hlength, ih]

theorem takeBytes_append_of_le {n : Nat} {xs : List Char} (h : n ≤ byteLength xs)
    (ys : List Char) : takeBytes n (xs ++ ys) = takeBytes n xs := by
  induction xs generalizing n with
  | nil =>
      have hn : n = 0 := Nat.le_zero.mp h
      cases ys <;> simp [takeBytes, hn]
  | cons c cs ih =>
      rw [byteLength] at h
      rw [List.cons_append, takeBytes, takeBytes, ih (by omega)]

/-- A slice of the second text. -/
theorem slice_append_right (a b : String) (start stop : Nat) :
    slice (a ++ b) (start + byteLength a.toList) (stop + byteLength a.toList) =
      slice b start stop := by
  unfold slice
  rw [String.toList_append, dropBytes_append, Nat.add_sub_add_right]

/-- A slice of the first text that begins at a boundary and ends in the text. -/
theorem slice_append_left {a : String} {start stop : Nat} (h : IsBoundary a start)
    (hstop : stop ≤ byteLength a.toList) (b : String) :
    slice (a ++ b) start stop = slice a start stop := by
  obtain ⟨before, after, htext, rfl⟩ := h
  rw [htext, byteLength_append] at hstop
  unfold slice
  rw [String.toList_append, htext, List.append_assoc, dropBytes_byteLength, dropBytes_byteLength,
    takeBytes_append_of_le (by omega)]

end Text

/-- The view `n` lines further down. -/
def View.down (n : Nat) (v : View) : View := { v with position := v.position.down n }

namespace Schema

open Token

/-- The view under the key comes from the file: it carries the path of the file, whatever that
is. -/
def Declares (sql : String) (c : Catalog) (key : String) : Prop :=
  ∀ path, ((applyFile path sql c).1.views.get? key).any (·.path == path)

/-! ## Moves -/

namespace Move

variable {m : Move} {c : Catalog} {ts : List Token}

theorem catalog_eq_self (h : ∀ v ∈ c.views.values, m.view v = v) : m.catalog c = c := by
  have hviews : (c.views.mapValues fun _ => m.view) = c.views := by
    apply OrderedMap.ext
    show (c.views.entries.map fun e => (e.1, m.view e.2)) = c.views.entries
    calc
      (c.views.entries.map fun e => (e.1, m.view e.2)) = c.views.entries.map id :=
        List.map_congr_left fun e he =>
          congrArg (Prod.mk e.1) (h e.2 (List.mem_map_of_mem he))
      _ = c.views.entries := List.map_id _
  unfold catalog
  rw [hviews]

/-- A catalog whose views come from other files is the same in both files. -/
theorem catalog_of_fresh (h : ∀ v ∈ c.views.values, v.path ≠ m.source.path) : m.catalog c = c :=
  catalog_eq_self fun v hv => view_of_ne (h v hv)

/-- What statements do in the other file, where no view of the catalog comes from the first one. -/
theorem applyStatements_of_fresh (h : ∀ v ∈ c.views.values, v.path ≠ m.source.path)
    {ss : List (List Token)} (hkeeps : ∀ s ∈ ss, m.Keeps s) :
    applyStatements m.target c (ss.map m.tokens) = m.outcome (applyStatements m.source c ss) := by
  have hmoved := applyStatements_moved c hkeeps
  rwa [catalog_of_fresh h] at hmoved

end Move

/-- The same file under another path. -/
def renamed (tag path sql : String) : Move := ⟨⟨tag, sql⟩, ⟨path, sql⟩, 0, 0⟩

/-- The first text in front of another one. -/
def inFront (tag path a b : String) : Move := ⟨⟨tag, a⟩, ⟨path, a ++ b⟩, 0, 0⟩

/-- The second text behind another one that has `lines` lines. -/
def behind (tag path a b : String) (lines : Nat) : Move :=
  ⟨⟨tag, b⟩, ⟨path, a ++ b⟩, byteLength a.toList, lines⟩

variable {path tag a b : String} {c : Catalog} {ts us : List Token}

theorem keeps_renamed (tag path sql : String) (ts : List Token) : (renamed tag path sql).Keeps ts :=
  fun _ _ _ _ => rfl

theorem keeps_inFront (ha : tokenize a = .ok ts) (tag path b : String) :
    (inFront tag path a b).Keeps ts := by
  intro t ht u hu
  obtain ⟨before, after, htext, hstart, -, -⟩ := (tokenizeAt_eq_ok_iff.mp ha).mem ht
  obtain ⟨before', after', htext', -, hstop, -⟩ := (tokenizeAt_eq_ok_iff.mp ha).mem hu
  have hboundary : IsBoundary a t.span.start :=
    ⟨before, t.text.toList ++ after, htext, by rw [hstart, Nat.zero_add]⟩
  refine slice_append_left hboundary ?_ b
  show u.span.stop ≤ _
  rw [hstop, htext', byteLength_append, byteLength_append]
  omega

theorem keeps_behind (tag path a b : String) (lines : Nat) (ts : List Token) :
    (behind tag path a b lines).Keeps ts :=
  fun t _ u _ => slice_append_right a b t.span.start u.span.stop

/-- Tokens that move by nothing stay where they are. -/
theorem map_allMoved_zero (ss : List (List Token)) : ss.map (allMoved 0 0) = ss :=
  (List.map_congr_left fun s _ => allMoved_zero s).trans (List.map_id ss)

/-- What statements do under one path they do under another. -/
theorem applyStatements_renamed (h : ∀ v ∈ c.views.values, v.path ≠ tag) (path sql : String)
    (ss : List (List Token)) :
    applyStatements ⟨path, sql⟩ c ss =
      (renamed tag path sql).outcome (applyStatements ⟨tag, sql⟩ c ss) := by
  have hmoved : applyStatements ⟨path, sql⟩ c (ss.map (allMoved 0 0)) =
      (renamed tag path sql).outcome (applyStatements ⟨tag, sql⟩ c ss) :=
    Move.applyStatements_of_fresh (m := renamed tag path sql) h fun s _ =>
      keeps_renamed tag path sql s
  rwa [map_allMoved_zero] at hmoved

/-- Statements do the same where their file goes on. -/
theorem applyStatements_inFront (ha : tokenize a = .ok ts)
    (h : ∀ v ∈ c.views.values, v.path ≠ tag) (path b : String) :
    applyStatements ⟨path, a ++ b⟩ c (statements ts) =
      (inFront tag path a b).outcome (applyStatements ⟨tag, a⟩ c (statements ts)) := by
  have hmoved : applyStatements ⟨path, a ++ b⟩ c ((statements ts).map (allMoved 0 0)) =
      (inFront tag path a b).outcome (applyStatements ⟨tag, a⟩ c (statements ts)) :=
    Move.applyStatements_of_fresh (m := inFront tag path a b) h fun s hs =>
      (keeps_inFront ha tag path b).mono (subset_of_mem_statements hs)
  rwa [map_allMoved_zero] at hmoved

theorem applyStatements_behind (h : ∀ v ∈ c.views.values, v.path ≠ tag) (path a b : String)
    (lines : Nat) (us : List Token) :
    applyStatements ⟨path, a ++ b⟩ c (statements (allMoved (byteLength a.toList) lines us)) =
      (behind tag path a b lines).outcome (applyStatements ⟨tag, b⟩ c (statements us)) := by
  rw [statements_moved]
  exact Move.applyStatements_of_fresh (m := behind tag path a b lines) h fun s _ =>
    keeps_behind tag path a b lines s

/-- What a file does under one path it does under another. -/
theorem applyFile_renamed (h : ∀ v ∈ c.views.values, v.path ≠ tag) (path sql : String) :
    applyFile path sql c = (renamed tag path sql).outcome (applyFile tag sql c) := by
  unfold applyFile
  cases tokenize sql with
  | error e =>
      have hsame : (renamed tag path sql).catalog c = c := Move.catalog_of_fresh h
      show (c, [e.toDiagnostic path]) = ((renamed tag path sql).catalog c, _)
      rw [hsame]
      rfl
  | ok ts => exact applyStatements_renamed h path sql (statements ts)

/-- Under a path that no view carries yet, the views from the file are those with the path. -/
theorem declares_iff (h : ∀ v ∈ c.views.values, v.path ≠ tag) (sql key : String) :
    Declares sql c key ↔ ∃ v, (applyFile tag sql c).1.views.get? key = some v ∧ v.path = tag := by
  constructor
  · intro hdeclares
    obtain ⟨v, hv, hpath⟩ := (Option.any_eq_true ..).mp (hdeclares tag)
    exact ⟨v, hv, beq_iff_eq.mp hpath⟩
  · rintro ⟨v, hv, hpath⟩ path
    have hview : (applyFile path sql c).1.views.get? key =
        some ((renamed tag path sql).view v) := by
      rw [applyFile_renamed h path sql]
      show ((applyFile tag sql c).1.views.mapValues fun _ =>
        (renamed tag path sql).view).get? key = _
      rw [OrderedMap.get?_mapValues, hv]
      rfl
    have hmoved : ((renamed tag path sql).view v).path = path :=
      congrArg View.path (Move.view_of_eq hpath)
    rw [hview, Option.any_some, hmoved, beq_self_eq_true]

/-- A path that no view of the catalogs carries. -/
theorem exists_fresh (c c' : Catalog) :
    ∃ tag, (∀ v ∈ c.views.values, v.path ≠ tag) ∧ ∀ v ∈ c'.views.values, v.path ≠ tag := by
  obtain ⟨tag, htag⟩ := Infinite.exists_notMem_finset
    ((c.views.values ++ c'.views.values).map View.path).toFinset
  rw [List.mem_toFinset] at htag
  refine ⟨tag, fun v hv heq => htag ?_, fun v hv heq => htag ?_⟩
  · exact heq ▸ List.mem_map_of_mem (List.mem_append_left _ hv)
  · exact heq ▸ List.mem_map_of_mem (List.mem_append_right _ hv)

/-! ## Two files -/

/-- What two files do, said by what the second one does under a path that tells its views from all
others. -/
theorem applyFile_append_behind (hreturn : noBareReturn a.toList = true)
    (ha : tokenize a = .ok ts) (hb : tokenize b = .ok us) (hwhole : EndsWhole ts) (path : String)
    (hfresh : ∀ v ∈ c.views.values, v.path ≠ tag)
    (hfresh' : ∀ v ∈ (applyFile path a c).1.views.values, v.path ≠ tag) :
    let first := applyFile path a c
    let base := applyFile tag b first.1
    let m := behind tag path (a ++ "\n;\n") b (a.toList.count '\n' + 2)
    applyFile path (a ++ "\n;\n" ++ b) c =
      (m.catalog base.1, first.2 ++ base.2.map m.problem) := by
  intro first base m
  obtain ⟨t, ht, htokens⟩ := tokenize_append_line hreturn ha hb
  have hlength : byteLength (a ++ "\n;\n").toList = byteLength a.toList + 3 := by
    rw [String.toList_append, byteLength_append]
    rfl
  have hfirst : applyStatements ⟨path, a ++ "\n;\n" ++ b⟩ c (statements ts) = first := by
    have hthere := applyStatements_inFront ha hfresh path ("\n;\n" ++ b)
    have hhere : first = _ := applyFile_renamed hfresh path a
    rw [← String.append_assoc] at hthere
    rw [hthere, hhere]
    simp only [applyFile, ha]
    rfl
  have hbase : base = applyStatements ⟨tag, b⟩ first.1 (statements us) := by
    simp only [base, applyFile, hb]
  have hbehind : applyStatements ⟨path, a ++ "\n;\n" ++ b⟩ first.1
      (statements (allMoved (byteLength a.toList + 3) (a.toList.count '\n' + 2) us)) =
        m.outcome base := by
    rw [hbase, ← hlength]
    exact applyStatements_behind hfresh' path (a ++ "\n;\n") b _ us
  simp only [applyFile, htokens]
  rw [statements_append hwhole ht, applyStatements_append, hfirst, hbehind]
  rfl

/-- Behind another file a view stands further down where its own file declares it, and where it
stood otherwise. -/
theorem get?_views_behind (h : ∀ v ∈ c.views.values, v.path ≠ tag) (path a b : String)
    (lines : Nat) {key : String} {v : View}
    (hv : (applyFile path b c).1.views.get? key = some v) :
    let views := ((behind tag path a b lines).catalog (applyFile tag b c).1).views
    (Declares b c key → views.get? key = some (v.down lines)) ∧
      (¬ Declares b c key → views.get? key = some v) := by
  intro views
  let base := (applyFile tag b c).1
  let m := behind tag path a b lines
  have hget (f : View → View) :
      (base.views.mapValues fun _ => f).get? key = (base.views.get? key).map f :=
    OrderedMap.get?_mapValues _ _ key
  rw [applyFile_renamed h path b] at hv
  obtain ⟨w, hw, rfl⟩ := Option.map_eq_some_iff.mp ((hget _).symm.trans hv)
  have hview : views.get? key = some (m.view w) := by
    rw [← Option.map_some, ← hw]
    exact hget m.view
  rw [declares_iff h b key, hview]
  constructor
  · rintro ⟨w', hw', hpath⟩
    cases hw.symm.trans hw'
    rw [Move.view_of_eq hpath, Move.view_of_eq hpath]
    rfl
  · intro hnot
    have hpath : w.path ≠ tag := fun hpath => hnot ⟨w, hw, hpath⟩
    rw [Move.view_of_ne hpath, Move.view_of_ne hpath]

/-- Two files one behind the other, parted by a semicolon on a line of its own, do to a catalog
what the first one and then the second one do.  The views and the problems that come from the
second file stand further down. -/
theorem applyFile_append (c : Catalog) (hreturn : noBareReturn a.toList = true)
    (ha : tokenize a = .ok ts) (hb : tokenize b = .ok us) (hwhole : EndsWhole ts) (path : String) :
    let first := applyFile path a c
    let second := applyFile path b first.1
    let both := applyFile path (a ++ "\n;\n" ++ b) c
    let lines := a.toList.count '\n' + 2
    both.1.tables = second.1.tables ∧ both.1.views.keys = second.1.views.keys ∧
      (∀ key v, second.1.views.get? key = some v →
        (Declares b first.1 key → both.1.views.get? key = some (v.down lines)) ∧
        (¬ Declares b first.1 key → both.1.views.get? key = some v)) ∧
      both.2 = first.2 ++ second.2.map (Diagnostic.down lines) := by
  intro first second both lines
  obtain ⟨tag, hfresh, hfresh'⟩ := exists_fresh c first.1
  let base := applyFile tag b first.1
  let m := behind tag path (a ++ "\n;\n") b lines
  have hboth : both = (m.catalog base.1, first.2 ++ base.2.map m.problem) :=
    applyFile_append_behind hreturn ha hb hwhole path hfresh hfresh'
  have hsecond : second = (renamed tag path b).outcome base := applyFile_renamed hfresh' path b
  rw [hboth]
  refine ⟨?_, ?_, fun key v hv => get?_views_behind hfresh' path _ b lines hv, ?_⟩
  · rw [hsecond]
    rfl
  · rw [hsecond]
    show (base.1.views.mapValues fun _ => m.view).keys =
      (base.1.views.mapValues fun _ => (renamed tag path b).view).keys
    rw [OrderedMap.keys_mapValues, OrderedMap.keys_mapValues]
  · rw [hsecond, Move.outcome, List.map_map]
    rfl

/-- A file whose statement has no semicolon, with a quote in a comment at its end. -/
def front : String := "CREATE VIEW v AS\nSELECT 1 -- it's"

/-- A file that puts another view in the place of the one in `front`. -/
def back : String := "DROP VIEW v;\nCREATE VIEW v AS SELECT 2;\nDROP TABLE x"

/-- The view of the second file and the problem in it stand three lines further down. -/
theorem applyFile_append_of_replaced :
    let both := applyFile "s.sql" (front ++ "\n;\n" ++ back) .empty
    both.1.views.get? "v" = some ⟨"v", none, "SELECT 2", "s.sql", ⟨5, 18⟩⟩ ∧
      both.2 = [.error .unknownTable "cannot drop unknown table 'x'" "s.sql" ⟨6, 12⟩ none] := by
  let first := applyFile "s.sql" front .empty
  have hreturn : noBareReturn front.toList = true := by decide +kernel
  have hfront : tokenize front = .ok (tokensOf front .first) := by decide +kernel
  have hback : tokenize back = .ok (tokensOf back .first) := by decide +kernel
  have hwhole : EndsWhole (tokensOf front .first) := by decide +kernel
  have hview : (applyFile "s.sql" back first.1).1.views.get? "v" =
      some ⟨"v", none, "SELECT 2", "s.sql", ⟨2, 18⟩⟩ := by decide +kernel
  have hfresh : ∀ v ∈ first.1.views.values, v.path ≠ "other.sql" := by decide +kernel
  have hdeclares : Declares back first.1 "v" :=
    (declares_iff hfresh back "v").mpr
      ⟨⟨"v", none, "SELECT 2", "other.sql", ⟨2, 18⟩⟩, by decide +kernel, rfl⟩
  obtain ⟨-, -, hviews, hproblems⟩ :=
    applyFile_append .empty hreturn hfront hback hwhole "s.sql"
  have hfound : (applyFile "s.sql" front .empty).2 ++
      (applyFile "s.sql" back first.1).2.map (Diagnostic.down (front.toList.count '\n' + 2)) =
      [.error .unknownTable "cannot drop unknown table 'x'" "s.sql" ⟨6, 12⟩ none] := by
    decide +kernel
  exact ⟨(hviews "v" _ hview).1 hdeclares, hproblems.trans hfound⟩

end Schema

end TypedSql

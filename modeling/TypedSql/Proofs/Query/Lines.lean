import TypedSql.Proofs.Text.Boundary
import TypedSql.Query.File

/-!
# Where lines and sections stand

A query file is cut into lines, and the lines into sections.  Every line stands where its number
says, and two texts one behind the other give the lines and sections of both.

Main statements: `Line.ofText_append`, `Line.position_of_ofText`, `mem_splitSections`.
-/

namespace TypedSql

open Diagnostic Text Token

namespace Position

/-- Without a line feed reading stays on the line. -/
theorem line_after {p : Position} {cs : List Char} (h : '\n' ∉ cs) :
    (p.after cs).line = p.line := by
  induction cs generalizing p with
  | nil => rfl
  | cons c cs ih =>
      rw [List.mem_cons, not_or] at h
      change ((p.step c).after cs).line = p.line
      rw [ih h.2, step, if_neg (fun hc => h.1 hc.symm)]

theorem after_line {p : Position} {body : List Char} (h : '\n' ∉ body) :
    p.after (body ++ ['\n']) = ⟨p.line + 1, 1⟩ := by
  rw [after_append]
  change (p.after body).step '\n' = ⟨p.line + 1, 1⟩
  rw [step, if_pos rfl, line_after h]

end Position

namespace Query

namespace Line

/-! ## Lines -/

theorem split_eq_nil_iff {cs : List Char} : split cs = [] ↔ cs = [] := by
  cases cs with
  | nil => simp [split]
  | cons c cs =>
      simp only [split]
      split
      · simp
      · split <;> simp

/-- A line with a line behind it ends with its only line feed. -/
theorem split_eq_cons {cs l : List Char} {ls : List (List Char)} (h : split cs = l :: ls)
    (hls : ls ≠ []) : ∃ body rest, l = body ++ ['\n'] ∧ '\n' ∉ body ∧ split rest = ls := by
  induction cs generalizing l with
  | nil => cases h
  | cons c cs ih =>
      rw [split] at h
      split at h
      · next hc =>
          cases h
          exact ⟨[], cs, by simp [hc], by simp, rfl⟩
      · next hc =>
          split at h
          · cases h
            exact absurd rfl hls
          · next l' ls' hsplit =>
              cases h
              obtain ⟨body, rest, rfl, hbody, hrest⟩ := ih hsplit
              refine ⟨c :: body, rest, rfl, ?_, hrest⟩
              rw [List.mem_cons, not_or]
              exact ⟨fun h => hc h.symm, hbody⟩

/-- Reading over whole lines leads to the beginning of the line behind them. -/
theorem after_split {cs l : List Char} {ls ms : List (List Char)}
    (h : split cs = ls ++ l :: ms) (p : Position) (hp : p.column = 1) :
    p.after ls.flatten = ⟨p.line + ls.length, 1⟩ := by
  induction ls generalizing cs p with
  | nil =>
      cases p
      simp_all
  | cons first ls ih =>
      rw [List.cons_append] at h
      obtain ⟨body, rest, rfl, hbody, hrest⟩ := split_eq_cons h (by simp)
      rw [List.flatten_cons, Position.after_append, Position.after_line hbody,
        ih hrest _ rfl, List.length_cons]
      simp only [Position.mk.injEq, and_true]
      omega

/-- A text that is empty or ends with a line feed. -/
def Closed (cs : List Char) : Prop := cs = [] ∨ cs.getLast? = some '\n'

theorem Closed.tail {c : Char} {cs : List Char} (h : Closed (c :: cs)) : Closed cs := by
  rcases h with h | h
  · cases h
  · cases cs with
    | nil => exact .inl rfl
    | cons d cs => exact .inr (by rwa [List.getLast?_cons_cons] at h)

theorem split_append {a b : List Char} (h : Closed a) : split (a ++ b) = split a ++ split b := by
  induction a with
  | nil => rfl
  | cons c cs ih =>
      rw [List.cons_append, split, split]
      split
      · rw [ih h.tail, List.cons_append]
      · next hc =>
          rw [ih h.tail]
          cases hsplit : split cs with
          | nil =>
              rw [split_eq_nil_iff] at hsplit
              subst hsplit
              rcases h with h | h
              · cases h
              · exact absurd (Option.some.inj h) hc
          | cons l ls => rfl

/-- Whole lines in front of a text. -/
theorem split_lines {lines : List (List Char)} (h : ∀ l ∈ lines, '\n' ∉ l) (rest : List Char) :
    split (lines.flatMap (· ++ ['\n']) ++ rest) = lines.map (· ++ ['\n']) ++ split rest := by
  have hline {l : List Char} (hl : '\n' ∉ l) : split (l ++ ['\n']) = [l ++ ['\n']] := by
    induction l with
    | nil => rfl
    | cons c l ih =>
        rw [List.mem_cons, not_or] at hl
        rw [List.cons_append, split, if_neg (Ne.symm hl.1), ih hl.2]
  induction lines with
  | nil => rfl
  | cons l lines ih =>
      have hclosed : Closed (l ++ ['\n']) := .inr (by simp)
      rw [List.flatMap_cons, List.append_assoc, split_append hclosed,
        hline (h l List.mem_cons_self), ih fun m hm => h m (List.mem_cons_of_mem _ hm)]
      rfl

theorem split_cons_of_ne {c : Char} {cs l : List Char} {ls : List (List Char)} (hc : c ≠ '\n')
    (h : split cs = l :: ls) : split (c :: cs) = (c :: l) :: ls := by
  rw [split, if_neg hc, h]

/-- A line feed behind a text without one ends the last line. -/
theorem split_concat {cs : List Char} (hne : cs ≠ []) (hlast : cs.getLast? ≠ some '\n') :
    ∃ ls l, split cs = ls ++ [l] ∧ split (cs ++ ['\n']) = ls ++ [l ++ ['\n']] := by
  induction cs with
  | nil => exact absurd rfl hne
  | cons c cs ih =>
      cases cs with
      | nil =>
          have hc : c ≠ '\n' := fun hc => hlast (by rw [hc]; rfl)
          refine ⟨[], [c], ?_, ?_⟩ <;> simp [split, hc]
      | cons d cs =>
          obtain ⟨ls, l, hsplit, hclosed⟩ := ih (by simp) (by simpa using hlast)
          by_cases hc : c = '\n'
          · refine ⟨[c] :: ls, l, ?_, ?_⟩
            · rw [split, if_pos hc, hsplit, List.cons_append]
            · rw [List.cons_append, split, if_pos hc, hclosed, List.cons_append]
          · cases ls with
            | nil =>
                exact ⟨[], c :: l, split_cons_of_ne hc hsplit, split_cons_of_ne hc hclosed⟩
            | cons first ls =>
                exact ⟨(c :: first) :: ls, l, split_cons_of_ne hc hsplit,
                  split_cons_of_ne hc hclosed⟩

theorem length_split {cs : List Char} (h : Closed cs) : (split cs).length = cs.count '\n' := by
  induction cs with
  | nil => rfl
  | cons c cs ih =>
      have ih := ih h.tail
      rw [split]
      split
      · next hc => rw [List.length_cons, ih, hc, List.count_cons_self]
      · next hc =>
          rw [List.count_cons_of_ne hc, ← ih]
          cases hsplit : split cs with
          | nil =>
              rw [split_eq_nil_iff] at hsplit
              subst hsplit
              rcases h with h | h
              · cases h
              · exact absurd (Option.some.inj h) hc
          | cons l ls => rfl

theorem numberFrom_append (n : Nat) (xs ys : List (List Char)) :
    numberFrom n (xs ++ ys) = numberFrom n xs ++ numberFrom (n + xs.length) ys := by
  induction xs generalizing n with
  | nil => rfl
  | cons x xs ih =>
      rw [List.cons_append, numberFrom, numberFrom, ih, List.length_cons, List.cons_append,
        Nat.add_assoc, Nat.add_comm 1]

/-- The line `n` lines further down. -/
def down (n : Nat) (l : Line) : Line := { l with number := l.number + n }

theorem text_down (n : Nat) (l : Line) : (l.down n).text = l.text := rfl

theorem numberFrom_add (m n : Nat) (xs : List (List Char)) :
    numberFrom (m + n) xs = (numberFrom m xs).map (down n) := by
  induction xs generalizing m with
  | nil => rfl
  | cons x xs ih =>
      rw [numberFrom, numberFrom, List.map_cons, ← ih, Nat.add_right_comm]
      rfl

/-- The lines of two texts one behind the other. -/
theorem ofText_append {a b : String} (h : Closed a.toList) :
    ofText (a ++ b) = ofText a ++ (ofText b).map (down (a.toList.count '\n')) := by
  unfold ofText
  rw [String.toList_append, split_append h, numberFrom_append, length_split h, numberFrom_add]

theorem map_raw_numberFrom (n : Nat) (raws : List (List Char)) :
    (numberFrom n raws).map raw = raws := by
  induction raws generalizing n with
  | nil => rfl
  | cons r raws ih => rw [numberFrom, List.map_cons, ih]

theorem length_numberFrom (n : Nat) (raws : List (List Char)) :
    (numberFrom n raws).length = raws.length := by
  rw [← List.length_map (f := raw), map_raw_numberFrom]

theorem numberFrom_eq_append {n : Nat} {raws : List (List Char)} {before after : List Line}
    {l : Line} (h : numberFrom n raws = before ++ l :: after) :
    raws = before.map raw ++ l.raw :: after.map raw ∧ l.number = n + before.length := by
  induction before generalizing n raws with
  | nil =>
      cases raws with
      | nil => cases h
      | cons r raws =>
          rw [numberFrom] at h
          cases h
          exact ⟨by simp [map_raw_numberFrom], rfl⟩
  | cons m before ih =>
      cases raws with
      | nil => cases h
      | cons r raws =>
          rw [numberFrom] at h
          injection h with hhead htail
          obtain ⟨hraws, hnumber⟩ := ih htail
          subst hhead
          refine ⟨by rw [hraws]; rfl, ?_⟩
          rw [hnumber, List.length_cons]
          omega

/-- Every line begins at the position that its number gives. -/
theorem position_of_ofText {source : String} {before after : List Line} {l : Line}
    (h : ofText source = before ++ l :: after) :
    source.toList = join before ++ join (l :: after) ∧
      Position.first.after (join before) = ⟨l.number, 1⟩ := by
  obtain ⟨hraws, hnumber⟩ := numberFrom_eq_append h
  have hjoin (lines : List Line) : join lines = (lines.map raw).flatten := by
    rw [join, List.flatMap_def]
  constructor
  · rw [← flatten_split source.toList, hraws, hjoin, hjoin, List.flatten_append]
    rfl
  · rw [hjoin, after_split hraws _ rfl, hnumber, List.length_map]
    rfl

end Line

/-! ## Sections -/

/-- The section `n` lines further down. -/
def Section.down (n : Nat) (s : Section) : Section :=
  { s with number := s.number + n, body := s.body.map (Line.down n) }

theorem splitSections_prefix (lines : List Line) :
    ∃ rest, lines = (splitSections lines).1 ++ rest := by
  induction lines with
  | nil => exact ⟨[], rfl⟩
  | cons l ls ih =>
      obtain ⟨rest, hrest⟩ := ih
      rw [splitSections]
      cases Header.parse? l.text with
      | some header => exact ⟨l :: ls, rfl⟩
      | none => exact ⟨rest, congrArg (l :: ·) hrest⟩

/-- A section has a header line, with its body right behind it. -/
theorem mem_splitSections {lines : List Line} {s : Section} (h : s ∈ (splitSections lines).2) :
    ∃ before l after, lines = before ++ l :: (s.body ++ after) ∧ l.number = s.number := by
  induction lines with
  | nil => cases h
  | cons l ls ih =>
      have htail (h : s ∈ (splitSections ls).2) :
          ∃ before m after, l :: ls = before ++ m :: (s.body ++ after) ∧ m.number = s.number := by
        obtain ⟨before, m, after, rfl, hnumber⟩ := ih h
        exact ⟨l :: before, m, after, rfl, hnumber⟩
      rw [splitSections] at h
      cases hheader : Header.parse? l.text with
      | some header =>
          rw [hheader] at h
          rcases List.mem_cons.mp h with rfl | h
          · obtain ⟨rest, hrest⟩ := splitSections_prefix ls
            exact ⟨[], l, rest, congrArg (l :: ·) hrest, rfl⟩
          · exact htail h
      | none =>
          rw [hheader] at h
          exact htail h

theorem splitSections_of_headless {lines : List Line}
    (h : ∀ l ∈ lines, Header.parse? l.text = none) : splitSections lines = (lines, []) := by
  induction lines with
  | nil => rfl
  | cons l ls ih =>
      rw [splitSections, ih fun m hm => h m (List.mem_cons_of_mem _ hm), h l List.mem_cons_self]

/-- Lines that begin with a header stand apart from those before them. -/
theorem splitSections_append {ms : List Line} (h : (splitSections ms).1 = []) (ls : List Line) :
    splitSections (ls ++ ms) =
      ((splitSections ls).1, (splitSections ls).2 ++ (splitSections ms).2) := by
  induction ls with
  | nil =>
      change splitSections ms = ([], (splitSections ms).2)
      rw [← h]
  | cons l ls ih =>
      rw [List.cons_append, splitSections, splitSections, ih]
      cases Header.parse? l.text <;> rfl

theorem splitSections_down (n : Nat) (lines : List Line) :
    splitSections (lines.map (Line.down n)) =
      ((splitSections lines).1.map (Line.down n),
        (splitSections lines).2.map (Section.down n)) := by
  induction lines with
  | nil => rfl
  | cons l ls ih =>
      rw [List.map_cons, splitSections, splitSections, ih, Line.text_down]
      cases Header.parse? l.text <;> rfl

/-! ## Blocks -/

namespace Section

/-- The comment lines behind the header. -/
def remarkLines (s : Section) : List Line := s.body.takeWhile fun l => isCommentOrBlank l.text

/-- The lines of the statement. -/
def sqlLines (s : Section) : List Line := s.body.dropWhile fun l => isCommentOrBlank l.text

/-- The statement of the section. -/
def sql (s : Section) : String := String.ofList (trimEnd (Line.join s.sqlLines))

/-- The block with the statement that begins at `position`. -/
def block (path : String) (command : Command) (s : Section) (position : Position) : Block where
  name := s.header.name
  command := command
  path := path
  position := position
  sql := s.sql
  doc := Remark.docOf (s.remarkLines.map Remark.ofLine)
  query := (Query.parse s.sql position).toOption.getD .unread
  paramHints := Remark.hintsOf .param (s.remarkLines.map Remark.ofLine)
  columnHints := Remark.hintsOf .column (s.remarkLines.map Remark.ofLine)

/-- The problem of a statement that cannot be read. -/
def readProblems (path : String) (s : Section) (position : Position) : List Diagnostic :=
  match tokenizeAt s.sql position with
  | .ok _ => []
  | .error e => [e.toDiagnostic path]

end Section

theorem readBody_of_nil {s : Section} (h : s.sqlLines = []) (path : String) (command : Command) :
    readBody path command s =
      (none, s.remarkLines.filterMap (remarkProblem? path) ++
        [.error .emptyQuery ("query '" ++ s.header.name ++ "' is empty") path ⟨s.number, 1⟩
          none]) := by
  unfold Section.sqlLines at h
  unfold readBody
  rw [h]
  rfl

theorem readBody_of_cons {s : Section} {first : Line} {rest : List Line}
    (h : s.sqlLines = first :: rest) (path : String) (command : Command) :
    readBody path command s =
      (some (s.block path command ⟨first.number, 1⟩),
        s.remarkLines.filterMap (remarkProblem? path) ++
          s.readProblems path ⟨first.number, 1⟩) := by
  have hsql : s.sql = String.ofList (trimEnd (Line.join (first :: rest))) := by
    rw [Section.sql, h]
  unfold Section.sqlLines at h
  unfold readBody Section.block Section.readProblems Query.parse
  rw [h, hsql]
  simp only [Section.remarkLines]
  cases tokenizeAt (String.ofList (trimEnd (Line.join (first :: rest)))) ⟨first.number, 1⟩ with
  | ok tokens => rfl
  | error e => rfl

/-- A block has the lines of its section behind the remarks. -/
theorem block_of_readSection {path : String} {s : Section} {b : Block}
    (h : (readSection path s).1 = some b) :
    ∃ command first rest, s.sqlLines = first :: rest ∧
      b = s.block path command ⟨first.number, 1⟩ := by
  simp only [readSection] at h
  cases hcommand : s.header.command with
  | none => rw [hcommand] at h; cases h
  | some text =>
      rw [hcommand] at h
      simp only at h
      cases hparse : Command.parse? text with
      | none => rw [hparse] at h; cases h
      | some command =>
          rw [hparse] at h
          simp only at h
          cases hlines : s.sqlLines with
          | nil => rw [readBody_of_nil hlines] at h; cases h
          | cons first rest =>
              rw [readBody_of_cons hlines] at h
              cases h
              exact ⟨command, first, rest, rfl, rfl⟩

/-- A problem of a section stands at its header, at a remark or in its statement. -/
theorem position_of_mem_readSection {path : String} {s : Section} {d : Diagnostic}
    (h : d ∈ (readSection path s).2) :
    d.position = ⟨s.number, 1⟩ ∨ (∃ l ∈ s.remarkLines, d.position = ⟨l.number, 1⟩) ∨
      ∃ first rest, s.sqlLines = first :: rest ∧ d ∈ s.readProblems path ⟨first.number, 1⟩ := by
  have hremark (h : d ∈ s.remarkLines.filterMap (remarkProblem? path)) :
      ∃ l ∈ s.remarkLines, d.position = ⟨l.number, 1⟩ := by
    obtain ⟨l, hl, hd⟩ := List.mem_filterMap.mp h
    refine ⟨l, hl, ?_⟩
    unfold remarkProblem? at hd
    split at hd
    · cases hd
      rfl
    · cases hd
  simp only [readSection] at h
  cases hcommand : s.header.command with
  | none =>
      rw [hcommand] at h
      cases List.mem_singleton.mp h
      exact .inl rfl
  | some text =>
      rw [hcommand] at h
      simp only at h
      cases hparse : Command.parse? text with
      | none =>
          rw [hparse] at h
          cases List.mem_singleton.mp h
          exact .inl rfl
      | some command =>
          rw [hparse] at h
          simp only at h
          cases hlines : s.sqlLines with
          | nil =>
              rw [readBody_of_nil hlines] at h
              rcases List.mem_append.mp h with h | h
              · exact .inr (.inl (hremark h))
              · cases List.mem_singleton.mp h
                exact .inl rfl
          | cons first rest =>
              rw [readBody_of_cons hlines] at h
              rcases List.mem_append.mp h with h | h
              · exact .inr (.inl (hremark h))
              · exact .inr (.inr ⟨first, rest, rfl, h⟩)

/-- The problem of a section whose name is taken. -/
def Section.duplicate (path name : String) (s : Section) : Diagnostic :=
  .error .duplicateQuery ("duplicate query name '" ++ name ++ "'") path ⟨s.number, 1⟩ none

section

variable {path : String} {names : List String} {s : Section} {ss : List Section} {b : Block}
  {problems : List Diagnostic}

theorem readSections_of_none (h : readSection path s = (none, problems)) :
    readSections path names (s :: ss) =
      ((readSections path names ss).1, problems ++ (readSections path names ss).2) := by
  rw [readSections, h]

theorem readSections_of_known (h : readSection path s = (some b, problems)) (hb : b.name ∈ names) :
    readSections path names (s :: ss) =
      ((readSections path names ss).1,
        problems ++ s.duplicate path b.name :: (readSections path names ss).2) := by
  rw [readSections, h]
  exact if_pos (List.contains_iff_mem.mpr hb)

theorem readSections_of_new (h : readSection path s = (some b, problems)) (hb : b.name ∉ names) :
    readSections path names (s :: ss) =
      (b :: (readSections path (b.name :: names) ss).1,
        problems ++ (readSections path (b.name :: names) ss).2) := by
  rw [readSections, h]
  exact if_neg (fun hc => hb (List.contains_iff_mem.mp hc))

end

/-- Every block is read from one of the sections. -/
theorem mem_readSections {path : String} {names : List String} {ss : List Section} {b : Block}
    (h : b ∈ (readSections path names ss).1) : ∃ s ∈ ss, (readSection path s).1 = some b := by
  induction ss generalizing names with
  | nil => cases h
  | cons s ss ih =>
      have hlater {names' : List String} (h : b ∈ (readSections path names' ss).1) :
          ∃ s' ∈ s :: ss, (readSection path s').1 = some b := by
        obtain ⟨s', hs', hb⟩ := ih h
        exact ⟨s', List.mem_cons_of_mem _ hs', hb⟩
      rcases hs : readSection path s with ⟨block, problems⟩
      cases block with
      | none =>
          rw [readSections_of_none hs] at h
          exact hlater h
      | some c =>
          by_cases hc : c.name ∈ names
          · rw [readSections_of_known hs hc] at h
            exact hlater h
          · rw [readSections_of_new hs hc] at h
            rcases List.mem_cons.mp h with rfl | h
            · exact ⟨s, List.mem_cons_self, by rw [hs]⟩
            · exact hlater h

/-- Every problem is one of a section, or says that the name of one is taken. -/
theorem mem_problems_of_readSections {path : String} {names : List String} {ss : List Section}
    {d : Diagnostic} (h : d ∈ (readSections path names ss).2) :
    ∃ s ∈ ss, d ∈ (readSection path s).2 ∨ d.position = ⟨s.number, 1⟩ := by
  induction ss generalizing names with
  | nil => cases h
  | cons s ss ih =>
      have hlater {names' : List String} (h : d ∈ (readSections path names' ss).2) :
          ∃ s' ∈ s :: ss, d ∈ (readSection path s').2 ∨ d.position = ⟨s'.number, 1⟩ := by
        obtain ⟨s', hs', hd⟩ := ih h
        exact ⟨s', List.mem_cons_of_mem _ hs', hd⟩
      rcases hs : readSection path s with ⟨block, problems⟩
      have hhere (h : d ∈ problems) :
          ∃ s' ∈ s :: ss, d ∈ (readSection path s').2 ∨ d.position = ⟨s'.number, 1⟩ :=
        ⟨s, List.mem_cons_self, .inl (by rw [hs]; exact h)⟩
      cases block with
      | none =>
          rw [readSections_of_none hs] at h
          exact (List.mem_append.mp h).elim hhere hlater
      | some c =>
          by_cases hc : c.name ∈ names
          · rw [readSections_of_known hs hc] at h
            rcases List.mem_append.mp h with h | h
            · exact hhere h
            · rcases List.mem_cons.mp h with rfl | h
              · exact ⟨s, List.mem_cons_self, .inr rfl⟩
              · exact hlater h
          · rw [readSections_of_new hs hc] at h
            exact (List.mem_append.mp h).elim hhere hlater

/-- Sections behind others meet the names of their blocks. -/
theorem readSections_append (path : String) (names : List String) (ss us : List Section) :
    readSections path names (ss ++ us) =
      let x := readSections path names ss
      let y := readSections path ((x.1.map Block.name).reverse ++ names) us
      (x.1 ++ y.1, x.2 ++ y.2) := by
  induction ss generalizing names with
  | nil => rfl
  | cons s ss ih =>
      rcases hs : readSection path s with ⟨block, problems⟩
      rw [List.cons_append]
      cases block with
      | none =>
          rw [readSections_of_none hs, readSections_of_none hs, ih]
          simp only [List.append_assoc]
      | some b =>
          by_cases hb : b.name ∈ names
          · rw [readSections_of_known hs hb, readSections_of_known hs hb, ih]
            simp only [List.append_assoc, List.cons_append]
          · rw [readSections_of_new hs hb, readSections_of_new hs hb, ih]
            simp only [List.map_cons, List.reverse_cons, List.append_assoc, List.cons_append,
              List.nil_append]

/-- Names that no block has make no difference. -/
theorem readSections_of_not_mem {path : String} {names extra : List String} {ss : List Section}
    (h : ∀ b ∈ (readSections path names ss).1, b.name ∉ extra) :
    readSections path (names ++ extra) ss = readSections path names ss := by
  induction ss generalizing names with
  | nil => rfl
  | cons s ss ih =>
      rcases hs : readSection path s with ⟨block, problems⟩
      cases block with
      | none =>
          rw [readSections_of_none hs] at h ⊢
          rw [readSections_of_none hs, ih h]
      | some b =>
          by_cases hb : b.name ∈ names
          · rw [readSections_of_known hs hb] at h ⊢
            rw [readSections_of_known hs (List.mem_append_left _ hb), ih h]
          · rw [readSections_of_new hs hb] at h ⊢
            have hnew : b.name ∉ names ++ extra := by
              rw [List.mem_append, not_or]
              exact ⟨hb, h b List.mem_cons_self⟩
            rw [readSections_of_new hs hnew, ← List.cons_append,
              ih fun c hc => h c (List.mem_cons_of_mem _ hc)]

end Query

end TypedSql

import TypedSql.Proofs.Query.Comment
import TypedSql.Proofs.Query.Lines
import TypedSql.Proofs.Token.Reads

/-!
# Query files, written and read

A query file that is written block by block, each with its header, its comment lines and its
statement, is read back: there is nothing to report, and the blocks are those that were written, at
the lines where they were written.

Main definitions: `Draft`, `Draft.write`, `Draft.blocks`.  Main statement: `File.parse_write`.
-/

namespace TypedSql.Query

open Diagnostic Text Token

/-! ## What is written -/

/-- A query to be written in a file.  The statement begins on a line that is neither blank nor a
comment, and none of its lines is a header. -/
structure Draft where
  name : String
  command : Command
  notes : List Note
  sql : String
  isWord : IsWord name
  fits : ∀ n ∈ notes, n.Fits
  trimmed : Trimmed sql.toList
  begins : (Line.ofText sql).head?.any (fun l => !isCommentOrBlank l.text) = true
  headless : ∀ l ∈ Line.ofText sql, Header.parse? l.text = none
  readable : (tokenizeAt sql .first).isOk = true

namespace Draft

/-- The header, the comment lines, and the statement. -/
def pieces (d : Draft) : List String :=
  headerLine d.name d.command :: (d.notes.map Note.line ++ [d.sql])

/-- The text of a file, with a line feed behind each of the pieces. -/
def write (drafts : List Draft) : String :=
  String.join ((drafts.flatMap pieces).map fun piece => piece ++ "\n")

/-- The number of lines that a query takes. -/
def height (d : Draft) : Nat := d.notes.length + 2 + d.sql.toList.count '\n'

end Draft

/-! ## What is to be read -/

/-- The documentation in a comment line. -/
def Note.doc? : Note → Option String
  | doc text => some text
  | hint .. => none

/-- The annotation of a subject in line `number`. -/
def Note.hint? (subject : Subject) (number : Nat) : Note → Option TypeHint
  | doc _ => none
  | hint s name typeName nullable =>
      if s = subject then some ⟨name, typeName, nullable, ⟨number, 1⟩⟩ else none

namespace Draft

/-- The position of the statement where the header stands on line `n`. -/
def position (n : Nat) (d : Draft) : Position := ⟨n + 1 + d.notes.length, 1⟩

/-- The documentation, line by line. -/
def docs (d : Draft) : List String := d.notes.filterMap Note.doc?

/-- The annotations of a subject where the header stands on line `n`. -/
def hints (subject : Subject) (n : Nat) (d : Draft) : List TypeHint :=
  (d.notes.zipIdx (n + 1)).filterMap fun (note, number) => note.hint? subject number

/-- The block that is read where the header stands on line `n`. -/
def block (path : String) (n : Nat) (d : Draft) : Block where
  name := d.name
  command := d.command
  path := path
  position := d.position n
  sql := d.sql
  doc := if d.docs = [] then none else some ("\n".intercalate d.docs)
  query := (Query.parse d.sql (d.position n)).toOption.getD .unread
  paramHints := d.hints .param n
  columnHints := d.hints .column n

/-- The blocks that are read where the first header stands on line `n`. -/
def blocks (path : String) : Nat → List Draft → List Block
  | _, [] => []
  | n, d :: drafts => d.block path n :: blocks path (n + d.height) drafts

/-! ## Lines -/

/-- The comment lines where the header stands on line `n`. -/
def commentLines (n : Nat) (d : Draft) : List Line :=
  Line.numberFrom (n + 1) (d.notes.map fun note => note.line.toList ++ ['\n'])

/-- The lines of the statement where the header stands on line `n`. -/
def sqlLines (n : Nat) (d : Draft) : List Line :=
  Line.numberFrom (n + 1 + d.notes.length) (Line.split (d.sql.toList ++ ['\n']))

/-- What is read from the comment lines where the header stands on line `n`. -/
def remarks (n : Nat) (d : Draft) : List Remark :=
  (d.notes.zipIdx (n + 1)).map fun (note, number) => note.remark number

/-- The section that is written where the header stands on line `n`. -/
def toSection (n : Nat) (d : Draft) : Section where
  header := ⟨d.name, some d.command.display⟩
  number := n
  body := d.commentLines n ++ d.sqlLines n

variable (d : Draft) (n : Nat)

theorem text_concat {cs : List Char} (h : Trimmed cs) (m : Nat) :
    (Line.mk m (cs ++ ['\n'])).text = cs := by
  have hlast : ∀ c ∈ cs.getLast?, (c == '\n' || c == '\r') = false := by
    intro c hc
    rw [Bool.eq_false_iff]
    intro hend
    rw [Bool.or_eq_true, beq_iff_eq, beq_iff_eq] at hend
    have hblank := h c hc
    rcases hend with rfl | rfl <;> exact absurd hblank (by decide)
  rw [Line.text, trimEndWhile_concat (by decide), trimEndWhile_eq_self hlast]

theorem sql_ne_nil : d.sql.toList ≠ [] := by
  intro hnil
  have hbegins := d.begins
  rw [Line.ofText, hnil] at hbegins
  cases hbegins

theorem getLast?_sql : d.sql.toList.getLast? ≠ some '\n' :=
  fun hlast => absurd (d.trimmed '\n' hlast) (by decide)

/-- The lines of the statement say the same with a line feed behind the last one. -/
theorem map_text_sqlLines : (d.sqlLines n).map Line.text = (Line.ofText d.sql).map Line.text := by
  have htext (m : Nat) (raws : List (List Char)) : (Line.numberFrom m raws).map Line.text =
      raws.map fun raw => (Line.mk 0 raw).text :=
    calc (Line.numberFrom m raws).map Line.text
        = ((Line.numberFrom m raws).map Line.raw).map fun raw => (Line.mk 0 raw).text := by
          rw [List.map_map]
          rfl
      _ = raws.map fun raw => (Line.mk 0 raw).text := by rw [Line.map_raw_numberFrom]
  obtain ⟨ls, l, hsplit, hclosed⟩ := Line.split_concat d.sql_ne_nil d.getLast?_sql
  have hlast : (Line.mk 0 (l ++ ['\n'])).text = (Line.mk 0 l).text :=
    trimEndWhile_concat (by decide) l
  rw [sqlLines, Line.ofText, htext, htext, hsplit, hclosed, List.map_append, List.map_append,
    List.map_singleton, List.map_singleton, hlast]

theorem parse?_of_mem_sqlLines {l : Line} (h : l ∈ d.sqlLines n) : Header.parse? l.text = none := by
  have hmem : l.text ∈ (Line.ofText d.sql).map Line.text := by
    rw [← d.map_text_sqlLines n]
    exact List.mem_map_of_mem h
  obtain ⟨m, hm, htext⟩ := List.mem_map.mp hmem
  rw [← htext]
  exact d.headless m hm

/-- The statement begins on the line behind the comment lines. -/
theorem sqlLines_eq_cons : ∃ first rest, d.sqlLines n = first :: rest ∧
    first.number = n + 1 + d.notes.length ∧ isCommentOrBlank first.text = false := by
  have hbegins := d.begins
  have htexts := d.map_text_sqlLines n
  cases hlines : d.sqlLines n with
  | nil =>
      rw [hlines] at htexts
      rw [List.map_eq_nil_iff.mp htexts.symm] at hbegins
      cases hbegins
  | cons first rest =>
      refine ⟨first, rest, rfl, ?_, ?_⟩
      · rw [sqlLines] at hlines
        exact (@Line.numberFrom_eq_append _ _ [] rest first hlines).2
      · rw [hlines] at htexts
        cases hsql : Line.ofText d.sql with
        | nil => rw [hsql] at htexts; cases htexts
        | cons l ls =>
            rw [hsql] at htexts hbegins
            have hfirst : first.text = l.text := (List.cons.inj htexts).1
            rw [hfirst]
            simpa using hbegins

theorem join_sqlLines : Line.join (d.sqlLines n) = d.sql.toList ++ ['\n'] := by
  rw [Line.join, List.flatMap_def, sqlLines, Line.map_raw_numberFrom, Line.flatten_split]

theorem length_sqlLines : (d.sqlLines n).length = d.sql.toList.count '\n' + 1 := by
  have hclosed : Line.Closed (d.sql.toList ++ ['\n']) := .inr (by simp)
  rw [sqlLines, Line.length_numberFrom, Line.length_split hclosed]
  simp

/-- The lines of a file that goes on behind the query. -/
theorem numberFrom_split (rest : List Char) :
    Line.numberFrom n (Line.split
        ((d.pieces.map fun piece => piece ++ "\n").flatMap String.toList ++ rest)) =
      ⟨n, (headerLine d.name d.command).toList ++ ['\n']⟩ ::
        (d.commentLines n ++ d.sqlLines n ++
          Line.numberFrom (n + d.height) (Line.split rest)) := by
  have hfront : ∀ l ∈ (headerLine d.name d.command).toList ::
      d.notes.map fun note => note.line.toList, '\n' ∉ l := by
    intro l hl
    rcases List.mem_cons.mp hl with rfl | hl
    · exact newline_not_mem_headerLine d.isWord d.command
    · obtain ⟨note, hnote, rfl⟩ := List.mem_map.mp hl
      exact Note.newline_not_mem_line (d.fits note hnote)
  have hsql : Line.Closed (d.sql.toList ++ ['\n']) := .inr (by simp)
  have htext : (d.pieces.map fun piece => piece ++ "\n").flatMap String.toList ++ rest =
      ((headerLine d.name d.command).toList ::
        d.notes.map fun note => note.line.toList).flatMap (· ++ ['\n']) ++
          ((d.sql.toList ++ ['\n']) ++ rest) := by
    simp [pieces, List.flatMap_map, Function.comp_def]
  have hnumber : n + 1 + d.notes.length + (Line.split (d.sql.toList ++ ['\n'])).length =
      n + d.height := by
    have hlength := d.length_sqlLines n
    rw [sqlLines, Line.length_numberFrom] at hlength
    rw [hlength, height]
    omega
  rw [htext, Line.split_lines hfront, Line.split_append hsql, List.map_cons, List.cons_append,
    Line.numberFrom, List.map_map, Line.numberFrom_append, Line.numberFrom_append,
    List.length_map, hnumber, List.append_assoc]
  rfl

/-! ## Comment lines -/

theorem map_ofLine_commentLines : (d.commentLines n).map Remark.ofLine = d.remarks n := by
  have hnotes (notes : List Note) (hfits : ∀ note ∈ notes, note.Fits) (m : Nat) :
      (Line.numberFrom m (notes.map fun note => note.line.toList ++ ['\n'])).map Remark.ofLine =
        (notes.zipIdx m).map fun x => x.1.remark x.2 := by
    induction notes generalizing m with
    | nil => rfl
    | cons note notes ih =>
        have hnote := hfits note List.mem_cons_self
        rw [List.map_cons, Line.numberFrom, List.map_cons, List.zipIdx_cons, List.map_cons,
          ih fun other hother => hfits other (List.mem_cons_of_mem _ hother),
          Note.ofLine_eq hnote (text_concat (Note.trimmed_line hnote) m)]
  exact hnotes d.notes d.fits (n + 1)

theorem text_of_mem_commentLines {l : Line} (h : l ∈ d.commentLines n) :
    ∃ note ∈ d.notes, l.text = note.line.toList := by
  have hraw : l.raw ∈ (d.commentLines n).map Line.raw := List.mem_map_of_mem h
  rw [commentLines, Line.map_raw_numberFrom] at hraw
  obtain ⟨note, hnote, htext⟩ := List.mem_map.mp hraw
  refine ⟨note, hnote, ?_⟩
  rw [← text_concat (Note.trimmed_line (d.fits note hnote)) l.number, htext]

/-- None of the comment lines is an annotation that cannot be read. -/
theorem filterMap_remarkProblem? (path : String) :
    (d.commentLines n).filterMap (remarkProblem? path) = [] := by
  rw [List.filterMap_eq_nil_iff]
  intro l hl
  obtain ⟨note, hnote, htext⟩ := d.text_of_mem_commentLines n hl
  rw [remarkProblem?, Note.ofLine_eq (d.fits note hnote) htext]
  cases note <;> rfl

theorem filterMap_remarks {f : Remark → Option String} (hdoc : ∀ text, f (.doc text) = some text)
    (hhint : ∀ subject hint, f (.hint subject hint) = none) :
    (d.remarks n).filterMap f = d.docs := by
  have hnotes : d.notes = (d.notes.zipIdx (n + 1)).map Prod.fst := (List.zipIdx_map_fst ..).symm
  rw [docs, hnotes, remarks, List.filterMap_map, List.filterMap_map]
  congr 1
  funext x
  obtain ⟨note, number⟩ := x
  cases note with
  | doc text => exact hdoc text
  | hint => exact hhint _ _

theorem docOf_remarks : Remark.docOf (d.remarks n) =
    if d.docs = [] then none else some ("\n".intercalate d.docs) := by
  have hjoin (first : String) (rest : List String) :
      rest.foldl (fun all text => all ++ "\n" ++ text) first =
        "\n".intercalate (first :: rest) := by
    induction rest generalizing first with
    | nil => rfl
    | cons second rest ih => exact ih (first ++ "\n" ++ second)
  unfold Remark.docOf
  rw [d.filterMap_remarks n (fun _ => rfl) fun _ _ => rfl]
  cases d.docs with
  | nil => rfl
  | cons first rest => simp [hjoin]

theorem hintsOf_remarks (subject : Subject) :
    Remark.hintsOf subject (d.remarks n) = d.hints subject n := by
  rw [Remark.hintsOf, remarks, List.filterMap_map, hints]
  congr 1
  funext x
  obtain ⟨note, number⟩ := x
  cases note <;> rfl

/-! ## Blocks -/

theorem lines_toSection : (d.toSection n).remarkLines = d.commentLines n ∧
    (d.toSection n).sqlLines = d.sqlLines n := by
  have hcomments : ∀ l ∈ d.commentLines n, isCommentOrBlank l.text = true := by
    intro l hl
    obtain ⟨note, -, htext⟩ := d.text_of_mem_commentLines n hl
    rw [htext]
    exact note.isCommentOrBlank_line
  obtain ⟨first, rest, hlines, -, hfirst⟩ := d.sqlLines_eq_cons n
  constructor
  · show (d.commentLines n ++ d.sqlLines n).takeWhile _ = _
    rw [List.takeWhile_append_of_pos hcomments, hlines,
      List.takeWhile_cons_of_neg (by simp [hfirst]), List.append_nil]
  · show (d.commentLines n ++ d.sqlLines n).dropWhile _ = _
    rw [List.dropWhile_append_of_pos hcomments, hlines,
      List.dropWhile_cons_of_neg (by simp [hfirst])]

/-- The section is read as the block, and there is nothing to report. -/
theorem readSection_toSection (path : String) :
    readSection path (d.toSection n) = (some (d.block path n), []) := by
  obtain ⟨hremarks, hsqlLines⟩ := d.lines_toSection n
  obtain ⟨first, rest, hlines, hnumber, -⟩ := d.sqlLines_eq_cons n
  have hsql : (d.toSection n).sql = d.sql := by
    have htrim : trimEnd (d.sql.toList ++ ['\n']) = d.sql.toList := by
      rw [trimEnd, trimEndWhile_concat (by decide), trimEndWhile_eq_self d.trimmed]
    rw [Section.sql, hsqlLines, join_sqlLines, htrim, String.ofList_toList]
  have hposition : (⟨first.number, 1⟩ : Position) = d.position n := by rw [hnumber]; rfl
  -- Where the statement stands makes no difference to whether it can be read.
  have hreads : (d.toSection n).readProblems path (d.position n) = [] := by
    have hdown : d.position n = Position.down (n + d.notes.length) .first := by
      simp only [position, Position.down, Position.first, Position.mk.injEq, and_true]
      omega
    have hreadable := d.readable
    rw [Section.readProblems, hsql, hdown, tokenizeAt_down]
    cases htokens : tokenizeAt d.sql .first with
    | ok tokens => rfl
    | error e => rw [htokens] at hreadable; cases hreadable
  have hblock : (d.toSection n).block path d.command (d.position n) = d.block path n := by
    unfold Section.block
    rw [hsql, hremarks, map_ofLine_commentLines, docOf_remarks, hintsOf_remarks, hintsOf_remarks]
    rfl
  have hcommand : Command.parse? d.command.display = some d.command := by
    cases d.command <;> decide
  have hheader : (d.toSection n).header.command = some d.command.display := rfl
  have hbody := readBody_of_cons (hsqlLines.trans hlines) path d.command
  rw [hremarks, filterMap_remarkProblem?, hposition, hreads, hblock] at hbody
  simp only [readSection, hheader, hcommand]
  exact hbody

/-- The sections of a file where the first header stands on line `n`. -/
def sections : Nat → List Draft → List Section
  | _, [] => []
  | n, d :: drafts => d.toSection n :: sections (n + d.height) drafts

theorem splitSections_write (drafts : List Draft) :
    splitSections (Line.numberFrom n (Line.split (write drafts).toList)) =
      ([], sections n drafts) := by
  induction drafts generalizing n with
  | nil => rfl
  | cons d drafts ih =>
      have hwrite : (write (d :: drafts)).toList =
          (d.pieces.map fun piece => piece ++ "\n").flatMap String.toList ++
            (write drafts).toList := by
        simp [write]
      have hheadless : ∀ l ∈ d.commentLines n ++ d.sqlLines n, Header.parse? l.text = none := by
        intro l hl
        rcases List.mem_append.mp hl with hl | hl
        · obtain ⟨note, hnote, htext⟩ := d.text_of_mem_commentLines n hl
          rw [htext]
          exact Note.parse?_line (d.fits note hnote)
        · exact d.parse?_of_mem_sqlLines n hl
      have hheader : Header.parse?
          (Line.mk n ((headerLine d.name d.command).toList ++ ['\n'])).text =
            some ⟨d.name, some d.command.display⟩ := by
        rw [text_concat (trimmed_headerLine d.name d.command)]
        exact parse?_headerLine d.isWord d.command
      have hbehind := ih (n + d.height)
      rw [hwrite, numberFrom_split, splitSections, splitSections_append (by rw [hbehind]),
        splitSections_of_headless hheadless, hbehind, hheader]
      rfl

theorem readSections_sections (path : String) (names : List String) {drafts : List Draft}
    (hnames : (drafts.map (·.name)).Nodup) (hnew : ∀ d ∈ drafts, d.name ∉ names) :
    readSections path names (sections n drafts) = (blocks path n drafts, []) := by
  induction drafts generalizing n names with
  | nil => rfl
  | cons d drafts ih =>
      rw [List.map_cons, List.nodup_cons] at hnames
      have hread := d.readSection_toSection n path
      have hfirst : (d.block path n).name ∉ names := hnew d List.mem_cons_self
      have hlater : ∀ e ∈ drafts, e.name ∉ (d.block path n).name :: names := by
        intro e he hmem
        rcases List.mem_cons.mp hmem with hname | hmem
        · exact hnames.1 (List.mem_map.mpr ⟨e, he, hname⟩)
        · exact hnew e (List.mem_cons_of_mem _ he) hmem
      rw [sections, readSections_of_new hread hfirst, ih _ _ hnames.2 hlater]
      rfl

end Draft

/-- A file of queries with different names is read back: nothing is reported, and the blocks are
those that were written, in their order and at their places. -/
theorem File.parse_write (path : String) {drafts : List Draft}
    (hnames : (drafts.map (·.name)).Nodup) :
    File.parse path (Draft.write drafts) = ⟨path, Draft.blocks path 1 drafts, []⟩ := by
  have hsections : splitSections (Line.ofText (Draft.write drafts)) =
      ([], Draft.sections 1 drafts) := Draft.splitSections_write 1 drafts
  have hblocks : readSections path [] (Draft.sections 1 drafts) =
      (Draft.blocks path 1 drafts, []) :=
    Draft.readSections_sections 1 path [] hnames fun _ _ => List.not_mem_nil
  simp only [File.parse, hsections, hblocks]
  rfl

/-- A query with documentation and annotations, and one without. -/
theorem File.parse_write_users :
    let user : Draft :=
      { name := "GetUser"
        command := .one
        notes := [.doc "Fetch a user.", .hint .param "id" "int64" false,
          .hint .column "email" "text" true, .doc "By id."]
        sql := "SELECT id, email\n-- the key\nFROM users WHERE id = ?;"
        isWord := by decide +kernel
        fits := by decide +kernel
        trimmed := by decide +kernel
        begins := by decide +kernel
        headless := by decide +kernel
        readable := by decide +kernel }
    let users : Draft :=
      { name := "ListUsers"
        command := .many
        notes := []
        sql := "SELECT * FROM users;"
        isWord := by decide +kernel
        fits := by decide +kernel
        trimmed := by decide +kernel
        begins := by decide +kernel
        headless := by decide +kernel
        readable := by decide +kernel }
    Draft.write [user, users] = "-- name: GetUser :one\n-- Fetch a user.\n-- @param id int64\n" ++
        "-- @column email text null\n-- By id.\nSELECT id, email\n-- the key\n" ++
        "FROM users WHERE id = ?;\n-- name: ListUsers :many\nSELECT * FROM users;\n" ∧
      ([user, users].map (·.name)).Nodup ∧
      File.parse "users.sql" (Draft.write [user, users]) =
        ⟨"users.sql", Draft.blocks "users.sql" 1 [user, users], []⟩ := by
  intro user users
  have hnames : ([user, users].map (·.name)).Nodup := by decide
  exact ⟨by decide +kernel, hnames, File.parse_write "users.sql" hnames⟩

end TypedSql.Query

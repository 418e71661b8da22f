import TypedSql.Proofs.Reference.Insertion
import TypedSql.Proofs.Report.ParamTypes
import TypedSql.Proofs.Report.Views
import TypedSql.Proofs.Lists

/-!
# Parameters of inserted rows

In `INSERT INTO "t" ("c", …) VALUES (…), (…)`, with or without the list of columns, every `?` is a
parameter of its own.  It takes the type and the name of the column that has the number of its item,
in whichever row it stands; a name that comes again gets a number.

Main statement: `Analyzer.params_of_insertion`.
-/

namespace TypedSql

open Query Text Token

/-! ## Parameters without names -/

namespace Query

/-- Where every parameter is a `?`, each is a parameter of its own. -/
theorem readParams_of_positional {tokens : List Token} (h : ∀ t ∈ tokens, Grammar.Positional t) :
    readParams tokens = (tokens.filter (·.kind == .parameter)).map .ofToken := by
  have hplaces := paramPlaces_append (fun t ht => (h t ht).1) []
  rw [List.append_nil, paramPlaces, List.append_nil] at hplaces
  rw [readParams, hplaces, foldl_addParam_positional, List.nil_append]
  intro p hp
  obtain ⟨t, ht, rfl⟩ := List.mem_map.mp hp
  obtain ⟨hmem, hkind⟩ := List.mem_filter.mp ht
  exact Param.binding_ofToken ⟨beq_iff_eq.mp hkind, (h t hmem).2 (beq_iff_eq.mp hkind)⟩

/-- A parameter that is a token of its own is found at its index. -/
theorem paramIndex?_ofToken {tokens : List Token} {mark : Token} {i : Nat}
    (hpositions : tokens.Pairwise fun t u => t.position.Before u.position)
    (hi : tokens[i]? = some mark) (hkind : mark.kind = .parameter) :
    paramIndex? tokens (.ofToken mark) = some i := by
  obtain ⟨hlt, rfl⟩ := List.getElem?_eq_some_iff.mp hi
  have hsplit : tokens = tokens.take i ++ tokens[i] :: tokens.drop (i + 1) := by
    rw [← List.drop_eq_getElem_cons hlt, List.take_append_drop]
  have hwritten : (Param.ofToken tokens[i]).WrittenAt (tokens[i] :: tokens.drop (i + 1)) :=
    .inr ⟨_, _, rfl, hkind, rfl⟩
  rw [hsplit] at hpositions
  have hfound := (hwritten.foundAt hpositions).index
  rw [← hsplit, List.length_take, Nat.min_eq_left (Nat.le_of_lt hlt)] at hfound
  exact hfound

end Query

theorem baseNamesFrom_eq_map {α : Type} {xs : List α} {f : α → Param × Option Hint}
    {name : α → String} (h : ∀ x ∈ xs, ∀ number, baseName (f x).1 (f x).2 number = name x)
    (number : Nat) : baseNamesFrom number (xs.map f) = xs.map name := by
  induction xs generalizing number with
  | nil => rfl
  | cons x xs ih =>
      rw [List.map_cons, List.map_cons, baseNamesFrom, h x List.mem_cons_self,
        ih (fun y hy => h y (List.mem_cons_of_mem _ hy))]

/-- The type of the column of that name in a relation. -/
def Scope.typeIn (s : Scope) (relation name : String) : TypeInfo :=
  ((s.lookupIn relation name).toOption.map (·.type)).getD .unresolved

namespace Analyzer

variable {a : Analyzer} {c : Catalog} {b : Block} {q : Grammar.Insertion} {t : Table}

theorem Holds.oneSegment_insertion (h : a.Holds c b q.tokens) :
    a.OneSegment c b q.tokens ((Scope.ofCatalog a.overrides c).narrow q.tokens) where
  toHolds := h
  noWith := by
    rintro t ⟨⟩
    exact q.insert_isWord
  split := q.split _

/-- The columns are found among all relations. -/
theorem lookup_of_insertion (hkeyed : c.tables.KeyedBy Table.name) (h : q.InsertsInto c t)
    {name : String} (hname : name ∈ q.columnNames t) (i : Nat) :
    let base := Scope.ofCatalog a.overrides c
    let context := a.context c q.tokens (base.narrow q.tokens)
    ∃ d, t.column? name = some d ∧ base.lookup (some q.table.value) name =
        .ok ⟨d.name, t.name, a.overrides.typeOf t.name d⟩ ∧
      context.columnType? (context.scopeAt i) ⟨some q.table.value, name⟩ =
        some (base.typeIn q.table.value name) := by
  intro base context
  obtain ⟨d, hd⟩ := h.exists_column hname
  have ht : c.named? q.table.value = some t := by
    rw [Catalog.named?_eq hkeyed, h.table]
  obtain ⟨hlookup, htype⟩ := context_columnType? (a := a) ht hd q.references_eq rfl rfl rfl i
  have hin : base.lookupIn q.table.value name =
      .ok ⟨d.name, t.name, a.overrides.typeOf t.name d⟩ := hlookup
  refine ⟨d, hd, hlookup, htype.trans ?_⟩
  rw [Scope.typeIn, hin]
  rfl

theorem binding_placed {x : (Token × Nat) × String} (hx : x ∈ q.placed t) :
    (Param.ofToken x.1.1).binding = .positional := by
  obtain ⟨htoken, hkind⟩ := Grammar.mem_marksFrom (List.of_mem_zip hx).1
  exact Param.binding_ofToken
    ⟨hkind, (q.positional x.1.1 (List.mem_of_getElem? htoken)).2 hkind⟩

theorem Holds.paramIndex?_placed (h : a.Holds c b q.tokens) {x : (Token × Nat) × String}
    (hx : x ∈ q.placed t) : paramIndex? q.tokens (.ofToken x.1.1) = some x.1.2 := by
  obtain ⟨htoken, hkind⟩ := Grammar.mem_marksFrom (List.of_mem_zip hx).1
  exact paramIndex?_ofToken (tokenizeAt_eq_ok_iff.mp h.tokenized).positions_increase htoken hkind

/-- The hint of a `?` is the column that it goes into. -/
theorem hint?_of_insertion (hkeyed : c.tables.KeyedBy Table.name) (h : q.InsertsInto c t)
    {x : (Token × Nat) × String} (hx : x ∈ q.placed t) :
    let base := Scope.ofCatalog a.overrides c
    (a.context c q.tokens (base.narrow q.tokens)).hint? (InsertTarget.ofTokens c q.tokens) x.1.2
        false =
      some ⟨base.typeIn q.table.value x.2, some x.2⟩ := by
  intro base
  obtain ⟨hmark, hname⟩ := List.of_mem_zip hx
  obtain ⟨htoken, hkind⟩ := Grammar.mem_marksFrom hmark
  obtain ⟨d, -, -, htype⟩ :=
    lookup_of_insertion (a := a) hkeyed h (q.mem_columnNames_of_inserted hname) x.1.2
  have hword := (q.positional x.1.1 (List.mem_of_getElem? htoken)).1
  rw [ParamContext.hint?_of_ownItem _ (q.ownItem htoken hkind) htoken hword,
    h.assigned.find?_eq (Grammar.nodup_marksFrom 0 q.tokens) hx, Option.bind_some]
  exact congrArg (Option.map _) htype

/-- The parameters of the statement are its `?`, each with the column that it goes into. -/
theorem Holds.hintedParams_eq (h : a.Holds c b q.tokens) (hkeyed : c.tables.KeyedBy Table.name)
    (hinto : q.InsertsInto c t) :
    let base := Scope.ofCatalog a.overrides c
    a.hintedParams c q.tokens (base.narrow q.tokens) = (q.placed t).map fun x =>
      (.ofToken x.1.1, some ⟨base.typeIn q.table.value x.2, some x.2⟩) := by
  intro base
  have hparams : readParams q.tokens = (q.placed t).map fun x => .ofToken x.1.1 := by
    rw [readParams_of_positional q.positional, ← Grammar.map_fst_marksFrom 0,
      ← List.map_fst_zip (Nat.le_of_eq hinto.assigned.length), List.map_map, List.map_map]
    rfl
  rw [hintedParams, hparams, paramHints, List.map_map, List.zip_map']
  refine List.map_congr_left fun x hx => ?_
  refine Prod.ext rfl ?_
  show (paramIndex? q.tokens (.ofToken x.1.1)).bind _ = _
  rw [h.paramIndex?_placed hx]
  exact hint?_of_insertion hkeyed hinto hx

/-- The result of a `?` under a name. -/
theorem Holds.ofHint_placed (h : a.Holds c b q.tokens) {x : (Token × Nat) × String}
    (hx : x ∈ q.placed t) (shown : String) (hint : Hint) :
    ResultParam.ofHint q.tokens shown (.ofToken x.1.1, some hint) =
      ⟨shown, .positional, hint.type, false, none⟩ := by
  obtain ⟨htoken, hkind⟩ := Grammar.mem_marksFrom (List.of_mem_zip hx).1
  have hlength : Neighbor.inListLength? q.tokens x.1.2 = none := by
    rw [Neighbor.inListLength?, (q.ownItem htoken hkind).outside, Option.bind_none]
  rw [ResultParam.ofHint, h.paramIndex?_placed hx, Option.bind_some, hlength, binding_placed hx]
  rfl

/-- An insertion of rows has one result for each `?` in them, in their order.  The result has the
type that the column with the number of its item has among all relations, and the name of this
column, with a number where the name comes again. -/
theorem params_of_insertion (h : a.Holds c b q.tokens) (hkeyed : c.tables.KeyedBy Table.name)
    (hinto : q.InsertsInto c t) :
    let base := Scope.ofCatalog a.overrides c
    let inserted := q.inserted (q.columnNames t)
    (∀ name ∈ q.columnNames t, ∃ d, t.column? name = some d ∧
        base.lookup (some q.table.value) name =
          .ok ⟨d.name, t.name, a.overrides.typeOf t.name d⟩) ∧
      b.query.params = (q.tokens.filter (·.kind == .parameter)).map .ofToken ∧
      inserted.length = b.query.params.length ∧
      a.baseNames b = inserted ∧
      (a.analyze b).params = List.zipWith (fun shown name =>
          ⟨shown, .positional, base.typeIn q.table.value name, false, none⟩)
        (numberedNames [] inserted) inserted := by
  intro base inserted
  have hone := h.oneSegment_insertion
  have hhinted := h.hintedParams_eq hkeyed hinto
  have hlength : (Grammar.marksFrom 0 q.tokens).length = inserted.length := hinto.assigned.length
  have hnames : (q.placed t).map (·.2) = inserted := List.map_snd_zip (Nat.le_of_eq hlength.symm)
  have hbases : a.baseNames b = inserted := by
    rw [hone.baseNames_eq, hhinted, ← hnames]
    refine baseNamesFrom_eq_map (fun x hx number => ?_) 1
    rw [baseName, binding_placed hx]
    rfl
  refine ⟨fun name hname => ?_, ?_, ?_, hbases, ?_⟩
  · obtain ⟨d, hd, hlookup, -⟩ := lookup_of_insertion (a := a) hkeyed hinto hname 0
    exact ⟨d, hd, hlookup⟩
  · rw [h.params_query, readParams_of_positional q.positional]
  · rw [h.params_query, readParams_of_positional q.positional, List.length_map,
      ← Grammar.map_fst_marksFrom 0, List.length_map, hlength]
  · rw [hone.params_eq, hbases, hhinted, ← hnames]
    refine Lists.zipWith_map_congr (fun shown x hx => ?_) _
    exact h.ofHint_placed hx shown _

end Analyzer

/-- A row of a parameter and a literal. -/
def Grammar.Insertion.markAndLiteral : List Token :=
  .inLine .leftParen "(" 43 :: ([.inLine .parameter "?" 44] ++ .inLine .comma "," 45 ::
    [.inLine .string "'x'" 47] ++ [.inLine .rightParen ")" 50])

/-- A row of two parameters. -/
def Grammar.Insertion.twoMarks : List Token :=
  .inLine .leftParen "(" 53 :: ([.inLine .parameter "?" 54] ++ .inLine .comma "," 55 ::
    [.inLine .parameter "?" 57] ++ [.inLine .rightParen ")" 58])

theorem Grammar.Insertion.row_markAndLiteral : Row markAndLiteral [true, false] :=
  .mk rfl rfl (.more (.mark ⟨rfl, rfl⟩) ⟨rfl, rfl⟩ (.single (.literal (by decide) (by decide))))

theorem Grammar.Insertion.row_twoMarks : Row twoMarks [true, true] :=
  .mk rfl rfl (.more (.mark ⟨rfl, rfl⟩) ⟨rfl, rfl⟩ (.single (.mark ⟨rfl, rfl⟩)))

/-- An insertion of these rows. -/
def Grammar.Insertion.ofUsers : Grammar.Insertion where
  insert := .inLine .keyword "INSERT" 1
  into := .inLine .keyword "INTO" 8
  table := .inLine .quotedIdentifier "\"users\"" 13
  columnTokens := .inLine .leftParen "(" 21 :: ([.inLine .quotedIdentifier "\"id\"" 22] ++
    .inLine .comma "," 26 :: [.inLine .quotedIdentifier "\"name\"" 28] ++
      [.inLine .rightParen ")" 34])
  columns := some ["id", "name"]
  values := .inLine .keyword "VALUES" 36
  rowTokens := markAndLiteral ++ .inLine .comma "," 51 :: twoMarks
  rows := [[true, false], [true, true]]
  hinsert := .of_text rfl
  hinto := .of_text rfl
  htable := rfl
  hcolumns := .written rfl rfl
    (.more ⟨_, rfl, rfl, by decide⟩ ⟨rfl, rfl⟩ (.single ⟨_, rfl, rfl, by decide⟩))
  hvalues := .of_text rfl
  hrows := .more row_markAndLiteral ⟨rfl, rfl⟩ (.single row_twoMarks)

/-- The first items of both rows are of one column, whose name comes again. -/
theorem Analyzer.params_of_insertion_of_users :
    let b := Block.plain "INSERT INTO \"users\" (\"id\", \"name\") VALUES (?, 'x'), (?, ?)"
    b.query.params.length = 3 ∧ ofUsers.baseNames b = ["id", "id", "name"] ∧
      (ofUsers.analyze b).params =
        [⟨"id", .positional, .resolved .int64 true, false, none⟩,
          ⟨"id_2", .positional, .resolved .int64 true, false, none⟩,
          ⟨"name", .positional, .resolved .string true, false, none⟩] := by
  intro b
  let users : Table := { Table.bare "users" with
    columns := [.plain "id" "INTEGER", .plain "name" "TEXT"] }
  have htokens : tokenizeAt b.sql b.position = .ok Grammar.Insertion.ofUsers.tokens :=
    (tokenizeAt_ofList _ _).trans (by decide +kernel)
  have hholds : ofUsers.Holds (Catalog.empty.addTable users) b Grammar.Insertion.ofUsers.tokens :=
    ⟨rfl, htokens, (Block.parse_plain htokens).1, rfl⟩
  have hkeyed : (Catalog.empty.addTable users).tables.KeyedBy Table.name :=
    OrderedMap.KeyedBy.insert nofun users
  have hinto : Grammar.Insertion.ofUsers.InsertsInto (Catalog.empty.addTable users) users :=
    ⟨by decide, by decide, by decide⟩
  obtain ⟨-, -, hcount, hnames, hparams⟩ := params_of_insertion hholds hkeyed hinto
  exact ⟨hcount.symm, hnames, hparams.trans (by decide +kernel)⟩

end TypedSql

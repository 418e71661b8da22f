import TypedSql.Analysis.Statement
import TypedSql.Proofs.Diagnostic.Distinct

/-!
# What the passes note

Only the check of a recursive term notes that a term has another number of columns.  No other pass
uses the code of that note, and none writes a message that begins like it, so that no other issue
can be taken for it.  Nor does any pass write a message that begins like the one on the column list
of a view, or give its notes a path.

Main definition: `Diagnostic.Ordinary`.  Main statements: `ordinary_resolveWith`,
`ordinary_annotateColumns`, `Analyzer.offViews_resolve`.
-/

namespace TypedSql

open Diagnostic Query Token

/-- The text begins with that character. -/
def BeginsWith (c : Char) (s : String) : Prop := s.toList.head? = some c

instance (c : Char) (s : String) : Decidable (BeginsWith c s) :=
  inferInstanceAs (Decidable (_ = _))

theorem BeginsWith.append {c : Char} {s : String} (h : BeginsWith c s) (t : String) :
    BeginsWith c (s ++ t) := by
  rw [BeginsWith, String.toList_append, List.head?_append, h]
  rfl

/-- The diagnostic has no path and says neither that a recursive term has another number of columns
nor that a view has: neither its code nor the beginning of its message does. -/
structure Diagnostic.Ordinary (d : Diagnostic) : Prop where
  path : d.path = ""
  code : d.code ≠ .recursiveCountMismatch
  message : ∃ c, BeginsWith c d.message ∧ c ∉ ['r', 'v']

/-- The beginning of the message tells whether the code is that of recursive terms. -/
def Diagnostic.ToldByMessage (d : Diagnostic) : Prop :=
  d.code = .recursiveCountMismatch ↔ BeginsWith 'r' d.message

theorem Diagnostic.Ordinary.not_beginsWith {d : Diagnostic} (h : d.Ordinary) {c : Char}
    (hc : c ∈ ['r', 'v']) : ¬ BeginsWith c d.message := by
  obtain ⟨c', hmessage, hc'⟩ := h.message
  exact fun hbegins => hc' (Option.some.inj (hbegins.symm.trans hmessage) ▸ hc)

theorem Diagnostic.Ordinary.toldByMessage {d : Diagnostic} (h : d.Ordinary) :
    d.ToldByMessage := iff_of_false h.code (h.not_beginsWith (by decide))

theorem Diagnostic.code_stamp (path : String) (d : Diagnostic) :
    (d.stamp path).code = d.code := by
  unfold stamp
  split <;> rfl

/-- Of the notes on recursive terms one is kept if there is one: no other note takes its place. -/
theorem Diagnostic.exists_code_distinct_iff {path : String} {ds : List Diagnostic}
    (h : ∀ d ∈ ds, d.ToldByMessage) :
    (∃ d ∈ distinct path ds, d.code = .recursiveCountMismatch) ↔
      ∃ d ∈ ds, d.code = .recursiveCountMismatch := by
  constructor
  · rintro ⟨d, hd, hcode⟩
    obtain ⟨e, he, rfl⟩ := mem_distinct hd
    exact ⟨e, he, (code_stamp path e).symm.trans hcode⟩
  · rintro ⟨e, he, hcode⟩
    obtain ⟨d, hd, hissue⟩ := exists_mem_distinct path he
    obtain ⟨f, hf, rfl⟩ := mem_distinct hd
    have hmessage : f.message = e.message := by
      rw [← message_stamp path f, ← message_stamp path e]
      exact congrArg Issue.message hissue
    refine ⟨f.stamp path, hd, (code_stamp path f).trans ((h f hf).mpr ?_)⟩
    rw [hmessage]
    exact (h e he).mp hcode

/-! ## Notes on the way to a value -/

namespace Diagnostic.Noted

variable {α β : Type}

/-- The property holds of everything that is noted. -/
def All (P : Diagnostic → Prop) (x : Noted α) : Prop := ∀ d ∈ x.notes, P d

variable {P Q : Diagnostic → Prop}

theorem All.pure (a : α) : (Pure.pure a : Noted α).All P := nofun

theorem All.bind {x : Noted α} {f : α → Noted β} (hx : x.All P) (hf : ∀ a, (f a).All P) :
    (x >>= f).All P := fun d hd =>
  (List.mem_append.mp hd).elim (hx d) (hf x.value d)

theorem All.forEach {f : α → Noted Unit} (h : ∀ a, (f a).All P) (as : List α) :
    (Noted.forEach f as).All P := by
  intro d hd
  obtain ⟨a, -, hd⟩ := List.mem_flatMap.mp hd
  exact h a d hd

theorem All.imp {x : Noted α} (hx : x.All P) (h : ∀ d, P d → Q d) : x.All Q :=
  fun d hd => h d (hx d hd)

/-- Everything that is noted is ordinary. -/
abbrev Ordinary (x : Noted α) : Prop := x.All Diagnostic.Ordinary

variable {code : Code} {c : Char} {message : String}

theorem All.warning (hcode : code ≠ .recursiveCountMismatch)
    (hmessage : BeginsWith c message) (hc : c ∉ ['r', 'v']) (position : Position) :
    (Noted.warning code position message).Ordinary := by
  intro d hd
  cases List.mem_singleton.mp hd
  exact ⟨rfl, hcode, c, hmessage, hc⟩

theorem All.error (hcode : code ≠ .recursiveCountMismatch)
    (hmessage : BeginsWith c message) (hc : c ∉ ['r', 'v']) (position : Position) :
    (Noted.error code position message).Ordinary := by
  intro d hd
  cases List.mem_singleton.mp hd
  exact ⟨rfl, hcode, c, hmessage, hc⟩

end Diagnostic.Noted

open Diagnostic.Noted (Ordinary)

/-! ## Names and types -/

theorem Scope.LookupError.code_ne (e : Scope.LookupError) :
    e.code ≠ .recursiveCountMismatch := by
  unfold code
  split
  all_goals decide

theorem Scope.LookupError.beginsWith_message (e : Scope.LookupError) :
    ∃ c, BeginsWith c e.message ∧ c ∉ ['r', 'v'] := by
  cases e with
  | unknownRelation name => exact ⟨'u', .append (.append (by decide) _) _, by decide⟩
  | unknownColumn relation column =>
      exact ⟨'u', .append (.append (.append (.append (by decide) _) _) _) _, by decide⟩
  | noSuchColumn column => exact ⟨'u', .append (.append (by decide) _) _, by decide⟩
  | ambiguous column => exact ⟨'c', .append (.append (by decide) _) _, by decide⟩
  | unmapped column => exact ⟨'c', .append (.append (by decide) _) _, by decide⟩

section Inference

variable (mode : Mode) (s : Scope)

theorem ordinary_noteLookup (e : Scope.LookupError) (position : Position) :
    (mode.noteLookup e position).Ordinary := by
  obtain ⟨c, hmessage, hc⟩ := e.beginsWith_message
  unfold Mode.noteLookup
  split
  · exact .error e.code_ne hmessage hc position
  · exact .warning e.code_ne hmessage hc position
  · exact .warning e.code_ne hmessage hc position
  · exact .pure _

theorem ordinary_inferColumn (qualifier : Option String) (name : String)
    (position : Position) : (inferColumn mode s qualifier name position).Ordinary := by
  unfold inferColumn
  split
  · exact .pure _
  · exact .bind (ordinary_noteLookup mode _ position) fun _ => .pure _

theorem ordinary_totalType (function : Aggregate) (position : Position)
    (operand : Inferred) : (totalType function position operand).Ordinary := by
  have hdisplay : ∃ c, BeginsWith c function.display ∧ c ∉ ['r', 'v'] := by
    cases function with
    | count => exact ⟨'C', by decide, by decide⟩
    | sum => exact ⟨'S', by decide, by decide⟩
    | avg => exact ⟨'A', by decide, by decide⟩
    | min => exact ⟨'M', by decide, by decide⟩
    | max => exact ⟨'M', by decide, by decide⟩
    | coalesce => exact ⟨'C', by decide, by decide⟩
  obtain ⟨c, hmessage, hc⟩ := hdisplay
  unfold totalType
  split
  · exact .pure _
  · split
    · exact .pure _
    · exact .bind (.warning (by decide) (.append (.append (.append (.append hmessage _) _) _) _)
        hc position) fun _ => .pure _

theorem ordinary_inferAggregate (function : Aggregate) (position : Position)
    (operands : List Inferred) : (inferAggregate function position operands).Ordinary := by
  unfold inferAggregate
  split
  · exact .pure _
  · refine .bind ?_ fun _ => .pure _
    unfold aggregateType
    split
    · exact .pure _
    · exact ordinary_totalType _ position _
    · exact ordinary_totalType _ position _
    · exact .pure _
    · exact .pure _
    · exact .pure _

mutual

theorem Expr.ordinary_infer (e : Expr) : (e.infer mode s).Ordinary := by
  cases e with
  | column qualifier name position =>
      rw [Expr.infer]
      exact ordinary_inferColumn mode s qualifier name position
  | literal type =>
      rw [Expr.infer]
      exact .pure _
  | cast operand typeName =>
      rw [Expr.infer]
      exact .bind (Expr.ordinary_infer operand) fun _ => .pure _
  | aggregate function position operands =>
      cases function with
      | count =>
          rw [Expr.infer]
          exact .pure _
      | _ =>
          rw [Expr.infer]
          · exact .bind (Expr.ordinary_inferAll operands) fun _ =>
              ordinary_inferAggregate _ position _
          · rintro ⟨⟩
  | other =>
      rw [Expr.infer]
      exact .pure _

theorem Expr.ordinary_inferAll (es : List Expr) :
    (Expr.inferAll mode s es).Ordinary := by
  cases es with
  | nil =>
      rw [Expr.inferAll]
      exact .pure _
  | cons e rest =>
      rw [Expr.inferAll]
      exact .bind (Expr.ordinary_infer e) fun _ =>
        .bind (Expr.ordinary_inferAll rest) fun _ => .pure _

end

/-! ## Output columns -/

theorem ordinary_defaultName (item : Item) (tokens : List Token) (inferred : Inferred)
    (number : Nat) : (defaultName mode item tokens inferred number).Ordinary := by
  have hunnamed : (defaultName.unnamed mode item number).Ordinary := by
    unfold defaultName.unnamed
    split
    · exact .pure _
    · exact .bind (.warning (by decide)
        (.append (.append (.append (.append (by decide : BeginsWith 'c' _) _) _) _) _)
        (by decide) _) fun _ => .pure _
  unfold defaultName
  dsimp only
  split
  · exact .bind (.warning (by decide)
      (.append (.append (.append (.append (by decide : BeginsWith 'a' _) _) _) _) _)
      (by decide) _) fun _ => .pure _
  · split
    · split
      · exact .pure _
      · exact hunnamed
    · exact hunnamed

theorem ordinary_resolveItem (number : Nat) (item : Item) :
    (resolveItem mode s number item).Ordinary := by
  unfold resolveItem
  split
  · unfold expandAll
    dsimp only
    split
    · exact .bind (.warning (by decide) (by decide : BeginsWith 'c' _) (by decide) _) fun _ =>
        .pure _
    · exact .pure _
  · unfold expandQualified
    split
    · exact .pure _
    · dsimp only
      split
      · exact .bind (.warning (by decide)
          (.append (.append (by decide : BeginsWith 'c' _) _) _) (by decide) _) fun _ => .pure _
      · exact .bind (ordinary_noteLookup mode _ _) fun _ => .pure _
  · exact .bind (ordinary_inferColumn mode s _ _ _) fun _ => .pure _
  · refine .bind (Expr.ordinary_infer mode s _) fun inferred => ?_
    dsimp only
    split
    · exact .bind (.pure _) fun _ => .pure _
    · exact .bind (ordinary_defaultName mode item _ inferred number) fun _ => .pure _

theorem ordinary_resolveItems (count : Nat) (items : List Item) :
    (resolveItems mode s count items).Ordinary := by
  induction items generalizing count with
  | nil => exact .pure _
  | cons item items ih =>
      exact .bind (ordinary_resolveItem mode s _ item) fun _ => .bind (ih _) fun _ => .pure _

end Inference

/-! ## The other passes -/

theorem Query.Cte.ordinary_noteMissing (s : Scope) : (noteMissing s).Ordinary :=
  .forEach (fun _ => .warning (by decide) (.append (.append (by decide : BeginsWith 'u' _) _) _)
    (by decide) _) _

theorem Query.Cte.ordinary_nameColumns (cte : Cte) (number : Nat)
    (columns : List ResultColumn) : (cte.nameColumns number columns).Ordinary := by
  induction columns generalizing number with
  | nil => exact .pure _
  | cons column columns ih =>
      unfold nameColumns
      dsimp only
      split
      · exact .bind (.error (by decide)
          (.append (.append (.append (.append (by decide : BeginsWith 'c' _) _) _) _) _)
          (by decide) _) fun _ => .bind (.pure _) fun _ => .bind (ih _) fun _ => .pure _
      · exact .bind (.pure _) fun _ => .bind (ih _) fun _ => .pure _

theorem Query.Cte.ordinary_resolveAnchor (base : Scope) (cte : Cte) (anchor : List Token) :
    (resolveAnchor base cte anchor).Ordinary := by
  unfold resolveAnchor
  dsimp only
  split
  · exact .bind (.error (by decide) (.append (.append (by decide : BeginsWith 'C' _) _) _)
      (by decide) _) fun _ => .pure _
  · refine .bind (ordinary_noteMissing _) fun _ =>
      .bind (ordinary_resolveItems .cte _ 0 _) fun columns => .bind ?_ fun _ => .pure _
    unfold applyNames
    split
    · exact cte.ordinary_nameColumns 1 columns
    · split
      · exact .pure _
      · exact .bind (.error (by decide)
          (.append (.append (.append (.append (.append (by decide : BeginsWith 'C' _) _) _) _) _) _)
          (by decide) _) fun _ => cte.ordinary_nameColumns 1 columns

namespace Query.Cte

variable (base : Scope) (cte : Cte)

/-- What is reported of a second part with another number of columns. -/
def mismatch (cte : Cte) (projected expected : Nat) : Diagnostic :=
  .error .recursiveCountMismatch ("recursive term of CTE '" ++ cte.name ++ "' projects " ++
    toString projected ++ " columns; expected " ++ toString expected) "" cte.position none

theorem toldByMessage_mismatch (cte : Cte) (projected expected : Nat) :
    (cte.mismatch projected expected).ToldByMessage :=
  iff_of_true rfl
    (.append (.append (.append (.append (.append (by decide : BeginsWith 'r' _) _) _) _) _) _)

/-- Of the second part of a body nothing else is noted. -/
theorem mem_checkRecursion {expected : Nat} {term : List Token} {d : Diagnostic}
    (h : d ∈ (checkRecursion base cte expected term).notes) :
    ∃ projected, d = cte.mismatch projected expected := by
  unfold checkRecursion at h
  dsimp only at h
  split at h
  · split at h
    · cases h
    · next projected _ =>
        split at h
        · cases h
        · exact ⟨projected, List.mem_singleton.mp h⟩
  · cases h

end Query.Cte

/-- The diagnostic says that a name is not found. -/
def Diagnostic.OfLookup (d : Diagnostic) : Prop :=
  d.path = "" ∧ ∃ e : Scope.LookupError, d.code = e.code ∧ d.message = e.message

theorem Diagnostic.OfLookup.ordinary {d : Diagnostic} (h : d.OfLookup) : d.Ordinary := by
  obtain ⟨hpath, e, hcode, hmessage⟩ := h
  exact ⟨hpath, hcode ▸ e.code_ne, hmessage ▸ e.beginsWith_message⟩

namespace Identifier

variable (s : Scope) (known : List String)

theorem ofLookup_check (qualifier : Option String) (column : String) (position : Position) :
    ∀ d ∈ (check s qualifier column position).notes, d.OfLookup := by
  unfold check
  split
  · exact nofun
  · next e _ =>
      split
      · intro d hd
        cases List.mem_singleton.mp hd
        exact ⟨rfl, e, rfl, rfl⟩
      · exact nofun

theorem ofLookup_checkDotted (first : Token) (parts : List Token) :
    ∀ d ∈ (checkDotted s first parts).notes, d.OfLookup := by
  unfold checkDotted
  split
  · split
    · exact nofun
    · exact ofLookup_check s _ _ _
  · exact nofun

theorem ofLookup_checkBare (t : Token) : ∀ d ∈ (checkBare s known t).notes, d.OfLookup := by
  unfold checkBare
  split
  · exact nofun
  · exact ofLookup_check s _ _ _

/-- The scan for identifiers says nothing but that names are not found. -/
theorem ofLookup_checkPlaces (skipped : List Range) (places : List Place) :
    ∀ d ∈ (checkPlaces s known skipped places).notes, d.OfLookup := by
  fun_induction checkPlaces s known skipped places with
  | case1 => exact nofun
  | case2 _ _ _ ih => exact ih
  | case3 p _ _ _ _ ih =>
      exact fun d hd => (List.mem_append.mp hd).elim (ofLookup_checkDotted s p.token _ d) (ih d)
  | case4 p _ _ _ ih =>
      exact fun d hd => (List.mem_append.mp hd).elim (ofLookup_checkBare s known p.token d) (ih d)

end Identifier

/-- The diagnostic warns of an annotation with an unknown type. -/
def Diagnostic.OfType (d : Diagnostic) : Prop :=
  ∃ position rest,
    d = ⟨.warning, .untypedExpression, "unknown type '" ++ rest, "", position, none⟩

theorem Diagnostic.OfType.ordinary {d : Diagnostic} (h : d.OfType) : d.Ordinary := by
  obtain ⟨position, rest, rfl⟩ := h
  have hcode : Code.untypedExpression ≠ .recursiveCountMismatch := by decide
  exact ⟨rfl, hcode, 'u', .append (by decide) _, by decide⟩

theorem ofType_annotatedType (annotations : List TypeHint) (name : String) (type : TypeInfo) :
    ∀ d ∈ (annotatedType annotations name type).notes, d.OfType := by
  intro d hd
  unfold annotatedType at hd
  split at hd
  · cases hd
  · split at hd
    · cases hd
    · cases List.mem_singleton.mp hd
      rw [String.append_assoc, String.append_assoc, String.append_assoc]
      exact ⟨_, _, rfl⟩

/-- What is noted of parameters is noted of annotations for them. -/
theorem ofType_finishFrom (annotations : List TypeHint) (tokens : List Token) (number : Nat)
    (used : List String) (params : List (Param × Option Hint)) :
    ∀ d ∈ (finishFrom annotations tokens number used params).notes, d.OfType := by
  induction params generalizing number used with
  | nil => exact nofun
  | cons p params ih =>
      intro d hd
      rw [finishFrom] at hd
      rcases List.mem_append.mp hd with hd | hd
      · exact ofType_annotatedType annotations _ _ d hd
      · rcases List.mem_append.mp hd with hd | hd
        · exact ih _ _ d hd
        · cases hd

namespace Analyzer

theorem ordinary_noteMissing (segments : List Segment) :
    (noteMissing segments).Ordinary :=
  .forEach (fun _ => .forEach (fun _ =>
    .error (by decide) (.append (.append (by decide : BeginsWith 'u' _) _) _) (by decide) _) _) _

theorem ordinary_checkSegment (b : Block) (tokens : List Token) (returning : List Item)
    (columns : List ResultColumn) (s : Segment) :
    (checkSegment b tokens returning columns s).Ordinary :=
  .forEach (fun _ d hd => (Identifier.ofLookup_checkPlaces _ _ _ _ d hd).ordinary) _

/-- What is noted of a recursive term is noted of a definition. -/
theorem ordinary_resolveWith {overrides : ColumnOverrides} {catalog : Catalog} {b : Block}
    {tokens : List Token} {returning : List Item} {d : Diagnostic}
    (h : d ∈ (resolveWith overrides catalog b tokens returning).notes) :
    d ∈ (resolveCtes b.query.recursive (.ofCatalog overrides catalog) b.query.ctes).notes ∨
      d.Ordinary := by
  rcases List.mem_append.mp h with h | h
  · exact .inl h
  · right
    refine Noted.All.bind (ordinary_noteMissing _) (fun _ =>
      .bind (ordinary_resolveItems .query _ 0 _) fun _ =>
      .bind (ordinary_resolveItems .query _ 0 _) fun _ =>
      .bind (fun d hd => (ofType_finishFrom _ tokens 1 [] _ d hd).ordinary) fun _ => ?_) d h
    dsimp only
    split
    · exact .bind (.forEach (fun s => ordinary_checkSegment b tokens returning _ s) _)
        fun _ => .pure _
    · exact .pure _

theorem ordinary_annotateColumns (columns : List ResultColumn) (annotations : List TypeHint) :
    (annotateColumns columns annotations).Ordinary := by
  induction annotations generalizing columns with
  | nil => exact .pure _
  | cons a annotations ih =>
      refine .bind ?_ fun _ => ih _
      unfold annotateColumn
      split
      · exact .bind (.warning (by decide) (.append (.append (by decide : BeginsWith 'a' _) _) _)
          (by decide) _) fun _ => .pure _
      · split
        · exact .pure _
        · exact .bind (.warning (by decide)
            (.append (.append (.append (.append (by decide : BeginsWith 'u' _) _) _) _) _)
            (by decide) _) fun _ => .pure _

end Analyzer

/-! ## Every note -/

/-- The diagnostic has no path, and its message does not begin like the one on the column list of a
view. -/
def Diagnostic.OffViews (d : Diagnostic) : Prop := d.path = "" ∧ ¬ BeginsWith 'v' d.message

theorem Diagnostic.Ordinary.offViews {d : Diagnostic} (h : d.Ordinary) : d.OffViews :=
  ⟨h.path, h.not_beginsWith (by decide)⟩

theorem Query.Cte.offViews_mismatch (cte : Cte) (projected expected : Nat) :
    (cte.mismatch projected expected).OffViews := by
  refine ⟨rfl, fun hv => ?_⟩
  have hr := (cte.toldByMessage_mismatch projected expected).mp rfl
  cases hr.symm.trans hv

theorem Query.Cte.offViews_resolve (recursive : Bool) (base : Scope) (cte : Cte) :
    (cte.resolve recursive base).All OffViews := by
  unfold resolve
  refine .bind ((ordinary_resolveAnchor _ _ _).imp fun _ => Ordinary.offViews) fun found => ?_
  cases found with
  | none => exact .pure _
  | some columns =>
      dsimp only
      split
      · refine .bind (fun d hd => ?_) fun _ => .pure _
        obtain ⟨projected, rfl⟩ := mem_checkRecursion _ cte hd
        exact cte.offViews_mismatch projected _
      · exact .pure _

theorem offViews_resolveCtes (recursive : Bool) (base : Scope) (ctes : List Cte) :
    (resolveCtes recursive base ctes).All OffViews := by
  induction ctes generalizing base with
  | nil => exact .pure _
  | cons cte ctes ih => exact .bind (cte.offViews_resolve recursive base) fun _ => ih _

/-- Nothing that is noted of a block has a path or is taken for a note on the column list of a
view. -/
theorem Analyzer.offViews_resolve (a : Analyzer) (b : Block) (tokens : List Token) :
    (a.resolve b tokens).All OffViews := by
  have hcolumns (columns : List ResultColumn) (params : List ResultParam) :
      (do
        let columns ← annotateColumns columns b.columnHints
        return (columns, params) : Noted (List ResultColumn × List ResultParam)).All OffViews :=
    .bind ((ordinary_annotateColumns _ _).imp fun _ => Ordinary.offViews) fun _ => .pure _
  unfold resolve
  dsimp only
  split
  · refine .bind (fun d hd => ?_) fun found => hcolumns found.1 found.2
    exact (ordinary_resolveWith hd).elim (offViews_resolveCtes _ _ _ d) Ordinary.offViews
  · refine .bind (Noted.All.imp (P := Diagnostic.Ordinary) ?_ fun _ => Ordinary.offViews)
      fun found => hcolumns found.1 found.2
    exact .bind (.warning (by decide) (by decide : BeginsWith 'n' _) (by decide) _) fun _ =>
      .bind (fun d hd => (ofType_finishFrom _ tokens 1 [] _ d hd).ordinary) fun _ => .pure _

end TypedSql

import TypedSql.Schema.TableBody
import TypedSql.Token.Reader
import TypedSql.Proofs.Reference.Grammar

/-!
# The clauses of a column definition

A grammar of the clauses that can stand behind the type of a column.  The reader knows no grammar
and looks for three words; this module says what it makes of a definition that the grammar writes.
Every clause says what it should, wherever it stands among the others, with one exception: the
`DEFAULT` of an action `SET DEFAULT` is taken for a clause of its own, and the next word for its
value.

Main definitions: `ColumnClause`, `ColumnDefinition`, `ColumnDefinition.declared`,
`ColumnDefinition.reading`.  Main statements: `readFrom_clauses`, `readColumn_definition`.
-/

namespace TypedSql

open Text Token

/-- The column has the name and the type of the other, and is not marked where the other is
not. -/
structure Column.Within (column other : Column) : Prop where
  name : column.name = other.name
  declaration : column.declaration = other.declaration
  notNull : column.notNull = true → other.notNull = true
  primaryKey : column.primaryKey = true → other.primaryKey = true

namespace Schema

/-! ## The grammar -/

/-- A bare word that is one of `words`, in any case. -/
structure Spelled (words : List String) where
  token : Token
  spelled : token.isAnyWord words = true

/-- A name, which can be written as a text. -/
structure Naming where
  token : Token
  naming : token.IsNaming ∨ token.kind = .string

/-- A balanced list in parentheses. -/
structure Enclosed where
  openParen : Token
  inner : List Token
  closeParen : Token
  hopen : openParen.kind = .leftParen
  hclose : closeParen.kind = .rightParen
  hinner : Balanced inner

/-- The value behind `DEFAULT`. -/
inductive DefaultValue
  | quoted (t : Token) (h : t.kind = .string ∨ t.kind = .blob)
  | number (t : Token) (h : t.kind = .integer ∨ t.kind = .float)
  | word (w : Spelled
      ["NULL", "TRUE", "FALSE", "CURRENT_DATE", "CURRENT_TIME", "CURRENT_TIMESTAMP"])
  | signed (sign t : Token) (hsign : isSign sign = true) (h : t.kind = .integer ∨ t.kind = .float)
  | enclosed (g : Enclosed)

/-- What becomes of a row when the row that it refers to changes. -/
inductive Reaction
  | one (word : Spelled ["CASCADE", "RESTRICT"])
  | noAction (no : Spelled ["NO"]) (action : Spelled ["ACTION"])
  | setNull (set : Spelled ["SET"]) (null : Spelled ["NULL"])
  | setDefault (set : Spelled ["SET"]) (default : Spelled ["DEFAULT"])

/-- A clause behind the type of a column.  `REFERENCES t (a)` is one clause, and every `ON DELETE`
or `ON UPDATE` behind it is another. -/
inductive ColumnClause
  | notNull (not : Spelled ["NOT"]) (null : Spelled ["NULL"])
  | null (null : Spelled ["NULL"])
  | unique (unique : Spelled ["UNIQUE"])
  | primaryKey (primary : Spelled ["PRIMARY"]) (key : Spelled ["KEY"])
      (order : Option (Spelled ["ASC", "DESC"])) (increment : Option (Spelled ["AUTOINCREMENT"]))
  | check (check : Spelled ["CHECK"]) (condition : Enclosed)
  | collate (collate : Spelled ["COLLATE"]) (collation : Naming)
  | default (default : Spelled ["DEFAULT"]) (value : DefaultValue)
  | generated (generated : Spelled ["GENERATED"]) (always : Spelled ["ALWAYS"])
      (as : Spelled ["AS"]) (value : Enclosed)
  | references (references : Spelled ["REFERENCES"]) (table : Naming) (columns : Option Enclosed)
  | action (on : Spelled ["ON"]) (event : Spelled ["DELETE", "UPDATE"]) (reaction : Reaction)

def Enclosed.tokens (g : Enclosed) : List Token := g.openParen :: (g.inner ++ [g.closeParen])

def DefaultValue.tokens : DefaultValue → List Token
  | .quoted t _ | .number t _ => [t]
  | .word w => [w.token]
  | .signed sign t _ _ => [sign, t]
  | .enclosed g => g.tokens

/-- The value as the catalog holds it, without the parentheses around it. -/
def DefaultValue.text (sql : String) : DefaultValue → String
  | .quoted t _ | .number t _ => t.text
  | .word w => w.token.text
  | .signed sign t _ _ => sign.text ++ t.text
  | .enclosed g => sourceText sql g.inner

def Reaction.tokens : Reaction → List Token
  | .one word => [word.token]
  | .noAction no action => [no.token, action.token]
  | .setNull set null => [set.token, null.token]
  | .setDefault set default => [set.token, default.token]

namespace ColumnClause

/-- The word that the clause begins with. -/
def first : ColumnClause → Token
  | notNull word _ | null word | unique word | primaryKey word _ _ _ | check word _
  | collate word _ | default word _ | generated word _ _ _ | references word _ _
  | action word _ _ => word.token

/-- The tokens behind the first word. -/
def behind : ColumnClause → List Token
  | notNull _ word => [word.token]
  | null _ | unique _ => []
  | primaryKey _ key order increment =>
      key.token :: (order.toList.map Spelled.token ++ increment.toList.map Spelled.token)
  | check _ condition => condition.tokens
  | collate _ collation => [collation.token]
  | default _ value => value.tokens
  | generated _ always as value => always.token :: as.token :: value.tokens
  | references _ table columns => table.token :: columns.toList.flatMap Enclosed.tokens
  | action _ event reaction => event.token :: reaction.tokens

def tokens (c : ColumnClause) : List Token := c.first :: c.behind

def isNotNull : ColumnClause → Bool
  | notNull .. => true
  | _ => false

def isPrimaryKey : ColumnClause → Bool
  | primaryKey .. => true
  | _ => false

def isAction : ColumnClause → Bool
  | action .. => true
  | _ => false

/-- The clause ends with `SET DEFAULT`. -/
def setsDefault : ColumnClause → Bool
  | action _ _ (.setDefault ..) => true
  | _ => false

/-- The value of a `DEFAULT` clause. -/
def value? (sql : String) : ColumnClause → Option String
  | default _ value => some (value.text sql)
  | _ => none

end ColumnClause

/-- The definition of a column: its name, its type, and clauses.  The first of them is no action,
which would be a part of the type. -/
structure ColumnDefinition where
  name : Naming
  type : List Token
  clauses : List ColumnClause
  htype : ∀ t ∈ type, t.isAnyWord constraintWords = false
  hclauses : ∀ c ∈ clauses.head?, c.isAction = false

namespace ColumnDefinition

variable (d : ColumnDefinition) (source : Source)

def tokens : List Token := d.name.token :: (d.type ++ d.clauses.flatMap ColumnClause.tokens)

/-- The column without what its clauses say. -/
def bare : Column := .plain d.name.token.value (sourceText source.sql d.type)

/-- The column that the definition declares. -/
def declared : Column :=
  { d.bare source with
    notNull := d.clauses.any fun c => c.isNotNull || c.isPrimaryKey
    primaryKey := d.clauses.any ColumnClause.isPrimaryKey
    defaultText := (d.clauses.filterMap (ColumnClause.value? source.sql)).getLast? }

end ColumnDefinition

/-! ## What is read -/

/-- What can be read of a column. -/
inductive Mark
  | notNull
  | primaryKey
  | default (text : Option String)
deriving DecidableEq

/-- The column with what was read. -/
def Mark.on (column : Column) : Mark → Column
  | notNull => column.withNotNull
  | primaryKey => column.withPrimaryKey
  | default text => { column with defaultText := text }

/-- What the clause says. -/
def ColumnClause.marks (sql : String) : ColumnClause → List Mark
  | notNull .. => [.notNull]
  | primaryKey .. => [.primaryKey]
  | default _ value => [.default (some (value.text sql))]
  | _ => []

/-- What is read of the clauses, where `pending` tells that `DEFAULT` was read and its value is
still to come.  The next word is taken for the value, and what its clause says is lost. -/
def marksFrom (sql : String) : Bool → List ColumnClause → List Mark
  | false, [] => []
  | true, [] => [.default none]
  | false, c :: cs => c.marks sql ++ marksFrom sql c.setsDefault cs
  | true, c :: cs => .default (some c.first.text) :: marksFrom sql c.setsDefault cs

/-- The column that is read. -/
def ColumnDefinition.reading (d : ColumnDefinition) (source : Source) : Column :=
  (marksFrom source.sql false d.clauses).foldl Mark.on (d.bare source)

/-! ## Words and groups -/

/-- The reader looks for the token. -/
def IsSought (t : Token) : Prop := t.isAnyWord ["NOT", "PRIMARY", "DEFAULT"] = true

/-- The words in clauses that the reader does not look for. -/
def passedWords : List String :=
  ["NULL", "UNIQUE", "KEY", "ASC", "DESC", "AUTOINCREMENT", "CHECK", "COLLATE", "GENERATED",
   "ALWAYS", "AS", "REFERENCES", "ON", "DELETE", "UPDATE", "CASCADE", "RESTRICT", "NO", "ACTION",
   "SET", "TRUE", "FALSE", "CURRENT_DATE", "CURRENT_TIME", "CURRENT_TIMESTAMP"]

theorem not_isSought_of_passed {t : Token} (h : t.isAnyWord passedWords = true) : ¬ IsSought t := by
  have hother : (["NOT", "PRIMARY", "DEFAULT"].all fun word =>
      !passedWords.any (eqIgnoreCase word)) = true := by decide +kernel
  rw [IsSought, isAnyWord_of_ne h hother]
  exact Bool.false_ne_true

theorem not_isSought_of_kind {t : Token} (hkeyword : t.kind ≠ .keyword)
    (hidentifier : t.kind ≠ .identifier) : ¬ IsSought t := by
  rw [IsSought, isAnyWord_of_kind hkeyword hidentifier]
  exact Bool.false_ne_true

namespace Spelled

variable {words : List String} (w : Spelled words)

theorem kind_ne {kind : Kind} (hkeyword : kind ≠ .keyword) (hidentifier : kind ≠ .identifier) :
    w.token.kind ≠ kind := by
  rcases kind_of_isAnyWord w.spelled with h | h <;> rw [h]
  · exact hkeyword.symm
  · exact hidentifier.symm

theorem isWord {word : String} (w : Spelled [word]) : w.token.isWord word = true := by
  obtain ⟨t, h⟩ := w
  rwa [isAnyWord, List.any_cons, List.any_nil, Bool.or_false] at h

theorem isAnyWord {others : List String} (h : words ⊆ others) :
    w.token.isAnyWord others = true := by
  obtain ⟨word, hmem, hword⟩ := List.any_eq_true.mp w.spelled
  exact List.any_eq_true.mpr ⟨word, h hmem, hword⟩

/-- A word that the reader does not look for is passed over. -/
theorem outside (h : words ⊆ passedWords) : Outside (¬ IsSought ·) [w.token] :=
  .token (not_isSought_of_passed (w.isAnyWord h)) (w.kind_ne (by decide) (by decide))
    (w.kind_ne (by decide) (by decide))

end Spelled

namespace Enclosed

variable (g : Enclosed)

theorem group? (rest : List Token) : group? (g.tokens ++ rest) = some ⟨g.inner, rest⟩ := by
  have htokens : g.tokens ++ rest = g.openParen :: (g.inner ++ g.closeParen :: rest) := by
    rw [tokens, List.cons_append, List.append_assoc]
    rfl
  rw [htokens]
  exact g.hinner.group? g.hopen g.hclose rest

theorem startsWith_append (word : String) (rest : List Token) :
    startsWith word (g.tokens ++ rest) = false :=
  isWord_of_isAnyWord (isAnyWord_of_kind (by rw [g.hopen]; decide) (by rw [g.hopen]; decide)
    [word]) List.mem_cons_self

theorem outside : Outside (¬ IsSought ·) g.tokens := by
  refine .group g.hopen g.hclose ?_ ?_ g.hinner
  · exact not_isSought_of_kind (by rw [g.hopen]; decide) (by rw [g.hopen]; decide)
  · exact not_isSought_of_kind (by rw [g.hclose]; decide) (by rw [g.hclose]; decide)

end Enclosed

/-- A name is none of the reserved words. -/
theorem Naming.isAnyWord (n : Naming) {words : List String}
    (hwords : words.all isReserved = true) : n.token.isAnyWord words = false := by
  rcases n.naming with h | h
  · exact h.isAnyWord hwords
  · exact isAnyWord_of_kind (by rw [h]; decide) (by rw [h]; decide) words

theorem Naming.canName (n : Naming) : canName n.token = true := by
  rcases n.naming with h | h
  · rw [Schema.canName, h.isName]
    rfl
  · rw [Schema.canName, h]
    exact Bool.or_true _

/-! ## Reading the clauses -/

section Reading

variable {sql : String} {column : Column} {t : Token} {rest : List Token}

theorem readConstraints_notNull {u : Token} (ht : t.isWord "NOT" = true)
    (hu : u.isWord "NULL" = true) :
    readConstraints sql column (t :: u :: rest) = readConstraints sql column.withNotNull rest := by
  have hnull : startsWith "NULL" (u :: rest) = true := hu
  rw [readConstraints, ht, hnull]
  rfl

theorem readConstraints_primaryKey {u : Token} (ht : t.isWord "PRIMARY" = true)
    (hu : u.isWord "KEY" = true) :
    readConstraints sql column (t :: u :: rest) =
      readConstraints sql column.withPrimaryKey rest := by
  have hnot : t.isWord "NOT" = false := isWord_of_isWord ht (by decide)
  have hkey : startsWith "KEY" (u :: rest) = true := hu
  rw [readConstraints, hnot, ht, hkey]
  rfl

/-- The column that is read from the tokens, at the beginning of a clause or behind `DEFAULT`. -/
def readFrom (sql : String) (pending : Bool) (column : Column) (tokens : List Token) : Column :=
  if pending then
    readConstraints sql { column with defaultText := (defaultValue sql tokens).1 }
      (defaultValue sql tokens).2
  else readConstraints sql column tokens

theorem readConstraints_default (ht : t.isWord "DEFAULT" = true) :
    readConstraints sql column (t :: rest) = readFrom sql true column rest := by
  have hnot : t.isWord "NOT" = false := isWord_of_isWord ht (by decide)
  have hprimary : t.isWord "PRIMARY" = false := isWord_of_isWord ht (by decide)
  rw [readConstraints, hnot, hprimary, ht]
  rfl

/-- A word is passed over unless the reader looks for it, `PRIMARY` also where no `KEY` follows. -/
theorem readConstraints_word (hnot : t.isWord "NOT" = false)
    (hprimary : t.isWord "PRIMARY" = false ∨ startsWith "KEY" rest = false)
    (hdefault : t.isWord "DEFAULT" = false) (hopen : t.kind ≠ .leftParen) :
    readConstraints sql column (t :: rest) = readConstraints sql column rest := by
  have hkey : (t.isWord "PRIMARY" && startsWith "KEY" rest) = false :=
    Bool.and_eq_false_iff.mpr hprimary
  rw [readConstraints, hnot, hkey, hdefault, if_neg hopen]
  rfl

theorem readConstraints_group (g : Enclosed) :
    readConstraints sql column (g.tokens ++ rest) = readConstraints sql column rest := by
  have hword (word : String) : g.openParen.isWord word = false := g.startsWith_append word rest
  have hgroup : Token.group? (g.openParen :: ((g.inner ++ [g.closeParen]) ++ rest)) = _ :=
    g.group? rest
  rw [Enclosed.tokens, List.cons_append, readConstraints, hword, hword, hword, if_pos g.hopen]
  simp only [Bool.false_and, Bool.false_eq_true, if_false]
  split
  · next g' hg' =>
      rw [hgroup] at hg'
      cases hg'
      rfl
  · next hnone =>
      rw [hgroup] at hnone
      cases hnone

/-- Tokens that the reader does not look for are passed over, and groups whatever is in them. -/
theorem readConstraints_outside {xs : List Token} (h : Outside (¬ IsSought ·) xs)
    (rest : List Token) :
    readConstraints sql column (xs ++ rest) = readConstraints sql column rest := by
  induction h generalizing rest with
  | nil => rfl
  | token ht hopen _ =>
      have hword {word : String} (hmem : word ∈ ["NOT", "PRIMARY", "DEFAULT"]) :=
        isWord_of_isAnyWord (Bool.not_eq_true _ ▸ ht) hmem
      exact readConstraints_word (hword (by decide)) (.inl (hword (by decide)))
        (hword (by decide)) hopen
  | append _ _ hx hy => rw [List.append_assoc, hx, hy]
  | group hopen hclose _ _ hx => exact readConstraints_group ⟨_, _, _, hopen, hclose, hx⟩

/-- A name is passed over, even if it is `PRIMARY`. -/
theorem readConstraints_naming (n : Naming) (hrest : startsWith "KEY" rest = false) :
    readConstraints sql column (n.token :: rest) = readConstraints sql column rest := by
  have hwords : n.token.isAnyWord ["NOT", "DEFAULT"] = false := n.isAnyWord (by decide)
  refine readConstraints_word (isWord_of_isAnyWord hwords (by decide)) (.inr hrest)
    (isWord_of_isAnyWord hwords (by decide)) ?_
  rcases n.naming with h | h
  · rcases h.kind with h | h | h <;> rw [h] <;> decide
  · rw [h]
    decide

theorem kind_of_isSign (h : isSign t = true) : t.kind = .operator := by
  rw [isSign, isOperator, isOperator, ← Bool.and_or_distrib_left, Bool.and_eq_true] at h
  exact beq_iff_eq.mp h.1

theorem defaultValue_token (hopen : t.kind ≠ .leftParen) (hoperator : t.kind ≠ .operator) :
    defaultValue sql (t :: rest) = (some t.text, rest) := by
  have hsign : ¬ isSign t = true := fun h => hoperator (kind_of_isSign h)
  simp only [defaultValue, if_neg hopen, if_neg hsign]

/-- The value behind `DEFAULT` is read whole. -/
theorem defaultValue_value (v : DefaultValue) :
    defaultValue sql (v.tokens ++ rest) = (some (v.text sql), rest) := by
  cases v with
  | quoted t h | number t h =>
      rcases h with h | h <;>
        exact defaultValue_token (by rw [h]; decide) (by rw [h]; decide)
  | word w =>
      exact defaultValue_token (w.kind_ne (by decide) (by decide))
        (w.kind_ne (by decide) (by decide))
  | signed sign t hsign _ =>
      have hopen : sign.kind ≠ .leftParen := by rw [kind_of_isSign hsign]; decide
      show defaultValue sql (sign :: t :: rest) = (some (sign.text ++ t.text), rest)
      simp only [defaultValue, if_neg hopen, hsign, if_true]
  | enclosed g =>
      have hgroup := g.group? rest
      show defaultValue sql (g.tokens ++ rest) = (some (sourceText sql g.inner), rest)
      rw [Enclosed.tokens, List.cons_append] at hgroup ⊢
      simp only [defaultValue, if_pos g.hopen, hgroup]

/-- A word behind `DEFAULT` is taken for its value. -/
theorem readFrom_spelled {words : List String} (w : Spelled words) :
    readFrom sql true column (w.token :: rest) =
      readConstraints sql { column with defaultText := some w.token.text } rest := by
  have hvalue : defaultValue sql (w.token :: rest) = (some w.token.text, rest) :=
    defaultValue_token (w.kind_ne (by decide) (by decide)) (w.kind_ne (by decide) (by decide))
  rw [readFrom, if_pos rfl, hvalue]

end Reading

namespace DefaultValue

theorem outside (v : DefaultValue) : Outside (¬ IsSought ·) v.tokens := by
  have hplain {t : Token} {kind : Kind} (h : t.kind = kind) (hkind : kind ∈ [Kind.string, .blob,
      .integer, .float, .operator]) : Outside (¬ IsSought ·) [t] := by
    have hne {other : Kind} (hother : other ∉ [Kind.string, .blob, .integer, .float, .operator]) :
        t.kind ≠ other := fun heq => hother (heq ▸ h ▸ hkind)
    exact .token (not_isSought_of_kind (hne (by decide)) (hne (by decide))) (hne (by decide))
      (hne (by decide))
  cases v with
  | quoted t h | number t h => rcases h with h | h <;> exact hplain h (by decide)
  | word w => exact w.outside (by decide)
  | signed sign t hsign h =>
      refine @Outside.append _ [sign] [t] (hplain (kind_of_isSign hsign) (by decide)) ?_
      rcases h with h | h <;> exact hplain h (by decide)
  | enclosed g => exact g.outside

end DefaultValue

namespace ColumnClause

/-- The words that a clause can begin with. -/
def firstWords : List String :=
  ["NOT", "NULL", "UNIQUE", "PRIMARY", "CHECK", "COLLATE", "DEFAULT", "GENERATED", "REFERENCES",
   "ON"]

theorem first_spelled (c : ColumnClause) : c.first.isAnyWord firstWords = true := by
  cases c <;> exact Spelled.isAnyWord _ (by decide)

theorem startsWith_flatMap (cs : List ColumnClause) :
    startsWith "KEY" (cs.flatMap tokens) = false := by
  cases cs with
  | nil => rfl
  | cons c cs => exact isWord_of_ne c.first_spelled (by decide)

variable {sql : String} {column : Column} {rest : List Token}

/-- Behind its first word a clause says nothing, but an action can leave a `DEFAULT` behind. -/
theorem readConstraints_behind (c : ColumnClause) (hrest : startsWith "KEY" rest = false) :
    readConstraints sql column (c.behind ++ rest) = readFrom sql c.setsDefault column rest := by
  have hword {words : List String} (w : Spelled words) (h : words ⊆ passedWords)
      (xs : List Token) :
      readConstraints sql column (w.token :: xs) = readConstraints sql column xs :=
    readConstraints_outside (w.outside h) xs
  cases c with
  | notNull _ word => exact hword word (by decide) rest
  | null _ | unique _ => rfl
  | primaryKey _ key order increment =>
      have horder : Outside (¬ IsSought ·) (order.toList.map Spelled.token) := by
        cases order with
        | none => exact .nil
        | some w => exact w.outside (by decide)
      have hincrement : Outside (¬ IsSought ·) (increment.toList.map Spelled.token) := by
        cases increment with
        | none => exact .nil
        | some w => exact w.outside (by decide)
      have hkey := key.outside (by decide)
      exact readConstraints_outside (hkey.append (horder.append hincrement)) rest
  | check _ condition => exact readConstraints_group condition
  | collate _ collation => exact readConstraints_naming collation hrest
  | default _ value => exact readConstraints_outside value.outside rest
  | generated _ always as value =>
      have hwords := (always.outside (by decide)).append (as.outside (by decide))
      exact readConstraints_outside (hwords.append value.outside) rest
  | references _ table columns =>
      cases columns with
      | none => exact readConstraints_naming table hrest
      | some g =>
          show readConstraints sql column (table.token :: ((g.tokens ++ []) ++ rest)) = _
          rw [List.append_nil, readConstraints_naming table (g.startsWith_append _ _),
            readConstraints_group]
          rfl
  | action _ event reaction =>
      have hevent := hword event (by decide) (reaction.tokens ++ rest)
      refine hevent.trans ?_
      cases reaction with
      | one word => exact hword word (by decide) rest
      | noAction no action =>
          exact (hword no (by decide) _).trans (hword action (by decide) rest)
      | setNull set null =>
          exact (hword set (by decide) _).trans (hword null (by decide) rest)
      | setDefault set default =>
          exact (hword set (by decide) _).trans (readConstraints_default default.isWord)

/-- A clause that is read from its beginning says what it should. -/
theorem readFrom_clause (c : ColumnClause) (hrest : startsWith "KEY" rest = false) :
    readFrom sql false column (c.tokens ++ rest) =
      readFrom sql c.setsDefault ((c.marks sql).foldl Mark.on column) rest := by
  have hpass {c : ColumnClause} (hfirst : Outside (¬ IsSought ·) [c.first])
      (hmarks : c.marks sql = []) : readFrom sql false column (c.tokens ++ rest) =
      readFrom sql c.setsDefault ((c.marks sql).foldl Mark.on column) rest := by
    rw [hmarks]
    exact (readConstraints_outside hfirst _).trans (c.readConstraints_behind hrest)
  cases c with
  | notNull not null => exact readConstraints_notNull not.isWord null.isWord
  | primaryKey primary key order increment =>
      have hkey := @readConstraints_behind sql column.withPrimaryKey rest
        (primaryKey primary key order increment) hrest
      exact (readConstraints_primaryKey primary.isWord key.isWord).trans
        ((readConstraints_outside (key.outside (by decide)) _).symm.trans hkey)
  | default default value =>
      refine (readConstraints_default default.isWord).trans ?_
      show readFrom sql true column (value.tokens ++ rest) = _
      rw [readFrom, if_pos rfl, defaultValue_value]
      rfl
  | null word | unique word | check word _ | collate word _ | generated word _ _ _
  | references word _ _ | action word _ _ => exact hpass (word.outside (by decide)) rfl

/-- A clause behind `SET DEFAULT` loses its first word, and with it all that it says. -/
theorem readFrom_pending (c : ColumnClause) (hrest : startsWith "KEY" rest = false) :
    readFrom sql true column (c.tokens ++ rest) =
      readFrom sql c.setsDefault { column with defaultText := some c.first.text } rest :=
  (readFrom_spelled ⟨c.first, c.first_spelled⟩).trans (c.readConstraints_behind hrest)

/-- What is read of the clauses, one after the other. -/
theorem readFrom_clauses (sql : String) (pending : Bool) (column : Column)
    (cs : List ColumnClause) :
    readFrom sql pending column (cs.flatMap tokens) =
      (marksFrom sql pending cs).foldl Mark.on column := by
  induction cs generalizing pending column with
  | nil =>
      have hread : readConstraints sql column [] = column := by rw [readConstraints]
      cases pending with
      | false => exact hread
      | true => exact readConstraints.eq_1 sql _
  | cons c cs ih =>
      rw [List.flatMap_cons]
      cases pending with
      | false =>
          rw [c.readFrom_clause (startsWith_flatMap cs), ih, marksFrom, List.foldl_append]
      | true =>
          rw [c.readFrom_pending (startsWith_flatMap cs), ih, marksFrom, List.foldl_cons]
          rfl

end ColumnClause

/-! ## Reading a definition -/

namespace ColumnClause

variable {sql : String}

/-- Without `SET DEFAULT` everything that the clauses say is read. -/
theorem marksFrom_of_forall {cs : List ColumnClause} (h : ∀ c ∈ cs, c.setsDefault = false) :
    marksFrom sql false cs = cs.flatMap (marks sql) := by
  induction cs with
  | nil => rfl
  | cons c cs ih =>
      rw [marksFrom, h c List.mem_cons_self, ih fun d hd => h d (List.mem_cons_of_mem _ hd),
        List.flatMap_cons]

theorem foldl_marks (c : ColumnClause) (column : Column) :
    (c.marks sql).foldl Mark.on column =
      { column with
        notNull := column.notNull || (c.isNotNull || c.isPrimaryKey)
        primaryKey := column.primaryKey || c.isPrimaryKey
        defaultText := (c.value? sql).or column.defaultText } := by
  cases c <;>
    simp [marks, Mark.on, Column.withNotNull, Column.withPrimaryKey, isNotNull, isPrimaryKey,
      value?]

/-- The clauses together say what one of them says, and the last `DEFAULT` counts. -/
theorem foldl_flatMap_marks (cs : List ColumnClause) (column : Column) :
    (cs.flatMap (marks sql)).foldl Mark.on column =
      { column with
        notNull := column.notNull || cs.any fun c => c.isNotNull || c.isPrimaryKey
        primaryKey := column.primaryKey || cs.any isPrimaryKey
        defaultText := (cs.filterMap (value? sql)).getLast?.or column.defaultText } := by
  induction cs generalizing column with
  | nil => simp
  | cons c cs ih =>
      have hlast : ((c :: cs).filterMap (value? sql)).getLast? =
          (cs.filterMap (value? sql)).getLast?.or (c.value? sql) := by
        rw [List.filterMap_cons]
        cases c.value? sql with
        | none => rw [Option.or_none]
        | some text => rw [List.getLast?_cons]; cases (cs.filterMap (value? sql)).getLast? <;> rfl
      rw [List.flatMap_cons, List.foldl_append, ih, foldl_marks, hlast]
      simp only [List.any_cons, Bool.or_assoc, Option.or_assoc]

/-- Whatever is lost, nothing is read that no clause says. -/
theorem within_marksFrom (pending : Bool) (cs : List ColumnClause) (column : Column) :
    ((marksFrom sql pending cs).foldl Mark.on column).Within
      { column with
        notNull := column.notNull || cs.any fun c => c.isNotNull || c.isPrimaryKey
        primaryKey := column.primaryKey || cs.any isPrimaryKey } := by
  induction cs generalizing pending column with
  | nil =>
      cases pending <;>
        exact ⟨rfl, rfl, (Bool.or_false _).trans, (Bool.or_false _).trans⟩
  | cons c cs ih =>
      cases pending with
      | false =>
          rw [marksFrom, List.foldl_append, foldl_marks]
          obtain ⟨hname, hdeclaration, hnull, hkey⟩ := ih c.setsDefault _
          exact ⟨hname, hdeclaration, fun h => (Bool.or_assoc _ _ _).symm.trans (hnull h),
            fun h => (Bool.or_assoc _ _ _).symm.trans (hkey h)⟩
      | true =>
          -- What this clause says is lost, so the others say it.
          have hless {a b x : Bool} (h : (a || b) = true) : (a || (x || b)) = true := by
            rw [Bool.or_left_comm, h]
            exact Bool.or_true x
          obtain ⟨hname, hdeclaration, hnull, hkey⟩ :=
            ih c.setsDefault { column with defaultText := some c.first.text }
          exact ⟨hname, hdeclaration, fun h => hless (hnull h), fun h => hless (hkey h)⟩

/-- A clause that is no action begins with a word that ends the type. -/
theorem first_isAnyWord {c : ColumnClause} (h : c.isAction = false) :
    c.first.isAnyWord constraintWords = true := by
  cases c with
  | action => cases h
  | _ => exact Spelled.isAnyWord _ (by decide)

end ColumnClause

namespace ColumnDefinition

variable (d : ColumnDefinition) (source : Source)

/-- The type ends where the clauses begin. -/
theorem takeWhile_behind :
    (d.type ++ d.clauses.flatMap ColumnClause.tokens).takeWhile
        (fun t => !t.isAnyWord constraintWords) = d.type ∧
      (d.type ++ d.clauses.flatMap ColumnClause.tokens).dropWhile
        (fun t => !t.isAnyWord constraintWords) = d.clauses.flatMap ColumnClause.tokens := by
  have htype : ∀ t ∈ d.type, (!t.isAnyWord constraintWords) = true := fun t ht => by
    rw [d.htype t ht]
    rfl
  rw [List.takeWhile_append_of_pos htype, List.dropWhile_append_of_pos htype]
  have hclauses := d.hclauses
  cases hcs : d.clauses with
  | nil => exact ⟨List.append_nil _, rfl⟩
  | cons c cs =>
      rw [hcs] at hclauses
      have hfirst : (!c.first.isAnyWord constraintWords) = false := by
        rw [ColumnClause.first_isAnyWord (hclauses c rfl)]
        rfl
      rw [List.flatMap_cons, ColumnClause.tokens, List.cons_append, List.takeWhile_cons,
        List.dropWhile_cons, hfirst]
      exact ⟨List.append_nil _, rfl⟩

theorem readColumn_tokens : readColumn source d.tokens = .ok (d.reading source) := by
  rw [tokens, readColumn]
  simp only [d.name.canName, if_true, d.takeWhile_behind]
  congr 1
  exact ColumnClause.readFrom_clauses source.sql false (d.bare source) d.clauses

theorem reading_eq_declared (h : ∀ c ∈ d.clauses, c.setsDefault = false) :
    d.reading source = d.declared source := by
  rw [reading, ColumnClause.marksFrom_of_forall h, ColumnClause.foldl_flatMap_marks, declared]
  simp [bare, Column.plain]

theorem within_declared : (d.reading source).Within (d.declared source) := by
  obtain ⟨hname, hdeclaration, hnull, hkey⟩ :=
    @ColumnClause.within_marksFrom source.sql false d.clauses (d.bare source)
  exact ⟨hname, hdeclaration, hnull, hkey⟩

/-- As an element of a table the definition adds the column that is read, if no column has its
name and its name begins no constraint of the table. -/
theorem addElement_tokens (draft : Draft)
    (hword : d.name.token.isAnyWord ["UNIQUE", "PRIMARY", "FOREIGN"] = false)
    (hnew : draft.table.hasColumn d.name.token.value = false) :
    draft.addElement source d.tokens = draft.addColumn (d.reading source) := by
  have hreserved : d.name.token.isAnyWord ["CONSTRAINT", "CHECK"] = false :=
    d.name.isAnyWord (by decide)
  have hconstraint : startsWith "CONSTRAINT" d.tokens = false :=
    isWord_of_isAnyWord hreserved (by decide)
  have hother : d.name.token.isAnyWord ["CHECK", "FOREIGN"] = false := by
    rw [isAnyWord, List.any_cons, isWord_of_isAnyWord hreserved (by decide), List.any_cons,
      isWord_of_isAnyWord hword (by decide)]
    rfl
  have hname : (d.reading source).name = d.name.token.value := (d.within_declared source).name
  unfold Draft.addElement
  simp only [hconstraint, Bool.false_eq_true, if_false]
  rw [tokens]
  simp only [isWord_of_isAnyWord hword (w := "UNIQUE") (by decide),
    isWord_of_isAnyWord hword (w := "PRIMARY") (by decide), hother, Bool.false_eq_true, if_false]
  rw [← tokens, Draft.addDefinition, d.readColumn_tokens source]
  simp only [hname, hnew, Bool.false_eq_true, if_false]

end ColumnDefinition

/-- What is made of the definition of a column.  Its clauses are read one after the other, and in
any order they say what they declare, unless an action is `SET DEFAULT`: its `DEFAULT` is taken for
a clause and the next word for the value, so that the clause behind it is lost. -/
theorem readColumn_definition (source : Source) (d : ColumnDefinition) :
    readColumn source d.tokens = .ok (d.reading source) ∧
      ((∀ c ∈ d.clauses, c.setsDefault = false) → d.reading source = d.declared source) ∧
      (d.reading source).Within (d.declared source) ∧
      ∀ draft : Draft, d.name.token.isAnyWord ["UNIQUE", "PRIMARY", "FOREIGN"] = false →
        draft.table.hasColumn d.name.token.value = false →
        draft.addElement source d.tokens = draft.addColumn (d.reading source) :=
  ⟨d.readColumn_tokens source, d.reading_eq_declared source, d.within_declared source,
    d.addElement_tokens source⟩

/-- The keyword in the first line of a text, at that byte. -/
def keywordAt (word : String) (start : Nat) : Spelled [word] where
  token := ⟨.keyword, word, ⟨start, start + word.utf8ByteSize⟩, ⟨1, start + 1⟩⟩
  spelled := isAnyWord_of_isWord (eqIgnoreCase_iff.mpr rfl)

/-- `a INTEGER REFERENCES t ON DELETE`, the reaction, and `NOT NULL` at that byte. -/
def referring (reaction : Reaction) (start : Nat) : ColumnDefinition where
  name := ⟨⟨.identifier, "a", ⟨0, 1⟩, ⟨1, 1⟩⟩, .inl (.inl ⟨rfl, by decide +kernel⟩)⟩
  type := [⟨.identifier, "INTEGER", ⟨2, 9⟩, ⟨1, 3⟩⟩]
  clauses :=
    [.references (keywordAt "REFERENCES" 10)
        ⟨⟨.identifier, "t", ⟨21, 22⟩, ⟨1, 22⟩⟩, .inl (.inl ⟨rfl, by decide +kernel⟩)⟩ none,
      .action (keywordAt "ON" 23) ⟨(keywordAt "DELETE" 26).token, by decide +kernel⟩ reaction,
      .notNull (keywordAt "NOT" start) (keywordAt "NULL" (start + 4))]
  htype := by decide +kernel
  hclauses := fun _ h => by
    cases h
    rfl

def setNull : Reaction := .setNull (keywordAt "SET" 33) (keywordAt "NULL" 37)

def setDefault : Reaction := .setDefault (keywordAt "SET" 33) (keywordAt "DEFAULT" 37)

/-- Behind `SET NULL` a `NOT NULL` is read. -/
theorem readColumn_of_setNull :
    (tokenize "a INTEGER REFERENCES t ON DELETE SET NULL NOT NULL").toOption =
        some (referring setNull 42).tokens ∧
      readColumn ⟨"s.sql", "a INTEGER REFERENCES t ON DELETE SET NULL NOT NULL"⟩
        (referring setNull 42).tokens = .ok ⟨"a", "INTEGER", true, false, none⟩ := by
  obtain ⟨hread, hdeclared, -⟩ := readColumn_definition
    ⟨"s.sql", "a INTEGER REFERENCES t ON DELETE SET NULL NOT NULL"⟩ (referring setNull 42)
  refine ⟨by decide +kernel, ?_⟩
  rw [hread, hdeclared (by decide)]
  exact congrArg Except.ok (by decide +kernel)

/-- Behind `SET DEFAULT` it is lost, and its first word is taken for a default. -/
theorem readColumn_of_setDefault :
    (tokenize "a INTEGER REFERENCES t ON DELETE SET DEFAULT NOT NULL").toOption =
        some (referring setDefault 45).tokens ∧
      (referring setDefault 45).declared
          ⟨"s.sql", "a INTEGER REFERENCES t ON DELETE SET DEFAULT NOT NULL"⟩ =
        ⟨"a", "INTEGER", true, false, none⟩ ∧
      readColumn ⟨"s.sql", "a INTEGER REFERENCES t ON DELETE SET DEFAULT NOT NULL"⟩
        (referring setDefault 45).tokens =
        .ok ⟨"a", "INTEGER", false, false, some "NOT"⟩ := by
  refine ⟨by decide +kernel, by decide +kernel, ?_⟩
  rw [ColumnDefinition.readColumn_tokens]
  exact congrArg Except.ok (by decide +kernel)

end Schema

end TypedSql

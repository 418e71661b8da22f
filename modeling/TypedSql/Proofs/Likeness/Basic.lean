import TypedSql.Diagnostic.Collector
import TypedSql.Proofs.Lists
import TypedSql.Token.Nesting
import TypedSql.Token.Reader
import TypedSql.Types.Affinity

/-!
# Likenesses

Two runs of the analysis go alike if their statements differ only in what the analysis does not
look at.  A likeness says what may differ: the letter case of names, where the tokens stand, how
the texts that are cut out of a statement are laid out.  Every pass is then shown to give alike
results for alike arguments, and each kind of likeness gives a theorem about whole runs.

Main definitions: `Likeness`, `Likeness.Lawful`, `Likeness.TokenLike`, `Likeness.NotedLike`,
`Likeness.spelled`.
-/

namespace TypedSql

open Diagnostic Text Token

/-- The tokens of a text, or none where it cannot be read. -/
def Token.tokensOf (text : String) (p : Position) : List Token :=
  (tokenizeAt text p).toOption.getD []

theorem Token.tokensOf_eq {text : String} {p : Position} {tokens : List Token}
    (h : tokenizeAt text p = .ok tokens) : tokensOf text p = tokens := by
  rw [tokensOf, h]
  rfl

/-- The tokens are spelled alike. -/
def Token.SameText (t u : Token) : Prop := t.kind = u.kind ∧ t.text = u.text

instance (t u : Token) : Decidable (t.SameText u) := inferInstanceAs (Decidable (_ ∧ _))

/-- What two runs of the analysis may differ in. -/
structure Likeness where
  /-- Names are the same to the letter, and so are the diagnostics. -/
  exact : Prop
  /-- The places of a token in both runs. -/
  place : Position → Position → Prop
  /-- A text in both runs that is read by itself, with the position where it begins. -/
  cut : String → Position → String → Position → Prop

namespace Likeness

variable (L : Likeness)

/-- The names are the same up to the case of ASCII letters, or to the letter. -/
structure NameLike (a b : String) : Prop where
  lower : lowerCase a = lowerCase b
  exactly : L.exact → a = b

/-- Tokens in both runs.  Only words can differ in the case of their letters. -/
structure TokenLike (t u : Token) : Prop where
  kind : t.kind = u.kind
  name : L.NameLike t.text u.text
  text : t.kind ≠ .keyword → t.kind ≠ .identifier → t.text = u.text
  position : L.place t.position u.position

/-- Lists of tokens in both runs. -/
abbrev TokensLike : List Token → List Token → Prop := List.Forall₂ L.TokenLike

/-- What a likeness has to fulfil for all passes to go alike. -/
structure Lawful : Prop where
  /-- Two places are the same in both runs, or in none. -/
  place_iff : ∀ {p p' q q'}, L.place p p' → L.place q q' → (p = q ↔ p' = q')
  cut_exactly : ∀ {s p s' p'}, L.cut s p s' p' → L.exact → s = s'
  cut_tokens : ∀ {s p s' p'}, L.cut s p s' p' → L.TokensLike (tokensOf s p) (tokensOf s' p')
  /-- From texts that are read by themselves, the same tokens can be cut out. -/
  cut_part : ∀ {s p s' p' before before' after after' t t' ts ts'}, L.cut s p s' p' →
    tokensOf s p = before ++ (t :: ts ++ after) →
    tokensOf s' p' = before' ++ (t' :: ts' ++ after') →
    before.length = before'.length → ts.length = ts'.length →
    L.cut (sourceText s (t :: ts)) t.position (sourceText s' (t' :: ts')) t'.position

/-- Diagnostics in both runs. -/
structure NoteLike (d e : Diagnostic) : Prop where
  severity : d.severity = e.severity
  code : d.code = e.code
  message : d.message = e.message
  path : d.path = e.path
  position : L.place d.position e.position
  help : d.help = e.help

/-- Results in both runs, with what was noted on the way. -/
structure NotedLike {α β : Type} (R : α → β → Prop) (x : Noted α) (y : Noted β) : Prop where
  value : R x.value y.value
  notes : L.exact → List.Forall₂ L.NoteLike x.notes y.notes

variable {L}

/-! ## Names -/

namespace NameLike

variable {a b c d : String}

theorem refl (a : String) : L.NameLike a a := ⟨rfl, fun _ => rfl⟩

theorem of_eq (h : a = b) : L.NameLike a b := h ▸ refl a

theorem append (h : L.NameLike a b) (h' : L.NameLike c d) : L.NameLike (a ++ c) (b ++ d) := by
  constructor
  · have hlower := h.lower
    have hlower' := h'.lower
    unfold lowerCase at hlower hlower' ⊢
    rw [String.toList_append, String.toList_append, List.map_append, List.map_append,
      String.ofList_append, String.ofList_append, hlower, hlower']
  · intro hexact
    rw [h.exactly hexact, h'.exactly hexact]

theorem eqIgnoreCase (h : L.NameLike a b) (h' : L.NameLike c d) :
    Text.eqIgnoreCase a c = Text.eqIgnoreCase b d := by
  unfold Text.eqIgnoreCase
  rw [h.lower, h'.lower]

theorem isEmpty (h : L.NameLike a b) : a.isEmpty = b.isEmpty := by
  have hlength := congrArg (fun s => s.toList.length) h.lower
  simp only [toList_lowerCase, List.length_map] at hlength
  rw [Bool.eq_iff_iff, String.isEmpty_iff, String.isEmpty_iff, ← String.toList_eq_nil_iff,
    ← String.toList_eq_nil_iff, ← List.length_eq_zero_iff, ← List.length_eq_zero_iff, hlength]

end NameLike

/-! ## Tokens -/

namespace TokenLike

variable {t u : Token}

theorem isWord (h : L.TokenLike t u) (word : String) : t.isWord word = u.isWord word := by
  unfold Token.isWord
  rw [h.kind, h.name.eqIgnoreCase (.refl word)]

theorem isAnyWord (h : L.TokenLike t u) (words : List String) :
    t.isAnyWord words = u.isAnyWord words := by
  have hword : t.isWord = u.isWord := funext h.isWord
  unfold Token.isAnyWord
  rw [hword]

theorem isIdentifier (h : L.TokenLike t u) : t.isIdentifier = u.isIdentifier := by
  unfold Token.isIdentifier
  rw [h.kind]

theorem isReserved (h : L.TokenLike t u) : Token.isReserved t.text = Token.isReserved u.text := by
  unfold Token.isReserved
  rw [h.name.lower]

theorem isName (h : L.TokenLike t u) : t.isName = u.isName := by
  unfold Token.isName
  rw [h.isIdentifier, h.kind, h.isReserved]

theorem isOperator (h : L.TokenLike t u) (op : String) : t.isOperator op = u.isOperator op := by
  unfold Token.isOperator
  rw [h.kind]
  by_cases hkind : u.kind = .operator
  · rw [h.text (by simp [h.kind, hkind]) (by simp [h.kind, hkind])]
  · rw [beq_eq_false_iff_ne.mpr hkind, Bool.false_and, Bool.false_and]

theorem value (h : L.TokenLike t u) : L.NameLike t.value u.value := by
  unfold Token.value
  rw [h.kind]
  split
  · next hkind => rw [h.text (by simp [h.kind, hkind]) (by simp [h.kind, hkind])]; exact .refl _
  · next hkind => rw [h.text (by simp [h.kind, hkind]) (by simp [h.kind, hkind])]; exact .refl _
  · exact h.name

theorem normalized (h : L.TokenLike t u) : t.normalized = u.normalized := h.value.lower

end TokenLike

/-! ## Notes -/

namespace NotedLike

variable {α β γ δ : Type} {R : α → β → Prop} {S : γ → δ → Prop}

theorem pure {a : α} {b : β} (h : R a b) : L.NotedLike R (Pure.pure a) (Pure.pure b) :=
  ⟨h, fun _ => .nil⟩

theorem bind {x : Noted α} {y : Noted β} {f : α → Noted γ} {g : β → Noted δ}
    (h : L.NotedLike R x y) (hfg : ∀ a b, R a b → L.NotedLike S (f a) (g b)) :
    L.NotedLike S (x >>= f) (y >>= g) where
  value := (hfg _ _ h.value).value
  notes hexact := List.rel_append (h.notes hexact) ((hfg _ _ h.value).notes hexact)

theorem error {code : Code} {p q : Position} {m n : String} (hp : L.exact → L.place p q)
    (hm : L.exact → m = n) : L.NotedLike Eq (Noted.error code p m) (Noted.error code q n) :=
  ⟨rfl, fun hexact => .cons ⟨rfl, rfl, hm hexact, rfl, hp hexact, rfl⟩ .nil⟩

theorem warning {code : Code} {p q : Position} {m n : String} (hp : L.exact → L.place p q)
    (hm : L.exact → m = n) : L.NotedLike Eq (Noted.warning code p m) (Noted.warning code q n) :=
  ⟨rfl, fun hexact => .cons ⟨rfl, rfl, hm hexact, rfl, hp hexact, rfl⟩ .nil⟩

theorem forEach {f : α → Noted Unit} {g : β → Noted Unit} {as : List α} {bs : List β}
    (h : List.Forall₂ R as bs) (hfg : ∀ a b, R a b → L.NotedLike Eq (f a) (g b)) :
    L.NotedLike Eq (Noted.forEach f as) (Noted.forEach g bs) :=
  ⟨rfl, fun hexact => List.rel_flatMap h fun _ _ hab => (hfg _ _ hab).notes hexact⟩

end NotedLike

/-! ## The same tokens in two places -/

/-- Tokens that are spelled alike, wherever they stand. -/
def spelled : Likeness where
  exact := True
  place _ _ := True
  cut _ _ _ _ := False

theorem tokenLike_spelled {t u : Token} (h : t.SameText u) : spelled.TokenLike t u :=
  ⟨h.1, .of_eq h.2, fun _ _ => h.2, trivial⟩

theorem tokensLike_spelled {ts us : List Token} (h : List.Forall₂ Token.SameText ts us) :
    spelled.TokensLike ts us :=
  h.imp fun _ _ => tokenLike_spelled

end Likeness

end TypedSql

import TypedSql.Proofs.Likeness.Scope
import TypedSql.Proofs.Reference.Selection

/-!
# Subqueries do not leak

The references of a statement are found by a scan that jumps over some groups, those of derived
tables and of functions, and walks through the others, where the depth of the tokens keeps it from
opening a clause.  Either way it sees nothing of what stands in a group.  Statements that differ
only in the contents of groups outside all parentheses have the same references but for the places
of these, and the scopes that they see are the same.

One form leads the scan into a group: behind `UPDATE OR` a token is skipped, and where this token is
a parenthesis the references are read from the contents of the group.

Main definitions: `Token.SameOutside`, `Likeness.Level`.  Main statements:
`Likeness.Level.ofPlaces`, `Scope.narrow_of_sameOutside`.
-/

namespace TypedSql

open Token Grammar Memberwise

/-! ## Groups with other contents -/

namespace Token

/-- The lists are the same token by token, where `R` says which tokens count as the same, but for
what stands in some groups outside all parentheses.  In front of the lists `d` parentheses are
open. -/
inductive SameOutside (R : Token → Token → Prop) : Nat → List Token → List Token → Prop
  | nil {d : Nat} : SameOutside R d [] []
  | token {d : Nat} {t u : Token} {ts us : List Token} (htu : R t u)
      (h : SameOutside R (depthBehind d t) ts us) : SameOutside R d (t :: ts) (u :: us)
  | group {o o' c c' : Token} {xs ys ts us : List Token} (hopen : o.kind = .leftParen)
      (hclose : c.kind = .rightParen) (ho : R o o') (hc : R c c') (hx : Balanced xs)
      (hy : Balanced ys) (h : SameOutside R 0 ts us) :
      SameOutside R 0 (o :: (xs ++ c :: ts)) (o' :: (ys ++ c' :: us))

/-- Outside all parentheses `UPDATE OR` stands directly in front of one, where `d` parentheses are
open in front of the list. -/
def hasUpdateOrGroup (d : Nat) : List Token → Bool
  | [] => false
  | t :: ts =>
      d == 0 && t.isWord "UPDATE" && startsWith "OR" ts && startsWithKind .leftParen (ts.drop 1) ||
        hasUpdateOrGroup (depthBehind d t) ts

theorem SameOutside.imp {R S : Token → Token → Prop} {d : Nat} {ts us : List Token}
    (h : SameOutside R d ts us) (hRS : ∀ t u, R t u → S t u) : SameOutside S d ts us := by
  induction h with
  | nil => exact .nil
  | token htu _ ih => exact .token (hRS _ _ htu) ih
  | group hopen hclose ho hc hx hy _ ih =>
      exact .group hopen hclose (hRS _ _ ho) (hRS _ _ hc) hx hy ih

theorem hasUpdateOrGroup_tail {d : Nat} {t : Token} {ts : List Token}
    (h : hasUpdateOrGroup d (t :: ts) = false) : hasUpdateOrGroup (depthBehind d t) ts = false := by
  rw [hasUpdateOrGroup, Bool.or_eq_false_iff] at h
  exact h.2

theorem Balanced.hasUpdateOrGroup_append {xs rest : List Token} (hx : Balanced xs) {d : Nat}
    (h : hasUpdateOrGroup d (xs ++ rest) = false) : hasUpdateOrGroup d rest = false := by
  induction hx generalizing d rest with
  | nil => exact h
  | token hopen hclose =>
      have hrest := hasUpdateOrGroup_tail h
      rwa [depthBehind_of_ne hopen hclose] at hrest
  | append _ _ ihx ihy =>
      rw [List.append_assoc] at h
      exact ihy (ihx h)
  | @group o c xs hopen hclose _ ih =>
      rw [List.cons_append, List.append_assoc] at h
      have hinner := ih (hasUpdateOrGroup_tail h)
      have hrest := hasUpdateOrGroup_tail hinner
      have hdepth : depthBehind (depthBehind d o) c = d := by
        unfold depthBehind
        rw [hopen, hclose]
        rfl
      rwa [hdepth] at hrest

/-! ## Places of such lists -/

theorem placesAt_token (i : Nat) (before : Option Token) (d : Nat) (t : Token) (ts : List Token) :
    placesAt i before d (t :: ts) =
      ⟨i, if t.kind = .rightParen then d - 1 else d, before, t⟩ ::
        placesAt (i + 1) (some t) (depthBehind d t) ts := by
  unfold placesAt withDepthsFrom depthBehind
  rw [depthsFrom]
  split <;> simp_all [placesFrom]

/-- Behind a group the places are those outside all parentheses again. -/
theorem placesAt_behind_group {o c : Token} {xs : List Token} (hopen : o.kind = .leftParen)
    (hclose : c.kind = .rightParen) (hx : Balanced xs) (i : Nat) (before : Option Token)
    (ts : List Token) :
    placesAt i before 0 (o :: (xs ++ c :: ts)) =
      ⟨i, 0, before, o⟩ :: (placesAt (i + 1) (some o) 1 xs ++
        ⟨i + 1 + xs.length, 0, xs.getLast?.or (some o), c⟩ ::
          placesAt (i + xs.length + 2) (some c) 0 ts) := by
  have hcons : o :: (xs ++ c :: ts) = (o :: (xs ++ [c])) ++ ts := by simp
  have hlast : (o :: (xs ++ [c])).getLast?.or before = some c := by
    rw [← List.cons_append, List.getLast?_append]
    rfl
  have hlength : i + (o :: (xs ++ [c])).length = i + xs.length + 2 := by
    simp
    omega
  rw [hcons, placesAt_append (.group hopen hclose hx), placesAt_group hopen hclose hx, hlast,
    hlength]
  simp

theorem nextIs_eq (f : Token → Bool) (ps : List Place) :
    nextIs f ps = (ps.map (·.token)).head?.any f := by
  cases ps <;> rfl

end Token

/-! ## Both scans at one level -/

namespace Likeness

open RelationRef

variable {L : Likeness}

/-- The places that are still to be read in both runs, with what the scan looks at in them: the
same clauses begin in both, all of them outside parentheses, and the groups outside parentheses
either are alike or hold no beginning of a clause. -/
inductive Level (L : Likeness) : Nat → List Place → List Place → Prop
  | nil {d : Nat} : Level L d [] []
  | place {d : Nat} {p q : Place} {ps qs : List Place} (hpq : L.TokenLike p.token q.token)
      (hopens : opensClause p = opensClause q) (houtside : opensClause p = true → d = 0)
      (hupdate : d = 0 → p.token.isWord "UPDATE" = true → nextIsWord "OR" ps = true →
        nextIsKind .leftParen (ps.drop 1) = false)
      (h : Level L (depthBehind d p.token) ps qs) : Level L d (p :: ps) (q :: qs)
  | group {o o' c c' : Place} {xs ys ps qs : List Place} (hopen : o.token.kind = .leftParen)
      (hclose : c.token.kind = .rightParen) (ho : L.TokenLike o.token o'.token)
      (hc : L.TokenLike c.token c'.token) (hx : Balanced (xs.map (·.token)))
      (hy : Balanced (ys.map (·.token))) (hxs : ∀ p ∈ xs, p.isTopWord clauseWords = false)
      (hys : ∀ q ∈ ys, q.isTopWord clauseWords = false) (h : Level L 0 ps qs) :
      Level L 0 (o :: (xs ++ c :: ps)) (o' :: (ys ++ c' :: qs))

/-- References in both runs, whatever the indices of their tokens are. -/
def SameRef (L : Likeness) (r q : RelationRef) : Prop := L.RefLike r { q with tokens := r.tokens }

theorem isTopWord_of_opensClause {p : Place} (h : opensClause p = true) :
    p.isTopWord clauseWords = true := by
  rw [opensClause, Bool.and_eq_true] at h
  exact h.1

theorem isTopWord_of_paren {p : Place}
    (h : p.token.kind = .leftParen ∨ p.token.kind = .rightParen) :
    p.isTopWord clauseWords = false := by
  rw [Bool.eq_false_iff]
  intro htop
  rw [Place.isTopWord, Bool.and_eq_true] at htop
  have hkind := kind_ne_of_isAnyWord htop.2
  exact h.elim hkind.1 hkind.2

namespace Level

variable {d : Nat} {p : Place} {ps qs : List Place}

theorem uncons (h : Level L d (p :: ps) qs) :
    ∃ q qs', qs = q :: qs' ∧ L.TokenLike p.token q.token := by
  cases h with
  | place hpq => exact ⟨_, _, rfl, hpq⟩
  | group _ _ ho => exact ⟨_, _, rfl, ho⟩

theorem eq_nil (h : Level L d [] qs) : qs = [] := by
  cases h
  rfl

theorem nextIs (h : Level L d ps qs) {f g : Token → Bool}
    (hfg : ∀ t u, L.TokenLike t u → f t = g u) : Token.nextIs f ps = Token.nextIs g qs := by
  cases ps with
  | nil => rw [h.eq_nil]; rfl
  | cons p ps =>
      obtain ⟨q, qs, rfl, hpq⟩ := h.uncons
      exact hfg _ _ hpq

theorem nextIsKind (h : Level L d ps qs) (kind : Kind) :
    Token.nextIsKind kind ps = Token.nextIsKind kind qs :=
  h.nextIs fun _ _ htu => by rw [htu.kind]

theorem nextIsWord (h : Level L d ps qs) (word : String) :
    Token.nextIsWord word ps = Token.nextIsWord word qs :=
  h.nextIs fun _ _ htu => htu.isWord word

/-- Behind a token that opens no group, both lists are still outside all parentheses. -/
theorem tail (h : Level L 0 ps qs) (hne : ∀ p ∈ ps.head?, p.token.kind ≠ .leftParen) :
    Level L 0 (ps.drop 1) (qs.drop 1) := by
  cases h with
  | nil => exact .nil
  | place _ _ _ _ h => exact depthBehind_zero (hne _ rfl) ▸ h
  | group hopen => exact absurd hopen (hne _ rfl)

end Level

theorem head_ne_of_nextIs {f : Token → Bool} {ps : List Place} (h : nextIs f ps = true)
    (hf : ∀ t, f t = true → t.kind ≠ .leftParen) : ∀ p ∈ ps.head?, p.token.kind ≠ .leftParen := by
  cases ps with
  | nil => simp
  | cons p ps =>
      rintro q ⟨⟩
      exact hf _ h

theorem head_ne_of_nextIsWord {word : String} {ps : List Place} (h : nextIsWord word ps = true) :
    ∀ p ∈ ps.head?, p.token.kind ≠ .leftParen :=
  head_ne_of_nextIs h fun _ ht => (kind_ne_of_isAnyWord (isAnyWord_of_isWord ht)).1

/-! ## Groups -/

namespace Level

variable {d : Nat} {ps qs : List Place}

/-- Inside a group both lists are alike up to the parenthesis that closes it, and behind this one
they are outside all parentheses. -/
theorem closing? (h : Level L (d + 1) ps qs) (i : Nat) :
    Token.closing? d i (ps.map (·.token)) = Token.closing? d i (qs.map (·.token)) ∧
      ∀ n, Token.closing? d i (ps.map (·.token)) = some (i + n) →
        Level L 0 (ps.drop (n + 1)) (qs.drop (n + 1)) := by
  induction ps generalizing d qs i with
  | nil =>
      cases h
      exact ⟨rfl, fun n hn => nomatch hn⟩
  | cons p ps ih =>
      cases h with
      | @place _ _ q _ qs hpq _ _ _ h =>
          -- Where the search goes on, what it finds is further on.
          have hstep {e : Nat} (hrest : Level L (e + 1) ps qs)
              (hp : Token.closing? d i ((p :: ps).map (·.token)) =
                Token.closing? e (i + 1) (ps.map (·.token)))
              (hq : Token.closing? d i ((q :: qs).map (·.token)) =
                Token.closing? e (i + 1) (qs.map (·.token))) :
              Token.closing? d i ((p :: ps).map (·.token)) =
                  Token.closing? d i ((q :: qs).map (·.token)) ∧
                ∀ n, Token.closing? d i ((p :: ps).map (·.token)) = some (i + n) →
                  Level L 0 ((p :: ps).drop (n + 1)) ((q :: qs).drop (n + 1)) := by
            obtain ⟨heq, hbehind⟩ := ih hrest (i + 1)
            refine ⟨hp.trans (heq.trans hq.symm), fun n hn => ?_⟩
            rw [hp] at hn
            have hle := (le_of_closing? hn).1
            obtain ⟨m, rfl⟩ : ∃ m, n = m + 1 := ⟨n - 1, by omega⟩
            exact hbehind m (by rw [hn]; congr 1; omega)
          unfold depthBehind at h
          by_cases hopen : p.token.kind = .leftParen
          · rw [hopen] at h
            exact hstep h (closing?_open hopen) (closing?_open (hpq.kind ▸ hopen))
          · by_cases hclose : p.token.kind = .rightParen
            · rw [hclose] at h
              cases d with
              | zero =>
                  rw [List.map_cons, List.map_cons, closing?_last hclose,
                    closing?_last (hpq.kind ▸ hclose)]
                  refine ⟨rfl, fun n hn => ?_⟩
                  obtain rfl : n = 0 := by simpa using hn
                  exact h
              | succ e => exact hstep h (closing?_close hclose) (closing?_close (hpq.kind ▸ hclose))
            · have hsame : Level L (d + 1) ps qs := by
                revert h
                split <;> simp_all
              exact hstep hsame (closing?_other hopen hclose)
                (closing?_other (hpq.kind ▸ hopen) (hpq.kind ▸ hclose))

/-- A group is closed in both runs or in none, and what stands behind it is at one level. -/
theorem groupPlaces? (h : Level L 0 ps qs) :
    Option.Rel (fun g k => Level L 0 g.2 k.2) (Token.groupPlaces? ps) (Token.groupPlaces? qs) := by
  cases h with
  | nil => exact .none
  | @place _ p q ps qs hpq _ _ _ h =>
      unfold Token.groupPlaces?
      by_cases hopen : p.token.kind = .leftParen
      · have hinside : Level L (0 + 1) ps qs := by
          unfold depthBehind at h
          rwa [hopen] at h
        obtain ⟨heq, hbehind⟩ := hinside.closing? (0 + 1)
        have hp : Token.matchingParen? ((p :: ps).map (·.token)) 0 =
            Token.closing? 0 (0 + 1) (ps.map (·.token)) := if_pos hopen
        have hq : Token.matchingParen? ((q :: qs).map (·.token)) 0 =
            Token.closing? 0 (0 + 1) (qs.map (·.token)) := if_pos (hpq.kind ▸ hopen)
        rw [hp, hq, ← heq]
        cases hclose : Token.closing? 0 (0 + 1) (ps.map (·.token)) with
        | none => exact .none
        | some close =>
            have hle := (le_of_closing? hclose).1
            obtain ⟨n, rfl⟩ : ∃ n, close = 1 + n := ⟨close - 1, by omega⟩
            refine .some ?_
            simpa [Nat.add_comm 1 n] using hbehind n (by simpa using hclose)
      · rw [List.map_cons, List.map_cons, matchingParen?_of_ne hopen,
          matchingParen?_of_ne (hpq.kind ▸ hopen)]
        exact .none
  | group hopen hclose ho hc hx hy _ _ h =>
      rw [groupPlaces?_eq hopen hclose hx, groupPlaces?_eq (ho.kind ▸ hopen) (hc.kind ▸ hclose) hy]
      exact .some h

end Level

/-! ## References -/

namespace Level

variable {ps qs : List Place}

theorem readAlias (h : Level L 0 ps qs) :
    Option.Rel (fun p q => L.TokenLike p.token q.token) (RelationRef.readAlias ps).1
        (RelationRef.readAlias qs).1 ∧
      Level L 0 (RelationRef.readAlias ps).2 (RelationRef.readAlias qs).2 := by
  have hrest : Level L 0 (if Token.nextIsWord "AS" ps then ps.drop 1 else ps)
      (if Token.nextIsWord "AS" qs then qs.drop 1 else qs) := by
    rw [← h.nextIsWord]
    split
    · next has => exact h.tail (head_ne_of_nextIsWord has)
    · exact h
  unfold RelationRef.readAlias
  generalize (if Token.nextIsWord "AS" ps then ps.drop 1 else ps) = rest at hrest ⊢
  generalize (if Token.nextIsWord "AS" qs then qs.drop 1 else qs) = rest' at hrest ⊢
  cases rest with
  | nil =>
      cases hrest
      exact ⟨.none, h⟩
  | cons p rest =>
      obtain ⟨q, rest', rfl, hpq⟩ := hrest.uncons
      simp only [← hpq.isName, ← hpq.isAnyWord]
      split
      · next hname =>
          rw [Bool.and_eq_true] at hname
          refine ⟨.some hpq, hrest.tail ?_⟩
          rintro _ ⟨⟩
          exact (kind_ne_of_isName hname.1).1
      · exact ⟨.none, h⟩

theorem readParts (h : Level L 0 ps qs) :
    List.Forall₂ (fun p q => L.TokenLike p.token q.token) (RelationRef.readParts ps).1
        (RelationRef.readParts qs).1 ∧
      Level L 0 (RelationRef.readParts ps).2 (RelationRef.readParts qs).2 := by
  fun_induction RelationRef.readParts ps generalizing qs with
  | case1 dot part rest hname ih =>
      have hboth : dot.token.kind = .dot ∧ part.token.isName = true := by simpa using hname
      have htail := h.tail (by simp [hboth.1])
      obtain ⟨dot', qs, rfl, hdot⟩ := h.uncons
      obtain ⟨part', rest', rfl, hpart⟩ := htail.uncons
      have hrest := ih (htail.tail (by simpa using (kind_ne_of_isName hboth.2).1))
      rw [hdot.kind, hpart.isName] at hname
      simp only [RelationRef.readParts, if_pos hname]
      exact ⟨.cons hpart hrest.1, hrest.2⟩
  | case2 dot part rest hname =>
      by_cases hkind : dot.token.kind = .dot
      · have htail := h.tail (by simp [hkind])
        have hwhole := h
        obtain ⟨dot', qs, rfl, hdot⟩ := h.uncons
        obtain ⟨part', rest', rfl, hpart⟩ := htail.uncons
        rw [hdot.kind, hpart.isName] at hname
        simp only [RelationRef.readParts, if_neg hname]
        exact ⟨.nil, hwhole⟩
      · obtain ⟨dot', rest', rfl, hdot⟩ := h.uncons
        rw [OneTable.readParts_eq_nil (hdot.kind ▸ hkind)]
        exact ⟨.nil, h⟩
  | case3 rest hshort =>
      cases h with
      | nil => exact ⟨.nil, .nil⟩
      | @place _ p q ps qs hpq hopens houtside hupdate h =>
          cases ps with
          | cons part ps => exact absurd rfl (hshort p part ps)
          | nil =>
              obtain rfl := h.eq_nil
              exact ⟨.nil, .place hpq hopens houtside hupdate h⟩
      | @group o _ c _ xs _ ps =>
          obtain ⟨part, more, hmore⟩ : ∃ part more, xs ++ c :: ps = part :: more := by
            cases xs <;> simp
          exact absurd (congrArg (o :: ·) hmore) (hshort o part more)

theorem read? (h : Level L 0 ps qs) (allowFunction : Bool) :
    Option.Rel (fun x y => L.SameRef x.1 y.1 ∧ Level L 0 x.2 y.2)
      (RelationRef.read? allowFunction ps) (RelationRef.read? allowFunction qs) := by
  cases ps with
  | nil =>
      cases h
      exact .none
  | cons first rest =>
      have hgroup := h.groupPlaces?
      have htail := h.tail
      obtain ⟨first', rest', rfl, hfirst⟩ := h.uncons
      simp only [RelationRef.read?, hfirst.kind, hfirst.isName]
      split
      · refine map_rel hgroup fun g k hgk => ?_
        have halias := hgk.readAlias
        exact ⟨⟨.refl _, map_rel halias.1 fun _ _ hpq => hpq.value, hfirst.position, rfl, rfl⟩,
          halias.2⟩
      · next hopen =>
        split
        · have hrest : Level L 0 rest rest' := htail (by simpa [hfirst.kind] using hopen)
          have hparts := hrest.readParts
          have hname := getLastD_rel hparts.1 hfirst
          rw [hparts.2.nextIsKind]
          refine map_rel (R := fun g k => g.1 = k.1 ∧ Level L 0 g.2 k.2) ?_ fun g k hgk => ?_
          · split
            · exact map_rel hparts.2.groupPlaces? fun _ _ hgk => ⟨rfl, hgk⟩
            · exact .some ⟨rfl, hparts.2⟩
          · have halias := hgk.2.readAlias
            exact ⟨⟨hname.value, map_rel halias.1 fun _ _ hpq => hpq.value, hname.position, hgk.1,
              rfl⟩, halias.2⟩
        · exact .none

theorem readList (h : Level L 0 ps qs) (allowFunction allowList : Bool) :
    List.Forall₂ L.SameRef (RelationRef.readList allowFunction allowList ps).1
        (RelationRef.readList allowFunction allowList qs).1 ∧
      Level L 0 (RelationRef.readList allowFunction allowList ps).2
        (RelationRef.readList allowFunction allowList qs).2 :=
  readList_rel (fun h => h.read? allowFunction) (fun h => h.nextIsKind .comma)
    (fun h hcomma => h.tail (head_ne_of_nextIs hcomma fun t ht => by
      rw [beq_iff_eq] at ht
      simp [ht])) allowList h

/-- A clause begins outside all parentheses in both runs, and so does its list. -/
theorem clauseBody {p q : Place} (h : Level L 0 ps qs) (hpq : L.TokenLike p.token q.token)
    (hupdate : p.token.isWord "UPDATE" = true → Token.nextIsWord "OR" ps = true →
      Token.nextIsKind .leftParen (ps.drop 1) = false) :
    Level L 0 (RelationRef.clauseBody p ps) (RelationRef.clauseBody q qs) := by
  unfold RelationRef.clauseBody
  rw [← hpq.isWord, ← h.nextIsWord]
  split
  · next hor =>
      rw [Bool.and_eq_true] at hor
      have hbehind := h.tail (head_ne_of_nextIsWord hor.2)
      have hskipped := hbehind.tail fun p hp => by
        have hnone := hupdate hor.1 hor.2
        cases hps : ps.drop 1 with
        | nil => simp [hps] at hp
        | cons p' ps' =>
            rw [hps] at hp hnone
            cases hp
            simpa [Token.nextIsKind, Token.nextIs] using hnone
      simpa using hskipped
  · exact h

/-- The same references are found in both runs. -/
theorem ofPlaces {d : Nat} (h : Level L d ps qs) :
    List.Forall₂ L.SameRef (RelationRef.ofPlaces ps) (RelationRef.ofPlaces qs) := by
  induction hn : ps.length using Nat.strongRecOn generalizing d ps qs with
  | ind n ih =>
      subst hn
      cases h with
      | nil =>
          rw [RelationRef.ofPlaces]
          exact .nil
      | @place _ p q ps qs hpq hopens houtside hupdate h =>
          rw [RelationRef.ofPlaces, RelationRef.ofPlaces, ← hopens]
          split
          · next hclause =>
              obtain rfl := houtside hclause
              have hlevel : Level L 0 ps qs := by
                have hkind := (kind_ne_of_isAnyWord
                  (Bool.and_eq_true_iff.mp (isTopWord_of_opensClause hclause)).2).1
                exact depthBehind_zero hkind ▸ h
              have hlist := (hlevel.clauseBody hpq (hupdate rfl)).readList (!p.token.isWord "INTO")
                (p.token.isWord "FROM")
              have hshort := length_readList_le (!p.token.isWord "INTO") (p.token.isWord "FROM")
                (RelationRef.clauseBody p ps)
              have hbody : (RelationRef.clauseBody p ps).length ≤ ps.length := by
                unfold RelationRef.clauseBody
                split <;> simp
              simp only [← hpq.isWord]
              refine List.rel_append hlist.1 (ih _ ?_ hlist.2 rfl)
              rw [List.length_cons]
              omega
          · exact ih _ (by simp) h rfl
      | @group o o' c c' xs ys ps qs hopen hclose ho hc _ _ hxs hys h =>
          have hskip {o c : Place} {xs rest : List Place} (ho : o.token.kind = .leftParen)
              (hc : c.token.kind = .rightParen)
              (hxs : ∀ p ∈ xs, p.isTopWord clauseWords = false) :
              RelationRef.ofPlaces (o :: (xs ++ c :: rest)) = RelationRef.ofPlaces rest := by
            have hcons : o :: (xs ++ c :: rest) = (o :: (xs ++ [c])) ++ rest := by simp
            rw [hcons, Grammar.ofPlaces_append]
            intro p hp
            simp only [List.mem_cons, List.mem_append, List.not_mem_nil, or_false] at hp
            rcases hp with rfl | hp | rfl
            · exact isTopWord_of_paren (.inl ho)
            · exact hxs p hp
            · exact isTopWord_of_paren (.inr hc)
          rw [hskip hopen hclose hxs, hskip (ho.kind ▸ hopen) (hc.kind ▸ hclose) hys]
          exact ih _ (by simp; omega) h rfl

/-- The places of tokens that are alike outside their groups are at one level. -/
theorem of_sameOutside {d : Nat} {ts us : List Token} (h : SameOutside L.TokenLike d ts us)
    (hupdate : hasUpdateOrGroup d ts = false) {before before' : Option Token}
    (hbefore : before.any (·.isWord "DISTINCT") = before'.any (·.isWord "DISTINCT")) (i j : Nat) :
    Level L d (placesAt i before d ts) (placesAt j before' d us) := by
  induction h generalizing before before' i j with
  | nil => exact .nil
  | @token d t u ts us htu _ ih =>
      have hword : (some t).any (·.isWord "DISTINCT") = (some u).any (·.isWord "DISTINCT") :=
        htu.isWord "DISTINCT"
      have hrest := ih (hasUpdateOrGroup_tail hupdate) hword (i + 1) (j + 1)
      rw [placesAt_token, placesAt_token]
      refine .place htu ?_ ?_ ?_ ?_
      · simp [opensClause, Place.isTopWord, htu.kind, htu.isWord, htu.isAnyWord, hbefore]
      · intro hopens
        have htop := isTopWord_of_opensClause hopens
        rw [Place.isTopWord, Bool.and_eq_true] at htop
        simpa [(kind_ne_of_isAnyWord htop.2).2] using htop.1
      · rintro rfl hword hor
        rw [Token.nextIsWord, nextIs_eq, map_token_placesAt] at hor
        rw [Token.nextIsKind, nextIs_eq, List.map_drop, map_token_placesAt]
        rw [hasUpdateOrGroup, Bool.or_eq_false_iff] at hupdate
        simpa [startsWith, startsWithKind, hword, hor] using hupdate.1
      · have hdepth : depthBehind d u = depthBehind d t := by
          unfold depthBehind
          rw [htu.kind]
        exact hdepth ▸ hrest
  | @group o o' c c' xs ys ts us hopen hclose ho hc hx hy _ ih =>
      have hdeep {o : Token} {xs : List Token} (hx : Balanced xs) (i : Nat) :
          ∀ p ∈ placesAt i (some o) 1 xs, p.isTopWord clauseWords = false := by
        intro p hp
        have hle := hx.depth_le (mem_placesFrom hp)
        rw [Place.isTopWord, beq_eq_false_iff_ne.mpr (by omega), Bool.false_and]
      have hgroup : o :: (xs ++ c :: ts) = (o :: (xs ++ [c])) ++ ts := by simp
      have hmore : hasUpdateOrGroup 0 ts = false :=
        (Balanced.group hopen hclose hx).hasUpdateOrGroup_append (hgroup ▸ hupdate)
      rw [placesAt_behind_group hopen hclose hx,
        placesAt_behind_group (ho.kind ▸ hopen) (hc.kind ▸ hclose) hy]
      refine .group hopen hclose ho hc ?_ ?_ (hdeep hx _) (hdeep hy _)
        (ih hmore (by simp [hc.isWord]) _ _)
      · rwa [map_token_placesAt]
      · rwa [map_token_placesAt]

end Level

theorem ScopeLike.addReference_of_sameRef {base base' s u : Scope}
    (hbase : L.ScopeLike base base') (h : L.ScopeLike s u) {r q : RelationRef}
    (hrq : L.SameRef r q) : L.ScopeLike (base.addReference s r) (base'.addReference u q) :=
  -- A scope takes no notice of the indices.
  show L.ScopeLike _ (base'.addReference u { q with tokens := r.tokens }) from
    hbase.addReference h hrq

/-- Alike scopes are narrowed to alike scopes by statements that are alike outside their groups. -/
theorem ScopeLike.narrow_outside {base base' : Scope} (hbase : L.ScopeLike base base')
    {ts us : List Token} (h : SameOutside L.TokenLike 0 ts us)
    (hupdate : hasUpdateOrGroup 0 ts = false) :
    L.ScopeLike (base.narrow ts) (base'.narrow us) :=
  List.rel_foldl (P := L.ScopeLike) (R := L.SameRef)
    (fun _ _ hs _ _ hrq => hbase.addReference_of_sameRef hs hrq) .empty
    (Level.of_sameOutside h hupdate rfl 0 0).ofPlaces

end Likeness

/-! ## The scope of a statement -/

namespace Scope

/-- What stands in groups outside all parentheses does not count for the scope of a statement: where
nothing else differs, and no `UPDATE OR` outside them stands directly in front of one, the statement
sees the same relations in the same order under the same names, and the same relations are opaque or
missing. -/
theorem narrow_of_sameOutside (base : Scope) {ts us : List Token}
    (h : SameOutside Token.SameText 0 ts us) (hupdate : hasUpdateOrGroup 0 ts = false) :
    (base.narrow ts).entries = (base.narrow us).entries ∧
      (base.narrow ts).names = (base.narrow us).names ∧
      (base.narrow ts).opaqueNames = (base.narrow us).opaqueNames ∧
      (base.narrow ts).missing.map (·.name) = (base.narrow us).missing.map (·.name) := by
  have hbase : Likeness.spelled.ScopeLike base base :=
    ⟨List.forall₂_same.mpr fun e _ => .refl e, rfl, rfl,
      List.forall₂_same.mpr fun m _ => ⟨.refl m.name, trivial⟩⟩
  have hscope := hbase.narrow_outside (h.imp fun _ _ => Likeness.tokenLike_spelled) hupdate
  have hentries : List.Forall₂ Eq (base.narrow ts).entries (base.narrow us).entries :=
    hscope.entries.imp fun _ _ hef => hef.eq trivial
  rw [List.forall₂_eq_eq_eq] at hentries
  exact ⟨hentries, hscope.names, hscope.opaqueNames,
    Memberwise.map_eq hscope.missing fun _ _ hmn => hmn.name.exactly trivial⟩

/-- A subquery behind `IN`, and a number in its place. -/
theorem narrow_of_subquery :
    let word (text : String) : Token := ⟨.identifier, text, ⟨0, 0⟩, ⟨1, 1⟩⟩
    let openParen : Token := ⟨.leftParen, "(", ⟨0, 0⟩, ⟨1, 1⟩⟩
    let closeParen : Token := ⟨.rightParen, ")", ⟨0, 0⟩, ⟨1, 1⟩⟩
    let front := [word "FROM", word "users", word "WHERE", word "id", word "IN"]
    let ts := front ++ openParen ::
      ([word "SELECT", word "user_id", word "FROM", word "orders"] ++ closeParen :: [])
    let us := front ++ openParen :: ([⟨.integer, "1", ⟨0, 0⟩, ⟨1, 1⟩⟩] ++ closeParen :: [])
    let base := (empty.addEntry (.bare "users")).addEntry (.bare "orders")
    SameOutside Token.SameText 0 ts us ∧ hasUpdateOrGroup 0 ts = false ∧
      (base.narrow ts).entries = (base.narrow us).entries := by
  intro word openParen closeParen front ts us base
  have hbalanced {xs : List Token} (h : ∀ t ∈ xs, t.kind ≠ .leftParen ∧ t.kind ≠ .rightParen) :
      Balanced xs := (Outside.of_forall (p := fun _ => True) fun t ht => ⟨trivial, h t ht⟩).balanced
  have hsame : SameOutside Token.SameText 0 ts us :=
    .token ⟨rfl, rfl⟩ <| .token ⟨rfl, rfl⟩ <| .token ⟨rfl, rfl⟩ <| .token ⟨rfl, rfl⟩ <|
      .token ⟨rfl, rfl⟩ <| .group rfl rfl ⟨rfl, rfl⟩ ⟨rfl, rfl⟩ (hbalanced (by decide))
        (hbalanced (by decide)) .nil
  have hupdate : hasUpdateOrGroup 0 ts = false := by decide +kernel
  exact ⟨hsame, hupdate, (narrow_of_sameOutside base hsame hupdate).1⟩

end Scope

end TypedSql

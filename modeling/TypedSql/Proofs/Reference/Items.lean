import TypedSql.Analysis.Projection
import TypedSql.Proofs.Reference.Infer
import TypedSql.Proofs.Token.Cut
import TypedSql.Query.Statement

/-!
# The projected items

An item is kept as text, and its text is read again when its type is looked for.  The tokens that
come back write the same expression, so whatever is noted of an item is noted of a reference in it.

Main statements: `Writes.undotted`, `resolveItem_notes`, `Items.resolve_notes`.
-/

namespace TypedSql.Grammar

open Diagnostic Query Token

/-! ## Shapes of items -/

/-- How an expression begins, as far as dots are concerned: only a reference has one in second
place. -/
inductive Undotted : List Token → Prop
  | one {t : Token} (hname : t.isName = false) (hstar : t.kind ≠ .star) : Undotted [t]
  | reference {q dot c : Token} (hq : q.kind = .quotedIdentifier) (hdot : dot.Is .dot ".")
      (hc : c.kind = .quotedIdentifier) : Undotted [q, dot, c]
  | second {t u : Token} {ts : List Token} (hu : u.kind ≠ .dot) : Undotted (t :: u :: ts)
  | fourth {t u v w : Token} {ts : List Token} (hw : w.kind ≠ .dot) :
      Undotted (t :: u :: v :: w :: ts)

/-- A token that is no dot can stand behind it. -/
theorem Undotted.append {xs ys : List Token} {t : Token} (h : Undotted xs) (ht : t.kind ≠ .dot) :
    Undotted (xs ++ t :: ys) := by
  cases h with
  | one => exact .second ht
  | reference => exact .fourth ht
  | second hu => exact .second hu
  | fourth hw => exact .fourth hw

theorem Writes.undotted {part : Part} {xs : List Token} {rs : List ColumnRef}
    (h : Writes part xs rs) : Undotted xs := by
  have hone {t : Token} (ht : t.IsLiteral ∨ t.kind = .parameter) : Undotted [t] := by
    obtain ⟨-, -, -, hname⟩ := IsLiteral.first ht
    refine .one hname ?_
    rcases ht with (ht | ht | ht | ht) | ht
    · rw [ht]; decide
    · rw [ht]; decide
    · rw [ht]; decide
    · rw [ht.1]; decide
    · rw [ht]; decide
  induction h with
  | reference hq hdot hc => exact .reference hq hdot hc
  | literal ht => exact hone (.inl ht)
  | parameter ht => exact hone (.inr ht)
  | @group o c xs rs _ _ hx _ =>
      obtain ⟨t, ts, rfl⟩ := List.exists_cons_of_ne_nil hx.ne_nil
      exact .second (hx.first_ne_dot t rfl)
  | emptyCall _ ho _ => exact .second (by rw [ho.1]; decide)
  | call _ ho _ _ _ => exact .second (by rw [ho.1]; decide)
  | choice _ hw => exact .second (by rw [hw.1]; decide)
  | cast _ ho => exact .second (by rw [ho.1]; decide)
  | operand _ ih => exact ih
  | @negation k xs rs _ hx _ =>
      obtain ⟨t, ts, rfl⟩ := List.exists_cons_of_ne_nil hx.ne_nil
      exact .second (hx.first_ne_dot t rfl)
  | binary _ hop _ ihx _ =>
      refine ihx.append ?_
      rcases hop.kind with h | h <;> rw [h] <;> decide
  | single _ ih => exact ih
  | more _ hcomma _ ihx _ => exact ihx.append (by rw [hcomma.1]; decide)

/-- An item is a quoted reference, or any expression. -/
theorem Undotted.shape {xs : List Token} (h : Undotted xs) (sql : String) :
    (∃ q dot c : Token, xs = [q, dot, c] ∧ q.kind = .quotedIdentifier ∧ dot.Is .dot "." ∧
      c.kind = .quotedIdentifier ∧ Shape.ofTokens sql xs = .column (some q.value) c.value) ∨
    Shape.ofTokens sql xs = .expression (sourceText sql xs) := by
  cases h with
  | @one t hname hstar =>
      right
      simp only [Shape.ofTokens, hname, if_neg hstar, Bool.false_eq_true, if_false]
  | @reference q dot c hq hdot hc =>
      left
      refine ⟨q, dot, c, rfl, hq, hdot, hc, ?_⟩
      have hqname : q.isName = true := by
        rw [isName, isIdentifier, hq]
        rfl
      have hcname : c.isName = true := by
        rw [isName, isIdentifier, hc]
        rfl
      have hstar : (c.kind == .star) = false := by
        rw [hc]
        rfl
      simp only [Shape.ofTokens, hqname, hcname, hstar, hdot.1, beq_self_eq_true, Bool.and_true,
        Bool.and_false, Bool.false_eq_true, if_false, if_true]
  | @second t u ts hu =>
      right
      have hdot : (u.kind == .dot) = false := beq_eq_false_iff_ne.mpr hu
      unfold Shape.ofTokens
      split
      · next heq => cases heq
      · next heq =>
          cases heq
          simp only [hdot, Bool.and_false, Bool.false_and, Bool.false_eq_true, if_false]
      · next heq =>
          cases heq
          simp only [hdot, Bool.false_and, Bool.false_eq_true, if_false]
      · rfl
  | @fourth t u v w ts hw =>
      right
      have hdot : (w.kind == .dot) = false := beq_eq_false_iff_ne.mpr hw
      unfold Shape.ofTokens
      split
      · next heq => cases heq
      · next heq => cases heq
      · next heq =>
          cases heq
          simp only [hdot, Bool.and_false, Bool.false_and, Bool.false_eq_true, if_false]
      · rfl

/-! ## Reading the text of an item again -/

/-- The reference with its spans counted from byte `k` on. -/
def ColumnRef.back (k : Nat) (r : ColumnRef) : ColumnRef :=
  ⟨Token.back k r.qualifier, Token.back k r.column⟩

/-- Spans decide nothing about what tokens write. -/
theorem Writes.back {part : Part} {xs : List Token} {rs : List ColumnRef} (h : Writes part xs rs)
    (k : Nat) : Writes part (xs.map (Token.back k)) (rs.map (ColumnRef.back k)) := by
  induction h with
  | reference hq hdot hc => exact .reference hq hdot hc
  | literal ht => exact .literal ht
  | parameter ht => exact .parameter ht
  | group ho hc _ ih =>
      rw [List.map_cons, List.map_append]
      exact .group ho hc ih
  | emptyCall hf ho hc => exact .emptyCall hf ho hc
  | call hf ho hc _ ih =>
      rw [List.map_cons, List.map_cons, List.map_append]
      exact .call hf ho hc ih
  | choice hk hw ht he hn _ _ _ ihx ihy ihz =>
      rw [List.map_cons, List.map_cons, List.map_append, List.map_cons, List.map_append,
        List.map_cons, List.map_append, List.map_append, List.map_append]
      exact .choice hk hw ht he hn ihx ihy ihz
  | cast hk ho ha ht hc _ ih =>
      rw [List.map_cons, List.map_cons, List.map_append]
      exact .cast hk ho ha ht hc ih
  | operand _ ih => exact .operand ih
  | negation hk _ ih => exact .negation hk ih
  | binary _ hop _ ihx ihy =>
      rw [List.map_append, List.map_cons, List.map_append]
      exact .binary ihx hop ihy
  | single _ ih => exact .single ih
  | more _ hcomma _ ihx ihy =>
      rw [List.map_append, List.map_cons, List.map_append]
      exact .more ihx hcomma ihy

theorem Explained.of_back {s : Scope} {rs : List ColumnRef} {k : Nat} {d : Diagnostic}
    (h : Explained s (rs.map (ColumnRef.back k)) d) : Explained s rs d := by
  rcases h with h | h
  · left
    rw [List.flatMap_map] at h
    exact h
  · exact .inr h

/-! ## Items -/

theorem splitAlias_as {xs : List Token} {a n : Token} (hne : xs ≠ []) (ha : a.IsKeyword "AS") :
    splitAlias (xs ++ [a, n]) = (xs, some n.value) := by
  have has : a.isWord "AS" = true := by
    rw [ha.isWord]
    decide
  cases hrev : xs.reverse with
  | nil => exact absurd (List.reverse_eq_nil_iff.mp hrev) hne
  | cons first rest =>
      have hlist : (xs ++ [a, n]).reverse = n :: a :: first :: rest := by
        rw [List.reverse_append, hrev]
        rfl
      have hback : (first :: rest).reverse = xs := by rw [← hrev, List.reverse_reverse]
      simp only [splitAlias, hlist, has, if_true, hback]

/-- An item with an alias: what stands before `AS`, and where it begins. -/
theorem ofTokens_as {first a n : Token} {ts : List Token} (sql : String) (ha : a.IsKeyword "AS") :
    Item.ofTokens sql (first :: ts ++ [a, n]) =
      ⟨.ofTokens sql (first :: ts), some n.value, first.position⟩ := by
  rw [Item.ofTokens, splitAlias_as (List.cons_ne_nil _ _) ha]
  rfl

variable {s : Scope} {sql : String} {p : Position} {before after : List Token}

/-- What is noted of an item is noted of a reference in it. -/
theorem resolveItem_notes {a n : Token} {xs : List Token} {rs : List ColumnRef}
    (hx : Writes .expression xs rs) (ha : a.IsKeyword "AS")
    (hreads : CleanReads sql.toList 0 p (before ++ (xs ++ after))) (number : Nat) :
    ∀ d ∈ (resolveItem .query s number (Item.ofTokens sql (xs ++ [a, n]))).notes,
      Explained s rs d := by
  intro d hd
  obtain ⟨first, ts, rfl⟩ := List.exists_cons_of_ne_nil hx.ne_nil
  rw [ofTokens_as sql ha] at hd
  rcases hx.undotted.shape sql with ⟨q, dot, c, hlist, hq, hdot, hc, hshape⟩ | hshape
  · have hd : d ∈ ((Expr.ofTokens (first :: ts)).infer .query s).notes := by
      obtain ⟨rfl, rfl⟩ := List.cons.inj hlist
      rw [ofTokens_reference hq hdot hc, Expr.infer]
      simp only [resolveItem, hshape] at hd
      rcases List.mem_append.mp hd with hd | hd
      · exact hd
      · cases hd
    exact hx.infer_notes s _ (List.mem_singleton_self _) d hd
  · have htokens : tokenizeAt (sourceText sql (first :: ts)) first.position =
        .ok ((first :: ts).map (Token.back first.span.start)) :=
      readFrom_of_reads (Reads.of_sourceText hreads)
    have hback := hx.back first.span.start
    simp only [resolveItem, hshape, htokens] at hd
    rcases List.mem_append.mp hd with hd | hd
    · exact (hback.infer_notes s _ (List.mem_singleton_self _) d hd).of_back
    · cases hd

theorem outside_noComma_alias {a n : Token} {xs : List Token} {rs : List ColumnRef}
    (hx : Writes .expression xs rs) (ha : a.IsKeyword "AS") (hn : n.kind = .quotedIdentifier) :
    Outside NoComma (xs ++ [a, n]) := by
  have hpair : Outside NoComma ([a] ++ [n]) := by
    refine .append (.token ?_ ?_ ?_) (.token ?_ ?_ ?_)
    · show a.kind ≠ .comma
      rw [ha.1]
      decide
    · rw [ha.1]; decide
    · rw [ha.1]; decide
    · show n.kind ≠ .comma
      rw [hn]
      decide
    · rw [hn]; decide
    · rw [hn]; decide
  exact (hx.noComma nofun).append hpair

theorem Items.readProjection_single {a n : Token} {xs : List Token} {rs : List ColumnRef}
    (hx : Writes .expression xs rs) (ha : a.IsKeyword "AS") (hn : n.kind = .quotedIdentifier) :
    readProjection sql (xs ++ [a, n]) = [Item.ofTokens sql (xs ++ [a, n])] := by
  rw [readProjection, (outside_noComma_alias hx ha hn).commaPieces_eq (by simp), List.map_singleton]

theorem Items.readProjection_more {a n comma : Token} {xs ys : List Token} {rs : List ColumnRef}
    (hx : Writes .expression xs rs) (ha : a.IsKeyword "AS") (hn : n.kind = .quotedIdentifier)
    (hcomma : comma.Is .comma ",") :
    readProjection sql (xs ++ a :: n :: comma :: ys) =
      Item.ofTokens sql (xs ++ [a, n]) :: readProjection sql ys := by
  have hlist : xs ++ a :: n :: comma :: ys = (xs ++ [a, n]) ++ comma :: ys := by simp
  rw [readProjection, hlist,
    (outside_noComma_alias hx ha hn).commaPieces_append (by simp) hcomma.1, List.map_cons]
  rfl

/-- What is noted of the items is noted of a reference in one of them. -/
theorem Items.resolve_notes {xs : List Token} {rs : List ColumnRef} (h : Items xs rs)
    (hreads : CleanReads sql.toList 0 p (before ++ (xs ++ after))) (count : Nat) :
    ∀ d ∈ (resolveItems .query s count (readProjection sql xs)).notes, Explained s rs d := by
  induction h generalizing before count with
  | @single a n xs rs hx ha hn =>
      intro d hd
      rw [List.append_assoc] at hreads
      rw [Items.readProjection_single hx ha hn, resolveItems] at hd
      rcases List.mem_append.mp hd with hd | hd
      · exact resolveItem_notes hx ha hreads _ d hd
      · cases hd
  | @more a n comma xs ys rs us hx ha hn hcomma hy ih =>
      intro d hd
      rw [Items.readProjection_more hx ha hn hcomma, resolveItems] at hd
      have hbehind : CleanReads sql.toList 0 p
          ((before ++ (xs ++ [a, n, comma])) ++ (ys ++ after)) := by
        simp only [List.append_assoc, List.cons_append, List.nil_append] at hreads ⊢
        exact hreads
      rw [List.append_assoc] at hreads
      rcases List.mem_append.mp hd with hd | hd
      · exact (resolveItem_notes hx ha hreads _ d hd).left
      · rcases List.mem_append.mp hd with hd | hd
        · exact (ih hbehind _ d hd).right
        · cases hd

end TypedSql.Grammar

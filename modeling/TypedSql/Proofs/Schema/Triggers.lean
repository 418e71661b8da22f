import TypedSql.Proofs.Schema.Append
import TypedSql.Proofs.Schema.ColumnClauses

/-!
# Triggers

A trigger holds statements of its own, and a schema with the trigger comes to the same catalog as
the schema without it.  The splitter keeps the body of a trigger together, but it takes every
semicolon behind the word `END` for the end of the body, also where this `END` ends a `CASE`.  What
follows is then split into statements of their own.  None of them changes a catalog, as little as
the trigger itself does, so that it does not matter where the body was cut.

Main definitions: `Trigger`, `Idle`, `EndsStatement`.  Main statement: `applyStatements_trigger`.
-/

namespace TypedSql.Schema

open Text Token

/-! ## The grammar -/

/-- The token is no semicolon. -/
def NoSemicolon (t : Token) : Prop := t.kind ≠ .semicolon

instance : DecidablePred NoSemicolon := fun t =>
  inferInstanceAs (Decidable (t.kind ≠ .semicolon))

/-- A semicolon. -/
structure Semicolon where
  token : Token
  hkind : token.kind = .semicolon

/-- A statement in the body of a trigger, with the semicolon behind it.  It can end with `END`. -/
structure BodyStatement where
  verb : Spelled ["INSERT", "REPLACE", "UPDATE", "DELETE", "SELECT", "WITH"]
  behind : List Token
  semicolon : Semicolon
  hbehind : Outside NoSemicolon behind

/-- `CREATE TRIGGER` with its body and the semicolon behind `END`. -/
structure Trigger where
  create : Spelled ["CREATE"]
  temporary : Option (Spelled ["TEMP", "TEMPORARY"])
  trigger : Spelled ["TRIGGER"]
  header : List Token
  opening : Spelled ["BEGIN"]
  body : List BodyStatement
  closing : Spelled ["END"]
  semicolon : Semicolon
  hbalanced : Balanced header
  hheader : ∀ t ∈ header, NoSemicolon t

namespace BodyStatement

variable (b : BodyStatement)

/-- The statement without its semicolon. -/
def words : List Token := b.verb.token :: b.behind

def tokens : List Token := b.words ++ [b.semicolon.token]

theorem outside : Outside NoSemicolon b.words :=
  .cons (b.verb.kind_ne (by decide) (by decide)) (b.verb.kind_ne (by decide) (by decide))
    (b.verb.kind_ne (by decide) (by decide)) b.hbehind

end BodyStatement

namespace Trigger

variable (t : Trigger)

/-- The words that tell a trigger. -/
def lead : List Token :=
  t.create.token :: (t.temporary.toList.map Spelled.token ++ [t.trigger.token])

/-- What stands in front of the body. -/
def front : List Token := t.lead ++ t.header ++ [t.opening.token]

/-- What stands behind the body. -/
def ending : List Token := [t.closing.token, t.semicolon.token]

def tokens : List Token := t.front ++ (t.body.flatMap BodyStatement.tokens ++ t.ending)

end Trigger

/-! ## Statements that do nothing -/

/-- The statement changes no catalog, and nothing is reported of it. -/
def Idle (statement : List Token) : Prop :=
  ∀ source c, applyStatement source c statement = (c, [])

theorem idle_of_first {t : Token} (h : t.isAnyWord ["CREATE", "ALTER", "DROP"] = false)
    (ts : List Token) : Idle (t :: ts) := by
  intro source c
  have hword (word : String) (hmem : word ∈ ["CREATE", "ALTER", "DROP"]) :
      t.isWord word = false := isWord_of_isAnyWord h hmem
  have hattempt : attempt source c (t :: ts) = ignore := by
    unfold attempt
    simp only [hword "CREATE" (by decide), hword "ALTER" (by decide), hword "DROP" (by decide),
      Bool.false_and, Bool.false_eq_true, if_false]
  rw [applyStatement, hattempt]
  rfl

theorem BodyStatement.idle (b : BodyStatement) : Idle b.words :=
  idle_of_first (isAnyWord_of_ne b.verb.spelled (by decide +kernel)) b.behind

/-- Behind `CREATE` and `TEMP` nothing stands that is created. -/
theorem createObject_trigger (temporary : Option (Spelled ["TEMP", "TEMPORARY"]))
    (trigger : Spelled ["TRIGGER"]) (source : Source) (position : Position) (c : Catalog)
    (rest : List Token) :
    createObject source position c
      (temporary.toList.map Spelled.token ++ trigger.token :: rest) = ignore := by
  have hcreated : ∀ word ∈ ["TABLE", "INDEX", "VIEW", "UNIQUE", "TEMP", "TEMPORARY"],
      trigger.token.isWord word = false := fun word hword =>
    isWord_of_isAnyWord (isAnyWord_of_ne trigger.spelled (by decide +kernel)) hword
  cases temporary with
  | none => simp [createObject, startsWith, skip, hcreated]
  | some w =>
      have hunique : w.token.isWord "UNIQUE" = false :=
        isWord_of_isAnyWord (isAnyWord_of_ne w.spelled (by decide +kernel))
          (List.mem_singleton_self _)
      have hword : w.token.isWord "TEMP" = true ∨ w.token.isWord "TEMPORARY" = true := by
        simpa [isAnyWord] using w.spelled
      cases htemp : w.token.isWord "TEMP" with
      | true => simp [createObject, startsWith, skip, hunique, htemp, hcreated]
      | false =>
          have htemporary : w.token.isWord "TEMPORARY" = true := by simpa [htemp] using hword
          simp [createObject, startsWith, skip, hunique, htemp, htemporary, hcreated]

/-- What begins like a trigger does nothing, wherever it is cut. -/
theorem Trigger.idle (t : Trigger) (rest : List Token) : Idle (t.lead ++ rest) := by
  intro source c
  have hattempt : attempt source c (t.lead ++ rest) = ignore := by
    have hlead : t.lead ++ rest = t.create.token ::
        (t.temporary.toList.map Spelled.token ++ t.trigger.token :: rest) := by
      simp [lead]
    rw [hlead, attempt, if_pos t.create.isWord]
    exact createObject_trigger t.temporary t.trigger source t.create.token.position c rest
  rw [applyStatement, hattempt]
  rfl

/-- Idle statements can be left out. -/
theorem applyStatements_idle {idle : List (List Token)} (h : ∀ s ∈ idle, Idle s) (source : Source)
    (c : Catalog) (ss : List (List Token)) :
    applyStatements source c (idle ++ ss) = applyStatements source c ss := by
  induction idle with
  | nil => rfl
  | cons s idle ih =>
      rw [List.cons_append, applyStatements_cons, h s List.mem_cons_self source c]
      exact ih fun other hother => h other (List.mem_cons_of_mem s hother)

/-! ## What the splitter passes over -/

namespace Cutting

variable {k : Cutting} {xs : List Token}

/-- What the splitter holds behind tokens none of which ends the statement. -/
def pushAll (k : Cutting) (ts : List Token) : Cutting := ts.foldl push k

theorem pushAll_append (k : Cutting) (xs ys : List Token) :
    k.pushAll (xs ++ ys) = (k.pushAll xs).pushAll ys := List.foldl_append

theorem current_pushAll (k : Cutting) (ts : List Token) :
    (k.pushAll ts).current = k.current ++ ts := by
  induction ts generalizing k with
  | nil => exact (List.append_nil _).symm
  | cons t ts ih =>
      show ((k.push t).pushAll ts).current = _
      rw [ih]
      exact (List.append_cons _ _ _).symm

theorem inBody_pushAll (h : k.inBody = true) (ts : List Token) :
    (k.pushAll ts).inBody = true := by
  induction ts generalizing k with
  | nil => exact h
  | cons t ts ih =>
      refine @ih (k.push t) ?_
      rw [push, h]
      rfl

/-- In a statement that does not begin with `CREATE` no body of a trigger begins. -/
theorem inBody_pushAll_of_first {t : Token} {current : List Token}
    (hcurrent : k.current = t :: current) (ht : t.isWord "CREATE" = false) (ts : List Token) :
    (k.pushAll ts).inBody = k.inBody := by
  induction ts generalizing k current with
  | nil => rfl
  | cons u us ih =>
      have htrigger : isTrigger k.current = false := by
        rw [hcurrent, isTrigger, List.head?_cons, Option.any_some, ht]
        rfl
      have hpush : (k.push u).current = t :: (current ++ [u]) := by
        rw [push, hcurrent]
        rfl
      refine (@ih (k.push u) _ hpush).trans ?_
      rw [push, htrigger]
      simp

theorem depth_push {t : Token} (hopen : t.kind ≠ .leftParen) (hclose : t.kind ≠ .rightParen) :
    (k.push t).depth = k.depth := by
  unfold push
  dsimp only
  split
  · next h => exact absurd h hopen
  · next h => exact absurd h hclose
  · rfl

theorem depth_push_open {t : Token} (h : t.kind = .leftParen) : (k.push t).depth = k.depth + 1 := by
  unfold push
  rw [h]

theorem depth_push_close {t : Token} (h : t.kind = .rightParen) :
    (k.push t).depth = k.depth - 1 := by
  unfold push
  rw [h]

/-- Behind a balanced list as many parentheses are open as in front of it. -/
theorem depth_pushAll (h : Balanced xs) (k : Cutting) : (k.pushAll xs).depth = k.depth := by
  induction h generalizing k with
  | nil => rfl
  | token hopen hclose => exact depth_push hopen hclose
  | append _ _ hx hy => rw [pushAll_append, hy, hx]
  | @group openParen closeParen xs hopen hclose _ hx =>
      show (((k.push openParen).pushAll (xs ++ [closeParen])).depth) = k.depth
      rw [pushAll_append]
      show (((k.push openParen).pushAll xs).push closeParen).depth = k.depth
      rw [depth_push_close hclose, hx, depth_push_open hopen, Nat.add_sub_cancel]

theorem endsAt_of_kind {t : Token} (h : NoSemicolon t) : k.endsAt t = false := by
  rw [endsAt, beq_eq_false_iff_ne.mpr h, Bool.false_and, Bool.false_and]

theorem endsAt_of_depth (h : 0 < k.depth) (t : Token) : k.endsAt t = false := by
  rw [endsAt, beq_eq_false_iff_ne.mpr (Nat.pos_iff_ne_zero.mp h), Bool.and_false, Bool.false_and]

theorem rest_cons_of_not_ends {t : Token} (h : k.endsAt t = false) (ts : List Token) :
    k.rest (t :: ts) = (k.push t).rest ts := by
  rw [rest_cons, h, if_neg Bool.false_ne_true]

/-- In parentheses a semicolon ends nothing. -/
theorem rest_append_of_depth (h : Balanced xs) (hk : 0 < k.depth) (us : List Token) :
    k.rest (xs ++ us) = (k.pushAll xs).rest us := by
  induction h generalizing k us with
  | nil => rfl
  | token _ _ => exact rest_cons_of_not_ends (endsAt_of_depth hk _) us
  | @append xs ys hbalanced _ hx hy =>
      have hdepth : 0 < (k.pushAll xs).depth := by rwa [depth_pushAll hbalanced]
      rw [List.append_assoc, hx hk, hy hdepth, pushAll_append]
  | @group openParen closeParen xs hopen hclose hbalanced hx =>
      have hinner : 0 < (k.push openParen).depth := by
        rw [depth_push_open hopen]
        exact Nat.succ_pos _
      have hbehind : 0 < ((k.push openParen).pushAll xs).depth := by rwa [depth_pushAll hbalanced]
      rw [List.cons_append, rest_cons_of_not_ends (endsAt_of_depth hk _), List.append_assoc,
        hx hinner, List.singleton_append, rest_cons_of_not_ends (endsAt_of_depth hbehind _)]
      show _ = ((k.push openParen).pushAll (xs ++ [closeParen])).rest us
      rw [pushAll_append]
      rfl

/-- Without a semicolon outside its groups a list ends nothing. -/
theorem rest_append_of_outside (h : Outside NoSemicolon xs) (k : Cutting) (us : List Token) :
    k.rest (xs ++ us) = (k.pushAll xs).rest us := by
  induction h generalizing k us with
  | nil => rfl
  | token ht _ _ => exact rest_cons_of_not_ends (endsAt_of_kind ht) us
  | append _ _ hx hy => rw [List.append_assoc, hx, hy, pushAll_append]
  | @group openParen closeParen xs hopen hclose hpopen hpclose hbalanced =>
      have hinner : 0 < (k.push openParen).depth := by
        rw [depth_push_open hopen]
        exact Nat.succ_pos _
      rw [List.cons_append, rest_cons_of_not_ends (endsAt_of_kind hpopen), List.append_assoc,
        rest_append_of_depth hbalanced hinner, List.singleton_append,
        rest_cons_of_not_ends (endsAt_of_kind hpclose)]
      show _ = ((k.push openParen).pushAll (xs ++ [closeParen])).rest us
      rw [pushAll_append]
      rfl

/-- A statement in front of a semicolon that ends it. -/
theorem rest_of_ends {t : Token} (h : k.endsAt t = true) (hcurrent : k.current ≠ [])
    (us : List Token) : k.rest (t :: us) = k.current :: start.rest us := by
  rw [rest_cons, if_pos h, nonempty, List.isEmpty_eq_false_iff.mpr hcurrent,
    if_neg Bool.false_ne_true]
  rfl

end Cutting

/-! ## What the splitter makes of a trigger -/

open Cutting

/-- Without the body around it a statement is split like any other one. -/
theorem BodyStatement.rest_tokens (b : BodyStatement) (us : List Token) :
    start.rest (b.tokens ++ us) = b.words :: start.rest us := by
  let k := start.pushAll b.words
  have hcurrent : k.current = b.words := current_pushAll start b.words
  have hdepth : k.depth = 0 := depth_pushAll b.outside.balanced start
  have hbody : k.inBody = false := by
    have hverb : b.verb.token.isWord "CREATE" = false :=
      isWord_of_isAnyWord (isAnyWord_of_ne b.verb.spelled (by decide +kernel))
        (List.mem_singleton_self _)
    have hpush : (start.push b.verb.token).inBody = false := by simp [push, start, isTrigger]
    have hfirst : (start.push b.verb.token).current = b.verb.token :: [] := rfl
    exact (inBody_pushAll_of_first hfirst hverb b.behind).trans hpush
  have hends : k.endsAt b.semicolon.token = true := by
    simp [endsAt, b.semicolon.hkind, hdepth, hbody]
  rw [tokens, List.append_assoc, rest_append_of_outside b.outside, List.singleton_append,
    rest_of_ends hends (by rw [hcurrent]; exact List.cons_ne_nil _ _), hcurrent]

namespace Trigger

variable (t : Trigger)

theorem depth_push_closing (k : Cutting) : (k.push t.closing.token).depth = k.depth :=
  depth_push (t.closing.kind_ne (by decide) (by decide)) (t.closing.kind_ne (by decide) (by decide))

/-- Where the splitter takes the end of the trigger for the end of a statement, it goes on with what
stands behind. -/
theorem rest_ending {k : Cutting}
    (hends : (k.push t.closing.token).endsAt t.semicolon.token = true) (us : List Token) :
    k.rest (t.ending ++ us) = (k.current ++ [t.closing.token]) :: start.rest us := by
  have hword : NoSemicolon t.closing.token := t.closing.kind_ne (by decide) (by decide)
  show k.rest (t.closing.token :: t.semicolon.token :: us) = _
  rw [rest_cons_of_not_ends (endsAt_of_kind hword), rest_of_ends hends (by simp [push])]
  rfl

/-- Statements that are cut off from a trigger, and its end. -/
theorem rest_loose (body : List BodyStatement) (us : List Token) :
    start.rest (body.flatMap BodyStatement.tokens ++ (t.ending ++ us)) =
      body.map BodyStatement.words ++ [t.closing.token] :: start.rest us := by
  induction body with
  | nil =>
      have hbody : (start.push t.closing.token).inBody = false := by
        simp [push, start, isTrigger]
      have hdepth : (start.push t.closing.token).depth = 0 := t.depth_push_closing start
      exact t.rest_ending (by simp [endsAt, t.semicolon.hkind, hdepth, hbody]) us
  | cons b body ih =>
      rw [List.flatMap_cons, List.append_assoc, b.rest_tokens, ih]
      rfl

theorem idle_closing : Idle [t.closing.token] :=
  idle_of_first (isAnyWord_of_ne t.closing.spelled (by decide +kernel)) []

/-- Statements that are cut off from a trigger, and its end, are all idle. -/
theorem idle_loose (body : List BodyStatement) :
    ∀ s ∈ body.map BodyStatement.words ++ [[t.closing.token]], Idle s := by
  intro s hs
  rcases List.mem_append.mp hs with hs | hs
  · obtain ⟨b, -, rfl⟩ := List.mem_map.mp hs
    exact b.idle
  · rw [List.mem_singleton.mp hs]
    exact t.idle_closing

/-- In the body of a trigger the splitter goes on to the end of the trigger, or stops behind an
`END` before; what it makes of the rest of the body then is idle like the trigger itself. -/
theorem rest_body (body : List BodyStatement) {k : Cutting} (hbody : k.inBody = true)
    (hdepth : k.depth = 0) {behind : List Token} (hcurrent : k.current = t.lead ++ behind)
    (us : List Token) :
    ∃ idle, (∀ s ∈ idle, Idle s) ∧
      k.rest (body.flatMap BodyStatement.tokens ++ (t.ending ++ us)) = idle ++ start.rest us := by
  -- The induction is on the statements of the body, for every statement so far that begins like the
  -- trigger and is in its body outside all parentheses.
  induction body generalizing k behind with
  | nil =>
      have hzero : (k.push t.closing.token).depth = 0 := (t.depth_push_closing k).trans hdepth
      have hend : (k.push t.closing.token).current.getLast?.any (·.isWord "END") = true := by
        show (k.current ++ [t.closing.token]).getLast?.any _ = true
        rw [List.getLast?_concat, Option.any_some, t.closing.isWord]
      refine ⟨[k.current ++ [t.closing.token]], fun s hs => ?_,
        t.rest_ending (by simp [endsAt, t.semicolon.hkind, hzero, hend]) us⟩
      rw [List.mem_singleton.mp hs, hcurrent, List.append_assoc]
      exact t.idle _
  | cons b body ih =>
      let behindWords := k.pushAll b.words
      have hwords : behindWords.current = t.lead ++ (behind ++ b.words) := by
        rw [current_pushAll, hcurrent, List.append_assoc]
      have hpassed : k.rest ((b :: body).flatMap BodyStatement.tokens ++ (t.ending ++ us)) =
          behindWords.rest (b.semicolon.token ::
            (body.flatMap BodyStatement.tokens ++ (t.ending ++ us))) := by
        rw [List.flatMap_cons, BodyStatement.tokens, List.append_assoc, List.append_assoc,
          rest_append_of_outside b.outside]
        rfl
      rw [hpassed]
      by_cases hends : behindWords.endsAt b.semicolon.token = true
      · -- The statement ends with an `END`, which the splitter takes for that of the trigger.
        refine ⟨behindWords.current :: (body.map BodyStatement.words ++ [[t.closing.token]]),
          List.forall_mem_cons.mpr ⟨hwords ▸ t.idle _, t.idle_loose body⟩, ?_⟩
        rw [rest_of_ends hends (by rw [hwords]; exact List.cons_ne_nil _ _), t.rest_loose body us,
          List.cons_append, List.append_assoc]
        rfl
      · -- The trigger goes on behind the semicolon.
        have hsemicolon : b.semicolon.token.kind = .semicolon := b.semicolon.hkind
        have hzero : (behindWords.push b.semicolon.token).depth = 0 := by
          rw [depth_push (by rw [hsemicolon]; decide) (by rw [hsemicolon]; decide),
            depth_pushAll b.outside.balanced, hdepth]
        have hinside : (behindWords.push b.semicolon.token).inBody = true :=
          inBody_pushAll (inBody_pushAll hbody b.words) [b.semicolon.token]
        have hmore : (behindWords.push b.semicolon.token).current =
            t.lead ++ (behind ++ b.words ++ [b.semicolon.token]) := by
          show behindWords.current ++ [b.semicolon.token] = _
          rw [hwords, List.append_assoc, List.append_assoc]
        rw [rest_cons_of_not_ends (Bool.not_eq_true _ ▸ hends)]
        exact ih hinside hzero hmore

theorem outside_lead : Outside NoSemicolon t.lead := by
  refine .of_forall fun u hu => ?_
  have hword {words : List String} (w : Spelled words) :
      NoSemicolon w.token ∧ w.token.kind ≠ .leftParen ∧ w.token.kind ≠ .rightParen :=
    ⟨w.kind_ne (by decide) (by decide), w.kind_ne (by decide) (by decide),
      w.kind_ne (by decide) (by decide)⟩
  rcases List.mem_cons.mp hu with rfl | hu
  · exact hword t.create
  · rcases List.mem_append.mp hu with hu | hu
    · obtain ⟨w, -, rfl⟩ := List.mem_map.mp hu
      exact hword w
    · rw [List.mem_singleton.mp hu]
      exact hword t.trigger

theorem isTrigger_lead (ts : List Token) : isTrigger (t.lead ++ ts) = true := by
  rw [isTrigger, lead, List.cons_append, List.head?_cons, Option.any_some, t.create.isWord,
    Bool.true_and]
  cases t.temporary <;> simp [t.trigger.isWord]

/-- A trigger comes to statements that do nothing, and what stands behind it is split by itself. -/
theorem statements_append (us : List Token) :
    ∃ idle, (∀ s ∈ idle, Idle s) ∧ statements (t.tokens ++ us) = idle ++ statements us := by
  -- Whatever the header is, behind `BEGIN` the splitter is in the body, at the depth of its start.
  let k := start.pushAll (t.lead ++ t.header)
  have houtside : Outside NoSemicolon (t.lead ++ t.header) :=
    t.outside_lead.append (t.hbalanced.outside t.hheader)
  have hk : k.current = t.lead ++ t.header := current_pushAll start _
  have hopening : NoSemicolon t.opening.token := t.opening.kind_ne (by decide) (by decide)
  have hdepth : (k.push t.opening.token).depth = 0 := by
    rw [depth_push (t.opening.kind_ne (by decide) (by decide))
      (t.opening.kind_ne (by decide) (by decide))]
    exact depth_pushAll houtside.balanced start
  have hbody : (k.push t.opening.token).inBody = true := by
    show (k.inBody || (t.opening.token.isWord "BEGIN" && isTrigger k.current)) = true
    rw [hk, t.isTrigger_lead, t.opening.isWord, Bool.and_self, Bool.or_true]
  have hcurrent : (k.push t.opening.token).current =
      t.lead ++ (t.header ++ [t.opening.token]) := by
    show k.current ++ _ = _
    rw [hk, List.append_assoc]
  have hpassed : statements (t.tokens ++ us) = (k.push t.opening.token).rest
      (t.body.flatMap BodyStatement.tokens ++ (t.ending ++ us)) := by
    have htokens : t.tokens ++ us = (t.lead ++ t.header) ++ t.opening.token ::
        (t.body.flatMap BodyStatement.tokens ++ (t.ending ++ us)) := by
      simp [tokens, front]
    rw [htokens]
    exact (rest_append_of_outside houtside start _).trans
      (rest_cons_of_not_ends (endsAt_of_kind hopening) _)
  obtain ⟨idle, hidle, hrest⟩ := t.rest_body t.body hbody hdepth hcurrent us
  exact ⟨idle, hidle, hpassed.trans hrest⟩

end Trigger

/-! ## Tokens that end with a statement -/

/-- Nothing, or tokens with a semicolon at their end that stands outside all parentheses and outside
the body of a trigger. -/
def EndsStatement (ts : List Token) : Prop :=
  EndsWhole ts ∧ ∀ t ∈ ts.getLast?, t.kind = .semicolon

theorem Cutting.snd_run_append (k : Cutting) (xs ys : List Token) :
    (k.run (xs ++ ys)).2 = ((k.run xs).2.run ys).2 := by
  induction xs generalizing k with
  | nil => rfl
  | cons x xs ih =>
      rw [List.cons_append, run, run]
      split
      · exact ih start
      · exact ih (k.push x)

namespace EndsStatement

variable {ts : List Token}

/-- The splitter begins afresh. -/
theorem snd_run (h : EndsStatement ts) : (start.run ts).2 = start := by
  obtain ⟨⟨hdepth, hbody⟩, hlast⟩ := h
  rcases List.eq_nil_or_concat' ts with rfl | ⟨xs, t, rfl⟩
  · rfl
  · have ht : t.kind = .semicolon := hlast t (by simp)
    let k := (start.run xs).2
    have hrun : (start.run (xs ++ [t])).2 = (k.run [t]).2 := snd_run_append start xs [t]
    by_cases hends : k.endsAt t = true
    · rw [hrun, run, if_pos hends]
      rfl
    · -- A semicolon that ends nothing leaves open what is open in front of it.
      have hpush : (k.run [t]).2 = k.push t := by
        rw [run, if_neg hends]
        rfl
      rw [hrun, hpush] at hdepth hbody
      have hzero : k.depth = 0 :=
        (depth_push (by rw [ht]; decide) (by rw [ht]; decide)).symm.trans hdepth
      have houtside : k.inBody = false := (Bool.or_eq_false_iff.mp hbody).1
      exact absurd (by simp [endsAt, ht, hzero, houtside]) hends

theorem statements_append (h : EndsStatement ts) (us : List Token) :
    statements (ts ++ us) = statements ts ++ statements us := by
  have hrest (us : List Token) : statements (ts ++ us) = (start.run ts).1 ++ statements us := by
    have happend := rest_append start ts us
    rwa [h.snd_run] at happend
  have hwhole : statements ts = (start.run ts).1 := by
    have happend := hrest []
    rwa [List.append_nil, show statements [] = [] from rfl, List.append_nil] at happend
  rw [hrest, hwhole]

end EndsStatement

/-! ## Positions -/

/-- What comes of statements, but for the positions in it. -/
def unplaced (r : Catalog × List Diagnostic) : Catalog × List Diagnostic :=
  ({ r.1 with views := r.1.views.mapValues fun _ v => { v with position := .first } },
    r.2.map fun d => { d with position := .first })

/-- Of a result without its positions a move changes the path only. -/
theorem unplaced_outcome {m n : Move} (hsource : m.source.path = n.source.path)
    (htarget : m.target.path = n.target.path) (r : Catalog × List Diagnostic) :
    unplaced (m.outcome r) = unplaced (n.outcome r) := by
  have hview (v : View) :
      { m.view v with position := .first } = { n.view v with position := .first } := by
    unfold Move.view
    rw [hsource, htarget]
    split <;> rfl
  have hviews : (m.outcome r).1.views.mapValues (fun _ v => { v with position := .first }) =
      (n.outcome r).1.views.mapValues (fun _ v => { v with position := .first }) := by
    apply OrderedMap.ext
    show (r.1.views.entries.map _).map _ = (r.1.views.entries.map _).map _
    rw [List.map_map, List.map_map]
    exact List.map_congr_left fun e _ => congrArg (Prod.mk e.1) (hview e.2)
  have hproblems : (m.outcome r).2.map (fun d => { d with position := .first }) =
      (n.outcome r).2.map (fun d => { d with position := .first }) := by
    show (r.2.map m.problem).map _ = (r.2.map n.problem).map _
    rw [List.map_map, List.map_map]
    refine List.map_congr_left fun d _ => ?_
    show { d with path := m.target.path, position := _ } = _
    rw [htarget]
    rfl
  unfold unplaced
  rw [hviews, hproblems]
  rfl

/-- The statements of a file in another text of the file. -/
def edited (path alone sql : String) (bytes lines : Nat) : Move :=
  ⟨⟨path, alone⟩, ⟨path, sql⟩, bytes, lines⟩

section Edited

variable {path alone sql : String} {bytes lines : Nat} {ss : List (List Token)}

/-- Statements whose tokens stand where they stood do the same. -/
theorem applyStatements_edited (h : ∀ s ∈ ss, (edited path alone sql 0 0).Keeps s) (c : Catalog) :
    applyStatements ⟨path, sql⟩ c ss = applyStatements ⟨path, alone⟩ c ss := by
  obtain ⟨tag, hfresh, -⟩ := exists_fresh c c
  let m : Move := ⟨⟨tag, alone⟩, ⟨path, sql⟩, 0, 0⟩
  have hmoved : applyStatements ⟨path, sql⟩ c (ss.map (allMoved 0 0)) =
      m.outcome (applyStatements ⟨tag, alone⟩ c ss) :=
    Move.applyStatements_of_fresh (m := m) hfresh h
  rw [map_allMoved_zero] at hmoved
  exact hmoved.trans (applyStatements_renamed hfresh path alone ss).symm

/-- Statements do the same, but for positions, where their tokens stand elsewhere. -/
theorem unplaced_applyStatements (h : ∀ s ∈ ss, (edited path alone sql bytes lines).Keeps s)
    (c : Catalog) :
    unplaced (applyStatements ⟨path, sql⟩ c (ss.map (allMoved bytes lines))) =
      unplaced (applyStatements ⟨path, alone⟩ c ss) := by
  obtain ⟨tag, hfresh, -⟩ := exists_fresh c c
  let m : Move := ⟨⟨tag, alone⟩, ⟨path, sql⟩, bytes, lines⟩
  have hmoved : applyStatements ⟨path, sql⟩ c (ss.map (allMoved bytes lines)) =
      m.outcome (applyStatements ⟨tag, alone⟩ c ss) :=
    Move.applyStatements_of_fresh (m := m) hfresh h
  rw [hmoved, applyStatements_renamed hfresh path alone ss]
  exact unplaced_outcome (m := m) (n := renamed tag path alone) rfl rfl _

/-- What stands behind an edited part of a file is kept, as it moves with the text. -/
theorem keeps_behind_edit (path rest : String) {old new : String} {bytes : Nat} (lines : Nat)
    {ts : List Token} (hbytes : byteLength old.toList + bytes = byteLength new.toList)
    (h : ∀ t ∈ ts, byteLength old.toList ≤ t.span.start ∧ byteLength old.toList ≤ t.span.stop) :
    (edited path (old ++ rest) (new ++ rest) bytes lines).Keeps ts := by
  intro t ht u hu
  obtain ⟨start, hstart⟩ := Nat.exists_eq_add_of_le' (h t ht).1
  obtain ⟨stop, hstop⟩ := Nat.exists_eq_add_of_le' (h u hu).2
  calc
    slice (new ++ rest) (t.span.start + bytes) (u.span.stop + bytes)
    _ = slice (new ++ rest) (start + byteLength new.toList) (stop + byteLength new.toList) := by
      rw [hstart, hstop, Nat.add_assoc, Nat.add_assoc, hbytes]
    _ = slice (old ++ rest) (start + byteLength old.toList) (stop + byteLength old.toList) := by
      rw [slice_append_right, slice_append_right]
    _ = slice (old ++ rest) t.span.start u.span.stop := by rw [hstart, hstop]

end Edited

/-! ## Schemas with and without a trigger -/

/-- A trigger changes no catalog, and nothing is reported of it.  So a schema with the trigger comes
to what the schema without it comes to, and where the trigger is cut out of the text, to the same
but for the positions of what stands behind it. -/
theorem applyStatements_trigger (t : Trigger) {ts : List Token} (hts : EndsStatement ts)
    (us : List Token) (c : Catalog) :
    (∀ source, applyStatements source c (statements (ts ++ t.tokens ++ us)) =
      applyStatements source c (statements (ts ++ us))) ∧
    ∀ {path alone sql : String} {bytes lines : Nat}, (edited path alone sql 0 0).Keeps ts →
      (edited path alone sql bytes lines).Keeps us →
      unplaced (applyStatements ⟨path, sql⟩ c
          (statements (ts ++ t.tokens ++ allMoved bytes lines us))) =
        unplaced (applyStatements ⟨path, alone⟩ c (statements (ts ++ us))) := by
  have hcut (source : Source) (us : List Token) :
      applyStatements source c (statements (ts ++ t.tokens ++ us)) =
        applyStatements source c (statements ts ++ statements us) := by
    obtain ⟨idle, hidle, htrigger⟩ := t.statements_append us
    rw [List.append_assoc, hts.statements_append, htrigger, applyStatements_append,
      applyStatements_idle hidle, ← applyStatements_append]
  refine ⟨fun source => ?_, ?_⟩
  · rw [hcut, hts.statements_append]
  · intro path alone sql bytes lines hfront hback
    have hfirst : applyStatements ⟨path, sql⟩ c (statements ts) =
        applyStatements ⟨path, alone⟩ c (statements ts) :=
      applyStatements_edited (fun s hs => hfront.mono (subset_of_mem_statements hs)) c
    let between := (applyStatements ⟨path, alone⟩ c (statements ts)).1
    have hsecond : unplaced (applyStatements ⟨path, sql⟩ between
          ((statements us).map (allMoved bytes lines))) =
        unplaced (applyStatements ⟨path, alone⟩ between (statements us)) :=
      unplaced_applyStatements (fun s hs => hback.mono (subset_of_mem_statements hs)) between
    rw [hcut, hts.statements_append, statements_moved, applyStatements_append,
      applyStatements_append, hfirst]
    unfold unplaced at hsecond ⊢
    rw [Prod.mk.injEq] at hsecond ⊢
    obtain ⟨hcatalog, hproblems⟩ := hsecond
    exact ⟨hcatalog, by rw [List.map_append, List.map_append, hproblems]⟩

/-- A bare word in a line of a text, at that byte and that column. -/
def wordAt (word : String) (start line column : Nat) : Token :=
  ⟨if isKeyword word then .keyword else .identifier, word, ⟨start, start + word.utf8ByteSize⟩,
    ⟨line, column⟩⟩

/-- A semicolon in the first line of a text, at that byte. -/
def semicolonAt (start : Nat) : Semicolon :=
  ⟨⟨.semicolon, ";", ⟨start, start + 1⟩, ⟨1, start + 1⟩⟩, rfl⟩

/-- A schema in two lines. -/
def unwatched : String := "DROP VIEW w;\nCREATE VIEW v AS SELECT 1; DROP TABLE x"

/-- The tokens of its first line. -/
def dropping : List Token :=
  [wordAt "DROP" 0 1 1, wordAt "VIEW" 5 1 6, wordAt "w" 10 1 11, (semicolonAt 11).token]

/-- The tokens of its second line. -/
def creating : List Token :=
  [wordAt "CREATE" 13 2 1, wordAt "VIEW" 20 2 8, wordAt "v" 25 2 13, wordAt "AS" 27 2 15,
    wordAt "SELECT" 30 2 18, ⟨.integer, "1", ⟨37, 38⟩, ⟨2, 25⟩⟩,
    ⟨.semicolon, ";", ⟨38, 39⟩, ⟨2, 26⟩⟩, wordAt "DROP" 40 2 28, wordAt "TABLE" 45 2 33,
    wordAt "x" 51 2 39]

/-- The schema with a trigger at the end of the first line, and an empty line behind it. -/
def watched : String :=
  "DROP VIEW w; CREATE TEMP TRIGGER g UPDATE ON t " ++
    "BEGIN SELECT CASE WHEN 1 THEN 2 END; DELETE FROM t; END;\n\n" ++
    "CREATE VIEW v AS SELECT 1; DROP TABLE x"

/-- The trigger. -/
def watch : Trigger where
  create := keywordAt "CREATE" 13
  temporary := some ⟨wordAt "TEMP" 20 1 21, by decide +kernel⟩
  trigger := ⟨wordAt "TRIGGER" 25 1 26, by decide +kernel⟩
  header := [wordAt "g" 33 1 34, wordAt "UPDATE" 35 1 36, wordAt "ON" 42 1 43, wordAt "t" 45 1 46]
  opening := ⟨wordAt "BEGIN" 47 1 48, by decide +kernel⟩
  body :=
    [{ verb := ⟨wordAt "SELECT" 53 1 54, by decide +kernel⟩
       behind := [wordAt "CASE" 60 1 61, wordAt "WHEN" 65 1 66, ⟨.integer, "1", ⟨70, 71⟩, ⟨1, 71⟩⟩,
         wordAt "THEN" 72 1 73, ⟨.integer, "2", ⟨77, 78⟩, ⟨1, 78⟩⟩, wordAt "END" 79 1 80]
       semicolon := semicolonAt 82
       hbehind := .of_forall (by decide +kernel) },
     { verb := ⟨wordAt "DELETE" 84 1 85, by decide +kernel⟩
       behind := [wordAt "FROM" 91 1 92, wordAt "t" 96 1 97]
       semicolon := semicolonAt 97
       hbehind := .of_forall (by decide +kernel) }]
  closing := keywordAt "END" 99
  semicolon := semicolonAt 102
  hbalanced := (Outside.of_forall (p := NoSemicolon) (by decide +kernel)).balanced
  hheader := by decide +kernel

/-- The `END` of the `CASE` cuts the trigger in three.  Both schemas come to a view and to the two
problems in the statements around the trigger. -/
theorem applyStatements_trigger_of_watch :
    tokenize unwatched = .ok (dropping ++ creating) ∧
      tokenize watched = .ok (dropping ++ watch.tokens ++ allMoved 92 1 creating) ∧
      (statements watch.tokens).length = 3 ∧
      applyStatements ⟨"s.sql", watched⟩ .empty
          (statements (dropping ++ watch.tokens ++ creating)) =
        applyStatements ⟨"s.sql", watched⟩ .empty (statements (dropping ++ creating)) ∧
      unplaced (applyFile "s.sql" watched .empty) = unplaced (applyFile "s.sql" unwatched .empty) ∧
      unplaced (applyFile "s.sql" unwatched .empty) =
        (Catalog.empty.addView ⟨"v", none, "SELECT 1", "s.sql", .first⟩,
          [.error .unknownTable "cannot drop unknown view 'w'" "s.sql" .first none,
            .error .unknownTable "cannot drop unknown table 'x'" "s.sql" .first none]) := by
  have hunwatched : tokenize unwatched = .ok (dropping ++ creating) := by
    rw [unwatched, tokenize_ofList]
    decide +kernel
  have hwatched : tokenize watched = .ok (dropping ++ watch.tokens ++ allMoved 92 1 creating) := by
    delta watched
    rw [← String.ofList_append, ← String.ofList_append, tokenize_ofList]
    decide +kernel
  have hends : EndsStatement dropping := ⟨by decide +kernel, by decide +kernel⟩
  obtain ⟨hsame, htext⟩ := applyStatements_trigger watch hends creating .empty
  have hfront : (edited "s.sql" unwatched watched 0 0).Keeps dropping := by
    unfold Move.Keeps
    decide +kernel
  have hback : (edited "s.sql" unwatched watched 92 1).Keeps creating := by
    have hsplit : unwatched = "DROP VIEW w;\n" ++ "CREATE VIEW v AS SELECT 1; DROP TABLE x" := by
      rw [← String.ofList_append]
      rfl
    rw [hsplit]
    refine keeps_behind_edit "s.sql" _ 1 ?_ (by decide)
    rw [String.toList_append, String.toList_ofList, String.toList_ofList, String.toList_ofList]
    decide +kernel
  have hunplaced := htext hfront hback
  refine ⟨hunwatched, hwatched, by decide +kernel, hsame _, ?_, ?_⟩
  · rw [applyFile_of_tokenize hwatched, applyFile_of_tokenize hunwatched]
    exact hunplaced
  · rw [applyFile_of_tokenize hunwatched]
    decide +kernel

end TypedSql.Schema

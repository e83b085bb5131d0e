import Reflex.Proofs.RuleTable.Request

/-!
# Two Requests at the Same Time

Two procedures run at the same time when their calls are made in some order, each one in one step.
A request makes one call at most, or it looks something up and makes another call at most. So there
are few orders: one of the requests runs after the other one, or one of them acts on what it looked
up before the other one ran.

## Main definitions

- `Reflex.Procedure.Interleaving`: the outcomes of two procedures that run at the same time.
- `Reflex.Procedure.leftFirst`, `Reflex.Procedure.rightFirst`: one after the other.
- `Reflex.Procedure.overtaken`: one of them runs between the two calls of the other one.

## Main statements

- `Reflex.Procedure.Interleaving.outcomes`: all orders of the calls of two brief procedures.
- `Reflex.Procedure.interleaving_overtaken`: that one of them is overtaken is possible.
- `Reflex.RuleRequest.brief_procedure`: requests are brief.
-/

namespace Reflex

namespace Procedure

variable {α β γ : Type}

/-- How two procedures end. -/
structure Outcome (α β : Type) where
  /-- The table after both of them. -/
  table : RuleTable
  /-- The answer of the first procedure. -/
  left : Except Failure α
  /-- The answer of the second procedure. -/
  right : Except Failure β

/-- The outcome with the procedures named in the other order. -/
def Outcome.swap (o : Outcome α β) : Outcome β α :=
  { table := o.table, left := o.right, right := o.left }

/-- The outcomes of two procedures whose calls are made in any order. -/
inductive Interleaving : Procedure α → Procedure β → RuleTable → Outcome α β → Prop where
  /-- Both have ended. -/
  | done (a : Except Failure α) (b : Except Failure β) (table : RuleTable) :
      Interleaving (.finish a) (.finish b) table { table, left := a, right := b }
  /-- The first one makes a call. -/
  | left {effect next q table o} (h : Interleaving (next table) q (effect table) o) :
      Interleaving (.call effect next) q table o
  /-- The second one makes a call. -/
  | right {p effect next table o} (h : Interleaving p (next table) (effect table) o) :
      Interleaving p (.call effect next) table o

/-- All calls of the first procedure, then all calls of the second one. -/
def leftFirst (p : Procedure α) (q : Procedure β) (table : RuleTable) : Outcome α β :=
  let (between, a) := p.run table
  let (last, b) := q.run between
  { table := last, left := a, right := b }

/-- All calls of the second procedure, then all calls of the first one. -/
def rightFirst (p : Procedure α) (q : Procedure β) (table : RuleTable) : Outcome α β :=
  (leftFirst q p table).swap

/-- What is left of a procedure after a first call that found the table. -/
def rest : Procedure α → RuleTable → Procedure α
  | .finish answer, _ => .finish answer
  | .call _ next, table => next table

/-- The first procedure goes on from a look-up in the table when the second one has run. -/
def overtaken (p : Procedure α) (q : Procedure β) (table : RuleTable) : Outcome α β :=
  let (between, b) := q.run table
  let (last, a) := ((p.rest table).run between)
  { table := last, left := a, right := b }

/-! ## Brief procedures -/

/-- Procedures of one call at most. -/
inductive Single : Procedure α → Prop where
  /-- No call. -/
  | finish (answer : Except Failure α) : Single (.finish answer)
  /-- One call. -/
  | call {effect next} (h : ∀ table, ∃ answer, next table = .finish answer) :
      Single (.call effect next)

/-- Procedures of one call at most after a look-up. -/
inductive LookUp : Procedure α → Prop where
  /-- A look-up comes first. -/
  | intro {next} (h : ∀ table, Single (next table)) : LookUp (.call id next)

/-- Procedures of one call at most, or with a look-up before it. -/
def Brief (p : Procedure α) : Prop :=
  p.Single ∨ p.LookUp

section Shapes

variable {f : α → γ} {p : Procedure α}

theorem Single.fail (e : Failure) : (fail e : Procedure α).Single :=
  .finish (.error e)

theorem Single.change (g : RuleTable → Except StorageFault RuleTable) (answer : α) :
    (change g answer).Single := by
  refine .call fun table => ?_
  split
  next => exact ⟨_, rfl⟩
  next => exact ⟨_, rfl⟩

theorem Single.checked {rule : RuleDefinition} {next : Procedure α} (h : next.Single) :
    (checked rule next).Single := by
  rw [Procedure.checked]
  split
  next => exact h
  next => exact .fail _

theorem Single.map (h : p.Single) : (p.map f).Single := by
  cases h with
  | finish answer => exact .finish (answer.map f)
  | call h =>
    refine .call fun table => ?_
    obtain ⟨answer, hanswer⟩ := h table
    exact ⟨answer.map f, by rw [hanswer, Procedure.map]⟩

theorem LookUp.query {q : RuleTable → Except StorageFault β} {next : β → Procedure α}
    (h : ∀ b, (next b).Single) : (query q next).LookUp := by
  refine .intro fun table => ?_
  split
  next => exact h _
  next => exact .fail _

theorem LookUp.map (h : p.LookUp) : (p.map f).LookUp := by
  cases h with
  | intro h => exact .intro fun table => (h table).map

/-- A look-up changes nothing, so a procedure runs as what is left of it. -/
theorem LookUp.run_rest (h : p.LookUp) (table : RuleTable) :
    (p.rest table).run table = p.run table := by
  cases h with
  | intro h => rfl

theorem LookUp.single_rest (h : p.LookUp) (table : RuleTable) : (p.rest table).Single := by
  cases h with
  | intro h => exact h table

theorem rest_map (f : α → γ) (p : Procedure α) (table : RuleTable) :
    (p.map f).rest table = (p.rest table).map f := by
  cases p with
  | finish answer => rfl
  | call effect next => rfl

/-- An answered query goes on with its answer. -/
theorem rest_query_ok {q : RuleTable → Except StorageFault β} {next : β → Procedure α}
    {table : RuleTable} {b : β} (h : q table = .ok b) : (query q next).rest table = next b := by
  simp only [query, rest, h]

/-- A query that fails is the end. -/
theorem rest_query_error {q : RuleTable → Except StorageFault β} {next : β → Procedure α}
    {table : RuleTable} {fault : StorageFault} (h : q table = .error fault) :
    (query q next).rest table = fail (.storage fault) := by
  simp only [query, rest, h]

end Shapes

/-! ## Orders of the calls -/

namespace Interleaving

variable {p : Procedure α} {q : Procedure β} {table : RuleTable} {o : Outcome α β}

theorem eq_swap {o' : Outcome β α} (h : o.swap = o') : o = o'.swap :=
  congrArg Outcome.swap h

theorem swap (h : Interleaving p q table o) : Interleaving q p table o.swap := by
  induction h with
  | done a b table => exact .done b a table
  | left _ ih => exact .right ih
  | right _ ih => exact .left ih

/-- Beside a procedure that has ended the other one makes all its calls. -/
theorem of_finish {a : Except Failure α} (h : Interleaving (.finish a) q table o) :
    o = leftFirst (.finish a) q table := by
  generalize hp : finish a = p at h
  induction h with
  | done => rfl
  | left => cases hp
  | right _ ih =>
    subst hp
    exact ih rfl

/-- The same for the second procedure. -/
theorem of_finish_right {b : Except Failure β} (h : Interleaving p (.finish b) table o) :
    o = rightFirst p (.finish b) table :=
  eq_swap h.swap.of_finish

/-- Of two single calls one comes first. -/
theorem of_single_single (hp : p.Single) (hq : q.Single) (h : Interleaving p q table o) :
    o = leftFirst p q table ∨ o = rightFirst p q table := by
  cases h with
  | done a b => exact .inl rfl
  | @left _ next _ _ _ h =>
    cases hp with
    | call hp =>
      obtain ⟨a, ha⟩ := hp table
      rw [ha] at h
      refine .inl (h.of_finish.trans ?_)
      simp only [leftFirst, run, ha]
  | right h =>
    cases hq with
    | call hq =>
      obtain ⟨b, hb⟩ := hq table
      rw [hb] at h
      refine .inr (h.of_finish_right.trans ?_)
      simp only [rightFirst, leftFirst, run, hb]

/-- A single call comes before a look-up and what follows it, after both, or between them. -/
theorem of_single_lookUp (hp : p.Single) (hq : q.LookUp) (h : Interleaving p q table o) :
    o = leftFirst p q table ∨ o = rightFirst p q table ∨ o = (overtaken q p table).swap := by
  have hrest := hq.run_rest table
  have hsingle := hq.single_rest table
  cases hq with
  | intro hq =>
    cases h with
    | left h =>
      cases hp with
      | call hp =>
        obtain ⟨a, ha⟩ := hp table
        rw [ha] at h
        refine .inl (h.of_finish.trans ?_)
        simp only [leftFirst, run, ha]
    | right h =>
      -- what follows the look-up and the other call are single calls now
      rcases h.of_single_single hp hsingle with rfl | rfl
      · exact .inr (.inr rfl)
      · refine .inr (.inl ?_)
        rw [rightFirst, rightFirst, leftFirst, leftFirst, ← hrest]
        rfl

/-- Of two look-ups, each with what follows it, one comes first with both parts, or one of them is
overtaken by the other one. -/
theorem of_lookUp_lookUp (hp : p.LookUp) (hq : q.LookUp) (h : Interleaving p q table o) :
    o = leftFirst p q table ∨ o = rightFirst p q table ∨ o = overtaken p q table ∨
      o = (overtaken q p table).swap := by
  -- after one of the look-ups there is a single call beside the other one
  have hfirst : ∀ {α β : Type} {p : Procedure α} {q : Procedure β} {o : Outcome α β}, p.LookUp →
      q.LookUp → Interleaving (p.rest table) q table o →
      o = leftFirst p q table ∨ o = overtaken p q table ∨ o = (overtaken q p table).swap := by
    intro α β p q o hp hq h
    have hrest := hp.run_rest table
    rcases h.of_single_lookUp (hp.single_rest table) hq with rfl | rfl | rfl
    · left
      rw [leftFirst, leftFirst, hrest]
    · exact .inr (.inl rfl)
    · right
      right
      rw [overtaken, overtaken, hrest]
  have hp' := hp
  have hq' := hq
  cases hp with
  | intro =>
    cases hq with
    | intro =>
      cases h with
      | left h =>
        rcases hfirst hp' hq' h with h | h | h
        · exact .inl h
        · exact .inr (.inr (.inl h))
        · exact .inr (.inr (.inr h))
      | right h =>
        rcases hfirst hq' hp' h.swap with h | h | h
        · exact .inr (.inl (eq_swap h))
        · exact .inr (.inr (.inr (eq_swap h)))
        · exact .inr (.inr (.inl (eq_swap h)))

/-- Two brief procedures run one after the other, or one of them is overtaken after its look-up. -/
theorem outcomes (hp : p.Brief) (hq : q.Brief) (h : Interleaving p q table o) :
    o = leftFirst p q table ∨ o = rightFirst p q table ∨
      ¬ p.Single ∧ o = overtaken p q table ∨ ¬ q.Single ∧ o = (overtaken q p table).swap := by
  by_cases hps : p.Single <;> by_cases hqs : q.Single
  · rcases h.of_single_single hps hqs with h | h
    · exact .inl h
    · exact .inr (.inl h)
  · rcases h.of_single_lookUp hps (hq.resolve_left hqs) with h | h | h
    · exact .inl h
    · exact .inr (.inl h)
    · exact .inr (.inr (.inr ⟨hqs, h⟩))
  · rcases h.swap.of_single_lookUp hqs (hp.resolve_left hps) with h | h | h
    · exact .inr (.inl (eq_swap h))
    · exact .inl (eq_swap h)
    · exact .inr (.inr (.inl ⟨hps, eq_swap h⟩))
  · rcases h.of_lookUp_lookUp (hp.resolve_left hps) (hq.resolve_left hqs) with h | h | h | h
    · exact .inl h
    · exact .inr (.inl h)
    · exact .inr (.inr (.inl ⟨hps, h⟩))
    · exact .inr (.inr (.inr ⟨hqs, h⟩))

end Interleaving

/-! All of these orders are possible. -/

section Exists

variable {p : Procedure α} {q : Procedure β}

theorem interleaving_leftFirst (p : Procedure α) (q : Procedure β) (table : RuleTable) :
    Interleaving p q table (leftFirst p q table) := by
  induction p generalizing table with
  | finish a =>
    induction q generalizing table with
    | finish b => exact .done a b table
    | call effect next ih => exact .right (ih table (effect table))
  | call effect next ih => exact .left (ih table (effect table))

theorem interleaving_rightFirst (p : Procedure α) (q : Procedure β) (table : RuleTable) :
    Interleaving p q table (rightFirst p q table) :=
  (interleaving_leftFirst q p table).swap

theorem interleaving_overtaken (hp : p.LookUp) (q : Procedure β) (table : RuleTable) :
    Interleaving p q table (overtaken p q table) := by
  cases hp with
  | @intro next => exact .left (interleaving_rightFirst (next table) q table)

end Exists

end Procedure

namespace RuleRequest

section Shapes

variable {rule : RuleDefinition}

theorem single_create (rule : RuleDefinition) : (create rule).procedure.Single :=
  .map (.checked (.change _ _))

theorem single_update (rule : RuleDefinition) : (update rule).procedure.Single :=
  .map (.checked (.change _ _))

theorem single_delete (id : Identifier) : (delete id).procedure.Single :=
  .map (.change _ _)

theorem lookUp_setEnabled (id : Identifier) (enabled : Bool) :
    (setEnabled id enabled).procedure.LookUp := by
  refine .map (.query fun found => ?_)
  cases found with
  | some held => exact .change _ _
  | none => exact .fail _

theorem single_importRule {cause : ValidationError} (h : rule.checkInvariants = .error cause) :
    (importRule rule).procedure.Single := by
  rw [procedure, Procedure.importRule, Procedure.checked, h]
  exact .map (.fail _)

theorem lookUp_importRule (h : rule.checkInvariants = .ok ()) :
    (importRule rule).procedure.LookUp := by
  rw [procedure, Procedure.importRule, Procedure.checked, h]
  refine .map (.query fun found => ?_)
  cases found with
  | some held => exact .change _ _
  | none => exact .change _ _

/-- A request makes one call, or looks a rule up and makes one call. -/
theorem brief_procedure (request : RuleRequest) : request.procedure.Brief := by
  cases request with
  | create rule => exact .inl (single_create rule)
  | update rule => exact .inl (single_update rule)
  | setEnabled id enabled => exact .inr (lookUp_setEnabled id enabled)
  | importRule rule =>
    cases h : rule.checkInvariants with
    | error cause => exact .inl (single_importRule h)
    | ok => exact .inr (lookUp_importRule h)
  | delete id => exact .inl (single_delete id)

end Shapes

end RuleRequest

end Reflex

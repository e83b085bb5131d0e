import Reflex.Proofs.Scheduler.Rest

/-!
# Exclusive Rules

The instances of an exclusive rule execute one at a time, in the order in which they were
accepted, and none is left out. The other instances have no part in it.

## Main definitions

- `Scheduler.TakesTurns`: what the histories of a rule say about the one that holds it.

## Main statements

- `Scheduler.takesTurns_of_run`: the instances of every exclusive rule take turns.
- `Scheduler.exclusive_of_run`: they do so until all have begun, and nobody else interferes.
-/

namespace Reflex.Scheduler

/-- The instances of an exclusive rule take turns, and at present it is the turn of the holder. -/
structure TakesTurns (log : Log) (s : Scheduler) (rule : Identifier)
    (holder : Option Nat) : Prop where
  /-- The rule is taken exactly while there is a holder. -/
  taken : (s.slots rule).isSome = holder.isSome
  /-- Every turn is over but that of the holder. -/
  single : log.turns rule = log.departures rule ++ holder.toList
  /-- Turns come in the order of the acceptances, and the queue has those still to come. -/
  ordered : log.acceptances rule = log.turns rule ++ (s.slots rule).getD []
  /-- No instance is accepted twice. -/
  distinct : (log.acceptances rule).Nodup
  /-- Whoever had its turn has begun, with the possible exception of the holder. -/
  began : log.beginnings rule = log.departures rule ∨ log.beginnings rule = log.turns rule
  /-- Only the holder executes, and only when it has begun. -/
  alone : ∀ id i, s.instance? id = some i → i.job.isExclusive = true → i.job.rule.id = rule →
    i.phase.standing = .executing → holder = some id ∧ log.beginnings rule = log.turns rule

variable {settings : Settings} {log : Log} {s : Scheduler}

/-- A lane says who takes turns. -/
theorem Lane.takesTurns {rule : Identifier} {past queue : List Nat} {holder : Option Nat}
    (horderly : Orderly log s) (h : Lane log s rule past holder queue) :
    TakesTurns log s rule holder where
  taken := by rw [h.slot, Option.isSome_map]
  single := by rw [h.turned, h.departed]
  ordered := by
    rw [h.accepted, h.turned, h.slot, List.append_assoc]
    cases holder with
    | none => simp [h.vacant rfl]
    | some id => simp
  distinct := h.distinct
  began := by
    rw [h.began, h.departed, h.turned]
    cases holder with
    | none => simp
    | some id =>
      by_cases hbegun : s.stage? id = some .begun
      · exact .inr (by simp [hbegun])
      · exact .inl (by simp [hbegun])
  alone := by
    intro id i hi hexclusive hrule hphase
    have hbegun : s.stage? id = some .begun := by
      simp [stage?, standing?, hi, hphase, Standing.stage]
    have hid : id ∈ log.acceptances rule :=
      (horderly.belongs rule id).2 ⟨i.job, job?_of_instance? hi, hexclusive, hrule⟩
    obtain rfl := h.holder_eq hid (.inr hbegun)
    refine ⟨rfl, ?_⟩
    rw [h.began, h.turned]
    simp [hbegun]

/-- The instances of every exclusive rule take turns. -/
theorem takesTurns_of_run (hrun : Run settings log s) (rule : Identifier) :
    ∃ holder, TakesTurns log s rule holder := by
  obtain ⟨past, holder, queue, hlane⟩ := (orderly_of_run hrun).lane rule
  exact ⟨holder, hlane.takesTurns (orderly_of_run hrun)⟩

/-- At rest every exclusive rule is free, and all its instances have begun. -/
theorem beginnings_of_isQuiet (hrun : Run settings log s) (hquiet : s.IsQuiet)
    (rule : Identifier) :
    s.slots rule = none ∧ log.beginnings rule = log.acceptances rule := by
  have horderly := orderly_of_run hrun
  obtain ⟨past, holder, queue, hlane⟩ := horderly.lane rule
  obtain rfl : holder = none := by
    cases holder with
    | none => rfl
    | some id =>
      obtain ⟨hdue, hbegun⟩ := stage?_of_isQuiet horderly hquiet id
      rcases hlane.holding id rfl with h | h
      · exact (hdue h).elim
      · exact (hbegun h).elim
  obtain rfl := hlane.vacant rfl
  exact ⟨hlane.slot, by rw [hlane.began, hlane.accepted]; rfl⟩

/-- An instance of a rule that is not exclusive leaves the queues alone. -/
theorem slots_of_step {s' : Scheduler} {m : Move} {reply : Reply} {id : Nat} {i : Instance}
    (horderly : Orderly log s) (hi : s.instance? id = some i)
    (hexclusive : i.job.isExclusive = false) (hagent : m.agent? = some id)
    (hstep : Step s m s' reply) : s'.slots = s.slots := by
  have hnot (report : Report) : i.phase ≠ .leaving report := by
    intro hphase
    obtain ⟨rule, job, hjob, hjob', -⟩ :=
      horderly.exclusive id .leaving (standing?_of_instance? hi hphase) (by simp)
    rw [job?_of_instance? hi, Option.some.injEq] at hjob
    simp [hjob, hjob'] at hexclusive
  cases hstep with
  | refuse | drop | accept | take | enqueue | close => cases hagent
  | mark _ hnone _ =>
    rw [hnone] at hagent
    cases hagent
  | handOn hi' hphase _ | free hi' hphase _ =>
    obtain rfl := Option.some.inj hagent
    rw [hi, Option.some.injEq] at hi'
    exact (hnot _ (hi' ▸ hphase)).elim
  | _ => rfl

/-- The instances of every exclusive rule take turns until, after finitely many moves, all of them
have begun. A submission that is dropped changes nothing. An instance of a rule that is not
exclusive starts at once, and neither its submission nor its moves concern the queues. -/
theorem exclusive_of_run (hrun : Run settings log s) :
    (∀ rule, ∃ holder, TakesTurns log s rule holder) ∧
    (∃ bound, ∀ rest s', Run settings (log ++ rest) s' →
      (∀ o ∈ rest, o.move.agent?.isSome) → rest.length ≤ bound) ∧
    (s.IsQuiet → ∀ rule, s.slots rule = none ∧ log.beginnings rule = log.acceptances rule) ∧
    (∀ job cancelled, (s.submit job cancelled).2 = .dropped →
      (s.submit job cancelled).1 = s) ∧
    (∀ job cancelled, s.closed = false → job.isExclusive = false →
      (s.submit job cancelled).2 = .started s.instances.length ∧
        (s.submit job cancelled).1.slots = s.slots) ∧
    (∀ id i m s' reply, s.instance? id = some i → i.job.isExclusive = false →
      m.agent? = some id → s.move? m = some (s', reply) → s'.slots = s.slots) := by
  refine ⟨takesTurns_of_run hrun, ⟨s.work, fun rest s' hrest hagents => ?_⟩,
    beginnings_of_isQuiet hrun, fun job cancelled hdropped => ?_,
    fun job cancelled hopen hexclusive => ?_,
    fun id i m s' reply hi hexclusive hagent hmove => ?_⟩
  · have hbound := length_add_work_le hrun rest s' hrest hagents
    omega
  · have hstep := step_submit s job cancelled
    generalize s.submit job cancelled = r at hstep hdropped ⊢
    obtain ⟨t, answer⟩ := r
    obtain rfl : answer = .dropped := hdropped
    cases hstep with
    | refuse | drop => rfl
    | mark _ _ hreply => simp at hreply
  · simp [submit, hopen, hexclusive, accept]
  · exact slots_of_step (orderly_of_run hrun) hi hexclusive hagent (step_of_move hmove)

/-- A job without actions. -/
def Job.vacant (exclusive : Bool) : Job where
  rule := { definition := RuleDraft.finish default { exclusive }, condition := .always
            actions := [] }
  event := { kind := Event.timeTick }
  parameters := []

/-- Of two instances of an exclusive rule the second one starts when the first has reported. -/
theorem exclusive_of_two_submissions :
    ∃ log s, Run {} log s ∧ log.turns default = [0, 1] ∧ log.departures default = [0] ∧
      ∀ rule, ∃ holder, TakesTurns log s rule holder := by
  obtain ⟨log, s, hplay, hturns, hdepartures⟩ : ∃ log s,
      ({} : Scheduler).play? [] [.submit (.vacant true) false, .submit (.vacant true) false,
        .start 0, .proceed 0, .release 0, .publish 0, .start 1] = some (log, s) ∧
      log.turns default = [0, 1] ∧ log.departures default = [0] :=
    ⟨_, _, rfl, rfl, rfl⟩
  have hrun : Run {} log s := run_of_play? .nil hplay
  exact ⟨log, s, hrun, hturns, hdepartures, (exclusive_of_run hrun).1⟩

end Reflex.Scheduler

import Reflex.Dispatch
import Reflex.Proofs.Scheduler.Run

/-!
# What an Event Starts

An intent starts nothing. Any other event is submitted once for every active rule that it triggers
and whose bindings it fills, in the order of the rules; a rule whose bindings it does not fill might
as well not be there.

## Main definitions

- `CompiledRule.isTriggered`: an event triggers a rule and fills its bindings.
- `Engine.Dispatches`: what becomes of an event.

## Main statements

- `Event.isIntent_iff`: what the kind of an intent starts with.
- `Engine.dispatch_of_isIntent`: an intent starts nothing.
- `Engine.dispatches_of_not_isIntent`: what any other event starts.
-/

namespace Reflex

/-- An event is an intent if its kind starts like those of intents. -/
theorem Event.isIntent_iff {e : Event} :
    e.isIntent = true ↔ ∃ type, e.kind = Event.intentStem ++ type := by
  rw [isIntent, List.isPrefixOf_iff_prefix]
  constructor
  · rintro ⟨rest, hrest⟩
    refine ⟨String.ofList rest, String.toList_inj.1 ?_⟩
    rw [String.toList_append, String.toList_ofList, hrest]
  · rintro ⟨type, htype⟩
    rw [htype, String.toList_append]
    exact List.prefix_append _ _

/-- Whether an event triggers a rule that is enabled, and fills its bindings. -/
def CompiledRule.isTriggered (r : CompiledRule) (e : Event) : Bool :=
  r.definition.enabled && r.condition.evaluate e == .true && (r.resolve e).isOk

/-! ## Series of submissions -/

namespace Scheduler

/-- The submission of a job, with what became of it. -/
def submitted (job : Job) (answer : Submission) : Occurrence :=
  ⟨.submit job false, .submission answer⟩

/-- Submitting several jobs is submitting each of them, in their order. -/
theorem play?_submit (s : Scheduler) (log : Log) (jobs : List Job) :
    s.play? log (jobs.map fun job => .submit job false) =
      some (log ++ List.zipWith submitted jobs (s.submitAll jobs).2, (s.submitAll jobs).1) := by
  induction jobs generalizing s log with
  | nil => simp [play?, submitAll]
  | cons job rest ih =>
    rw [List.map_cons, play?, move?, Option.bind_some, ih]
    simp [submitAll, submitted]

/-- Every submission is answered. -/
theorem length_submitAll (s : Scheduler) (jobs : List Job) :
    (s.submitAll jobs).2.length = jobs.length := by
  induction jobs generalizing s with
  | nil => rfl
  | cons job rest ih => simp [submitAll, ih]

end Scheduler

/-! ## Jobs -/

namespace Engine

variable {engine : Engine} {e : Event}

/-- What becomes of an event that is no intent. -/
structure Dispatches (engine : Engine) (s : Scheduler) (e : Event) : Prop where
  /-- There is one job for each active rule that is triggered, in the order of the rules. -/
  rules : (engine.jobs e).map (·.rule) = engine.rules.filter (·.isTriggered e)
  /-- A job has the event and the parameters that it fills. -/
  filled : ∀ job ∈ engine.jobs e, job.event = e ∧ job.rule.resolve e = .ok job.parameters
  /-- Every job is submitted once, in this order, and nothing else happens to the scheduler. -/
  submits : s.play? [] ((engine.jobs e).map fun job => .submit job false) =
    some (List.zipWith Scheduler.submitted (engine.jobs e) (engine.dispatch s e).2,
      (engine.dispatch s e).1)
  /-- Every submission is answered. -/
  answers : (engine.dispatch s e).2.length = (engine.jobs e).length
  /-- Without a rule whose bindings are not filled everything is the same. -/
  independent : ∀ before r after, engine.rules = before ++ r :: after →
    (r.resolve e).isOk = false →
    ({ engine with rules := before ++ after } : Engine).dispatch s e = engine.dispatch s e

/-- A rule makes a job if the event fills its bindings. -/
theorem job?_eq_some_iff {r : CompiledRule} {job : Scheduler.Job} :
    r.job? e = some job ↔
      ∃ parameters, r.resolve e = .ok parameters ∧ job = { rule := r, event := e, parameters } := by
  unfold CompiledRule.job?
  cases r.resolve e <;> simp [eq_comm]

/-- An intent starts nothing. -/
theorem jobs_of_isIntent (h : e.isIntent = true) : engine.jobs e = [] := by
  rw [jobs, if_pos h]

/-- An intent submits nothing and leaves the scheduler as it is. -/
theorem dispatch_of_isIntent (h : e.isIntent = true) (s : Scheduler) :
    engine.dispatch s e = (s, []) := by
  rw [dispatch, jobs_of_isIntent h]
  rfl

/-- The jobs of a list of rules belong to those that are triggered. -/
theorem map_rule_jobs (rules : List CompiledRule) :
    ((rules.filter fun r => r.definition.enabled && r.isMatch e).filterMap fun r =>
      r.job? e).map (·.rule) = rules.filter (·.isTriggered e) := by
  induction rules with
  | nil => rfl
  | cons r rest ih =>
    have htriggered : r.isTriggered e =
        (r.definition.enabled && r.isMatch e && (r.resolve e).isOk) := rfl
    rw [List.filter_cons, List.filter_cons, htriggered, ← ih]
    cases r.definition.enabled && r.isMatch e with
    | false => rfl
    | true =>
      rw [if_pos rfl, List.filterMap_cons, CompiledRule.job?]
      cases r.resolve e <;> rfl

/-- There are at most as many jobs as active rules. -/
theorem length_jobs_le (engine : Engine) (e : Event) :
    (engine.jobs e).length ≤ engine.rules.length := by
  unfold jobs
  split
  · exact Nat.zero_le _
  · exact Nat.le_trans (List.length_filterMap_le _ _) (List.length_filter_le _ _)

/-- An event that is no intent starts the rules that it triggers. -/
theorem dispatches_of_not_isIntent (h : e.isIntent = false) (s : Scheduler) :
    engine.Dispatches s e := by
  have hjobs : ∀ engine : Engine, engine.jobs e =
      (engine.rules.filter fun r => r.definition.enabled && r.isMatch e).filterMap fun r =>
        r.job? e := by
    intro engine
    rw [jobs, h]
    rfl
  exact {
    rules := by rw [hjobs, map_rule_jobs]
    filled := by
      intro job hjob
      rw [hjobs, List.mem_filterMap] at hjob
      obtain ⟨r, -, hr⟩ := hjob
      obtain ⟨parameters, hresolve, rfl⟩ := job?_eq_some_iff.1 hr
      exact ⟨rfl, hresolve⟩
    submits := s.play?_submit [] (engine.jobs e)
    answers := s.length_submitAll (engine.jobs e)
    independent := by
      intro before r after hrules hresolve
      have hnone : r.job? e = none := by
        unfold CompiledRule.job?
        cases hr : r.resolve e with
        | ok parameters =>
          rw [hr] at hresolve
          cases hresolve
        | error cause => rfl
      rw [dispatch, dispatch, hjobs, hjobs, hrules, List.filter_append, List.filter_append,
        List.filter_cons, List.filterMap_append, List.filterMap_append]
      split
      · rw [List.filterMap_cons, hnone]
      · rfl }

end Engine

end Reflex

import Reflex.Proofs.Scheduler.Run
import Mathlib.Data.List.Nodup
import Mathlib.Logic.Function.Basic

/-!
# Turns at an Exclusive Rule

The instances of an exclusive rule take turns. This module says how far an instance has come with
its turn, which histories of a rule can be read off the log of a run, and how the steps of the
scheduler change both.

## Main definitions

- `Scheduler.Standing`, `Scheduler.Stage`: how far an instance has come.
- `Scheduler.Log.acceptances`, `Scheduler.Log.turns`, `Scheduler.Log.beginnings`,
  `Scheduler.Log.departures`: the histories of a rule.
-/

namespace Reflex.Scheduler

/-! ## How far an instance has come -/

/-- How far an instance has come, as far as turns are concerned. -/
inductive Standing where
  -- It waits behind another instance.
  | waiting
  -- It has its turn, and starts when the instance before it has reported.
  | called
  -- It can start.
  | ready
  -- It executes its actions.
  | executing
  -- It has ended and still holds its rule.
  | leaving
  -- It has ended and handed its rule on to an instance that waits for its report.
  | handing (next : Nat)
  -- It has ended and nobody waits for it.
  | gone
  deriving DecidableEq

/-- The stages of a turn. -/
inductive Stage where
  -- The turn is still to come.
  | waiting
  -- The turn has come, and the instance has not begun.
  | due
  -- The instance has begun.
  | begun
  -- The turn is over.
  | passed
  deriving DecidableEq

/-- The stage of the turn. -/
def Standing.stage : Standing → Stage
  | .waiting => .waiting
  | .called | .ready => .due
  | .executing | .leaving => .begun
  | .handing _ | .gone => .passed

/-- How far an instance in a phase has come. -/
def Phase.standing : Phase → Standing
  | .queued => .waiting
  | .called => .called
  | .ready => .ready
  | .proceeding _ | .attempting .. | .backingOff .. => .executing
  | .leaving _ => .leaving
  | .reporting _ (some next) => .handing next
  | .reporting _ none | .reported _ => .gone

/-- The job of the instance of a number. -/
def job? (s : Scheduler) (id : Nat) : Option Job :=
  (s.instance? id).map (·.job)

/-- How far the instance of a number has come. -/
def standing? (s : Scheduler) (id : Nat) : Option Standing :=
  (s.instance? id).map (·.phase.standing)

/-- The instance of a number is one of an exclusive rule. -/
def Belongs (s : Scheduler) (rule : Identifier) (id : Nat) : Prop :=
  ∃ job, s.job? id = some job ∧ job.isExclusive = true ∧ job.rule.id = rule

/-- Belonging is a matter of the jobs. -/
theorem belongs_congr {s s' : Scheduler} (hjobs : s'.job? = s.job?) (rule : Identifier) (id : Nat) :
    s'.Belongs rule id ↔ s.Belongs rule id := by
  rw [Belongs, Belongs, hjobs]

/-! ## The histories of a rule -/

/-- The instance of an exclusive rule that is accepted. -/
def Occurrence.accepted? (rule : Identifier) : Occurrence → Option Nat
  | ⟨.submit job _, .submission (.started id)⟩ | ⟨.submit job _, .submission (.queued id)⟩ =>
    if job.isExclusive = true ∧ job.rule.id = rule then some id else none
  | _ => none

/-- The instance that gets its turn: at once, or from the one before it. -/
def Occurrence.turn? : Occurrence → Option Nat
  | ⟨.submit .., .submission (.started id)⟩ => some id
  | ⟨.release _, .handed next⟩ => next
  | _ => none

/-- The instance that begins. -/
def Occurrence.beginning? : Occurrence → Option Nat
  | ⟨.start id, _⟩ => some id
  | _ => none

/-- The instance whose turn is over. -/
def Occurrence.departure? : Occurrence → Option Nat
  | ⟨.release id, _⟩ => some id
  | _ => none

namespace Log

variable (log : Log) (rule : Identifier)

/-- The instances that were accepted for an exclusive rule, in order. -/
def acceptances : List Nat :=
  log.filterMap (Occurrence.accepted? rule)

/-- The instances of an exclusive rule that occurrences of a kind name, in order. -/
def among (kind? : Occurrence → Option Nat) : List Nat :=
  (log.filterMap kind?).filter (· ∈ log.acceptances rule)

/-- The instances that had their turn at an exclusive rule, in order. -/
def turns : List Nat :=
  log.among rule Occurrence.turn?

/-- The instances of an exclusive rule that began, in order. -/
def beginnings : List Nat :=
  log.among rule Occurrence.beginning?

/-- The instances whose turn at an exclusive rule is over, in order. -/
def departures : List Nat :=
  log.among rule Occurrence.departure?

end Log

/-- The occurrence is about an instance that exists. -/
def Occurrence.Names (o : Occurrence) (id : Nat) : Prop :=
  o.turn? = some id ∨ o.beginning? = some id ∨ o.departure? = some id

section History

variable {log : Log} {rule : Identifier} {o : Occurrence} {kind? : Occurrence → Option Nat}
  {id : Nat}

/-- An acceptance comes last. -/
theorem acceptances_snoc :
    Log.acceptances (log ++ [o]) rule = log.acceptances rule ++ (o.accepted? rule).toList := by
  simp only [Log.acceptances, List.filterMap_append, List.filterMap_cons, List.filterMap_nil]
  cases o.accepted? rule <;> rfl

theorem acceptances_snoc_of_eq_none (h : o.accepted? rule = none) :
    Log.acceptances (log ++ [o]) rule = log.acceptances rule := by
  rw [acceptances_snoc, h, Option.toList_none, List.append_nil]

/-- An occurrence that names an instance of the rule comes last, unless the instance was named
before it was accepted. -/
theorem among_snoc_of_mem
    (hmem : ∀ id, kind? o = some id → id ∈ Log.acceptances (log ++ [o]) rule)
    (hlog : ∀ p ∈ log, ∀ id, kind? p = some id → o.accepted? rule ≠ some id) :
    Log.among (log ++ [o]) rule kind? = log.among rule kind? ++ (kind? o).toList := by
  rw [Log.among, List.filterMap_append, List.filter_append]
  congr 1
  · refine List.filter_congr fun id hid => ?_
    obtain ⟨p, hp, hkind⟩ := List.mem_filterMap.1 hid
    simp [acceptances_snoc, hlog p hp id hkind]
  · cases hid : kind? o with
    | none => simp [hid]
    | some id => simp [hid, hmem id hid]

/-- An occurrence that neither accepts nor names an instance of the rule does not count. -/
theorem among_snoc_of_notMem (haccepted : o.accepted? rule = none)
    (hmem : ∀ id, kind? o = some id → id ∉ log.acceptances rule) :
    Log.among (log ++ [o]) rule kind? = log.among rule kind? := by
  rw [Log.among, acceptances_snoc_of_eq_none haccepted, List.filterMap_append, List.filter_append]
  cases hid : kind? o with
  | none => simp [hid, Log.among]
  | some id => simp [hid, hmem id hid, Log.among]

end History

/-! ## What steps change -/

section View

variable {s : Scheduler} {id : Nat}

theorem job?_eq_none_iff : s.job? id = none ↔ s.standing? id = none := by
  simp [job?, standing?]

theorem job?_of_instance? {i : Instance} (hi : s.instance? id = some i) :
    s.job? id = some i.job := by
  simp [job?, hi]

theorem standing?_of_instance? {i : Instance} {phase : Phase} (hi : s.instance? id = some i)
    (hphase : i.phase = phase) : s.standing? id = some phase.standing := by
  simp [standing?, hi, hphase]

theorem Phase.standing_eq_waiting {phase : Phase} :
    phase.standing = .waiting ↔ phase = .queued := by
  unfold standing
  split <;> simp

theorem Phase.standing_eq_called {phase : Phase} :
    phase.standing = .called ↔ phase = .called := by
  unfold standing
  split <;> simp

/-- An instance that stands somewhere is in a phase for it. -/
theorem exists_of_standing? {standing : Standing} (h : s.standing? id = some standing) :
    ∃ i, s.instance? id = some i ∧ i.phase.standing = standing :=
  Option.map_eq_some_iff.1 h

/-- The next number belongs to no instance. -/
theorem job?_length (s : Scheduler) : s.job? s.instances.length = none := by
  simp [job?, instance?]

/-- Changes that keep the job of an instance are not seen in the jobs. -/
theorem job?_modify {f : Instance → Instance} (hf : ∀ i, (f i).job = i.job) :
    (s.modify id f).job? = s.job? := by
  funext j
  simp only [job?, instance?_modify]
  split
  · rw [Option.map_map]
    exact congrArg (Option.map · (s.instance? j)) (funext hf)
  · rfl

/-- An instance that is put into a phase stands where the phase says. -/
theorem standing?_modify {f : Instance → Instance} {standing : Standing}
    (hf : ∀ i, (f i).phase.standing = standing) (hid : (s.standing? id).isSome) :
    (s.modify id f).standing? = Function.update s.standing? id (some standing) := by
  funext j
  simp only [standing?, instance?_modify, Function.update_apply]
  by_cases hj : j = id
  · subst hj
    rw [if_pos rfl, if_pos rfl]
    obtain ⟨i, hi⟩ : ∃ i, s.instance? j = some i := by
      simpa [standing?, Option.isSome_iff_exists] using hid
    simp [hi, hf]
  · rw [if_neg hj, if_neg (Ne.symm hj)]

theorem job?_setPhase (phase : Phase) : (s.setPhase id phase).job? = s.job? :=
  job?_modify fun _ => rfl

theorem standing?_setPhase (phase : Phase) (hid : (s.standing? id).isSome) :
    (s.setPhase id phase).standing? = Function.update s.standing? id (some phase.standing) :=
  standing?_modify (fun _ => rfl) hid

theorem standing?_setSlot (rule : Identifier) (queue : Option (List Nat)) :
    (s.setSlot rule queue).standing? = s.standing? := rfl

theorem slots_setSlot_eq_update (rule : Identifier) (queue : Option (List Nat)) :
    (s.setSlot rule queue).slots = Function.update s.slots rule queue := by
  funext r
  simp [Function.update_apply]

theorem job?_accept (job : Job) (cancelled : Bool) (phase : Phase) :
    (s.accept job cancelled phase).job? =
      Function.update s.job? s.instances.length (some job) := by
  funext j
  simp only [job?, instance?_accept, Function.update_apply]
  split <;> rfl

theorem standing?_accept (job : Job) (cancelled : Bool) (phase : Phase) :
    (s.accept job cancelled phase).standing? =
      Function.update s.standing? s.instances.length (some phase.standing) := by
  funext j
  simp only [standing?, instance?_accept, Function.update_apply]
  split <;> rfl

/-- An instance that ends keeps its rule if that is exclusive. -/
theorem standing_exit (i : Instance) (report : Report) :
    (i.exit report).standing = if i.job.isExclusive then .leaving else .gone := by
  unfold Instance.exit
  split <;> rfl

theorem job?_finish (i : Instance) (state : InstanceState) (started : Bool)
    (outcomes : List ActionOutcome) :
    (s.finish id i state started outcomes).job? = s.job? :=
  job?_modify fun _ => rfl

theorem standing?_finish (i : Instance) (state : InstanceState) (started : Bool)
    (outcomes : List ActionOutcome) (hid : (s.standing? id).isSome) :
    (s.finish id i state started outcomes).standing? =
      Function.update s.standing? id
        (some (if i.job.isExclusive then .leaving else .gone)) :=
  standing?_modify (s := { s with active := s.active.erase id }) (fun _ => standing_exit i _) hid

/-- Requests for cancellation are not seen in the jobs. -/
theorem job?_foldl_requestCancel (ids : List Nat) :
    (ids.foldl requestCancel s).job? = s.job? := by
  funext j
  simp only [job?, instance?_foldl_requestCancel, Option.map_map]
  rfl

/-- Requests for cancellation leave every instance where it stands. -/
theorem standing?_foldl_requestCancel (ids : List Nat) :
    (ids.foldl requestCancel s).standing? = s.standing? := by
  funext j
  simp only [standing?, instance?_foldl_requestCancel, Option.map_map]
  rfl

end View

end Reflex.Scheduler

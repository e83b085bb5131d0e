import Reflex.Proofs.Scheduler.Lane

/-!
# The Order of Turns

Instances of different exclusive rules make their steps in any order. Every step preserves that
the instances of each rule form a lane, and that an instance that gets its turn from another one
waits for exactly one report.

## Main definitions

- `Scheduler.Paired`: an instance that is called waits for exactly one report.
- `Scheduler.Orderly`: what every step preserves.

## Main statements

- `Scheduler.Orderly.step`: every step preserves the order.
- `Scheduler.orderly_of_run`: every run is orderly.
-/

namespace Reflex.Scheduler

/-! ## Calls from one instance to the next -/

/-- The standing has no part in a call from one instance to the next. -/
def Standing.IsSingle (standing : Standing) : Prop :=
  standing ≠ .called ∧ ∀ next, standing ≠ .handing next

/-- Whoever is called waits for the report of exactly one instance, and nobody else is waited
for. -/
structure Paired (standings : Nat → Option Standing) : Prop where
  /-- An instance is called exactly if another one hands its rule on to it. -/
  called : ∀ id, standings id = some .called ↔ ∃ j, standings j = some (.handing id)
  /-- No two instances hand a rule on to the same one. -/
  injective : ∀ id j k,
    standings j = some (.handing id) → standings k = some (.handing id) → j = k

namespace Paired

variable {standings : Nat → Option Standing} {id next : Nat}

/-- Changes outside of a call keep the pairs. -/
theorem update (h : Paired standings) {standing : Standing}
    (hold : ∀ old ∈ standings id, old.IsSingle) (hnew : standing.IsSingle) :
    Paired (Function.update standings id (some standing)) := by
  have hnot : standings id ≠ some .called := fun hid => (hold _ hid).1 rfl
  have hnot' (n : Nat) : standings id ≠ some (.handing n) := fun hid => (hold _ hid).2 n rfl
  refine ⟨fun j => ?_, fun n j k hj hk => ?_⟩
  · have hcalled := h.called j
    simp only [Function.update_apply]
    grind [Standing.IsSingle]
  · have hinjective := h.injective n j k
    simp only [Function.update_apply] at hj hk
    grind [Standing.IsSingle]

/-- A rule is handed on to an instance that was waiting. -/
theorem link (h : Paired standings) (hne : next ≠ id) (hid : standings id = some .leaving)
    (hnext : standings next = some .waiting) :
    Paired (Function.update (Function.update standings next (some .called)) id
      (some (.handing next))) := by
  have hnone (j : Nat) : standings j ≠ some (.handing next) := by
    intro hj
    have hcalled := (h.called next).2 ⟨j, hj⟩
    simp [hnext] at hcalled
  refine ⟨fun j => ?_, fun n j k hj hk => ?_⟩
  · have hcalled := h.called j
    simp only [Function.update_apply]
    grind
  · have hinjective := h.injective n j k
    simp only [Function.update_apply] at hj hk
    grind

/-- The report is out, and the instance that was called can start. -/
theorem unlink (h : Paired standings) (hid : standings id = some (.handing next)) :
    Paired (Function.update (Function.update standings id (some .gone)) next
      (some .ready)) := by
  have hnext : standings next = some .called := (h.called next).2 ⟨id, hid⟩
  refine ⟨fun j => ?_, fun n j k hj hk => ?_⟩
  · have hcalled := h.called j
    have hinjective := h.injective j id
    simp only [Function.update_apply]
    grind
  · have hinjective := h.injective n j k
    simp only [Function.update_apply] at hj hk
    grind

end Paired

/-! ## What every step preserves -/

/-- The order that every step preserves. -/
structure Orderly (log : Log) (s : Scheduler) : Prop where
  /-- The instances of an exclusive rule are those that were accepted for it. -/
  belongs : ∀ rule id, id ∈ log.acceptances rule ↔ s.Belongs rule id
  /-- The log is about instances that exist. -/
  named : ∀ o ∈ log, ∀ id, o.Names id → (s.job? id).isSome
  /-- Only instances of exclusive rules wait, are called and leave. -/
  exclusive : ∀ id standing, s.standing? id = some standing →
    standing = .waiting ∨ standing = .called ∨ standing = .leaving → ∃ rule, s.Belongs rule id
  /-- Calls are made in pairs. -/
  paired : Paired s.standing?
  /-- The instances of every exclusive rule form a lane. -/
  lane : ∀ rule, ∃ past holder queue, Lane log s rule past holder queue

namespace Orderly

variable {log : Log} {s s' : Scheduler} {o : Occurrence} {id next : Nat} {job : Job}

/-- Nothing has happened. -/
theorem init (settings : Settings) : Orderly [] { settings } where
  belongs := by simp [Log.acceptances, Belongs, job?, instance?]
  named := by simp
  exclusive := by simp [standing?, instance?]
  paired := ⟨by simp [standing?, instance?], by simp [standing?, instance?]⟩
  lane := fun rule => ⟨[], none, [], by
    constructor <;> simp [Log.acceptances, Log.turns, Log.departures, Log.beginnings, Log.among]⟩

/-- An instance belongs to one rule at most. -/
theorem rule_eq (h : Orderly log s) {rule : Identifier} (hjob : s.job? id = some job)
    (hid : id ∈ log.acceptances rule) : job.isExclusive = true ∧ job.rule.id = rule := by
  obtain ⟨job', hjob', hexclusive, hrule⟩ := (h.belongs rule id).1 hid
  obtain rfl := Option.some.inj (hjob.symm.trans hjob')
  exact ⟨hexclusive, hrule⟩

/-- An occurrence that accepts nobody leaves everybody where they belong. -/
theorem belongs_snoc (h : Orderly log s) (haccepted : ∀ rule, o.accepted? rule = none)
    (hjobs : s'.job? = s.job?) (rule : Identifier) (id : Nat) :
    id ∈ Log.acceptances (log ++ [o]) rule ↔ s'.Belongs rule id := by
  rw [acceptances_snoc_of_eq_none (haccepted rule), h.belongs, belongs_congr hjobs]

/-- An occurrence that is about instances that exist leaves the log so. -/
theorem named_snoc (h : Orderly log s) (hjobs : s'.job? = s.job?)
    (hnames : ∀ id, o.Names id → (s.job? id).isSome) :
    ∀ p ∈ log ++ [o], ∀ id, p.Names id → (s'.job? id).isSome := by
  intro p hp id hid
  rw [hjobs]
  rcases List.mem_append.1 hp with hp | hp
  · exact h.named p hp id hid
  · rw [List.mem_singleton.1 hp] at hid
    exact hnames id hid

/-- An instance that still waits, is called or leaves is one of an exclusive rule. -/
theorem exclusive_of_jobs (h : Orderly log s) (hjobs : s'.job? = s.job?) {standing : Standing}
    (hid : s.standing? id = some standing)
    (hstanding : standing = .waiting ∨ standing = .called ∨ standing = .leaving) :
    ∃ rule, s'.Belongs rule id := by
  obtain ⟨rule, hrule⟩ := h.exclusive id standing hid hstanding
  exact ⟨rule, (belongs_congr hjobs rule id).2 hrule⟩

/-- Occurrences that neither accept nor name anybody keep the order as long as the stages stay. -/
theorem calm (h : Orderly log s) (haccepted : ∀ rule, o.accepted? rule = none)
    (hnames : ∀ id, ¬ o.Names id) (hjobs : s'.job? = s.job?) (hslots : s'.slots = s.slots)
    (hstage : ∀ id, s'.stage? id = s.stage? id) (hpaired : Paired s'.standing?)
    (hexclusive : ∀ id standing, s'.standing? id = some standing →
      standing = .waiting ∨ standing = .called ∨ standing = .leaving →
      ∃ rule, s'.Belongs rule id) :
    Orderly (log ++ [o]) s' where
  belongs := h.belongs_snoc haccepted hjobs
  named := h.named_snoc hjobs fun id hid => (hnames id hid).elim
  exclusive := hexclusive
  paired := hpaired
  lane := fun rule => by
    obtain ⟨past, holder, queue, hlane⟩ := h.lane rule
    exact ⟨past, holder, queue, hlane.foreign (haccepted rule)
      (fun id hid => (hnames id hid).elim) (congrFun hslots rule) fun id _ => hstage id⟩

/-- Occurrences that change nothing keep the order. -/
theorem still (h : Orderly log s) (haccepted : ∀ rule, o.accepted? rule = none)
    (hnames : ∀ id, ¬ o.Names id) (hjobs : s'.job? = s.job?) (hslots : s'.slots = s.slots)
    (hstandings : s'.standing? = s.standing?) : Orderly (log ++ [o]) s' := by
  refine h.calm haccepted hnames hjobs hslots (fun id => by rw [stage?, hstandings, stage?])
    (hstandings ▸ h.paired) fun id standing hid hstanding => ?_
  rw [hstandings] at hid
  exact h.exclusive_of_jobs hjobs hid hstanding

/-- An instance that begins or goes on keeps the order. -/
theorem advance (h : Orderly log s) {old new : Standing} (hjob : s.job? id = some job)
    (haccepted : ∀ rule, o.accepted? rule = none) (hturn : o.turn? = none)
    (hbeginning : o.beginning? = if old = .ready then some id else none)
    (hdeparture : o.departure? = none) (hold : s.standing? id = some old)
    (hready : old = .ready ∨ old = .executing)
    (hnew : new = .executing ∨ new = if job.isExclusive then .leaving else .gone)
    (hjobs : s'.job? = s.job?) (hslots : s'.slots = s.slots)
    (hstandings : s'.standing? = Function.update s.standing? id (some new)) :
    Orderly (log ++ [o]) s' := by
  have hnames (j : Nat) (hj : o.Names j) : j = id ∧ old = .ready := by
    rcases hj with hj | hj | hj
    · simp [hturn] at hj
    · rw [hbeginning] at hj
      split at hj
      next hr => exact ⟨(Option.some.inj hj).symm, hr⟩
      next => cases hj
    · simp [hdeparture] at hj
  have hstage (j : Nat) (hj : j ≠ id) : s'.stage? j = s.stage? j := by
    rw [stage?, hstandings, Function.update_of_ne hj, stage?]
  exact {
    belongs := h.belongs_snoc haccepted hjobs
    named := h.named_snoc hjobs fun j hj => by simp [(hnames j hj).1, hjob]
    exclusive := fun j standing hj hstanding => by
      rw [hstandings] at hj
      by_cases hne : j = id
      · subst hne
        obtain rfl : new = standing := by simpa using hj
        -- of what an instance can come to here, only leaving is in question
        refine ⟨job.rule.id, job, hjobs ▸ hjob, ?_, rfl⟩
        rcases hnew with rfl | rfl
        · simp at hstanding
        · by_contra hne
          simp [hne] at hstanding
      · rw [Function.update_of_ne hne] at hj
        exact h.exclusive_of_jobs hjobs hj hstanding
    paired := by
      rw [hstandings]
      refine h.paired.update (fun st hst => ?_) ?_
      · obtain rfl : old = st := by simpa [hold] using hst
        rcases hready with rfl | rfl <;> simp [Standing.IsSingle]
      · rcases hnew with rfl | rfl
        · simp [Standing.IsSingle]
        · split <;> simp [Standing.IsSingle]
    lane := fun rule => by
      obtain ⟨past, holder, queue, hlane⟩ := h.lane rule
      refine ⟨past, holder, queue, ?_⟩
      have hslot := congrFun hslots rule
      by_cases hid : id ∈ log.acceptances rule
      · have hbegun : s'.stage? id = some .begun := by
          rw [stage?, hstandings, Function.update_self]
          rcases hnew with rfl | rfl
          · rfl
          · rw [if_pos (h.rule_eq hjob hid).1]
            rfl
        rcases hready with rfl | rfl
        · exact hlane.start hid (haccepted rule) hturn (by simpa using hbeginning) hdeparture hslot
            (by rw [stage?, hold]; rfl) hbegun hstage
        · refine hlane.foreign (haccepted rule) (fun j hj => by simpa using (hnames j hj).2) hslot
            fun j _ => ?_
          by_cases hj : j = id
          · rw [hj, hbegun, stage?, hold]
            rfl
          · exact hstage j hj
      · refine hlane.foreign (haccepted rule) (fun j hj => (hnames j hj).1 ▸ hid) hslot
          fun j hj => hstage j fun he => hid (he ▸ hj) }

/-- The acceptance of an instance keeps the order, if it keeps the lane of its rule. -/
theorem accept (h : Orderly log s) {standing : Standing} (hfresh : s.job? id = none)
    (haccepted : ∀ rule, o.accepted? rule =
      if job.isExclusive = true ∧ job.rule.id = rule then some id else none)
    (hnames : ∀ j, o.Names j → j = id)
    (hstanding : standing = .ready ∨ standing = .waiting ∧ job.isExclusive = true)
    (hjobs : s'.job? = Function.update s.job? id (some job))
    (hstandings : s'.standing? = Function.update s.standing? id (some standing))
    (hslots : ∀ rule, ¬ (job.isExclusive = true ∧ job.rule.id = rule) →
      s'.slots rule = s.slots rule)
    (hlane : job.isExclusive = true → ∀ past holder queue,
      Lane log s job.rule.id past holder queue →
      (∀ p ∈ log, ¬ p.Names id) → id ∉ log.acceptances job.rule.id →
      (∀ j ∈ log.acceptances job.rule.id, s'.stage? j = s.stage? j) →
      ∃ past holder queue, Lane (log ++ [o]) s' job.rule.id past holder queue) :
    Orderly (log ++ [o]) s' := by
  have hnone : s.standing? id = none := job?_eq_none_iff.1 hfresh
  have hnew (rule : Identifier) : id ∉ log.acceptances rule := by
    intro hid
    obtain ⟨job', hjob', -⟩ := (h.belongs rule id).1 hid
    simp [hfresh] at hjob'
  have hunnamed (p : Occurrence) (hp : p ∈ log) : ¬ p.Names id := by
    intro hid
    simpa [hfresh] using h.named p hp id hid
  have hstage (rule : Identifier) (j : Nat) (hj : j ∈ log.acceptances rule) :
      s'.stage? j = s.stage? j := by
    have hne : j ≠ id := fun he => hnew rule (he ▸ hj)
    rw [stage?, hstandings, Function.update_of_ne hne, stage?]
  have hbelongs (rule : Identifier) (j : Nat) (hj : j ≠ id) :
      s'.Belongs rule j ↔ s.Belongs rule j := by
    rw [Belongs, hjobs, Function.update_of_ne hj, Belongs]
  exact {
    belongs := fun rule j => by
      rw [acceptances_snoc, haccepted, List.mem_append]
      by_cases hj : j = id
      · subst hj
        simp [hnew rule, Belongs, hjobs]
      · rw [hbelongs rule j hj, h.belongs rule j]
        split <;> simp [hj]
    named := fun p hp j hj => by
      rw [hjobs]
      by_cases hne : j = id
      · simp [hne]
      · rw [Function.update_of_ne hne]
        rcases List.mem_append.1 hp with hp | hp
        · exact h.named p hp j hj
        · rw [List.mem_singleton.1 hp] at hj
          exact (hne (hnames j hj)).elim
    exclusive := fun j st hj hst => by
      rw [hstandings] at hj
      by_cases hne : j = id
      · subst hne
        obtain rfl : standing = st := by simpa using hj
        rcases hstanding with rfl | ⟨rfl, hexclusive⟩
        · simp at hst
        · exact ⟨job.rule.id, job, by simp [hjobs], hexclusive, rfl⟩
      · rw [Function.update_of_ne hne] at hj
        obtain ⟨rule, hrule⟩ := h.exclusive j st hj hst
        exact ⟨rule, (hbelongs rule j hne).2 hrule⟩
    paired := by
      rw [hstandings]
      refine h.paired.update (by simp [hnone]) ?_
      rcases hstanding with rfl | ⟨rfl, -⟩ <;> simp [Standing.IsSingle]
    lane := fun rule => by
      obtain ⟨past, holder, queue, hold⟩ := h.lane rule
      by_cases hrule : job.isExclusive = true ∧ job.rule.id = rule
      · obtain ⟨hexclusive, rfl⟩ := hrule
        exact hlane hexclusive past holder queue hold hunnamed (hnew _) (hstage _)
      · refine ⟨past, holder, queue, hold.foreign (by rw [haccepted, if_neg hrule])
          (fun j hj => hnames j hj ▸ hnew rule) (hslots rule hrule) (hstage rule)⟩ }

/-- An instance that leaves holds its rule. -/
theorem lane_of_leaving (h : Orderly log s) (hjob : s.job? id = some job)
    (hid : s.standing? id = some .leaving) :
    id ∈ log.acceptances job.rule.id ∧
      ∃ past queue, Lane log s job.rule.id past (some id) queue := by
  obtain ⟨rule, hrule⟩ := h.exclusive id .leaving hid (by simp)
  have hmem : id ∈ log.acceptances rule := (h.belongs rule id).2 hrule
  obtain rfl := (h.rule_eq hjob hmem).2
  obtain ⟨past, holder, queue, hlane⟩ := h.lane job.rule.id
  obtain rfl := hlane.holder_eq hmem (.inr (by rw [stage?, hid]; rfl))
  exact ⟨hmem, past, queue, hlane⟩

/-- The first instance of the queue waits. -/
theorem waiting_of_slot (h : Orderly log s) {queue : List Nat} (hjob : s.job? id = some job)
    (hid : s.standing? id = some .leaving)
    (hslot : s.slots job.rule.id = some (next :: queue)) : s.standing? next = some .waiting := by
  obtain ⟨_, past, queue', hlane⟩ := h.lane_of_leaving hjob hid
  obtain rfl : queue' = next :: queue := by simpa [hslot] using hlane.slot.symm
  have hwaiting := hlane.waiting next (by simp)
  cases hst : s.standing? next with
  | none => simp [stage?, hst] at hwaiting
  | some st => cases st <;> simp [stage?, hst, Standing.stage] at hwaiting ⊢

/-- The handing on of a rule keeps the order. -/
theorem release (h : Orderly log s) {queue : List Nat} (hjob : s.job? id = some job)
    (hleaving : s.standing? id = some .leaving) (hqueue : s.slots job.rule.id = some queue)
    (haccepted : ∀ rule, o.accepted? rule = none) (hturn : o.turn? = queue.head?)
    (hbeginning : o.beginning? = none) (hdeparture : o.departure? = some id)
    (hjobs : s'.job? = s.job?)
    (hslots : s'.slots =
      Function.update s.slots job.rule.id (queue.head?.map fun _ => queue.tail))
    (hpassed : s'.stage? id = some .passed)
    (hcalled : ∀ next ∈ queue.head?, s'.standing? next = some .called)
    (hother : ∀ j, j ≠ id → j ∉ queue.head? → s'.standing? j = s.standing? j)
    (hpaired : Paired s'.standing?) : Orderly (log ++ [o]) s' := by
  obtain ⟨hid, past, queue', hlane⟩ := h.lane_of_leaving hjob hleaving
  obtain rfl : queue' = queue := by simpa [hqueue] using hlane.slot.symm
  have hhead (next : Nat) (hnext : next ∈ queue'.head?) : next ∈ log.acceptances job.rule.id :=
    hlane.mem_acceptances (.inr (.inr (List.mem_of_mem_head? hnext)))
  have hnames (j : Nat) (hj : o.Names j) : j = id ∨ j ∈ queue'.head? := by
    rcases hj with hj | hj | hj
    · exact .inr (hturn ▸ hj)
    · simp [hbeginning] at hj
    · rw [hdeparture, Option.some.injEq] at hj
      exact .inl hj.symm
  -- whoever is named belongs to the rule that is handed on
  have hnamed (j : Nat) (hj : o.Names j) : j ∈ log.acceptances job.rule.id := by
    rcases hnames j hj with rfl | hj
    · exact hid
    · exact hhead j hj
  have hstage (j : Nat) (hne : j ≠ id) (hnot : j ∉ queue'.head?) :
      s'.stage? j = s.stage? j := by
    rw [stage?, hother j hne hnot, stage?]
  exact {
    belongs := h.belongs_snoc haccepted hjobs
    named := h.named_snoc hjobs fun j hj => by
      obtain ⟨job', hjob', -⟩ := (h.belongs _ j).1 (hnamed j hj)
      simp [hjob']
    exclusive := fun j standing hj hstanding => by
      by_cases hne : j = id
      · subst hne
        rw [stage?, hj] at hpassed
        rcases hstanding with rfl | rfl | rfl <;> simp [Standing.stage] at hpassed
      · by_cases hnext : j ∈ queue'.head?
        · obtain ⟨job', hjob', hexclusive, hrule⟩ := (h.belongs _ j).1 (hhead j hnext)
          exact ⟨job.rule.id, job', hjobs ▸ hjob', hexclusive, hrule⟩
        · rw [hother j hne hnext] at hj
          exact h.exclusive_of_jobs hjobs hj hstanding
    paired := hpaired
    lane := fun rule => by
      by_cases hrule : rule = job.rule.id
      · subst hrule
        exact ⟨past ++ [id], queue'.head?, queue'.tail,
          hlane.release hid (haccepted _) hturn hbeginning hdeparture
            (by rw [hslots, Function.update_self]) (by rw [stage?, hleaving]; rfl) hpassed
            (fun next hnext => by rw [stage?, hcalled next hnext]; rfl) hstage⟩
      · obtain ⟨past', holder', queue', hlane'⟩ := h.lane rule
        have hforeign (j : Nat) (hj : j ∈ log.acceptances job.rule.id) :
            j ∉ log.acceptances rule := by
          intro hj'
          obtain ⟨job', hjob', -, hr⟩ := (h.belongs _ j).1 hj
          exact hrule ((h.rule_eq hjob' hj').2.symm.trans hr)
        refine ⟨past', holder', queue', hlane'.foreign (haccepted rule)
          (fun j hj => hforeign j (hnamed j hj))
          (by rw [hslots, Function.update_of_ne hrule]) fun j hj => hstage j ?_ fun hnext => ?_⟩
        · rintro rfl
          exact hforeign j hid hj
        · exact hforeign j (hhead j hnext) hj }

/-- The report that an instance was called for keeps the order. -/
theorem callUp (h : Orderly log s) (haccepted : ∀ rule, o.accepted? rule = none)
    (hnames : ∀ id, ¬ o.Names id) (hid : s.standing? id = some (.handing next))
    (hjobs : s'.job? = s.job?) (hslots : s'.slots = s.slots)
    (hstandings : s'.standing? =
      Function.update (Function.update s.standing? id (some .gone)) next (some .ready)) :
    Orderly (log ++ [o]) s' := by
  have hnext : s.standing? next = some .called := (h.paired.called next).2 ⟨id, hid⟩
  refine h.calm haccepted hnames hjobs hslots (fun j => ?_) (hstandings ▸ h.paired.unlink hid)
    fun j standing hj hstanding => ?_
  · simp only [stage?, hstandings, Function.update_apply]
    split
    next hj => rw [hj, hnext]; rfl
    next =>
      split
      next hj => rw [hj, hid]; rfl
      next => rfl
  · simp only [hstandings, Function.update_apply] at hj
    split at hj
    · simp [← Option.some.inj hj] at hstanding
    · split at hj
      · simp [← Option.some.inj hj] at hstanding
      · exact h.exclusive_of_jobs hjobs hj hstanding

/-- An instance that ends keeps the order. -/
theorem finish (h : Orderly log s) {i : Instance} {phase : Phase} {m : Move} {reply : Reply}
    (hi : s.instance? id = some i) (hphase : i.phase = phase)
    (hready : phase.standing = .ready ∨ phase.standing = .executing)
    (haccepted : ∀ rule, Occurrence.accepted? rule ⟨m, reply⟩ = none)
    (hturn : Occurrence.turn? ⟨m, reply⟩ = none)
    (hbeginning : Occurrence.beginning? ⟨m, reply⟩ =
      if phase.standing = .ready then some id else none)
    (hdeparture : Occurrence.departure? ⟨m, reply⟩ = none)
    (state : InstanceState) (started : Bool) (outcomes : List ActionOutcome) :
    Orderly (log ++ [⟨m, reply⟩]) (s.finish id i state started outcomes) := by
  have hstanding := standing?_of_instance? hi hphase
  exact h.advance (job?_of_instance? hi) haccepted hturn hbeginning hdeparture hstanding hready
    (.inr rfl) (job?_finish ..) rfl (standing?_finish _ _ _ _ (by simp [hstanding]))

/-- An instance that goes on executing keeps the order. -/
theorem goOn (h : Orderly log s) {i : Instance} {old new : Phase} {m : Move} {reply : Reply}
    (hi : s.instance? id = some i) (hphase : i.phase = old) (hold : old.standing = .executing)
    (hnew : new.standing = .executing)
    (haccepted : ∀ rule, Occurrence.accepted? rule ⟨m, reply⟩ = none)
    (hnames : ∀ j, ¬ Occurrence.Names ⟨m, reply⟩ j) :
    Orderly (log ++ [⟨m, reply⟩]) (s.setPhase id new) := by
  have hstanding := standing?_of_instance? hi hphase
  refine h.still haccepted hnames (job?_setPhase new) rfl ?_
  rw [standing?_setPhase new (by simp [hstanding]), hnew, ← hold, ← hstanding,
    Function.update_eq_self]

/-- The acceptance of an instance of an exclusive rule keeps the order, if it keeps the lane. -/
theorem acceptAt (h : Orderly log s) {cancelled : Bool} {queue : List Nat} {phase : Phase}
    (hexclusive : job.isExclusive = true)
    (haccepted : ∀ rule, o.accepted? rule =
      if job.isExclusive = true ∧ job.rule.id = rule then some s.instances.length else none)
    (hnames : ∀ j, o.Names j → j = s.instances.length)
    (hphase : phase.standing = .ready ∨ phase.standing = .waiting)
    (hs' : s' = (s.setSlot job.rule.id (some queue)).accept job cancelled phase)
    (hlane : s'.slots job.rule.id = some queue →
      s'.stage? s.instances.length = some phase.standing.stage → ∀ past holder waiters,
      Lane log s job.rule.id past holder waiters →
      (∀ p ∈ log, ¬ p.Names s.instances.length) →
      s.instances.length ∉ log.acceptances job.rule.id →
      (∀ j ∈ log.acceptances job.rule.id, s'.stage? j = s.stage? j) →
      ∃ past holder queue, Lane (log ++ [o]) s' job.rule.id past holder queue) :
    Orderly (log ++ [o]) s' := by
  have hslots : s'.slots = Function.update s.slots job.rule.id (some queue) := by
    rw [hs']
    exact slots_setSlot_eq_update _ _
  have hstandings : s'.standing? =
      Function.update s.standing? s.instances.length (some phase.standing) := by
    rw [hs', standing?_accept]
    rfl
  refine h.accept (job?_length s) haccepted hnames (hphase.imp_right fun hw => ⟨hw, hexclusive⟩)
    (by rw [hs', job?_accept]; rfl) hstandings (fun rule hrule => ?_) fun _ => hlane ?_ ?_
  · have hne : rule ≠ job.rule.id := by
      rintro rfl
      exact hrule ⟨hexclusive, rfl⟩
    rw [hslots, Function.update_of_ne hne]
  · rw [hslots, Function.update_self]
  · rw [stage?, hstandings, Function.update_self]
    rfl

/-- An instance that hands its rule on keeps the order. -/
theorem handOn (h : Orderly log s) {i : Instance} {report : Report} {queue : List Nat}
    (hi : s.instance? id = some i) (hphase : i.phase = .leaving report)
    (hslot : s.slots i.job.rule.id = some (next :: queue)) :
    Orderly (log ++ [⟨.release id, .handed (some next)⟩])
      (((s.setSlot i.job.rule.id (some queue)).setPhase next .called).setPhase id
        (.reporting report (some next))) := by
  have hleaving := standing?_of_instance? hi hphase
  have hnext := h.waiting_of_slot (job?_of_instance? hi) hleaving hslot
  have hne : next ≠ id := by
    rintro rfl
    rw [hleaving] at hnext
    cases hnext
  have hstandings : (((s.setSlot i.job.rule.id (some queue)).setPhase next .called).setPhase id
      (.reporting report (some next))).standing? =
      Function.update (Function.update s.standing? next (some .called)) id
        (some (.handing next)) := by
    rw [standing?_setPhase, standing?_setPhase]
    · rfl
    · simp [standing?_setSlot, hnext]
    · rw [standing?_setPhase _ (by simp [standing?_setSlot, hnext]),
        Function.update_of_ne hne.symm, standing?_setSlot, hleaving]
      rfl
  refine h.release (job?_of_instance? hi) hleaving hslot (fun _ => rfl) rfl rfl rfl
    ((job?_setPhase _).trans (job?_setPhase _)) (slots_setSlot_eq_update _ _) ?_ ?_ ?_ ?_
  · rw [stage?, hstandings, Function.update_self]
    rfl
  · intro j hj
    obtain rfl : next = j := by simpa using hj
    rw [hstandings, Function.update_of_ne hne, Function.update_self]
  · intro j hj hnot
    rw [hstandings, Function.update_of_ne hj, Function.update_of_ne]
    rintro rfl
    simp at hnot
  · rw [hstandings]
    exact h.paired.link hne hleaving hnext

/-- An instance that sets its rule free keeps the order. -/
theorem free (h : Orderly log s) {i : Instance} {report : Report}
    (hi : s.instance? id = some i) (hphase : i.phase = .leaving report)
    (hslot : ∀ next queue, s.slots i.job.rule.id ≠ some (next :: queue)) :
    Orderly (log ++ [⟨.release id, .handed none⟩])
      ((s.setSlot i.job.rule.id none).setPhase id (.reporting report none)) := by
  have hleaving := standing?_of_instance? hi hphase
  obtain ⟨_, past, queue, hlane⟩ := h.lane_of_leaving (job?_of_instance? hi) hleaving
  obtain rfl : queue = [] := by
    cases queue with
    | nil => rfl
    | cons next rest => exact (hslot next rest (by rw [hlane.slot]; rfl)).elim
  have hstandings : ((s.setSlot i.job.rule.id none).setPhase id
      (.reporting report none)).standing? =
      Function.update s.standing? id (some .gone) := by
    rw [standing?_setPhase _ (by simp [standing?_setSlot, hleaving])]
    rfl
  refine h.release (job?_of_instance? hi) hleaving hlane.slot (fun _ => rfl) rfl rfl rfl
    (job?_setPhase _) (slots_setSlot_eq_update _ _) ?_ (by simp) ?_ ?_
  · rw [stage?, hstandings, Function.update_self]
    rfl
  · intro j hj _
    rw [hstandings, Function.update_of_ne hj]
  · rw [hstandings]
    refine h.paired.update ?_ (by simp [Standing.IsSingle])
    rw [hleaving]
    simp [Standing.IsSingle, Phase.standing]

/-- Every step keeps the order. -/
theorem step (h : Orderly log s) {m : Move} {reply : Reply} (hstep : Step s m s' reply) :
    Orderly (log ++ [⟨m, reply⟩]) s' := by
  have hunnamed {o : Occurrence} (hturn : o.turn? = none) (hbeginning : o.beginning? = none)
      (hdeparture : o.departure? = none) (j : Nat) : ¬ o.Names j := by
    simp [Occurrence.Names, hturn, hbeginning, hdeparture]
  cases hstep with
  | refuse => exact h.still (fun _ => rfl) (hunnamed rfl rfl rfl) rfl rfl rfl
  | drop => exact h.still (fun _ => rfl) (hunnamed rfl rfl rfl) rfl rfl rfl
  | @accept job cancelled _ hexclusive =>
    refine h.accept (job?_length s) (fun rule => ?_) (fun j hj => ?_) (.inl rfl)
      (job?_accept ..) (standing?_accept ..) (fun _ _ => rfl) fun hexclusive' => ?_
    · simp [Occurrence.accepted?]
    · simpa [Occurrence.Names, Occurrence.turn?, Occurrence.beginning?, Occurrence.departure?,
        eq_comm] using hj
    · simp [hexclusive] at hexclusive'
  | @take job cancelled _ hexclusive hslot =>
    refine h.acceptAt hexclusive (fun rule => ?_) (fun j hj => ?_) (.inl rfl) rfl
      fun htaken hdue past holder queue hlane hlog hid hstage => ?_
    · simp [Occurrence.accepted?]
    · simpa [Occurrence.Names, Occurrence.turn?, Occurrence.beginning?, Occurrence.departure?,
        eq_comm] using hj
    · exact ⟨past, some s.instances.length, [], hlane.take hslot
        (by simp [Occurrence.accepted?, hexclusive]) rfl rfl rfl hlog hid htaken hdue hstage⟩
  | @enqueue job cancelled waiters _ hexclusive hslot _ =>
    refine h.acceptAt hexclusive (fun rule => ?_) (fun j hj => ?_) (.inr rfl) rfl
      fun htaken hwaiting past holder queue hlane hlog hid hstage => ?_
    · simp [Occurrence.accepted?]
    · exact (hunnamed rfl rfl rfl j hj).elim
    · exact ⟨past, holder, queue ++ [s.instances.length], hlane.enqueue hslot
        (by simp [Occurrence.accepted?, hexclusive]) (hunnamed rfl rfl rfl) hid hlog htaken
        hwaiting hstage⟩
  | mark ids hagent hreply =>
    refine h.still (fun rule => ?_) (fun j => ?_) (job?_foldl_requestCancel ids)
      (slots_foldl_requestCancel s ids) (standing?_foldl_requestCancel ids)
    · rcases hreply with rfl | ⟨active, rfl⟩ <;> cases m <;> rfl
    · rcases hreply with rfl | ⟨active, rfl⟩ <;>
        cases m <;> first | exact hunnamed rfl rfl rfl j | cases hagent
  | close => exact h.still (fun _ => rfl) (hunnamed rfl rfl rfl) rfl rfl rfl
  | forgo hi hphase _ =>
    exact h.finish hi hphase (.inl rfl) (fun _ => rfl) rfl rfl rfl _ _ _
  | @start id i hi hphase _ =>
    have hstanding := standing?_of_instance? hi hphase
    exact h.advance (job?_of_instance? hi) (fun _ => rfl) rfl rfl rfl hstanding (.inl rfl)
      (.inl rfl) (job?_modify fun _ => rfl) rfl
      (standing?_modify (fun _ => rfl) (by simp [hstanding]))
  | complete hi hphase _ =>
    exact h.finish hi hphase (.inr rfl) (fun _ => rfl) rfl rfl rfl _ _ _
  | interrupt hi hphase _ _ =>
    exact h.finish hi hphase (.inr rfl) (fun _ => rfl) rfl rfl rfl _ _ _
  | invoke hi hphase _ _ =>
    exact h.goOn hi hphase rfl rfl (fun _ => rfl) (hunnamed rfl rfl rfl)
  | succeed hi hphase =>
    exact h.goOn hi hphase rfl rfl (fun _ => rfl) (hunnamed rfl rfl rfl)
  | stopCancelled hi hphase =>
    exact h.finish hi hphase (.inr rfl) (fun _ => rfl) rfl rfl rfl _ _ _
  | stopFailed hi hphase _ _ _ =>
    exact h.finish hi hphase (.inr rfl) (fun _ => rfl) rfl rfl rfl _ _ _
  | backOff hi hphase _ _ _ _ =>
    exact h.goOn hi hphase rfl rfl (fun _ => rfl) (hunnamed rfl rfl rfl)
  | expire hi hphase _ =>
    exact h.goOn hi hphase rfl rfl (fun _ => rfl) (hunnamed rfl rfl rfl)
  | resume hi hphase =>
    exact h.goOn hi hphase rfl rfl (fun _ => rfl) (hunnamed rfl rfl rfl)
  | abandon hi hphase _ =>
    exact h.finish hi hphase (.inr rfl) (fun _ => rfl) rfl rfl rfl _ _ _
  | handOn hi hphase hslot => exact h.handOn hi hphase hslot
  | free hi hphase hslot => exact h.free hi hphase hslot
  | @callUp id i report next hi hphase =>
    have hhanding : s.standing? id = some (.handing next) := standing?_of_instance? hi hphase
    have hnext : s.standing? next = some .called := (h.paired.called next).2 ⟨id, hhanding⟩
    refine h.callUp (fun _ => rfl) (hunnamed rfl rfl rfl) hhanding
      ((job?_setPhase _).trans (job?_setPhase _)) rfl ?_
    rw [standing?_setPhase, standing?_setPhase]
    · rfl
    · simp [hhanding]
    · rw [standing?_setPhase _ (by simp [hhanding]), Function.update_apply]
      split <;> simp [hnext]
  | @retire id i report hi hphase =>
    have hgone : s.standing? id = some .gone := standing?_of_instance? hi hphase
    refine h.still (fun _ => rfl) (hunnamed rfl rfl rfl) (job?_setPhase _) rfl ?_
    rw [standing?_setPhase _ (by simp [hgone])]
    exact (congrArg _ hgone.symm).trans (Function.update_eq_self id s.standing?)

end Orderly

/-- Every run is orderly. -/
theorem orderly_of_run {settings : Settings} {log : Log} {s : Scheduler}
    (hrun : Run settings log s) : Orderly log s := by
  induction hrun with
  | nil => exact .init settings
  | snoc _ hmove ih => exact ih.step (step_of_move hmove)

end Reflex.Scheduler

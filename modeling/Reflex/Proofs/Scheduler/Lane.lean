import Reflex.Proofs.Scheduler.Turns

/-!
# The Lane of an Exclusive Rule

Whatever the order of the steps, the instances that were accepted for an exclusive rule form a
lane: first those whose turn is over, then the one that holds the rule, then those that wait in
the queue of the rule. This module says how each kind of occurrence changes a lane.

## Main definitions

- `Scheduler.Lane`: the instances of an exclusive rule, in the order of their turns.

## Main statements

- `Scheduler.Lane.foreign`: what concerns no instance of the rule leaves its lane.
- `Scheduler.Lane.take`, `Scheduler.Lane.enqueue`: an instance joins the lane at its end.
- `Scheduler.Lane.start`, `Scheduler.Lane.release`: the holder begins, and hands the rule on.
-/

namespace Reflex.Scheduler

/-- The stage of the instance of a number. -/
def stage? (s : Scheduler) (id : Nat) : Option Stage :=
  (s.standing? id).map Standing.stage

/-- The instances of an exclusive rule: those whose turn is over, the holder, and those that
wait. -/
structure Lane (log : Log) (s : Scheduler) (rule : Identifier) (past : List Nat)
    (holder : Option Nat) (queue : List Nat) : Prop where
  /-- The rule is taken while there is a holder. -/
  slot : s.slots rule = holder.map fun _ => queue
  /-- Nobody waits for a rule that is free. -/
  vacant : holder = none → queue = []
  /-- The instances were accepted in this order. -/
  accepted : log.acceptances rule = past ++ (holder.toList ++ queue)
  /-- No instance was accepted twice. -/
  distinct : (log.acceptances rule).Nodup
  /-- The instances that do not wait had their turn. -/
  turned : log.turns rule = past ++ holder.toList
  /-- The instances of the past handed the rule on. -/
  departed : log.departures rule = past
  /-- The instances of the past began, and perhaps the holder did. -/
  began : log.beginnings rule =
    past ++ holder.toList.filter fun id => s.stage? id = some .begun
  /-- The instances of the past have ended. -/
  passed : ∀ id ∈ past, s.stage? id = some .passed
  /-- The holder has not ended. -/
  holding : ∀ id ∈ holder, s.stage? id = some .due ∨ s.stage? id = some .begun
  /-- The instances of the queue wait. -/
  waiting : ∀ id ∈ queue, s.stage? id = some .waiting

namespace Lane

variable {log : Log} {s s' : Scheduler} {rule : Identifier} {past queue : List Nat}
  {holder : Option Nat} {o : Occurrence} {id : Nat}

/-- The instances of the lane were accepted for the rule. -/
theorem mem_acceptances (h : Lane log s rule past holder queue)
    (hid : id ∈ past ∨ id ∈ holder ∨ id ∈ queue) : id ∈ log.acceptances rule := by
  rw [h.accepted]
  simpa using hid

/-- An instance of the rule whose turn has come and is not over is the holder. -/
theorem holder_eq (h : Lane log s rule past holder queue) (hid : id ∈ log.acceptances rule)
    (hstage : s.stage? id = some .due ∨ s.stage? id = some .begun) : holder = some id := by
  rw [h.accepted, List.mem_append, List.mem_append] at hid
  rcases hid with hpast | hholder | hqueue
  · have hpassed := h.passed id hpast
    simp [hpassed] at hstage
  · simpa using hholder
  · have hwaiting := h.waiting id hqueue
    simp [hwaiting] at hstage

/-- The lane says alike of two states whether the holder has begun. -/
private theorem filter_begun_congr (hstage : ∀ id ∈ holder, s'.stage? id = s.stage? id) :
    (holder.toList.filter fun id => s'.stage? id = some .begun) =
      holder.toList.filter fun id => s.stage? id = some .begun := by
  refine List.filter_congr fun id hid => ?_
  rw [hstage id (Option.mem_toList.1 hid)]

/-- An occurrence that concerns no instance of the rule leaves its lane. -/
theorem foreign (h : Lane log s rule past holder queue) (haccepted : o.accepted? rule = none)
    (hnames : ∀ id, o.Names id → id ∉ log.acceptances rule)
    (hslot : s'.slots rule = s.slots rule)
    (hstage : ∀ id ∈ log.acceptances rule, s'.stage? id = s.stage? id) :
    Lane (log ++ [o]) s' rule past holder queue := by
  have hacceptances : Log.acceptances (log ++ [o]) rule = log.acceptances rule :=
    acceptances_snoc_of_eq_none haccepted
  exact {
    slot := hslot.trans h.slot
    vacant := h.vacant
    accepted := hacceptances.trans h.accepted
    distinct := hacceptances ▸ h.distinct
    turned := (among_snoc_of_notMem haccepted fun id hid => hnames id (.inl hid)).trans h.turned
    departed :=
      (among_snoc_of_notMem haccepted fun id hid => hnames id (.inr (.inr hid))).trans h.departed
    began := by
      rw [filter_begun_congr fun id hid => hstage id (h.mem_acceptances (.inr (.inl hid)))]
      exact (among_snoc_of_notMem haccepted fun id hid => hnames id (.inr (.inl hid))).trans
        h.began
    passed := fun id hid => (hstage id (h.mem_acceptances (.inl hid))).trans (h.passed id hid)
    holding := fun id hid => by
      rw [hstage id (h.mem_acceptances (.inr (.inl hid)))]
      exact h.holding id hid
    waiting := fun id hid =>
      (hstage id (h.mem_acceptances (.inr (.inr hid)))).trans (h.waiting id hid) }

/-- An instance that takes a free rule becomes its holder. -/
theorem take (h : Lane log s rule past holder queue) (hfree : s.slots rule = none)
    (haccepted : o.accepted? rule = some id) (hturn : o.turn? = some id)
    (hbeginning : o.beginning? = none) (hdeparture : o.departure? = none)
    (hlog : ∀ p ∈ log, ¬ p.Names id) (hid : id ∉ log.acceptances rule)
    (hslot : s'.slots rule = some []) (hdue : s'.stage? id = some .due)
    (hstage : ∀ j ∈ log.acceptances rule, s'.stage? j = s.stage? j) :
    Lane (log ++ [o]) s' rule past (some id) [] := by
  obtain rfl : holder = none := by
    have hslot := h.slot
    rw [hfree] at hslot
    simpa using hslot.symm
  obtain rfl := h.vacant rfl
  have hpast : log.acceptances rule = past := by simpa using h.accepted
  have hacceptances : Log.acceptances (log ++ [o]) rule = past ++ [id] := by
    simp [acceptances_snoc, haccepted, hpast]
  have hnew {kind? : Occurrence → Option Nat} (hkind : ∀ p j, kind? p = some j → p.Names j) :
      ∀ p ∈ log, ∀ j, kind? p = some j → o.accepted? rule ≠ some j := by
    intro p hp j hj hja
    rw [haccepted, Option.some.injEq] at hja
    exact hlog p hp (hja ▸ hkind p j hj)
  exact {
    slot := by simp [hslot]
    vacant := by simp
    accepted := by simp [hacceptances]
    distinct := by
      rw [hacceptances, ← List.concat_eq_append, ← hpast]
      exact h.distinct.concat hid
    turned := by
      rw [Log.turns, among_snoc_of_mem (by simp [hturn, hacceptances])
        (hnew fun _ _ hj => .inl hj), ← Log.turns, h.turned, hturn]
      simp
    departed := by
      rw [Log.departures, among_snoc_of_mem (by simp [hdeparture])
        (hnew fun _ _ hj => .inr (.inr hj)), ← Log.departures, h.departed, hdeparture]
      simp
    began := by
      rw [Log.beginnings, among_snoc_of_mem (by simp [hbeginning])
        (hnew fun _ _ hj => .inr (.inl hj)), ← Log.beginnings, h.began, hbeginning]
      simp [hdue]
    passed := fun j hj => (hstage j (hpast ▸ hj)).trans (h.passed j hj)
    holding := by simp [hdue]
    waiting := by simp }

/-- An instance that is accepted for a rule that is taken goes to the end of the queue. -/
theorem enqueue (h : Lane log s rule past holder queue) {waiters : List Nat}
    (htaken : s.slots rule = some waiters) (haccepted : o.accepted? rule = some id)
    (hnames : ∀ j, ¬ o.Names j) (hid : id ∉ log.acceptances rule)
    (hlog : ∀ p ∈ log, ¬ p.Names id) (hslot : s'.slots rule = some (waiters ++ [id]))
    (hwaiting : s'.stage? id = some .waiting)
    (hstage : ∀ j ∈ log.acceptances rule, s'.stage? j = s.stage? j) :
    Lane (log ++ [o]) s' rule past holder (queue ++ [id]) := by
  obtain ⟨j, rfl⟩ : ∃ j, holder = some j := by
    have hslot := h.slot
    rw [htaken] at hslot
    cases holder with
    | none => simp at hslot
    | some j => exact ⟨j, rfl⟩
  obtain rfl : waiters = queue := by simpa [htaken] using h.slot
  have hamong {kind? : Occurrence → Option Nat} (hkind : ∀ p j, kind? p = some j → p.Names j) :
      Log.among (log ++ [o]) rule kind? = log.among rule kind? := by
    have hnone : kind? o = none := by
      cases hj : kind? o with
      | none => rfl
      | some j => exact (hnames j (hkind o j hj)).elim
    rw [among_snoc_of_mem (by simp [hnone]), hnone, Option.toList_none, List.append_nil]
    intro p hp j hj hja
    rw [haccepted, Option.some.injEq] at hja
    exact hlog p hp (hja ▸ hkind p j hj)
  exact {
    slot := hslot
    vacant := by simp
    accepted := by simp [acceptances_snoc, haccepted, h.accepted]
    distinct := by
      rw [acceptances_snoc, haccepted, Option.toList_some, ← List.concat_eq_append]
      exact h.distinct.concat hid
    turned := (hamong fun _ _ hj => .inl hj).trans h.turned
    departed := (hamong fun _ _ hj => .inr (.inr hj)).trans h.departed
    began := by
      rw [filter_begun_congr fun k hk => hstage k (h.mem_acceptances (.inr (.inl hk)))]
      exact (hamong fun _ _ hj => .inr (.inl hj)).trans h.began
    passed := fun k hk => (hstage k (h.mem_acceptances (.inl hk))).trans (h.passed k hk)
    holding := fun k hk => by
      rw [hstage k (h.mem_acceptances (.inr (.inl hk)))]
      exact h.holding k hk
    waiting := fun k hk => by
      rcases List.mem_append.1 hk with hk | hk
      · exact (hstage k (h.mem_acceptances (.inr (.inr hk)))).trans (h.waiting k hk)
      · rw [List.mem_singleton.1 hk]
        exact hwaiting }

/-- The holder begins. -/
theorem start (h : Lane log s rule past holder queue) (hid : id ∈ log.acceptances rule)
    (haccepted : o.accepted? rule = none) (hturn : o.turn? = none)
    (hbeginning : o.beginning? = some id) (hdeparture : o.departure? = none)
    (hslot : s'.slots rule = s.slots rule) (hdue : s.stage? id = some .due)
    (hbegun : s'.stage? id = some .begun) (hstage : ∀ j, j ≠ id → s'.stage? j = s.stage? j) :
    Lane (log ++ [o]) s' rule past holder queue := by
  obtain rfl : holder = some id := h.holder_eq hid (.inl hdue)
  have hacceptances : Log.acceptances (log ++ [o]) rule = log.acceptances rule :=
    acceptances_snoc_of_eq_none haccepted
  exact {
    slot := hslot.trans h.slot
    vacant := h.vacant
    accepted := hacceptances.trans h.accepted
    distinct := hacceptances ▸ h.distinct
    turned := (among_snoc_of_notMem haccepted (by simp [hturn])).trans h.turned
    departed := (among_snoc_of_notMem haccepted (by simp [hdeparture])).trans h.departed
    began := by
      rw [Log.beginnings, among_snoc_of_mem (by simpa [hbeginning, hacceptances] using hid)
        (by simp [haccepted]), ← Log.beginnings, h.began, hbeginning]
      simp [hdue, hbegun]
    passed := fun j hj => by
      have hne : j ≠ id := by
        rintro rfl
        simpa [hdue] using h.passed j hj
      exact (hstage j hne).trans (h.passed j hj)
    holding := by simp [hbegun]
    waiting := fun j hj => by
      have hne : j ≠ id := by
        rintro rfl
        simpa [hdue] using h.waiting j hj
      exact (hstage j hne).trans (h.waiting j hj) }

/-- The holder hands the rule on to the first instance of the queue, if there is one. -/
theorem release (h : Lane log s rule past holder queue) (hid : id ∈ log.acceptances rule)
    (haccepted : o.accepted? rule = none) (hturn : o.turn? = queue.head?)
    (hbeginning : o.beginning? = none) (hdeparture : o.departure? = some id)
    (hslot : s'.slots rule = queue.head?.map fun _ => queue.tail)
    (hbegun : s.stage? id = some .begun) (hpassed : s'.stage? id = some .passed)
    (hdue : ∀ next ∈ queue.head?, s'.stage? next = some .due)
    (hstage : ∀ j, j ≠ id → j ∉ queue.head? → s'.stage? j = s.stage? j) :
    Lane (log ++ [o]) s' rule (past ++ [id]) queue.head? queue.tail := by
  obtain rfl : holder = some id := h.holder_eq hid (.inr hbegun)
  have hqueue : queue.head?.toList ++ queue.tail = queue := by
    cases queue <;> rfl
  have hacceptances : Log.acceptances (log ++ [o]) rule = log.acceptances rule :=
    acceptances_snoc_of_eq_none haccepted
  have hsplit : log.acceptances rule = past ++ ([id] ++ queue) := h.accepted
  have hdistinct : (past ++ ([id] ++ queue)).Nodup := hsplit ▸ h.distinct
  have hhead (j : Nat) (hj : j ∈ queue.head?) : j ∈ queue := List.mem_of_mem_head? hj
  exact {
    slot := hslot
    vacant := by
      intro hnone
      rw [List.head?_eq_none_iff.1 hnone, List.tail_nil]
    accepted := by rw [hacceptances, hqueue, hsplit, List.append_assoc]
    distinct := hacceptances ▸ h.distinct
    turned := by
      have hmem (j : Nat) (hj : o.turn? = some j) :
          j ∈ Log.acceptances (log ++ [o]) rule := by
        rw [hacceptances]
        exact h.mem_acceptances (.inr (.inr (hhead j (hturn ▸ hj))))
      rw [Log.turns, among_snoc_of_mem hmem (by simp [haccepted]), ← Log.turns, h.turned, hturn]
      simp
    departed := by
      rw [Log.departures, among_snoc_of_mem (by simpa [hdeparture, hacceptances] using hid)
        (by simp [haccepted]), ← Log.departures, h.departed, hdeparture]
      simp
    began := by
      have hnone : (queue.head?.toList.filter fun j => s'.stage? j = some .begun) = [] := by
        rw [List.filter_eq_nil_iff]
        intro j hj
        simp [hdue j (Option.mem_toList.1 hj)]
      rw [hnone]
      refine (among_snoc_of_notMem haccepted (by simp [hbeginning])).trans (h.began.trans ?_)
      simp [hbegun]
    passed := fun j hj => by
      rcases List.mem_append.1 hj with hpast | hlast
      · have hne : j ≠ id := by
          rintro rfl
          simpa [hbegun] using h.passed j hpast
        have hnot : j ∉ queue.head? := by
          intro hj'
          simpa [h.passed j hpast] using h.waiting j (hhead j hj')
        exact (hstage j hne hnot).trans (h.passed j hpast)
      · rw [List.mem_singleton.1 hlast]
        exact hpassed
    holding := fun next hnext => .inl (hdue next hnext)
    waiting := fun j hj => by
      have hmem : j ∈ queue := List.mem_of_mem_tail hj
      have hne : j ≠ id := by
        rintro rfl
        simpa [hbegun] using h.waiting j hmem
      have hnot : j ∉ queue.head? := by
        intro hj'
        cases queue with
        | nil => simp at hj
        | cons next rest =>
          simp only [List.head?_cons, Option.mem_def, Option.some.injEq, List.tail_cons] at hj' hj
          subst hj'
          simp [hj, List.nodup_append] at hdistinct
      exact (hstage j hne hnot).trans (h.waiting j hmem) }

end Lane

end Reflex.Scheduler

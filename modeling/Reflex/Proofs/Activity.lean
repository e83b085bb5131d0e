import Reflex.Activity

/-!
# How Activities End

An activity runs from pause to pause and meets another situation each time. What it may end with
and when it ends can be read off its steps.

## Main definitions

- `Activity.carryOn`: where an activity stands after a series of situations.
- `Activity.EndsWell`: every end that the steps name is a good one.
- `Activity.Immediate`: no step waits.
- `Activity.Graceful`: it ends in time, and well unless it is asked to stop.
- `Activity.Publishes`: all that the steps publish has a property.

## Main statements

- `Activity.endsWell_of_advance`: what is left of an activity that ends well ends well.
- `Activity.result_of_carryOn`: how an activity that ends well ends.
- `Activity.ended_of_sleepUntil`: a pause ends.
- `Activity.publishes_of_advance`: what one run publishes, and what is left to publish.
-/

namespace Reflex.Activity

/-- Where an activity stands after it met one situation after the other. -/
def carryOn (a : Activity) : List Situation → Progress
  | [] => .waiting a none
  | s :: later =>
    match (a.advance s).1 with
    | .ended result => .ended result
    | .waiting rest _ => carryOn rest later

/-- The steps name no end but a good one. -/
def EndsWell : Activity → Prop
  | .finish result => result = .completed
  | .check next | .ifAsked next | .awaitAsked next | .sleep _ next | .sleepUntil _ next
  | .work _ next | .workUntil _ next | .write _ _ next | .publish _ _ next => EndsWell next

/-- The steps do not wait for anything. -/
def Immediate : Activity → Prop
  | .finish _ => True
  | .check next | .ifAsked next | .write _ _ next | .publish _ _ next => Immediate next
  | .awaitAsked _ | .sleep .. | .sleepUntil .. | .work .. | .workUntil .. => False

/-- Every event that the steps publish has the property. -/
def Publishes (P : Event → Prop) : Activity → Prop
  | .finish _ => True
  | .check next | .ifAsked next | .awaitAsked next | .sleep _ next | .sleepUntil _ next
  | .work _ next | .workUntil _ next | .write _ _ next => Publishes P next
  | .publish _ event next => P event ∧ Publishes P next

/-- The events among what an activity leaves behind. -/
def published (traces : List Trace) : List Event :=
  traces.filterMap fun
    | .published event => some event
    | .written .. => none

/-- The activity ends in time, and well unless it is asked to stop. -/
structure Graceful (a : Activity) : Prop where
  /-- When every event can be published, it completes, or is cancelled after it was asked to
  stop. -/
  result : ∀ situations r, (∀ s ∈ situations, ∀ e, s.refusal e = none) →
    a.carryOn situations = .ended r →
      r = .completed ∨ r = .error .cancelled ∧ ∃ s ∈ situations, s.asked = true
  /-- It has ended once enough time has passed. -/
  ended : ∃ pause, ∀ (first : Situation) (between : List Situation) (last : Situation),
    first.now + pause ≤ last.now → ∃ r, a.carryOn (first :: (between ++ [last])) = .ended r

variable {a next : Activity} {s : Situation} {r : InvocationResult}

/-- Something in front of the traces changes nothing about the progress. -/
@[simp]
theorem leaving_fst (trace : Trace) (p : Progress × List Trace) : (leaving trace p).1 = p.1 := rfl

theorem carryOn_of_ended {later : List Situation} (h : (a.advance s).1 = .ended r) :
    a.carryOn (s :: later) = .ended r := by
  rw [carryOn, h]

theorem carryOn_of_waiting {later : List Situation} {rest : Activity} {wake : Option Nat}
    (h : (a.advance s).1 = .waiting rest wake) : a.carryOn (s :: later) = rest.carryOn later := by
  rw [carryOn, h]

/-! ## Good ends -/

/-- One run of an activity that ends well ends well or as cancelled, or leaves an activity that
ends well. -/
theorem endsWell_of_advance (hopen : ∀ e, s.refusal e = none) (h : a.EndsWell) :
    (a.advance s).1 = .ended .completed ∨
      ((a.advance s).1 = .ended (.error .cancelled) ∧ s.asked = true) ∨
      ∃ rest wake, (a.advance s).1 = .waiting rest wake ∧ rest.EndsWell := by
  induction a with
  | finish result =>
    obtain rfl : result = .completed := h
    exact .inl rfl
  | check next ih =>
    rw [advance]
    split
    next hasked => exact .inr (.inl ⟨rfl, hasked⟩)
    next => exact ih h
  | ifAsked next ih =>
    rw [advance]
    split
    next => exact ih h
    next => exact .inl rfl
  | awaitAsked next ih =>
    rw [advance]
    split
    next => exact ih h
    next => exact .inr (.inr ⟨_, _, rfl, h⟩)
  | sleep nanos next ih | sleepUntil time next ih =>
    rw [advance]
    split
    next hasked => exact .inr (.inl ⟨rfl, hasked⟩)
    next =>
      split
      next => exact ih h
      next => exact .inr (.inr ⟨_, _, rfl, h⟩)
  | work ms next ih | workUntil time next ih =>
    rw [advance]
    split
    next => exact ih h
    next => exact .inr (.inr ⟨_, _, rfl, h⟩)
  | write level message next ih =>
    rw [advance, leaving_fst]
    exact ih h
  | publish type event next ih =>
    rw [advance, hopen event, leaving_fst]
    exact ih h

/-- However often it is carried on, an activity that ends well ends well or as cancelled. -/
theorem result_of_carryOn {situations : List Situation} (h : a.EndsWell)
    (hopen : ∀ s ∈ situations, ∀ e, s.refusal e = none)
    (hended : a.carryOn situations = .ended r) :
    r = .completed ∨ r = .error .cancelled ∧ ∃ s ∈ situations, s.asked = true := by
  induction situations generalizing a with
  | nil => cases hended
  | cons s later ih =>
    rcases endsWell_of_advance (hopen s (by simp)) h with hwell | ⟨hcancelled, hasked⟩ |
      ⟨rest, wake, hwaiting, hrest⟩
    · rw [carryOn_of_ended hwell] at hended
      exact .inl (Progress.ended.inj hended).symm
    · rw [carryOn_of_ended hcancelled] at hended
      exact .inr ⟨(Progress.ended.inj hended).symm, s, by simp, hasked⟩
    · rw [carryOn_of_waiting hwaiting] at hended
      have hlater : ∀ s ∈ later, ∀ e, s.refusal e = none := fun s hs => hopen s (by simp [hs])
      apply (ih hrest hlater hended).imp_right
      rintro ⟨hr, s', hs', hasked⟩
      exact ⟨hr, s', by simp [hs'], hasked⟩

/-! ## Published events -/

/-- One run of an activity publishes only what its steps name, and so does what is left of it. -/
theorem publishes_of_advance {P : Event → Prop} (h : a.Publishes P) :
    (∀ e ∈ published (a.advance s).2, P e) ∧
      ∀ rest wake, (a.advance s).1 = .waiting rest wake → rest.Publishes P := by
  have hended : ∀ r : InvocationResult, (∀ e ∈ published [], P e) ∧
      ∀ rest wake, Progress.ended r = .waiting rest wake → rest.Publishes P := by
    simp [published]
  have hwaiting : ∀ (left : Activity) (time : Option Nat), left.Publishes P →
      (∀ e ∈ published [], P e) ∧
        ∀ rest wake, Progress.waiting left time = .waiting rest wake → rest.Publishes P := by
    rintro left time hleft
    refine ⟨by simp [published], ?_⟩
    rintro rest wake ⟨⟩
    exact hleft
  induction a with
  | finish result => exact hended result
  | check next ih =>
    rw [advance]
    split
    · exact hended _
    · exact ih h
  | ifAsked next ih =>
    rw [advance]
    split
    · exact ih h
    · exact hended _
  | awaitAsked next ih =>
    rw [advance]
    split
    · exact ih h
    · exact hwaiting _ _ h
  | sleep nanos next ih | sleepUntil time next ih =>
    rw [advance]
    split
    · exact hended _
    · split
      · exact ih h
      · exact hwaiting _ _ h
  | work ms next ih | workUntil time next ih =>
    rw [advance]
    split
    · exact ih h
    · exact hwaiting _ _ h
  | write level message next ih => exact ih h
  | publish type event next ih =>
    rw [advance]
    split
    · exact hended _
    · obtain ⟨hpublished, hrest⟩ := ih h.2
      refine ⟨fun e he => ?_, hrest⟩
      rcases List.mem_cons.1 he with rfl | he
      · exact h.1
      · exact hpublished e he

/-! ## Ends in time -/

/-- Steps that do not wait end at once. -/
theorem ended_of_immediate (h : a.Immediate) (s : Situation) : ∃ r, (a.advance s).1 = .ended r := by
  induction a with
  | finish result => exact ⟨result, rfl⟩
  | check next ih =>
    rw [advance]
    split
    · exact ⟨_, rfl⟩
    · exact ih h
  | ifAsked next ih =>
    rw [advance]
    split
    · exact ih h
    · exact ⟨_, rfl⟩
  | write level message next ih =>
    rw [advance, leaving_fst]
    exact ih h
  | publish type event next ih =>
    rw [advance]
    split
    · exact ⟨_, rfl⟩
    · rw [leaving_fst]
      exact ih h
  | awaitAsked | sleep | sleepUntil | work | workUntil => exact h.elim

/-- A pause ends in a situation, or it still waits for the same time. -/
theorem advance_sleepUntil (h : next.Immediate) (s : Situation) (time : Nat) :
    (∃ r, (advance s (.sleepUntil time next)).1 = .ended r) ∨
      s.now < time ∧
        (advance s (.sleepUntil time next)).1 = .waiting (.sleepUntil time next) (some time) := by
  rw [advance]
  split
  · exact .inl ⟨_, rfl⟩
  · split
    · exact .inl (ended_of_immediate h s)
    · exact .inr ⟨by omega, rfl⟩

/-- A pause that begins ends at once, or it waits for its time. -/
theorem advance_sleep (h : next.Immediate) (s : Situation) (nanos : Nat) :
    (∃ r, (advance s (.sleep nanos next)).1 = .ended r) ∨
      ∃ wake, (advance s (.sleep nanos next)).1 =
        .waiting (.sleepUntil (s.now + Duration.pauseMillis nanos) next) wake := by
  rw [advance]
  split
  · exact .inl ⟨_, rfl⟩
  · split
    · exact .inl (ended_of_immediate h s)
    · exact .inr ⟨_, rfl⟩

/-- A pause ends when its time has come, whatever happens before. -/
theorem ended_of_sleepUntil {time : Nat} (h : next.Immediate) {last : Situation}
    (htime : time ≤ last.now) (between : List Situation) :
    ∃ r, carryOn (.sleepUntil time next) (between ++ [last]) = .ended r := by
  induction between with
  | nil =>
    rcases advance_sleepUntil h last time with ⟨r, hr⟩ | ⟨hearly, -⟩
    · exact ⟨r, carryOn_of_ended hr⟩
    · omega
  | cons s rest ih =>
    rw [List.cons_append]
    rcases advance_sleepUntil h s time with ⟨r, hr⟩ | ⟨-, hwaiting⟩
    · exact ⟨r, carryOn_of_ended hr⟩
    · rw [carryOn_of_waiting hwaiting]
      exact ih

/-! ## Graceful activities -/

/-- Steps that do not wait and end well are graceful. -/
theorem graceful_of_immediate (himmediate : a.Immediate) (hwell : a.EndsWell) : a.Graceful where
  result _ _ := result_of_carryOn hwell
  ended := by
    refine ⟨0, fun first between last _ => ?_⟩
    obtain ⟨r, hr⟩ := ended_of_immediate himmediate first
    exact ⟨r, carryOn_of_ended hr⟩

/-- A pause before such steps is graceful. -/
theorem graceful_of_sleep {nanos : Nat} (himmediate : next.Immediate) (hwell : next.EndsWell) :
    Graceful (.sleep nanos next) where
  result _ _ := result_of_carryOn (a := .sleep nanos next) hwell
  ended := by
    refine ⟨Duration.pauseMillis nanos, fun first between last htime => ?_⟩
    rcases advance_sleep himmediate first nanos with ⟨r, hr⟩ | ⟨wake, hwaiting⟩
    · exact ⟨r, carryOn_of_ended hr⟩
    · rw [carryOn_of_waiting hwaiting]
      exact ended_of_sleepUntil himmediate htime between

/-- A look at the requests to stop in front leaves an activity graceful. -/
theorem Graceful.check (h : a.Graceful) : Graceful (.check a) where
  result := by
    intro situations r hopen hended
    cases situations with
    | nil => cases hended
    | cons s later =>
      by_cases hasked : s.asked = true
      · rw [carryOn_of_ended (by rw [advance, if_pos hasked])] at hended
        exact .inr ⟨(Progress.ended.inj hended).symm, s, by simp, hasked⟩
      · refine h.result (s :: later) r hopen ?_
        rwa [carryOn, advance, if_neg hasked] at hended
  ended := by
    obtain ⟨pause, hpause⟩ := h.ended
    refine ⟨pause, fun first between last htime => ?_⟩
    by_cases hasked : first.asked = true
    · exact ⟨_, carryOn_of_ended (by rw [advance, if_pos hasked])⟩
    · rw [carryOn, advance, if_neg hasked]
      exact hpause first between last htime

end Reflex.Activity

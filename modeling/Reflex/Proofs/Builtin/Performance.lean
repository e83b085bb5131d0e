import Reflex.Proofs.Activity
import Reflex.Proofs.Builtin.Catalog
import Reflex.Proofs.Engine
import Reflex.Proofs.Number.Double

/-!
# Built-in Actions Run

An action of the built-in catalog whose parameters satisfy its schema runs gracefully: nothing
that it looks up is missing, and the pause that it makes is a duration. The parameters do satisfy
the schema, from the compilation of the rule through every edit to the event that triggers it.

## Main statements

- `Builtin.graceful_perform`: an action whose parameters satisfy its schema.
- `Builtin.graceful_of_resolve`: an action of any rule that an engine serves.
-/

namespace Reflex.Builtin

variable {values : Dict Value} {call : Invocation}

theorem require_of_isSome {name : String} (h : (call.parameters.get? name).isSome) :
    ∃ v, call.require name = .ok v := by
  obtain ⟨v, hv⟩ := Option.isSome_iff_exists.1 h
  exact ⟨v, by rw [Invocation.require, hv]⟩

theorem units?_zero : (Double.ofInt 0).units? = some 0 := by
  decide +kernel

/-- The longest pause in units. -/
theorem units?_maxDelaySeconds :
    (Double.ofInt maxDelaySeconds).units? = some (86400 * Double.unitsPerOne) := by
  decide +kernel

/-- A number of seconds in the range of a pause is a duration. -/
theorem exists_pauseNanos {x : Double} (hfinite : x.isFinite = true)
    (hlow : x.lt (.ofInt 0) = false) (hhigh : (Double.ofInt maxDelaySeconds).lt x = false) :
    ∃ nanos, pauseNanos? (.double x) = some nanos := by
  obtain ⟨u, hu⟩ := Double.exists_units_of_isFinite hfinite
  rw [Double.lt_eq_decide hu units?_zero, decide_eq_false_iff_not] at hlow
  rw [Double.lt_eq_decide units?_maxDelaySeconds hu, decide_eq_false_iff_not] at hhigh
  have hpositive := Double.unitsPerOne_pos
  refine ⟨_, Duration.ofSeconds?_of_lt hu (by omega) ?_⟩
  -- the number of units in one is huge: only that it is positive counts
  generalize Double.unitsPerOne = n at hhigh hpositive
  rw [Word.size]
  omega

/-- Values that satisfy the schema of a pause have a duration. -/
theorem exists_pause (h : delay.Satisfied values) :
    ∃ v nanos, values.get? "seconds" = some v ∧ pauseNanos? v = some nanos := by
  have hrequired : (values.get? "seconds").isSome := h.required _ (.head _) rfl
  obtain ⟨v, hv⟩ := Option.isSome_iff_exists.1 hrequired
  obtain ⟨d, hd, hrevalidate⟩ := h.declared "seconds" v hv
  obtain rfl := List.mem_singleton.1 (List.mem_of_find?_eq_some hd)
  obtain ⟨x, rfl, hfinite, hrange⟩ := Descriptor.exists_double_of_revalidate rfl hrevalidate
  obtain ⟨hlow, hhigh⟩ := Descriptor.checkRange_eq_ok.1 hrange
  obtain ⟨nanos, hnanos⟩ := exists_pauseNanos hfinite (hlow _ rfl) (hhigh _ rfl)
  exact ⟨.double x, nanos, hv, hnanos⟩

/-- A pause whose duration is known is just that. -/
theorem performDelay_eq {v : Value} {nanos : Nat} (hv : call.parameters.get? "seconds" = some v)
    (hnanos : pauseNanos? v = some nanos) :
    performDelay call = .sleep nanos (.finish .completed) := by
  have hrequire : call.require "seconds" = .ok v := by rw [Invocation.require, hv]
  simp only [performDelay, hrequire, thenDo, hnanos]

/-- An action whose parameters satisfy its schema runs gracefully. -/
theorem graceful_perform {s : ActionSchema} (hs : s ∈ actions) (htype : call.type = s.type)
    (h : s.Satisfied call.parameters) : (perform call).Graceful := by
  apply Activity.Graceful.check
  rcases eq_or_eq_or_platform hs with rfl | rfl | ⟨hlog, hdelay, hplatform⟩
  · have hrequired : (call.parameters.get? "message").isSome := h.required _ (.head _) rfl
    obtain ⟨message, hmessage⟩ := require_of_isSome hrequired
    rw [if_pos htype, performLog, hmessage]
    exact Activity.graceful_of_immediate trivial rfl
  · obtain ⟨v, nanos, hv, hnanos⟩ := exists_pause h
    have hlog : call.type ≠ log.type := by
      rw [htype]
      decide
    rw [if_neg hlog, if_pos htype, performDelay_eq hv hnanos]
    exact Activity.graceful_of_sleep trivial rfl
  · rw [htype, if_neg hlog, if_neg hdelay, if_pos hplatform]
    exact Activity.graceful_of_immediate trivial rfl

section Engine

variable {requests : List Engine.Request} {rule : CompiledRule} {e : Event} {params : List Snapshot}

/-- Take any requests to load rules and to edit their actions, and any event for which the
parameters of an active rule can be resolved. They satisfy the schemas that the catalog declares,
and each of the actions, invoked with them, runs gracefully. -/
theorem graceful_of_resolve (hrule : rule ∈ (requests.foldl Engine.serve { catalog }).rules)
    (hresolve : rule.resolve e = .ok params) :
    List.Forall₂ (fun a p => catalog.action? a.type = some a.schema ∧
      a.schema.Satisfied p.values ∧
      ∀ call : Invocation, call.type = a.type → call.parameters = p.values →
        (perform call).Graceful) rule.actions params := by
  have hempty : Engine.Sound { catalog } := by
    intro r hr
    cases hr
  obtain ⟨hsound, hcatalog⟩ := Engine.sound_of_requests distinct_of_action? hempty requests
  have hactions : ∀ a ∈ rule.actions, a.Sound ∧ catalog.action? a.type = some a.schema := by
    intro a ha
    obtain ⟨hsound, type, hschema⟩ := hsound rule hrule a ha
    rw [hcatalog] at hschema
    refine ⟨hsound, ?_⟩
    rw [CompiledAction.type, (mem_actions_of_action? hschema).2]
    exact hschema
  have hresolved := (List.forall₂_and_left _ _).2 ⟨hactions, forall₂_of_mapM hresolve⟩
  refine hresolved.imp fun a p ⟨⟨hsound, hschema⟩, hp⟩ => ?_
  have hsatisfied := hsound.satisfied_of_resolve hp
  refine ⟨hschema, hsatisfied, fun call htype hparameters => ?_⟩
  rw [← hparameters] at hsatisfied
  exact graceful_perform (mem_actions_of_action? hschema).1 htype hsatisfied

/-- Write a log entry, and pause for as many seconds as the clock shows minutes. -/
def minutes : RuleDefinition where
  id := { value := 1 }
  name := "Minutes"
  trigger := .eventKind Event.timeTick
  actions := [
    ActionDefinition.withParam { type := "log" } "message" (.ofString "Waiting"),
    ActionDefinition.withBinding { type := "delay" } "seconds" "minute"]

/-- Load the rule and edit the level of its log entry twice, the second time in vain. -/
def minutesRequests : List Engine.Request :=
  [.load [minutes], .edit minutes.id 0 "level" (.string "warn"),
    .edit minutes.id 0 "level" (.string "loud")]

/-- Half past some hour. -/
def halfPast : Event where
  kind := Event.timeTick
  fields := .ofList [("minute", .int 30)]

/-- The log entry and the pause of thirty seconds run gracefully. -/
theorem graceful_of_edited_log_and_bound_delay :
    ∃ rule params, rule ∈ (minutesRequests.foldl Engine.serve { catalog }).rules ∧
      rule.resolve halfPast = .ok params ∧
      List.Forall₂ (fun a p => catalog.action? a.type = some a.schema ∧
        a.schema.Satisfied p.values ∧
        ∀ call : Invocation, call.type = a.type → call.parameters = p.values →
          (perform call).Graceful) rule.actions params := by
  have hcount : (minutesRequests.foldl Engine.serve { catalog }).rules.length = 1 := by
    decide +kernel
  have hresolves : ∀ rule ∈ (minutesRequests.foldl Engine.serve { catalog }).rules,
      (rule.resolve halfPast).toOption.isSome = true := by decide +kernel
  obtain ⟨rule, hrules⟩ := List.length_eq_one_iff.1 hcount
  have hrule : rule ∈ (minutesRequests.foldl Engine.serve { catalog }).rules := by
    rw [hrules]
    exact List.mem_singleton_self rule
  cases hresolve : rule.resolve halfPast with
  | error cause =>
    have hresolved := hresolves rule hrule
    rw [hresolve] at hresolved
    cases hresolved
  | ok params => exact ⟨rule, params, hrule, hresolve, graceful_of_resolve hrule hresolve⟩

end Engine

end Reflex.Builtin

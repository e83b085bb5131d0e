import Reflex.Engine
import Reflex.Proofs.Trigger.Kleene

/-!
# The Fields That a Condition Reads

Whether a condition holds of an event is decided by the kind of the event and by the fields that
the condition names. The identifier, the time and all other fields of the event do not count.

## Main definitions

- `Value.Alike`: values that the program takes for the same.
- `Event.AgreesOn`: events that carry the same values in some fields.

## Main statements

- `Value.Alike.compare?_eq`: values that are alike have the same order to every value.
- `Condition.evaluate_eq_of_agreesOn`: events of one kind that agree on the fields of a condition
  give it the same truth.
-/

namespace Reflex

/-- The zeros of both signs have the same place, as has every other number with itself alone. -/
theorem Double.position?_eq_of_same {x y : Double} (h : x.same y = true) :
    x.position? = y.position? := by
  rw [same, beq_iff_eq, compare?] at h
  cases hx : x.position? with
  | none => simp [hx] at h
  | some p =>
    cases hy : y.position? with
    | none => simp [hx, hy] at h
    | some q =>
      simp only [hx, hy, Option.some.injEq, Ordering.then_eq_eq, Std.compare_eq_iff_eq] at h
      rw [Prod.ext h.1 h.2]

/-- Whether the program takes one value for another one: they are the same, or equal as numbers. -/
def Value.Alike (v w : Value) : Prop :=
  v = w ∨ v.same w = true

/-- Only doubles can be alike without being the same. -/
theorem Value.Alike.eq_or_double {v w : Value} (h : v.Alike w) :
    v = w ∨ ∃ x y, v = .double x ∧ w = .double y ∧ x.same y = true := by
  rcases h with rfl | h
  · exact .inl rfl
  · unfold same at h
    split at h
    next x y => exact .inr ⟨x, y, rfl, rfl, h⟩
    next => exact .inl (beq_iff_eq.1 h)

/-- Values that are alike have the same order to every value. -/
theorem Value.Alike.compare?_eq {v w : Value} (h : v.Alike w) (expected : Value) :
    v.compare? expected = w.compare? expected := by
  rcases h.eq_or_double with rfl | ⟨x, y, rfl, rfl, hsame⟩
  · rfl
  · have hposition := Double.position?_eq_of_same hsame
    cases expected <;>
      simp [compare?, isTime, asTime?, asDouble?, Double.compare?, hposition]

theorem Value.Alike.asText?_eq {v w : Value} (h : v.Alike w) : v.asText? = w.asText? := by
  rcases h.eq_or_double with rfl | ⟨x, y, rfl, rfl, -⟩ <;> rfl

/-- Values that are alike give a comparison the same truth. -/
theorem Operand.compareWith_eq_of_alike {v w : Value} (h : v.Alike w) (op : CompareOp)
    (operand : Operand) : operand.compareWith v op = operand.compareWith w op := by
  cases operand with
  | list values => simp only [compareWith, isOneOf, h.compare?_eq]
  | single expected => simp only [compareWith, h.asText?_eq, h.compare?_eq]

/-- Whether two events carry the same of some fields, with values that are alike. -/
def Event.AgreesOn (a : Event) (fields : List String) (b : Event) : Prop :=
  ∀ field ∈ fields, Option.Rel Value.Alike (a.field? field) (b.field? field)

theorem Event.AgreesOn.of_append {a b : Event} {fields more : List String}
    (h : a.AgreesOn (fields ++ more) b) : a.AgreesOn fields b ∧ a.AgreesOn more b :=
  List.forall_mem_append.1 h

/-- A field on which two events agree is missing in both, or has values that are alike. -/
theorem Event.AgreesOn.field?_cases {a b : Event} {field : String} (h : a.AgreesOn [field] b) :
    a.field? field = none ∧ b.field? field = none ∨
      ∃ v w, a.field? field = some v ∧ b.field? field = some w ∧ v.Alike w := by
  have hrel := h field (List.mem_singleton_self field)
  generalize a.field? field = v? at hrel ⊢
  generalize b.field? field = w? at hrel ⊢
  cases hrel with
  | none => exact .inl ⟨rfl, rfl⟩
  | some halike => exact .inr ⟨_, _, rfl, rfl, halike⟩

namespace Condition

section Value

variable {a b : Event}

mutual

/-- The truth of a condition depends on the kind of an event and on the fields of the condition. -/
theorem value_eq_of_agreesOn (hkind : a.kind = b.kind) : ∀ {c : Condition},
    a.AgreesOn c.fields b → c.value a = c.value b
  | .always, _ => by rw [value, value]
  | .eventKind kind, _ => by rw [value, value, hkind]
  | .exists field, h => by
    rw [fields] at h
    rw [value, value]
    rcases h.field?_cases with ⟨ha, hb⟩ | ⟨v, w, ha, hb, -⟩
    · rw [ha, hb]
    · rw [ha, hb, Option.isSome_some, Option.isSome_some]
  | .compare field op operand, h => by
    rw [fields] at h
    rw [value, value]
    rcases h.field?_cases with ⟨ha, hb⟩ | ⟨v, w, ha, hb, halike⟩
    · rw [ha, hb]
    · rw [ha, hb]
      exact operand.compareWith_eq_of_alike halike op
  | .all conditions, h => by
    rw [fields] at h
    rw [value, value, values_eq_of_agreesOn hkind h]
  | .any conditions, h => by
    rw [fields] at h
    rw [value, value, values_eq_of_agreesOn hkind h]
  | .not condition, h => by
    rw [fields] at h
    rw [value_not, value_not, value_eq_of_agreesOn hkind h]

/-- The same for the truths of several conditions. -/
theorem values_eq_of_agreesOn (hkind : a.kind = b.kind) : ∀ {cs : List Condition},
    a.AgreesOn (fieldsList cs) b → values a cs = values b cs
  | [], _ => by rw [values, values]
  | c :: cs, h => by
    rw [fieldsList] at h
    obtain ⟨hfirst, hrest⟩ := h.of_append
    rw [values, values, value_eq_of_agreesOn hkind hfirst, values_eq_of_agreesOn hkind hrest]

end

end Value

/-- Take two recorded events of one kind. A condition has the same truth on both if they agree on
the fields that it reads, whatever their identifiers, their times and their other fields are. So
they trigger the same rules if they agree on the fields that the rules read. -/
theorem evaluate_eq_of_agreesOn {a b : RecordedEvent} (hkind : a.event.kind = b.event.kind) :
    (∀ c : Condition, a.event.AgreesOn c.fields b.event → c.evaluate a.event = c.evaluate b.event) ∧
    ∀ engine : Engine,
      (∀ rule ∈ engine.rules, a.event.AgreesOn rule.condition.fields b.event) →
        engine.evaluate a.event = engine.evaluate b.event := by
  have hevaluate (c : Condition) (hagrees : a.event.AgreesOn c.fields b.event) :
      c.evaluate a.event = c.evaluate b.event := by
    rw [evaluate_eq_value, evaluate_eq_value, value_eq_of_agreesOn hkind hagrees]
  refine ⟨hevaluate, fun engine hagrees => ?_⟩
  refine List.filter_congr fun rule hrule => ?_
  rw [CompiledRule.isMatch, CompiledRule.isMatch, isMatch, isMatch,
    hevaluate rule.condition (hagrees rule hrule)]

/-- A door that was not left open in the cold. -/
def keptWarm : Condition :=
  .all [.eventKind "door",
    .not (.all [.exists "open", .compare "degrees" .lt (.single (.int 0))])]

/-- Two records of a door that is open at zero degrees. They differ in everything that does not
count: the sign of the zero, the identifier, the time and the field of the battery. -/
theorem evaluate_eq_on_two_records :
    ∃ a b : RecordedEvent, a.id ≠ b.id ∧ a.timestamp ≠ b.timestamp ∧ a.event ≠ b.event ∧
      keptWarm.fields = ["open", "degrees"] ∧ a.event.AgreesOn keptWarm.fields b.event ∧
      keptWarm.evaluate a.event = .true ∧ keptWarm.evaluate b.event = .true := by
  let a : RecordedEvent :=
    { id := { value := 41 }, timestamp := ⟨20000, { second := 0, nano := 0 }⟩
      event := { kind := "door", fields := .ofList [("open", .bool true),
        ("degrees", .double (.zero true)), ("battery", .int 3)] } }
  let b : RecordedEvent :=
    { id := { value := 42 }, timestamp := ⟨20000, { second := 59, nano := 1500000000 }⟩
      event := { kind := "door", fields := .ofList [("open", .bool true),
        ("degrees", .double (.zero false))] } }
  have hagrees : a.event.AgreesOn keptWarm.fields b.event := by
    intro field hfield
    have hfields : field = "open" ∨ field = "degrees" := by
      simpa [keptWarm, fields, fieldsList] using hfield
    rcases hfields with rfl | rfl
    · exact .some (.inl rfl)
    · exact .some (.inr rfl)
  have htrue : keptWarm.evaluate a.event = .true := by decide +kernel
  refine ⟨a, b, by decide, by decide, by decide +kernel, rfl, hagrees, htrue, ?_⟩
  rw [← (evaluate_eq_of_agreesOn (a := a) (b := b) rfl).1 keptWarm hagrees, htrue]

end Condition

end Reflex

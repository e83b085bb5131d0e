import Reflex.Proofs.Number.Double
import Reflex.Proofs.Trigger.Acceptance

/-!
# Typed Triggers Decide

A trigger whose comparisons are all with declared fields is never unknown on an event that
conforms to its schema: the literals have the declared types, as have the fields of the event. A
comparison with a field of another kind of events stands below an `all` that names this kind, and
that `all` does not hold on the event.

## Main definitions

- `Trigger.Typed`: the comparisons are with fields that the fixed kind declares.
- `EventSchema.Conforms`, `Catalog.Conforms`: an event has the fields that its schema declares.

## Main statements

- `Value.HasType.exists_compare?`: values of one type are comparable.
- `Trigger.evaluate_ne_unknown_of_typed`: a typed trigger decides on every conforming event.
-/

namespace Reflex

/-- The event carries every field of the schema with a value that the declaration accepts
unchanged. -/
def EventSchema.Conforms (schema : EventSchema) (e : Event) : Prop :=
  ∀ d ∈ schema.fields, ∃ v, e.field? d.name = some v ∧ d.revalidate v = .ok v

/-- The event conforms to the schema of its kind, if there is one. -/
def Catalog.Conforms (catalog : Catalog) (e : Event) : Prop :=
  ∀ schema, catalog.event? e.kind = some schema → schema.Conforms e

/-! ## Comparisons -/

theorem Truth.ofBool_ne_unknown (b : Bool) : Truth.ofBool b ≠ .unknown := by
  cases b <;> decide

theorem Truth.negate_ne_unknown {truth : Truth} (h : truth ≠ .unknown) :
    truth.negate ≠ .unknown := by
  cases truth <;> simp_all [negate]

/-- Values of one type are comparable. -/
theorem Value.HasType.exists_compare? {v w : Value} {type : PropertyType} (hv : v.HasType type)
    (hw : w.HasType type) : ∃ order, v.compare? w = some order := by
  cases hv with
  | string | int | bool | time =>
    cases hw
    exact ⟨_, rfl⟩
  | double hx =>
    cases hw with
    | double hy => exact Double.exists_compare?_of_isFinite hx hy

/-- A value that is comparable with one of a list is equal to one of it or to none. -/
theorem Operand.isOneOf_ne_unknown {v w : Value} {values : List Value} {order : Ordering}
    (hw : w ∈ values) (horder : v.compare? w = some order) : isOneOf v values ≠ .unknown := by
  have hmem : order ∈ values.filterMap v.compare? := List.mem_filterMap.2 ⟨w, hw, horder⟩
  have hne : (values.filterMap v.compare?).isEmpty = false := by
    simpa using List.ne_nil_of_mem hmem
  simp only [isOneOf, hne]
  split <;> simp

/-- A value that is comparable with a literal has the order of the operator or not. -/
theorem Operand.compareWith_single_ne_unknown {v w : Value} {op : CompareOp} {order : Ordering}
    (hop : op ≠ .contains) (horder : v.compare? w = some order) :
    compareWith v op (.single w) ≠ .unknown := by
  rw [compareWith_single hop, horder]
  exact Truth.ofBool_ne_unknown _

namespace Trigger

open Condition

section Literal

variable {d : Descriptor} {field : String} {op : CompareOp} {raw : Json} {v : Value}
  {operand : Operand}

/-- A value of the declared type decides a comparison: the literals have the declared type too, and
a list of them is not empty. -/
theorem compareWith_ne_unknown (hwithin : op = .within → raw ≠ .array [])
    (hcontains : op = .contains → d.type = .string)
    (h : compileOperand field op (some d) raw = .ok operand) (hv : v.HasType d.type) :
    operand.compareWith v op ≠ .unknown := by
  cases operandValue_of_compileOperand h with
  | list hvalues =>
    cases hvalues with
    | nil => exact (hwithin rfl rfl).elim
    | cons hfirst _ =>
      obtain ⟨order, horder⟩ := hv.exists_compare? (Descriptor.hasType_of_normalize hfirst)
      exact Operand.isOneOf_ne_unknown List.mem_cons_self horder
  | text s =>
    rw [hcontains rfl] at hv
    cases hv with
    | string s => exact Truth.ofBool_ne_unknown _
  | single _ htext hw =>
    obtain ⟨order, horder⟩ := hv.exists_compare? (Descriptor.hasType_of_normalize hw)
    exact Operand.compareWith_single_ne_unknown htext horder

end Literal

/-! ## Expressions -/

mutual

/-- Below a fixed kind every comparison is with a field that the kind declares. A list of literals
is not empty, and only texts are looked into. -/
def Typed (catalog : Catalog) (fixed : Option String) : Trigger → Prop
  | .always | .eventKind _ | .exists _ => True
  | .compare field op value =>
    ∃ d, catalog.declared? fixed field = some d ∧ (op = .within → value.json ≠ .array []) ∧
      (op = .contains → d.type = .string)
  | .all triggers => TypedList catalog ((fixedKind? triggers).or fixed) triggers
  | .any triggers => TypedList catalog fixed triggers
  | .not t => t.Typed catalog fixed

/-- The same for a list of expressions. -/
def TypedList (catalog : Catalog) (fixed : Option String) : List Trigger → Prop
  | [] => True
  | t :: ts => t.Typed catalog fixed ∧ TypedList catalog fixed ts

end

section Typed

variable {catalog : Catalog} {e : Event}

/-- A conforming event carries every declared field of its kind, with a value of its type. -/
theorem exists_of_declared? (hconforms : catalog.Conforms e) {field : String} {d : Descriptor}
    (hd : catalog.declared? (some e.kind) field = some d) :
    ∃ v, e.field? field = some v ∧ v.HasType d.type := by
  obtain ⟨schema, hschema, hfield⟩ := Option.bind_eq_some_iff.1 hd
  obtain rfl : d.name = field := by simpa using List.find?_some hfield
  obtain ⟨v, hv, hvalid⟩ := hconforms schema hschema d (List.mem_of_find?_eq_some hfield)
  exact ⟨v, hv, Descriptor.hasType_of_normalize hvalid⟩

/-- An `all` and an `any` of conditions that decide decide as well. -/
theorem evaluate_list_ne_unknown {conditions : List Condition}
    (h : ∀ c ∈ conditions, c.evaluate e ≠ .unknown) {sofar : Truth} (hsofar : sofar ≠ .unknown) :
    evaluateAll e sofar conditions ≠ .unknown ∧ evaluateAny e sofar conditions ≠ .unknown := by
  induction conditions with
  | nil => exact ⟨hsofar, hsofar⟩
  | cons c cs ih =>
    obtain ⟨hall, hany⟩ := ih fun d hd => h d (List.mem_cons_of_mem c hd)
    rw [evaluateAll, evaluateAny]
    cases hc : c.evaluate e with
    | false => exact ⟨by simp, hany⟩
    | unknown => exact (h c List.mem_cons_self hc).elim
    | true => exact ⟨hall, by simp⟩

mutual

/-- Below no fixed kind or that of the event, a typed expression decides. -/
theorem evaluate_ne_unknown_of_compileBelow (hconforms : catalog.Conforms e) :
    ∀ (t : Trigger) {fixed : Option String} {k : Condition},
      fixed = none ∨ fixed = some e.kind → t.Typed catalog fixed →
      compileBelow catalog fixed t = .ok k → k.evaluate e ≠ .unknown
  | .always, _, k, _, _, h => by
    rw [compileBelow, Except.ok.injEq] at h
    simp [← h, evaluate]
  | .eventKind kind, _, k, _, _, h => by
    rw [compileBelow, Except.ok.injEq] at h
    rw [← h, evaluate]
    exact Truth.ofBool_ne_unknown _
  | .exists field, _, k, _, _, h => by
    obtain rfl := compileBelow_exists_eq_ok h
    rw [evaluate]
    exact Truth.ofBool_ne_unknown _
  | .compare field op value, fixed, k, hfixed, htyped, h => by
    rw [Typed] at htyped
    obtain ⟨d, hd, hwithin, hcontains⟩ := htyped
    obtain ⟨operand, hoperand, rfl⟩ := compileBelow_compare_eq_ok h
    rcases hfixed with rfl | rfl
    · -- without a fixed kind no field is declared
      cases hd
    · obtain ⟨v, hv, hvtype⟩ := exists_of_declared? hconforms hd
      rw [hd] at hoperand
      simp only [evaluate, hv]
      exact compareWith_ne_unknown hwithin hcontains hoperand hvtype
  | .all triggers, fixed, k, hfixed, htyped, h => by
    rw [Typed] at htyped
    obtain ⟨cs, hcs, rfl⟩ := compileBelow_all_eq_ok h
    by_cases hkind : (fixedKind? triggers).or fixed = none ∨
        (fixedKind? triggers).or fixed = some e.kind
    · rw [evaluate]
      exact (evaluate_list_ne_unknown
        (evaluateList_ne_unknown_of_compileList hconforms triggers hkind htyped hcs)
        (by simp)).1
    · -- what stands below is about another kind, which the list names
      obtain ⟨kind, hlist, hne⟩ := exists_fixedKind?_of_or hfixed hkind
      rw [evaluateAll_eq_false_of_fixedKind? hlist hne hcs]
      simp
  | .any triggers, fixed, k, hfixed, htyped, h => by
    rw [Typed] at htyped
    obtain ⟨cs, hcs, rfl⟩ := compileBelow_any_eq_ok h
    rw [evaluate]
    exact (evaluate_list_ne_unknown
      (evaluateList_ne_unknown_of_compileList hconforms triggers hfixed htyped hcs)
      (by simp)).2
  | .not t, fixed, k, hfixed, htyped, h => by
    rw [Typed] at htyped
    obtain ⟨c, hc, rfl⟩ := compileBelow_not_eq_ok h
    rw [evaluate]
    exact Truth.negate_ne_unknown
      (evaluate_ne_unknown_of_compileBelow hconforms t hfixed htyped hc)

/-- The same for every expression of a list. -/
theorem evaluateList_ne_unknown_of_compileList (hconforms : catalog.Conforms e) :
    ∀ (triggers : List Trigger) {fixed : Option String} {cs : List Condition},
      fixed = none ∨ fixed = some e.kind → TypedList catalog fixed triggers →
      compileList catalog fixed triggers = .ok cs → ∀ c ∈ cs, c.evaluate e ≠ .unknown
  | [], _, cs, _, _, h => by
    rw [compileList, Except.ok.injEq] at h
    simp [← h]
  | t :: ts, fixed, cs, hfixed, htyped, h => by
    rw [TypedList] at htyped
    obtain ⟨d, ds, hd, hds, rfl⟩ := compileList_cons_eq_ok h
    intro c hc
    rcases List.mem_cons.1 hc with rfl | hc
    · exact evaluate_ne_unknown_of_compileBelow hconforms t hfixed htyped.1 hd
    · exact evaluateList_ne_unknown_of_compileList hconforms ts hfixed htyped.2 hds c hc

end

/-- A typed trigger that compiles is never unknown on an event that conforms to the schema of its
kind. So the trigger and its negation split these events. -/
theorem evaluate_ne_unknown_of_typed {t : Trigger} {k : Condition}
    (hcompile : t.compile catalog = .ok k) (htyped : t.Typed catalog none)
    (hconforms : catalog.Conforms e) :
    k.evaluate e ≠ .unknown ∧ (Trigger.not t).compile catalog = .ok (.not k) ∧
      (Condition.not k).evaluate e ≠ .unknown ∧
      (Condition.not k).isMatch e = !k.isMatch e := by
  have hknown := evaluate_ne_unknown_of_compileBelow hconforms t (.inl rfl) htyped hcompile
  have hnegated : (Trigger.not t).compile catalog = .ok (.not k) := by
    rw [compile, compileBelow]
    exact bind_eq_ok.2 ⟨k, hcompile, rfl⟩
  refine ⟨hknown, hnegated, ?_, ?_⟩
  · rw [evaluate]
    exact Truth.negate_ne_unknown hknown
  · rw [isMatch, isMatch, evaluate]
    cases htruth : k.evaluate e with
    | unknown => exact (hknown htruth).elim
    | false | true => rfl

end Typed

/-- The events of doors and of clocks. -/
def doorsAndClocks : Catalog :=
  let door : EventSchema :=
    { kind := "door", fields := [{ name := "locked", type := .bool },
      { name := "angle", type := .int }, { name := "label", type := .string }] }
  let clock : EventSchema := { kind := "clock", fields := [{ name := "minute", type := .int }] }
  (Catalog.registerEvent {} door).registerEvent clock

/-- A door that is locked, ajar or at the front, or the first minutes of an hour. -/
def doorOrClock : Trigger :=
  .any [
    .all [.eventKind "door", .any [.compare "locked" .eq (.ofString "true"),
      .compare "angle" .within (.ofJson (.array [.int 1, .string "2"])),
      .compare "label" .contains (.ofString "front")]],
    .all [.eventKind "clock", .compare "minute" .lt (.ofJson (.int 5))]]

/-- Nothing of this holds for a back door that is wide open, and the trigger says so. -/
theorem evaluate_ne_unknown_on_back_door :
    ∃ (k : Condition) (e : Event), doorOrClock.compile doorsAndClocks = .ok k ∧
      doorOrClock.Typed doorsAndClocks none ∧ doorsAndClocks.Conforms e ∧
      k.evaluate e ≠ .unknown ∧ (Condition.not k).isMatch e = !k.isMatch e := by
  let fields : Dict Value :=
    .ofList [("locked", .bool false), ("angle", .int 90), ("label", .string "back")]
  let e : Event := { kind := "door", fields }
  obtain ⟨k, hcompile⟩ : ∃ k, doorOrClock.compile doorsAndClocks = .ok k := ⟨_, rfl⟩
  have hangles : (Literal.ofJson (.array [.int 1, .string "2"])).json ≠ .array [] := by
    simp [Literal.ofJson, Json.canonicalize, Json.canonicalizeItems]
  have htyped : doorOrClock.Typed doorsAndClocks none :=
    ⟨⟨trivial, ⟨⟨_, rfl, by simp, by simp⟩, ⟨_, rfl, fun _ => hangles, by simp⟩,
      ⟨_, rfl, by simp, fun _ => rfl⟩, trivial⟩, trivial⟩,
      ⟨trivial, ⟨_, rfl, by simp, by simp⟩, trivial⟩, trivial⟩
  have hconforms : doorsAndClocks.Conforms e := by
    intro schema hschema
    obtain rfl := Option.some.inj hschema
    intro d hd
    simp only [List.mem_cons, List.not_mem_nil, or_false] at hd
    rcases hd with rfl | rfl | rfl <;> exact ⟨_, rfl, rfl⟩
  obtain ⟨hknown, -, -, hsplit⟩ := evaluate_ne_unknown_of_typed hcompile htyped hconforms
  exact ⟨k, e, hcompile, htyped, hconforms, hknown, hsplit⟩

end Trigger

end Reflex

import Reflex.Proofs.Rule.Resolution

/-!
# Bound Values

An event field reaches a parameter through the raw form of its value, which is validated like any
other raw value. If the value is of the type of the parameter, then nothing but the fraction of a
second is lost on this way: the raw form of a time is written to the second, and everything else is
read back exactly, extreme numbers and leap seconds among them.

## Main definitions

- `Value.type`: the type that a value is of.
- `Value.wholeSeconds`: a value without the fraction of a second.

## Main statements

- `TimeOfDay.read?_secondText_eq`: what is read of a time that is written to the second.
- `Descriptor.eq_wholeSeconds_of_revalidate`: what validation makes of a value of its own type.
- `CompiledRule.get?_of_resolve`: what a parameter gets that is bound to a field of its own type.
-/

namespace Reflex

/-! ## Times to the second -/

namespace TimeOfDay

/-- The start of the second that a clock shows. -/
def wholeSecond (t : TimeOfDay) : TimeOfDay where
  second := t.second
  nano := t.nano / 1000000000 * 1000000000
  second_lt := t.second_lt
  nano_lt := by have := t.nano_lt; omega
  leap_last := by have := t.leap_last; omega

theorem shownSecond_wholeSecond (t : TimeOfDay) : t.wholeSecond.shownSecond = t.shownSecond := by
  change t.second % 60 + t.nano / 1000000000 * 1000000000 / 1000000000 = t.shownSecond
  rw [Nat.mul_div_cancel _ (by decide), shownSecond]

/-- A time that is written to the second is read without its fraction. -/
theorem read?_secondText_eq (t : TimeOfDay) : read? t.secondText = some t.wholeSecond := by
  obtain ⟨hhour, hminute, hsecond⟩ := t.shown_lt
  have hclock := t.wholeSecond.ofClock?_shown
  rw [shownSecond_wholeSecond, show t.wholeSecond.nano % 1000000000 = 0 from
    Nat.mul_mod_left _ _] at hclock
  rw [secondText_eq, read?_clock (by omega) (by omega) (by omega)]
  exact hclock

/-- Nothing is lost of a time without a fraction. -/
theorem wholeSecond_eq_self_iff (t : TimeOfDay) :
    t.wholeSecond = t ↔ t.nano % 1000000000 = 0 := by
  constructor
  · intro h
    have hnano : t.nano / 1000000000 * 1000000000 = t.nano := congrArg nano h
    omega
  · intro h
    refine ext rfl ?_
    change t.nano / 1000000000 * 1000000000 = t.nano
    omega

end TimeOfDay

/-! ## Values of the declared type -/

namespace Value

/-- The type that a value is of. -/
def type : Value → PropertyType
  | .bool _ => .bool
  | .int _ => .int
  | .double _ => .double
  | .time _ => .time
  | .string _ => .string

/-- The value without the fraction of a second. -/
def wholeSeconds : Value → Value
  | .time t => .time t.wholeSecond
  | v => v

/-- Only a time with a fraction loses something. -/
theorem wholeSeconds_eq_self_iff (v : Value) :
    v.wholeSeconds = v ↔ ∀ t, v = .time t → t.nano % 1000000000 = 0 := by
  cases v with
  | time t => simp [wholeSeconds, TimeOfDay.wholeSecond_eq_self_iff]
  | _ => simp [wholeSeconds]

end Value

/-- A value of the declared type that is accepted keeps all but the fraction of a second. -/
theorem Descriptor.eq_wholeSeconds_of_revalidate {d : Descriptor} {v w : Value}
    (htype : v.type = d.type) (h : d.revalidate v = .ok w) : w = v.wholeSeconds := by
  have hd := htype.symm
  rw [revalidate] at h
  cases v with
  | bool b =>
    rw [normalize_bool hd] at h
    exact (Except.ok.inj h).symm
  | int n =>
    rw [normalize_int hd, Value.toRaw, normalizeInt, rawInt?, int64OfInt?_toInt] at h
    obtain ⟨⟨⟩, -, hw⟩ := bind_eq_ok.1 h
    exact (Except.ok.inj hw).symm
  | double x =>
    rw [normalize_double hd, Value.toRaw] at h
    split at h
    next hfinite =>
      rw [normalizeDouble, rawDouble?] at h
      dsimp only at h
      rw [if_pos hfinite] at h
      obtain ⟨⟨⟩, -, hw⟩ := bind_eq_ok.1 h
      exact (Except.ok.inj hw).symm
    next => cases h
  | time t =>
    rw [normalize_time hd, Value.toRaw, normalizeTime, TimeOfDay.read?_secondText_eq] at h
    exact (Except.ok.inj h).symm
  | string s =>
    obtain ⟨s', hs', rfl⟩ := exists_text_of_normalize hd h
    obtain rfl : s = s' := Json.string.inj hs'
    rfl

/-! ## Bound parameters -/

/-- A parameter that is bound to a field of its own type gets the value of the event. -/
theorem CompiledAction.get?_of_resolve {a : CompiledAction} {e : Event} {p : Snapshot}
    (hresolve : a.resolve e = .ok p) {name field : String} {v : Value} {d : Descriptor}
    (hd : a.store.descriptor? name = some d) (hbound : a.bindings.get? name = some field)
    (hpresent : e.field? field = some v) (htype : v.type = d.type) :
    p.values.get? name = some v.wholeSeconds := by
  obtain ⟨values, hvalues, hp⟩ := bind_eq_ok.1 hresolve
  obtain rfl := Except.ok.inj hp
  have hvalue := get?_of_foldlM_fill hvalues a.bindings.nodup_keys (Dict.mem_of_lookup hbound)
  rw [hpresent] at hvalue
  obtain ⟨w, hw, hget⟩ := hvalue
  have hfound : a.store.descriptors.get? name = some d := hd
  rw [PropertyStore.revalidate, PropertyStore.validate, PropertyStore.validateIn, hfound] at hw
  rw [hget, Descriptor.eq_wholeSeconds_of_revalidate htype hw]

/-- Take any descriptor and any value of its type. If validation accepts the value, then it keeps
the value, less the fraction of a second if it is a time with one. So every parameter of every
action of a rule that resolves has the value of the event, less such a fraction, if it is bound to a
field of its own type. -/
theorem wholeSeconds_of_binding :
    (∀ (d : Descriptor) (v w : Value), v.type = d.type → d.revalidate v = .ok w →
      w = v.wholeSeconds) ∧
    (∀ v : Value, v.wholeSeconds = v ↔ ∀ t, v = .time t → t.nano % 1000000000 = 0) ∧
    ∀ (rule : CompiledRule) (e : Event) (params : List Snapshot), rule.resolve e = .ok params →
      List.Forall₂ (fun a p => ∀ name field v d, a.store.descriptor? name = some d →
        a.bindings.get? name = some field → e.field? field = some v → v.type = d.type →
        p.values.get? name = some v.wholeSeconds) rule.actions params := by
  refine ⟨fun d v w => Descriptor.eq_wholeSeconds_of_revalidate, Value.wholeSeconds_eq_self_iff,
    fun rule e params hresolve => ?_⟩
  exact (forall₂_of_mapM hresolve).imp fun a p hp name field v d =>
    CompiledAction.get?_of_resolve hp

/-- A property that holds a time. -/
def alarm : Descriptor :=
  { name := "at", type := .time }

/-- A leap second at half past twelve. -/
def leapSecond : TimeOfDay :=
  { second := 45059, nano := 1000000000 }

/-- A leap second is kept, and so is the path that a rule writes into the log. -/
theorem wholeSeconds_of_leap_second :
    alarm.revalidate (.time leapSecond) = .ok (.time leapSecond) ∧
      ∃ compiled params, CompiledRule.relay.compile Builtin.catalog = .ok compiled ∧
        compiled.resolve CompiledRule.pathPoke = .ok params ∧
        List.Forall₂ (fun _ p => p.values.get? "message" = some (.string "/a"))
          compiled.actions params := by
  obtain ⟨hvalidated, hkept, hbound⟩ := wholeSeconds_of_binding
  constructor
  · cases haccepted : alarm.revalidate (.time leapSecond) with
    | error cause =>
      have hok : (alarm.revalidate (.time leapSecond)).isOk = true := by decide +kernel
      rw [haccepted] at hok
      cases hok
    | ok w =>
      have hwhole : (Value.time leapSecond).wholeSeconds = .time leapSecond :=
        (hkept _).2 (by rintro _ ⟨⟩; rfl)
      rw [hvalidated alarm _ w rfl haccepted, hwhole]
  · have hanswers : (CompiledRule.relay.compile Builtin.catalog).toOption.map (fun compiled =>
        ((compiled.resolve CompiledRule.pathPoke).isOk, compiled.actions.all fun a =>
          (a.store.descriptor? "message").map (·.type) == some .string &&
            a.bindings.get? "message" == some "path")) = some (true, true) := by
      decide +kernel
    cases hcompile : CompiledRule.relay.compile Builtin.catalog with
    | error cause =>
      rw [hcompile] at hanswers
      cases hanswers
    | ok compiled =>
      rw [hcompile] at hanswers
      obtain ⟨hresolves, hactions⟩ := Prod.mk.inj (Option.some.inj hanswers)
      cases hresolve : compiled.resolve CompiledRule.pathPoke with
      | error cause =>
        rw [hresolve] at hresolves
        cases hresolves
      | ok params =>
        refine ⟨compiled, params, rfl, hresolve, ?_⟩
        have hall : ∀ a ∈ compiled.actions, _ := List.all_eq_true.1 hactions
        refine ((List.forall₂_and_left _ _).2
          ⟨hall, hbound compiled _ params hresolve⟩).imp fun a p ⟨ha, hp⟩ => ?_
        rw [Bool.and_eq_true, beq_iff_eq, beq_iff_eq] at ha
        obtain ⟨d, hd, htype⟩ := Option.map_eq_some_iff.1 ha.1
        exact hp "message" "path" (.string "/a") d hd ha.2 rfl htype.symm

/-- Half a second is lost. -/
theorem revalidate_half_second :
    ∃ v w : Value, v.type = alarm.type ∧ alarm.revalidate v = .ok w ∧ w ≠ v := by
  refine ⟨.time { second := 43200, nano := 500000000 }, .time { second := 43200, nano := 0 }, rfl,
    ?_, by decide⟩
  decide +kernel

end Reflex

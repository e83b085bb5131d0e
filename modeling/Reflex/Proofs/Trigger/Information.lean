import Reflex.Proofs.Trigger.Kleene

/-!
# More Information

An event may say more than another one: it has the same kind and carries the same fields, and
others besides. A condition that was decided without these others stays as it is. Only a condition
that was unknown may change, and it can be decided either way. This fails for the question whether
a field is there, which is decided also by its absence.

## Main definitions

- `Reflex.Truth.Approximates`: the order of truth values by what they tell.
- `Reflex.Event.Extends`: an event that says more than another one.
- `Reflex.Condition.ExistsFree`: no part of a condition asks whether a field is there.

## Main statements

- `Reflex.Truth.Approximates.least`, `Reflex.Truth.Approximates.greatest`,
  `Reflex.Truth.Approximates.negate`: the connectives respect the order.
- `Reflex.Condition.evaluate_eq_of_extends`: what is decided stays decided.
-/

namespace Reflex

/-! ## Truth values by what they tell -/

namespace Truth

/-- Whether a truth value tells no more than another one: what is unknown may turn out either way,
and what is decided is settled. -/
def Approximates (a b : Truth) : Prop :=
  a = .unknown ∨ a = b

namespace Approximates

variable {a b a' b' : Truth}

theorem refl (a : Truth) : a.Approximates a :=
  .inr rfl

theorem unknown (b : Truth) : Truth.unknown.Approximates b :=
  .inl rfl

/-- A decided value approximates only itself. -/
theorem eq_of_ne_unknown (h : a.Approximates b) (ha : a ≠ .unknown) : a = b :=
  h.resolve_left ha

protected theorem negate (h : a.Approximates b) : a.negate.Approximates b.negate := by
  rcases h with rfl | rfl
  · exact unknown b.negate
  · exact refl a.negate

protected theorem min (ha : a.Approximates a') (hb : b.Approximates b') :
    (min a b).Approximates (min a' b') := by
  -- the least of an unknown value and another one is decided only if the other one is false
  have hunknown : ∀ a' b : Truth, (min .unknown b).Approximates (min a' b) := by
    rintro a' (_ | _ | _)
    · exact .inr (min_eq_right (false_le a')).symm
    · exact unknown _
    · exact unknown _
  rcases ha with rfl | rfl
  · rcases hb with rfl | rfl
    · exact unknown (min a' b')
    · exact hunknown a' b
  · rcases hb with rfl | rfl
    · rw [min_comm, min_comm a]
      exact hunknown b' a
    · exact refl (min a b)

variable {ts us : List Truth}

protected theorem least (h : List.Forall₂ Approximates ts us) :
    (least ts).Approximates (least us) := by
  induction h with
  | nil => exact refl .true
  | cons hfirst _ ih => exact hfirst.min ih

protected theorem greatest (h : List.Forall₂ Approximates ts us) :
    (greatest ts).Approximates (greatest us) := by
  have hnegated : List.Forall₂ Approximates (ts.map Truth.negate) (us.map Truth.negate) :=
    List.forall₂_map_left_iff.2 <| List.forall₂_map_right_iff.2 <| h.imp fun _ _ => .negate
  have hleast := (Approximates.least hnegated).negate
  rwa [← negate_greatest, ← negate_greatest, negate_negate, negate_negate] at hleast

end Approximates

end Truth

/-- Whether an event says at least what another one says: it has the same kind, and carries every
field of the other one with the same value. -/
structure Event.Extends (e more : Event) : Prop where
  /-- The kinds are the same. -/
  kind : more.kind = e.kind
  /-- No field is missing or changed. -/
  field : ∀ {name : String} {v : Value}, e.field? name = some v → more.field? name = some v

/-! ## Conditions -/

namespace Condition

mutual

/-- Whether no part of a condition asks whether a field is there. -/
def ExistsFree : Condition → Prop
  | .always | .eventKind _ | .compare _ _ _ => True
  | .exists _ => False
  | .all conditions | .any conditions => ExistsFreeList conditions
  | .not condition => condition.ExistsFree

/-- Whether no part of several conditions does. -/
def ExistsFreeList : List Condition → Prop
  | [] => True
  | c :: cs => c.ExistsFree ∧ ExistsFreeList cs

end

section Extends

variable {e more : Event}

mutual

/-- The truth of a condition on an event approximates that on every event that says more. -/
theorem approximates_value (hextends : e.Extends more) : ∀ {c : Condition}, c.ExistsFree →
    (c.value e).Approximates (c.value more)
  | .always, _ => .refl _
  | .eventKind kind, _ => by
    rw [value, value, hextends.kind]
    exact .refl _
  | .exists field, hfree => by
    rw [ExistsFree] at hfree
    exact hfree.elim
  | .compare field op operand, _ => by
    rw [value, value]
    cases hfield : e.field? field with
    | none => exact .unknown _
    | some v =>
      rw [hextends.field hfield]
      exact .refl _
  | .all conditions, hfree => by
    rw [ExistsFree] at hfree
    rw [value, value]
    exact .least (approximates_values hextends hfree)
  | .any conditions, hfree => by
    rw [ExistsFree] at hfree
    rw [value, value]
    exact .greatest (approximates_values hextends hfree)
  | .not condition, hfree => by
    rw [ExistsFree] at hfree
    rw [value_not, value_not]
    exact (approximates_value hextends hfree).negate

/-- The same for the truths of several conditions, one by one. -/
theorem approximates_values (hextends : e.Extends more) : ∀ {cs : List Condition},
    ExistsFreeList cs → List.Forall₂ Truth.Approximates (values e cs) (values more cs)
  | [], _ => by
    rw [values, values]
    exact .nil
  | c :: cs, hfree => by
    rw [ExistsFreeList] at hfree
    rw [values, values]
    exact .cons (approximates_value hextends hfree.1) (approximates_values hextends hfree.2)

end

end Extends

/-- A condition that asks for no presence of a field has the same truth on an event and on every
event that says more, if it is decided on the first one. Only what was unknown can change, and it
can be decided either way. -/
theorem evaluate_eq_of_extends :
    (∀ (c : Condition) (e more : Event), c.ExistsFree → e.Extends more →
      c.evaluate e ≠ .unknown → c.evaluate more = c.evaluate e) ∧
    ∀ b : Bool, ∃ (c : Condition) (e more : Event), c.ExistsFree ∧ e.Extends more ∧
      c.evaluate e = .unknown ∧ c.evaluate more = Truth.ofBool b := by
  constructor
  · intro c e more hfree hextends hdecided
    rw [evaluate_eq_value] at hdecided
    rw [evaluate_eq_value, evaluate_eq_value]
    exact ((approximates_value hextends hfree).eq_of_ne_unknown hdecided).symm
  · intro b
    let more : Event := { kind := "door", fields := .ofList [("locked", .bool b)] }
    refine ⟨.compare "locked" .eq (.single (.bool true)), { kind := "door" }, more, trivial,
      ⟨rfl, fun h => by cases h⟩, rfl, ?_⟩
    cases b <;> rfl

/-- Whether a field is there is decided also on an event that lacks it. -/
example :
    (Condition.exists "locked").evaluate { kind := "door" } = .false ∧
      (Condition.exists "locked").evaluate
        { kind := "door", fields := .ofList [("locked", .bool true)] } = .true := by
  decide

/-- A door that is locked, and whose battery is not low. -/
def safelyLocked : Condition :=
  .all [.eventKind "door", .compare "locked" .eq (.single (.bool true)),
    .not (.compare "battery" .lt (.single (.int 15)))]

/-- That a door is open settles the question, whatever its battery says. -/
theorem evaluate_eq_on_open_door :
    ∃ e more : Event, (Condition.not safelyLocked).ExistsFree ∧ e.Extends more ∧ e ≠ more ∧
      (Condition.not safelyLocked).evaluate e = .true ∧
      (Condition.not safelyLocked).evaluate more = .true := by
  let e : Event := { kind := "door", fields := .ofList [("locked", .bool false)] }
  let more : Event :=
    { kind := "door", fields := .ofList [("battery", .int 3), ("locked", .bool false)] }
  have hfree : (Condition.not safelyLocked).ExistsFree := ⟨trivial, trivial, trivial, trivial⟩
  have hextends : e.Extends more := by
    refine ⟨rfl, fun {name v} h => ?_⟩
    by_cases hname : name = "locked"
    · subst hname
      exact h
    · simp [e, Event.field?, Dict.get?_ofList, Dict.lookup, hname] at h
  have htrue : (Condition.not safelyLocked).evaluate e = .true := rfl
  refine ⟨e, more, hfree, hextends, by decide, htrue, ?_⟩
  rw [evaluate_eq_of_extends.1 _ e more hfree hextends (by simp [htrue]), htrue]

end Condition

end Reflex

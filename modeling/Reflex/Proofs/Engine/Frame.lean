import Mathlib.Data.List.Basic
import Reflex.Proofs.Engine.Edits

/-!
# What an Edit Touches

An edit of the engine writes one property of one store: that of the action at a position of the
first active rule with an identifier. Every other property of the store, every other store, the
rules apart from their stores, their order, and which of them an event triggers stay as they are.
An edit that is refused changes nothing. This holds of every engine that requests lead to.

## Main definitions

- `CompiledAction.plan`, `CompiledRule.plan`: actions and rules apart from their stores.
- `PropertyStore.WrittenAt`: a store after one property was written.
- `Engine.Reachable`: what requests make of an engine without rules.
- `Engine.Refuses`: why an edit is refused.
- `Engine.SameExcept`: engines that differ in one store at most.

## Main statements

- `Engine.evaluate_eq`: an event triggers the rules at certain positions.
- `Engine.sameExcept_putStore`: only one store is another one after a store was put in place.
- `Engine.setProperty_eq_error_iff`: when an edit is refused.
- `Engine.setProperty_exact`: what an edit changes, and what it leaves alone.
-/

namespace Reflex

open PropertyStore

/-- An action apart from the values of its parameters: its schema, its bindings and its
deadline. -/
def CompiledAction.plan (a : CompiledAction) : ActionSchema × Dict String × Option UInt64 :=
  (a.schema, a.bindings, a.timeoutMs)

/-- A rule apart from the values of the parameters of its actions. -/
def CompiledRule.plan (r : CompiledRule) :
    RuleDefinition × Condition × List (ActionSchema × Dict String × Option UInt64) :=
  (r.definition, r.condition, r.actions.map CompiledAction.plan)

@[simp] theorem CompiledRule.plan_putStore (r : CompiledRule) (index : Nat)
    (store : PropertyStore) : (r.putStore index store).plan = r.plan := by
  have hactions : (r.actions.modify index fun a => { a with store }).map CompiledAction.plan =
      r.actions.map CompiledAction.plan := by
    refine List.ext_getElem? fun i => ?_
    simp only [List.getElem?_map, List.getElem?_modify]
    cases r.actions[i]? with
    | none => rfl
    | some a =>
      by_cases h : index = i
      · simp [h, CompiledAction.plan]
      · simp [h]
  rw [plan, plan, putStore, hactions]

/-! ## Writing one property -/

namespace PropertyStore

/-- A store after one property was written. -/
structure WrittenAt (before after : PropertyStore) (name : String) (v : Value) : Prop where
  /-- The declarations stay. -/
  descriptors : after.descriptors = before.descriptors
  /-- The version is the next one. -/
  version : after.snapshot.version = before.snapshot.version + 1
  /-- The property has the value. -/
  value : after.get? name = some v
  /-- Every other property is as it was. -/
  kept : ∀ other, other ≠ name → after.get? other = before.get? other

variable {s : PropertyStore} {name : String} {raw : Json}

/-- One property is written if its raw value is valid. -/
theorem set_eq (s : PropertyStore) (name : String) (raw : Json) :
    s.set name raw = (fun v => { s with
      snapshot := ⟨s.snapshot.version + 1, s.snapshot.values.insert name v⟩ }) <$>
        s.validate name raw := by
  rw [validate, set, setMany, overlay, List.foldlM_cons]
  cases validateIn s.descriptors name raw <;> rfl

theorem validateIn_eq_ok_iff {descriptors : Dict Descriptor} {v : Value} :
    validateIn descriptors name raw = .ok v ↔
      ∃ d, descriptors.get? name = some d ∧ d.normalize raw = .ok v := by
  rw [validateIn]
  cases descriptors.get? name <;> simp

theorem validateIn_eq_error_iff {descriptors : Dict Descriptor} {cause : ValidationError} :
    validateIn descriptors name raw = .error cause ↔
      descriptors.get? name = none ∧ cause = .unknownProperty name ∨
        ∃ d, descriptors.get? name = some d ∧ d.normalize raw = .error cause := by
  rw [validateIn]
  cases descriptors.get? name <;> simp [eq_comm]

/-- A store whose property is set has its normalised value. -/
theorem writtenAt_of_set {written : PropertyStore} (h : s.set name raw = .ok written) :
    ∃ d v, s.descriptors.get? name = some d ∧ d.normalize raw = .ok v ∧
      s.WrittenAt written name v := by
  rw [set_eq] at h
  cases hvalid : s.validate name raw with
  | error cause =>
    rw [hvalid] at h
    cases h
  | ok v =>
    rw [hvalid] at h
    obtain rfl := Except.ok.inj h
    obtain ⟨d, hd, hnormalize⟩ := validateIn_eq_ok_iff.1 hvalid
    refine ⟨d, v, hd, hnormalize, rfl, rfl, ?_, fun other hother => ?_⟩
    · simp [get?]
    · simp [get?, hother]

end PropertyStore

namespace Engine

variable {engine before after : Engine} {id : Identifier} {index : Nat} {name : String}
  {raw : Json} {a : CompiledAction} {store : PropertyStore}

/-! ## Positions -/

/-- The action at a position of the rule at a position. -/
def actionAt? (engine : Engine) (rule action : Nat) : Option CompiledAction :=
  engine.rules[rule]?.bind fun r => r.actions[action]?

/-- The positions of the enabled rules whose condition holds for an event. -/
def triggered (engine : Engine) (e : Event) : List Nat :=
  (List.range engine.rules.length).filter fun i =>
    engine.rules[i]?.any fun r => r.definition.enabled && r.isMatch e

/-- A list is what stands at its positions. -/
theorem filterMap_range_getElem? {α : Type} (l : List α) :
    (List.range l.length).filterMap (l[·]?) = l := by
  have hmap : (List.range l.length).map (l[·]?) = l.map some :=
    List.ext_getElem (by simp) (by simp)
  calc (List.range l.length).filterMap (l[·]?)
      = ((List.range l.length).map (l[·]?)).filterMap id := by rw [List.filterMap_map]; rfl
    _ = l := by rw [hmap, List.filterMap_map, Function.id_comp, List.filterMap_some]

/-- An event triggers the rules at certain positions. -/
theorem evaluate_eq (engine : Engine) (e : Event) :
    engine.evaluate e = (engine.triggered e).filterMap (engine.rules[·]?) := by
  let p (r : CompiledRule) := r.definition.enabled && r.isMatch e
  have hpoint (i : Nat) : engine.rules[i]?.filter p =
      if engine.rules[i]?.any p then engine.rules[i]? else none := by
    cases engine.rules[i]? with
    | none => rfl
    | some r => exact Option.filter_some
  calc engine.evaluate e
      = ((List.range engine.rules.length).filterMap (engine.rules[·]?)).filter p := by
        rw [filterMap_range_getElem?, evaluate]
    _ = (List.range engine.rules.length).filterMap fun i => engine.rules[i]?.filter p :=
        List.filter_filterMap
    _ = (List.range engine.rules.length).filterMap fun i =>
          if engine.rules[i]?.any p then engine.rules[i]? else none := by simp only [hpoint]
    _ = (engine.triggered e).filterMap (engine.rules[·]?) := List.filterMap_filter.symm

/-- Which rules an event triggers does not depend on their stores. -/
theorem triggered_congr (h : after.rules.map CompiledRule.plan = before.rules.map CompiledRule.plan)
    (e : Event) : after.triggered e = before.triggered e := by
  have hplan (engine : Engine) : engine.triggered e =
      (List.range (engine.rules.map CompiledRule.plan).length).filter fun i =>
        (engine.rules.map CompiledRule.plan)[i]?.any fun p => p.1.enabled && p.2.1.isMatch e := by
    simp only [triggered, List.length_map, List.getElem?_map, Option.any_map]
    rfl
  rw [hplan, hplan, h]

/-- The first match is changed at its position. -/
theorem modifyFirst_eq_modify {α : Type} {p : α → Bool} {f : α → α} {l : List α} {i : Nat}
    (h : l.findIdx? p = some i) : modifyFirst p f l = l.modify i f := by
  induction l generalizing i with
  | nil => cases h
  | cons a rest ih =>
    rw [List.findIdx?_cons] at h
    rw [modifyFirst]
    split at h
    next hp =>
      obtain rfl := Option.some.inj h
      rw [if_pos hp, List.modify_zero_cons]
    next hp =>
      obtain ⟨j, hj, rfl⟩ := Option.map_eq_some_iff.1 h
      rw [if_neg hp, ih hj, List.modify_succ_cons]

/-- An identifier belongs to an active rule exactly if the rule stands at a first position. -/
theorem exists_findIdx?_of_rule? {r : CompiledRule} (h : engine.rule? id = some r) :
    ∃ i, engine.rules.findIdx? (fun r => r.id == id) = some i ∧ engine.rules[i]? = some r := by
  obtain ⟨hid, i, hi, hr, hbefore⟩ := List.find?_eq_some_iff_getElem.1 h
  refine ⟨i, List.findIdx?_eq_some_iff_getElem.2 ⟨hi, hr ▸ hid, fun j hj => ?_⟩, ?_⟩
  · simpa using hbefore j hj
  · rw [List.getElem?_eq_getElem hi, hr]

/-! ## Putting a store in place -/

/-- Engines that differ at most in the store of the action at a position of the rule at a
position. -/
structure SameExcept (before after : Engine) (rule action : Nat) : Prop where
  /-- The catalog is the same. -/
  catalog : after.catalog = before.catalog
  /-- The rules are the same apart from their stores, in the same order. -/
  plans : after.rules.map CompiledRule.plan = before.rules.map CompiledRule.plan
  /-- Every other action is the same, its store included. -/
  others : ∀ i j, (i, j) ≠ (rule, action) → after.actionAt? i j = before.actionAt? i j
  /-- An event triggers the rules at the same positions. -/
  evaluated : ∀ e, before.evaluate e = (before.triggered e).filterMap (before.rules[·]?) ∧
    after.evaluate e = (before.triggered e).filterMap (after.rules[·]?)

theorem rules_putStore {i : Nat} (h : engine.rules.findIdx? (fun r => r.id == id) = some i) :
    (engine.putStore id index store).rules =
      engine.rules.modify i fun r => r.putStore index store :=
  modifyFirst_eq_modify h

/-- A store is put into the action that is named, and into no other one. -/
theorem actionAt?_putStore {i : Nat} (h : engine.rules.findIdx? (fun r => r.id == id) = some i)
    (k l : Nat) : (engine.putStore id index store).actionAt? k l =
      (engine.actionAt? k l).map fun a => if (k, l) = (i, index) then { a with store } else a := by
  rw [actionAt?, actionAt?, rules_putStore h, List.getElem?_modify]
  cases engine.rules[k]? with
  | none => rfl
  | some r =>
    by_cases hk : i = k
    · subst hk
      simp [CompiledRule.putStore, List.getElem?_modify, eq_comm]
    · simp [hk, Ne.symm hk]

/-- Only one store is another one after a store was put in place. -/
theorem sameExcept_putStore {i : Nat}
    (h : engine.rules.findIdx? (fun r => r.id == id) = some i) :
    engine.SameExcept (engine.putStore id index store) i index := by
  have hplans : (engine.putStore id index store).rules.map CompiledRule.plan =
      engine.rules.map CompiledRule.plan := by
    rw [rules_putStore h]
    refine List.ext_getElem? fun k => ?_
    simp only [List.getElem?_map, List.getElem?_modify]
    cases engine.rules[k]? with
    | none => rfl
    | some r => by_cases hk : i = k <;> simp [hk]
  refine ⟨rfl, hplans, fun k l hne => ?_, fun e => ⟨evaluate_eq engine e, ?_⟩⟩
  · rw [actionAt?_putStore h]
    simp [hne]
  · rw [evaluate_eq, triggered_congr hplans]

/-! ## Edits after any requests -/

/-- What requests make of an engine without rules. -/
inductive Reachable : Engine → Prop where
  -- An engine starts without rules.
  | start (catalog : Catalog) : Reachable { catalog }
  -- It serves one request after the other.
  | serve {engine : Engine} (request : Request) (h : Reachable engine) :
      Reachable (engine.serve request)

/-- Every store has the parameters of its schema. -/
def Declared (engine : Engine) : Prop :=
  ∀ r ∈ engine.rules, ∀ a ∈ r.actions,
    a.store.descriptors = PropertyStore.index a.schema.properties

/-- Why an edit is refused. -/
inductive Refuses (engine : Engine) (id : Identifier) (index : Nat) (name : String) (raw : Json) :
    Failure → Prop where
  -- No active rule has the identifier.
  | rule (h : ∀ r ∈ engine.rules, r.id ≠ id) :
      Refuses engine id index name raw (.notFound { entity := "Rule", id := id.text })
  -- The first rule that has it has no action at the position.
  | action {r : CompiledRule} (hrule : engine.rule? id = some r) (h : r.actions.length ≤ index) :
      Refuses engine id index name raw
        (.notFound { entity := "Action", id := id.text ++ "#" ++ Decimal.intText index })
  -- The schema of the action does not have the property.
  | property {a : CompiledAction} (haction : engine.action id index = .ok a)
      (h : (PropertyStore.index a.schema.properties).get? name = none) :
      Refuses engine id index name raw (.validation (.unknownProperty name))
  -- The value is not one of the property.
  | value {a : CompiledAction} {d : Descriptor} {cause : ValidationError}
      (haction : engine.action id index = .ok a)
      (hd : (PropertyStore.index a.schema.properties).get? name = some d)
      (h : d.normalize raw = .error cause) :
      Refuses engine id index name raw (.validation cause)

/-- Whatever an engine is asked for, its stores have the parameters of their schemas. -/
theorem declared_of_reachable (h : Reachable engine) : engine.Declared := by
  induction h with
  | start catalog =>
    intro r hr
    cases hr
  | serve request _ ih =>
    cases request with
    | load definitions =>
      refine forall_actions_load fun d i a haction => ?_
      obtain ⟨-, -, hseeded, -⟩ := ActionDefinition.compile_eq_ok haction
      exact (valid_of_seeded hseeded).1
    | edit id index name raw =>
      rw [serve]
      split
      next hedit =>
        exact forall_actions_of_setProperty
          (fun a store ha hset => (overlay_of_setMany hset).1.trans ha) ih hedit
      next => exact ih

theorem Declared.descriptors (h : engine.Declared) (haction : engine.action id index = .ok a) :
    a.store.descriptors = PropertyStore.index a.schema.properties := by
  obtain ⟨r, hrule, ha⟩ := exists_of_action haction
  exact h r (List.mem_of_find?_eq_some hrule) a (List.mem_of_getElem? ha)

/-- An action is not found if no rule has the identifier, or the first one that has it has too few
actions. -/
theorem action_eq_error_iff {failure : Failure} : engine.action id index = .error failure ↔
    (∀ r ∈ engine.rules, r.id ≠ id) ∧ failure = .notFound { entity := "Rule", id := id.text } ∨
      ∃ r, engine.rule? id = some r ∧ r.actions.length ≤ index ∧ failure =
        .notFound { entity := "Action", id := id.text ++ "#" ++ Decimal.intText index } := by
  have hnone : engine.rule? id = none ↔ ∀ r ∈ engine.rules, r.id ≠ id := by simp [rule?]
  rw [action, requireRule, ← hnone]
  cases hrule : engine.rule? id with
  | none =>
    show Except.error _ = Except.error failure ↔ _
    simp [eq_comm]
  | some r =>
    have hid : r.id = id := by simpa using List.find?_some hrule
    show requireAction r index = .error failure ↔ _
    rw [requireAction, hid]
    cases hat : r.actions[index]? with
    | none => simp [List.getElem?_eq_none_iff.1 hat, eq_comm]
    | some a =>
      have hlt : index < r.actions.length := (List.getElem?_eq_some_iff.1 hat).1
      simp [Nat.not_le.2 hlt]

/-- When an edit is refused, and for which reason. -/
theorem setProperty_eq_error_iff (h : engine.Declared) {failure : Failure} :
    engine.setProperty id index name raw = .error failure ↔
      engine.Refuses id index name raw failure := by
  have hfound {a : CompiledAction} (haction : engine.action id index = .ok a) :
      engine.setProperty id index name raw = .error failure ↔
        ∃ cause, failure = .validation cause ∧
          validateIn (PropertyStore.index a.schema.properties) name raw = .error cause := by
    rw [setProperty_eq haction, set_eq, validate, h.descriptors haction]
    cases validateIn (PropertyStore.index a.schema.properties) name raw with
    | ok v => simp [Failure.ofValidation]
    | error cause => simp [Failure.ofValidation, eq_comm]
  constructor
  · intro hrefused
    cases haction : engine.action id index with
    | error cause =>
      rw [setProperty, haction] at hrefused
      obtain rfl : cause = failure := Except.error.inj hrefused
      rcases action_eq_error_iff.1 haction with ⟨hrule, rfl⟩ | ⟨r, hrule, hlength, rfl⟩
      · exact .rule hrule
      · exact .action hrule hlength
    | ok a =>
      obtain ⟨cause, rfl, hcause⟩ := (hfound haction).1 hrefused
      rcases validateIn_eq_error_iff.1 hcause with ⟨hnone, rfl⟩ | ⟨d, hd, hnormalize⟩
      · exact .property haction hnone
      · exact .value haction hd hnormalize
  · intro hrefuses
    cases hrefuses with
    | rule hrule =>
      have haction : engine.action id index = .error _ :=
        action_eq_error_iff.2 (.inl ⟨hrule, rfl⟩)
      rw [setProperty, haction]
      rfl
    | action hrule hlength =>
      have haction : engine.action id index = .error _ :=
        action_eq_error_iff.2 (.inr ⟨_, hrule, hlength, rfl⟩)
      rw [setProperty, haction]
      rfl
    | property haction hnone =>
      exact (hfound haction).2 ⟨_, rfl, validateIn_eq_error_iff.2 (.inl ⟨hnone, rfl⟩)⟩
    | value haction hd hnormalize =>
      exact (hfound haction).2 ⟨_, rfl, validateIn_eq_error_iff.2 (.inr ⟨_, hd, hnormalize⟩)⟩

/-- Take any engine that requests lead to, and any edit. It is refused exactly if no active rule has
the identifier, the first one that has it does not have the action, the action does not have the
property, or the value is not one of the property; then nothing changes. An edit that is accepted
writes the value, normalised by the declaration of the property, into the store of the action of
this first rule, and answers the next version of this store. Every other property of the store and
every other action is as it was, the rules have the same order and are the same apart from this
store, and every event triggers the rules at the same positions. -/
theorem setProperty_exact (h : Reachable engine) (id : Identifier) (index : Nat) (name : String)
    (raw : Json) :
    (∀ failure, engine.setProperty id index name raw = .error failure ↔
      engine.Refuses id index name raw failure) ∧
    (∀ failure, engine.Refuses id index name raw failure →
      engine.serve (.edit id index name raw) = engine) ∧
    ∀ edited version, engine.setProperty id index name raw = .ok (edited, version) →
      engine.serve (.edit id index name raw) = edited ∧
      ∃ i a d v store, engine.rules.findIdx? (fun r => r.id == id) = some i ∧
        engine.actionAt? i index = some a ∧
        (PropertyStore.index a.schema.properties).get? name = some d ∧
        d.normalize raw = .ok v ∧
        edited.actionAt? i index = some { a with store } ∧
        a.store.WrittenAt store name v ∧ store.snapshot.version = version ∧
        engine.SameExcept edited i index := by
  have hdeclared := declared_of_reachable h
  refine ⟨fun failure => setProperty_eq_error_iff hdeclared, fun failure hrefuses => ?_,
    fun edited version hedit => ⟨?_, ?_⟩⟩
  · rw [serve, (setProperty_eq_error_iff hdeclared).2 hrefuses]
  · rw [serve, hedit]
  · obtain ⟨r, a, store, hrule, hat, hset, rfl⟩ := exists_of_setProperty hedit
    have haction : engine.action id index = .ok a := action_eq_ok_iff.2 ⟨r, hrule, hat⟩
    obtain ⟨i, hi, hr⟩ := exists_findIdx?_of_rule? hrule
    obtain ⟨d, v, hd, hnormalize, hwritten⟩ := writtenAt_of_set hset
    rw [hdeclared.descriptors haction] at hd
    rw [setProperty_eq haction, hset] at hedit
    have hversion : store.snapshot.version = version := (Prod.mk.inj (Except.ok.inj hedit)).2
    have hfound : engine.actionAt? i index = some a := by rw [actionAt?, hr, Option.bind_some, hat]
    refine ⟨i, a, d, v, store, hi, hfound, hd, hnormalize, ?_, hwritten, hversion,
      sameExcept_putStore hi⟩
    rw [actionAt?_putStore hi, hfound, Option.map_some, if_pos rfl]

/-- Two rules with the same identifier, of which the first one was edited twice, once in vain. -/
def twins : Engine :=
  let rule (name : String) : RuleDefinition :=
    { id := ⟨71, by decide⟩, name, trigger := .always, actions := [countFromSeven] }
  let loaded := serve { catalog := Catalog.registerAction {} counting }
    (.load [rule "Count", rule "Twin"])
  (loaded.serve (.edit ⟨71, by decide⟩ 0 "start" (.int 8))).serve
    (.edit ⟨71, by decide⟩ 0 "start" (.string "nine"))

/-- The next edit writes to the first of the two rules, and leaves its twin alone. -/
theorem setProperty_exact_of_twins : ∃ (edited : Engine) (before : CompiledAction) (v : Value)
    (store : PropertyStore), twins.Reachable ∧
    twins.setProperty ⟨71, by decide⟩ 0 "start" (.string " 9 ") = .ok (edited, 2) ∧
    twins.actionAt? 0 0 = some before ∧ before.store.get? "start" = some (.int 8) ∧ v = .int 9 ∧
    edited.actionAt? 0 0 = some { before with store } ∧ before.store.WrittenAt store "start" v ∧
    twins.SameExcept edited 0 0 := by
  have hreachable : twins.Reachable := by
    unfold twins
    exact .serve _ (.serve _ (.serve _ (.start _)))
  obtain ⟨edited, before, hedit, hbefore, height, hnine⟩ :
      ∃ (edited : Engine) (before : CompiledAction),
        twins.setProperty ⟨71, by decide⟩ 0 "start" (.string " 9 ") = .ok (edited, 2) ∧
        twins.actionAt? 0 0 = some before ∧ before.store.get? "start" = some (.int 8) ∧
        (edited.actionAt? 0 0).bind (fun a => a.store.get? "start") = some (.int 9) :=
    ⟨_, _, rfl, rfl, rfl, rfl⟩
  obtain ⟨-, i, a, d, v, store, hi, ha, -, -, hafter, hwritten, -, hsame⟩ :=
    (setProperty_exact hreachable _ _ _ _).2.2 edited 2 hedit
  obtain rfl : 0 = i := Option.some.inj hi
  obtain rfl : before = a := Option.some.inj (hbefore.symm.trans ha)
  rw [hafter, Option.bind_some, hwritten.value] at hnine
  exact ⟨edited, before, v, store, hreachable, hedit, hbefore, height, Option.some.inj hnine,
    hafter, hwritten, hsame⟩

end Engine

end Reflex

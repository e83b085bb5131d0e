import Reflex.Proofs.PropertyStore
import Reflex.Rule.Resolution

/-!
# Parameters of Compiled Actions

A required parameter of a compiled action has a value or is bound to an event field. This is
checked when the rule is compiled, writes to the store of the action do not change it, and it is
what makes the parameters complete once they are resolved for an event.

## Main definitions

- `ActionSchema.Satisfied`: values that an action of a schema can rely on.
- `CompiledAction.Sound`: what holds of an action from its compilation on.

## Main statements

- `ActionDefinition.sound_of_compile`: compiled actions are sound.
- `CompiledAction.Sound.set`: an accepted write keeps an action sound.
- `CompiledAction.Sound.satisfied_of_resolve`: the resolved parameters satisfy the schema.
-/

namespace Reflex

open PropertyStore

/-- The values are complete, declared and valid. -/
structure ActionSchema.Satisfied (schema : ActionSchema) (values : Dict Value) : Prop where
  /-- Every required parameter has a value. -/
  required : ∀ d ∈ schema.properties, d.required = true → (values.get? d.name).isSome
  /-- Every value belongs to a declared parameter, whose validation returns it unchanged. -/
  declared : ∀ name v, values.get? name = some v →
    ∃ d, schema.property? name = some d ∧ d.revalidate v = .ok v

/-- What holds of an action from its compilation on. -/
structure CompiledAction.Sound (a : CompiledAction) : Prop where
  /-- The parameters of the schema can be told apart. -/
  distinct : Distinct a.schema.properties
  /-- The store is one of the parameters of the schema. -/
  declared : a.store.descriptors = index a.schema.properties
  /-- The values in the store are valid. -/
  valid : Valid a.store.descriptors a.store.snapshot.values
  /-- A required parameter has a value or is bound. -/
  supplied : ∀ d ∈ a.schema.properties, d.required = true →
    (a.store.get? d.name).isSome ∨ ∃ field, (d.name, field) ∈ a.bindings.entries

/-! ## Compilation -/

section Compile

variable {catalog : Catalog} {a : ActionDefinition} {action : CompiledAction} {index : Nat}

/-- Every required parameter that is not missing has a value or is bound. -/
theorem ActionDefinition.supplied_of_missing? {schema : ActionSchema} {store : PropertyStore}
    {bindings : Dict String} (h : missing? schema store bindings = none) {d : Descriptor}
    (hd : d ∈ schema.properties) (hrequired : d.required = true) :
    (store.get? d.name).isSome ∨ ∃ field, (d.name, field) ∈ bindings.entries := by
  have hnot := List.find?_eq_none.1 h d hd
  cases hvalue : store.get? d.name with
  | some v => exact .inl rfl
  | none =>
    refine .inr ?_
    simp only [hrequired, hvalue, Option.isNone_none, Bool.true_and, Bool.not_eq_true',
      Bool.not_eq_false] at hnot
    obtain ⟨field, hfield⟩ := Option.isSome_iff_exists.1 hnot
    exact ⟨field, Dict.mem_of_lookup hfield⟩

/-- An action compiles when its parameters are declared and bound to named fields, a store can be
seeded with the literals, and nothing that is required is missing. -/
theorem ActionDefinition.compile_eq_ok (h : a.compile catalog index = .ok action) :
    catalog.action? a.type = some action.schema ∧
      a.params.entries.forM (checkParam action.schema index) = .ok () ∧
      seeded action.schema.properties a.literals = .ok action.store ∧
      missing? action.schema action.store a.bindings = none ∧
      action.bindings = a.bindings ∧ action.timeoutMs = a.timeoutMs := by
  unfold compile at h
  cases hfound : catalog.action? a.type with
  | none =>
    rw [hfound] at h
    cases h
  | some schema =>
    rw [hfound] at h
    obtain ⟨_, hschema, h⟩ := bind_eq_ok.1 h
    obtain rfl := Except.ok.inj hschema
    obtain ⟨⟨⟩, hparams, h⟩ := bind_eq_ok.1 h
    cases hseeded : seeded schema.properties a.literals with
    | error e =>
      rw [hseeded] at h
      cases h
    | ok store =>
      rw [hseeded] at h
      obtain ⟨_, hstore, h⟩ := bind_eq_ok.1 h
      obtain rfl := Except.ok.inj hstore
      beta_reduce at h
      split at h
      next => cases h
      next hmissing =>
        obtain rfl := Except.ok.inj h
        exact ⟨rfl, hparams, hseeded, hmissing, rfl, rfl⟩

/-- A compiled action is sound, and its schema is that of the catalog. -/
theorem ActionDefinition.sound_of_compile
    (hdistinct : ∀ schema, catalog.action? a.type = some schema → Distinct schema.properties)
    (h : a.compile catalog index = .ok action) :
    action.Sound ∧ catalog.action? a.type = some action.schema := by
  obtain ⟨hfound, -, hseeded, hmissing, hbindings, -⟩ := compile_eq_ok h
  obtain ⟨hdeclared, hvalid⟩ := valid_of_seeded hseeded
  rw [← hbindings] at hmissing
  exact ⟨⟨hdistinct action.schema hfound, hdeclared, hvalid,
    fun d => supplied_of_missing? hmissing⟩, hfound⟩

/-- The actions of a list are compiled one by one. -/
theorem ActionDefinition.exists_of_compileFrom {definitions : List ActionDefinition}
    {actions : List CompiledAction} (h : compileFrom catalog index definitions = .ok actions)
    (haction : action ∈ actions) : ∃ a ∈ definitions, ∃ i, a.compile catalog i = .ok action := by
  induction definitions generalizing index actions with
  | nil =>
    obtain rfl := Except.ok.inj h
    cases haction
  | cons a rest ih =>
    obtain ⟨first, hfirst, hrest⟩ := bind_eq_ok.1 h
    obtain ⟨others, hothers, hactions⟩ := bind_eq_ok.1 hrest
    obtain rfl := Except.ok.inj hactions
    rcases List.mem_cons.1 haction with rfl | haction
    · exact ⟨a, by simp, index, hfirst⟩
    · obtain ⟨b, hb, i, hcompile⟩ := ih hothers haction
      exact ⟨b, by simp [hb], i, hcompile⟩

/-- A rule compiles when its invariants hold and its trigger and its actions compile. -/
theorem RuleDefinition.compile_eq_ok {d : RuleDefinition} {rule : CompiledRule}
    (h : d.compile catalog = .ok rule) :
    d.checkInvariants = .ok () ∧ d.trigger.compile catalog = .ok rule.condition ∧
      ActionDefinition.compileFrom catalog 0 d.actions = .ok rule.actions ∧
      rule.definition = d := by
  unfold compile at h
  split at h
  next rule' hcause =>
    obtain rfl := Except.ok.inj h
    unfold compileCause at hcause
    cases hcheck : d.checkInvariants with
    | error e =>
      rw [hcheck] at hcause
      cases hcause
    | ok u =>
      cases htrigger : d.trigger.compile catalog with
      | error e =>
        rw [hcheck, htrigger] at hcause
        cases hcause
      | ok condition =>
        rw [hcheck, htrigger] at hcause
        obtain ⟨_, hcondition, hcause⟩ := bind_eq_ok.1 hcause
        obtain rfl := Except.ok.inj hcondition
        obtain ⟨actions, hactions, hrule⟩ := bind_eq_ok.1 hcause
        obtain rfl := Except.ok.inj hrule
        exact ⟨rfl, rfl, hactions, rfl⟩
  next => cases h

/-- The actions of a compiled rule are compiled actions. -/
theorem RuleDefinition.exists_of_compile {d : RuleDefinition} {rule : CompiledRule}
    (h : d.compile catalog = .ok rule) (haction : action ∈ rule.actions) :
    ∃ a ∈ d.actions, ∃ i, a.compile catalog i = .ok action :=
  ActionDefinition.exists_of_compileFrom (compile_eq_ok h).2.2.1 haction

end Compile

namespace CompiledAction

variable {a : CompiledAction} {e : Event}

/-! ## Writes -/

/-- An accepted write keeps an action sound. -/
theorem Sound.set (h : a.Sound) {name : String} {raw : Json} {store : PropertyStore}
    (hset : a.store.set name raw = .ok store) : Sound { a with store } := by
  obtain ⟨hdescriptors, -, hoverlay⟩ := overlay_of_setMany hset
  exact {
    distinct := h.distinct
    declared := hdescriptors.trans h.declared
    valid := by
      rw [hdescriptors]
      exact valid_of_overlay h.valid hoverlay
    supplied := fun d hd hrequired =>
      (h.supplied d hd hrequired).imp_left fun hvalue => isSome_of_overlay hvalue hoverlay }

/-! ## Resolution -/

/-- A binding is filled with a validated value, or the values stay and do not lack it. -/
theorem fill_eq_ok {values out : Dict Value} {binding : String × String}
    (h : a.fill e values binding = .ok out) :
    (∃ raw v, a.store.validate binding.1 raw = .ok v ∧ out = values.insert binding.1 v) ∨
      out = values ∧ ((a.store.descriptor? binding.1).any (·.required) = true →
        values.contains binding.1 = true) := by
  unfold fill at h
  split at h
  next value _ =>
    obtain ⟨v, hv, hout⟩ := bind_eq_ok.1 h
    exact .inl ⟨value.toRaw, v, hv, (Except.ok.inj hout).symm⟩
  next =>
    split at h
    next => cases h
    next hlacks =>
      obtain rfl := Except.ok.inj h
      exact .inr ⟨rfl, by simpa using hlacks⟩

/-- Filling a binding leaves no parameter without a value. -/
theorem isSome_of_fill {values out : Dict Value} {binding : String × String} {name : String}
    (h : a.fill e values binding = .ok out) (hname : (values.get? name).isSome) :
    (out.get? name).isSome := by
  rcases fill_eq_ok h with ⟨raw, v, -, rfl⟩ | ⟨rfl, -⟩
  · exact isSome_insert hname
  · exact hname

section Filled

variable {values : Dict Value}

/-- Filling the bindings of a sound action keeps its values valid. -/
theorem Sound.valid_of_filled (h : a.Sound)
    (hvalues : a.bindings.entries.foldlM (a.fill e) a.store.snapshot.values = .ok values) :
    Valid a.store.descriptors values := by
  refine foldlM_induction hvalues h.valid fun binding _ before after hbefore hfill => ?_
  rcases fill_eq_ok hfill with ⟨raw, v, hv, rfl⟩ | ⟨rfl, -⟩
  · obtain ⟨d, hd, hrevalidate⟩ := exists_of_validateIn hv
    exact hbefore.insert hd hrevalidate
  · exact hbefore

/-- When the bindings of a sound action are filled, its required parameters have values. -/
theorem Sound.isSome_of_filled (h : a.Sound)
    (hvalues : a.bindings.entries.foldlM (a.fill e) a.store.snapshot.values = .ok values)
    {d : Descriptor} (hd : d ∈ a.schema.properties) (hrequired : d.required = true) :
    (values.get? d.name).isSome := by
  have hkeep : ∀ binding ∈ a.bindings.entries, ∀ before after : Dict Value,
      (before.get? d.name).isSome → a.fill e before binding = .ok after →
      (after.get? d.name).isSome := by
    intro binding _ before after hbefore hfill
    exact isSome_of_fill hfill hbefore
  rcases h.supplied d hd hrequired with hstored | ⟨field, hfield⟩
  · exact foldlM_induction (P := fun values => (values.get? d.name).isSome) hvalues hstored hkeep
  · -- the binding itself makes sure of the value, and later ones keep it
    refine foldlM_of_mem (P := fun values => (values.get? d.name).isSome) hvalues hfield
      (fun before after hfill => ?_) hkeep
    rcases fill_eq_ok hfill with ⟨raw, v, -, rfl⟩ | ⟨rfl, hlacks⟩
    · simp
    · have hfound : a.store.descriptor? d.name = some d := by
        rw [descriptor?, h.declared]
        exact h.distinct.index_get? hd
      exact hlacks (by simp [hfound, hrequired])

end Filled

/-- The parameters of a sound action that resolve satisfy its schema. -/
theorem Sound.satisfied_of_resolve (h : a.Sound) {p : Snapshot} (hresolve : a.resolve e = .ok p) :
    a.schema.Satisfied p.values := by
  obtain ⟨values, hvalues, hp⟩ := bind_eq_ok.1 hresolve
  obtain rfl := Except.ok.inj hp
  refine ⟨fun d hd hrequired => h.isSome_of_filled hvalues hd hrequired, fun name v hv => ?_⟩
  obtain ⟨d, hd, hrevalidate⟩ := h.valid_of_filled hvalues name v hv
  refine ⟨d, ?_, hrevalidate⟩
  rw [ActionSchema.property?, h.distinct.find?_eq, ← h.declared]
  exact hd

end CompiledAction

end Reflex

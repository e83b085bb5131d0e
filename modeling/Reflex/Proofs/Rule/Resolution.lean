import Reflex.Proofs.Engine
import Reflex.Proofs.PropertyStore.Writes
import Reflex.Proofs.Rule.Acceptance

/-!
# How Parameters Are Resolved

Whatever edits its stores have seen, a compiled rule resolves for an event exactly if each of its
bound parameters can be filled: the field of the event is valid for the parameter, or the event
lacks the field and the parameter has a value already if it is required. The event comes before
what is stored, and what is not bound is as it is stored. The first parameter that cannot be filled,
by the position of its action and then by its name, decides the error.

## Main definitions

- `CompiledRule.Edit`, `CompiledRule.editAll`: edits of the stores of a rule.
- `CompiledAction.WellBound`: an action whose bindings are of declared parameters.
- `CompiledAction.Resolvable`, `CompiledAction.Fails`: whether bound parameters can be filled.
- `CompiledAction.ResolvesTo`: the parameters of an action for an event.

## Main statements

- `CompiledRule.wellBound_of_editAll`: edits keep the actions of a rule well-bound.
- `CompiledAction.stopsAtFirst_foldlM_fill`: the first binding that cannot be filled decides.
- `CompiledRule.resolve_exact`: how a compiled rule resolves after any edits.
-/

namespace Reflex

open PropertyStore

/-- Entries with lesser keys stand before an entry. -/
theorem Dict.mem_of_lt {α : Type} {d : Dict α} {before after : List (String × α)}
    {entry other : String × α} (hentries : d.entries = before ++ entry :: after)
    (hother : other ∈ d.entries) (hlt : other.1 < entry.1) : other ∈ before := by
  have hsorted := d.sorted
  rw [hentries] at hother hsorted
  obtain ⟨-, hafter, -⟩ := List.pairwise_append.1 hsorted
  rcases List.mem_append.1 hother with hmem | hmem
  · exact hmem
  rcases List.mem_cons.1 hmem with rfl | hmem
  · exact absurd hlt (String.lt_irrefl _)
  · have hlater : entry.1 < other.1 := (List.pairwise_cons.1 hafter).1 other hmem
    exact absurd (String.lt_trans hlt hlater) (String.lt_irrefl _)

/-! ## Edits -/

/-- An edit: a write to the store of the action at a position. -/
structure CompiledRule.Edit where
  /-- The position of the action. -/
  index : Nat
  /-- What is written. -/
  write : PropertyStore.Write

namespace CompiledRule

/-- Make an edit. One that the store refuses changes nothing, nor does one of an action that is not
there. -/
def edit (r : CompiledRule) (x : Edit) : CompiledRule :=
  { r with actions :=
      r.actions.modify x.index fun a => { a with store := (a.store.write x.write).1 } }

/-- Make edits one after the other. -/
def editAll (r : CompiledRule) (edits : List Edit) : CompiledRule :=
  edits.foldl edit r

end CompiledRule

/-- An action whose store has the properties of its schema, and whose bindings are of some of
them. -/
structure CompiledAction.WellBound (a : CompiledAction) : Prop where
  /-- The parameters of the schema can be told apart. -/
  distinct : Distinct a.schema.properties
  /-- The store is one of the parameters of the schema. -/
  declared : a.store.descriptors = index a.schema.properties
  /-- Every bound parameter is declared. -/
  bound : ∀ name field, a.bindings.get? name = some field → (a.schema.property? name).isSome

section Edits

variable {catalog : Catalog} {d : RuleDefinition} {rule : CompiledRule}

/-- A write keeps the declarations. -/
theorem PropertyStore.descriptors_write (s : PropertyStore) (w : PropertyStore.Write) :
    (s.write w).1.descriptors = s.descriptors := by
  obtain ⟨s', hwrite, haccepted⟩ | ⟨e, hwrite, -⟩ := s.write_cases w <;> rw [hwrite]
  exact (overlay_of_setMany haccepted).1

/-- A compiled action is well-bound. -/
theorem ActionDefinition.wellBound_of_compile (hdistinct : catalog.Distinct) {index : Nat}
    {a : ActionDefinition} {action : CompiledAction} (h : a.compile catalog index = .ok action) :
    action.WellBound := by
  have hcompiles := compilesTo_of_compile hdistinct h
  obtain ⟨schema, hschema, hacceptable⟩ := (violations_eq_nil_iff hdistinct).1
    ((stopsAtFirst_compile hdistinct).exists_ok_iff.1 ⟨action, h⟩)
  obtain rfl : schema = action.schema :=
    Option.some.inj (hschema.symm.trans hcompiles.schema)
  exact {
    distinct := hdistinct a.type action.schema hschema
    declared := hcompiles.declared
    bound := fun name field hfield =>
      hacceptable.declared name _ ((hcompiles.bound name field).1 hfield) }

/-- The actions of a compiled rule are well-bound. -/
theorem RuleDefinition.wellBound_of_compile (hdistinct : catalog.Distinct)
    (hcompile : d.compile catalog = .ok rule) : ∀ a ∈ rule.actions, a.WellBound := by
  intro a ha
  obtain ⟨definition, -, index, haction⟩ := exists_of_compile hcompile ha
  exact ActionDefinition.wellBound_of_compile hdistinct haction

/-- An edit keeps the actions of a rule well-bound. -/
theorem CompiledRule.wellBound_of_edit (h : ∀ a ∈ rule.actions, a.WellBound) (x : Edit) :
    ∀ a ∈ (rule.edit x).actions, a.WellBound := by
  intro a ha
  rcases Engine.mem_modify ha with ha | ⟨before, hbefore, rfl⟩
  · exact h a ha
  · have hbound := h before (List.mem_of_getElem? hbefore)
    exact ⟨hbound.distinct, (before.store.descriptors_write x.write).trans hbound.declared,
      hbound.bound⟩

/-- Any edits keep the actions of a rule well-bound. -/
theorem CompiledRule.wellBound_of_editAll (h : ∀ a ∈ rule.actions, a.WellBound)
    (edits : List Edit) : ∀ a ∈ (rule.editAll edits).actions, a.WellBound := by
  induction edits generalizing rule with
  | nil => exact h
  | cons x edits ih => exact ih (wellBound_of_edit h x)

end Edits

namespace CompiledAction

/-! ## Bound parameters -/

/-- Why a bound parameter of an action cannot be filled for an event. -/
inductive Fails (a : CompiledAction) (e : Event) (name : String) : ValidationError → Prop where
  -- The field of the event is not valid for the parameter.
  | invalid {field : String} {d : Descriptor} {v : Value} {cause : ValidationError}
      (hbound : a.bindings.get? name = some field) (hdeclared : a.schema.property? name = some d)
      (hpresent : e.field? field = some v) (hrefused : d.revalidate v = .error cause) :
      Fails a e name cause
  -- The event lacks the field, and nothing is stored for a parameter that is required.
  | missing {field : String} {d : Descriptor}
      (hbound : a.bindings.get? name = some field) (hdeclared : a.schema.property? name = some d)
      (habsent : e.field? field = none) (hrequired : d.required = true)
      (hempty : a.store.get? name = none) : Fails a e name (.missingProperty name)

/-- Every bound parameter of an action can be filled for an event. -/
structure Resolvable (a : CompiledAction) (e : Event) : Prop where
  /-- A field of the event is valid for the parameters that are bound to it. -/
  present : ∀ name field v, a.bindings.get? name = some field → e.field? field = some v →
    ∃ d w, a.schema.property? name = some d ∧ d.revalidate v = .ok w
  /-- If the event lacks the field, a parameter that is required has a value. -/
  absent : ∀ name field d, a.bindings.get? name = some field → e.field? field = none →
    a.schema.property? name = some d → d.required = true → (a.store.get? name).isSome

/-- The parameters of an action are those that it has for an event. -/
structure ResolvesTo (a : CompiledAction) (e : Event) (p : Snapshot) : Prop where
  /-- The version is that of the store. -/
  version : p.version = a.store.snapshot.version
  /-- A parameter that is bound to a field of the event has its value, validated. -/
  present : ∀ name field v, a.bindings.get? name = some field → e.field? field = some v →
    ∃ d w, a.schema.property? name = some d ∧ d.revalidate v = .ok w ∧
      p.values.get? name = some w
  /-- Any other parameter is as it is stored, or not there if it is not stored. -/
  kept : ∀ name, (∀ field, a.bindings.get? name = some field → e.field? field = none) →
    p.values.get? name = a.store.get? name

/-- What keeps a binding from being filled. -/
def faults (a : CompiledAction) (e : Event) (binding : String × String) : List ValidationError :=
  match e.field? binding.2 with
  | some v => causes (a.store.revalidate binding.1 v)
  | none =>
    if (a.store.descriptor? binding.1).any (·.required) && (a.store.get? binding.1).isNone then
      [.missingProperty binding.1]
    else []

variable {a : CompiledAction} {e : Event} {values out : Dict Value}
  {bindings : List (String × String)} {name field : String}

/-! ## Filling bindings -/

/-- A binding is filled unless something keeps it from being filled, as long as nothing was written
under its name before. -/
theorem stopsAtFirst_fill {binding : String × String}
    (hvalues : values.get? binding.1 = a.store.get? binding.1) :
    StopsAtFirst (a.faults e binding) (a.fill e values binding) := by
  unfold faults fill
  cases e.field? binding.2 with
  | some v => exact (StopsAtFirst.causes _).map
  | none =>
    dsimp only
    rw [Dict.contains, hvalues, Option.not_isSome]
    split <;> rfl

/-- Filling a binding changes nothing under other names. -/
theorem get?_of_fill_ne {binding : String × String} (h : a.fill e values binding = .ok out)
    (hne : name ≠ binding.1) : out.get? name = values.get? name := by
  rcases fill_eq_ok h with ⟨raw, v, -, rfl⟩ | ⟨rfl, -⟩
  · rw [Dict.get?_insert, if_neg hne]
  · rfl

/-- Bindings of different names are filled in order, and the first one that cannot be filled
decides. Those that were filled before a binding leave the value under its name as it is stored. -/
theorem stopsAtFirst_foldlM_fill (hdistinct : (bindings.map (·.1)).Nodup)
    (hvalues : ∀ b ∈ bindings, values.get? b.1 = a.store.get? b.1) :
    StopsAtFirst (bindings.flatMap (a.faults e)) (bindings.foldlM (a.fill e) values) := by
  induction bindings generalizing values with
  | nil => rfl
  | cons b rest ih =>
    rw [List.map_cons, List.nodup_cons] at hdistinct
    rw [List.flatMap_cons, List.foldlM_cons]
    refine (stopsAtFirst_fill (hvalues b (by simp))).bind fun next hnext => ?_
    refine ih hdistinct.2 fun c hc => ?_
    have hne : c.1 ≠ b.1 := fun h => hdistinct.1 (h ▸ List.mem_map_of_mem hc)
    rw [get?_of_fill_ne hnext hne]
    exact hvalues c (by simp [hc])

/-- Names without a binding are left alone. -/
theorem get?_of_foldlM_fill_notMem (h : bindings.foldlM (a.fill e) values = .ok out)
    (hname : name ∉ bindings.map (·.1)) : out.get? name = values.get? name := by
  refine foldlM_induction (P := fun filled => filled.get? name = values.get? name) h rfl
    fun b hb before after hbefore hfill => ?_
  have hne : name ≠ b.1 := fun hb' => hname (hb' ▸ List.mem_map_of_mem hb)
  rw [get?_of_fill_ne hfill hne, hbefore]

/-- When bindings of different names were filled, a bound name has the value of its field, or keeps
its own one if the event lacks the field. -/
theorem get?_of_foldlM_fill (h : bindings.foldlM (a.fill e) values = .ok out)
    (hdistinct : (bindings.map (·.1)).Nodup) (hbinding : (name, field) ∈ bindings) :
    match e.field? field with
    | some v => ∃ w, a.store.revalidate name v = .ok w ∧ out.get? name = some w
    | none => out.get? name = values.get? name := by
  induction bindings generalizing values with
  | nil => cases hbinding
  | cons b rest ih =>
    rw [List.map_cons, List.nodup_cons] at hdistinct
    rw [List.foldlM_cons, bind_eq_ok] at h
    obtain ⟨next, hnext, hrest⟩ := h
    rcases List.mem_cons.1 hbinding with rfl | hbinding
    · -- no later binding has this name, so its value stays as it is filled here
      rw [get?_of_foldlM_fill_notMem hrest hdistinct.1]
      unfold fill at hnext
      split at hnext
      next v hv =>
        obtain ⟨w, hw, hinsert⟩ := bind_eq_ok.1 hnext
        obtain rfl := Except.ok.inj hinsert
        rw [hv]
        exact ⟨w, hw, by simp⟩
      next hv =>
        rw [hv]
        split at hnext
        next => cases hnext
        next => rw [Except.ok.inj hnext]
    · have hne : name ≠ b.1 := fun hname => hdistinct.1 (hname ▸ List.mem_map_of_mem hbinding)
      rw [← get?_of_fill_ne hnext hne]
      exact ih hrest hdistinct.2 hbinding

/-! ## Actions -/

section WellBound

variable {d : Descriptor} {cause : ValidationError}

/-- The store of a well-bound action knows the declared parameters. -/
theorem WellBound.descriptor?_eq (h : a.WellBound) (hd : a.schema.property? name = some d) :
    a.store.descriptor? name = some d := by
  rw [descriptor?, h.declared, ← h.distinct.find?_eq]
  exact hd

theorem WellBound.revalidate_eq (h : a.WellBound) (hd : a.schema.property? name = some d)
    (v : Value) : a.store.revalidate name v = d.revalidate v := by
  have hfound : a.store.descriptors.get? name = some d := h.descriptor?_eq hd
  rw [PropertyStore.revalidate, validate, validateIn, hfound]
  rfl

/-- A declared parameter is filled as its declaration says. -/
theorem WellBound.faults_eq (h : a.WellBound) (hd : a.schema.property? name = some d) :
    a.faults e (name, field) = match e.field? field with
      | some v => causes (d.revalidate v)
      | none =>
        if d.required && (a.store.get? name).isNone then [.missingProperty name] else [] := by
  simp only [faults, h.descriptor?_eq hd, h.revalidate_eq hd, Option.any_some]

/-- What keeps a bound parameter from being filled is why it fails. -/
theorem WellBound.head?_faults_iff (h : a.WellBound) (hbound : a.bindings.get? name = some field) :
    (a.faults e (name, field)).head? = some cause ↔ a.Fails e name cause := by
  obtain ⟨d, hd⟩ := Option.isSome_iff_exists.1 (h.bound name field hbound)
  rw [h.faults_eq hd]
  constructor
  · intro hhead
    cases hfield : e.field? field with
    | some v =>
      rw [hfield] at hhead
      cases hv : d.revalidate v with
      | ok w => simp [hv, causes] at hhead
      | error cause' =>
        obtain rfl : cause' = cause := by simpa [hv, causes] using hhead
        exact .invalid hbound hd hfield hv
    | none =>
      rw [hfield] at hhead
      dsimp only at hhead
      split at hhead
      next hmissing =>
        obtain rfl := Option.some.inj hhead
        rw [Bool.and_eq_true, Option.isNone_iff_eq_none] at hmissing
        exact .missing hbound hd hfield hmissing.1 hmissing.2
      next => cases hhead
  · intro hfails
    cases hfails with
    | invalid hbound' hdeclared hpresent hrefused =>
      obtain rfl := Option.some.inj (hbound.symm.trans hbound')
      obtain rfl := Option.some.inj (hd.symm.trans hdeclared)
      rw [hpresent]
      simp [hrefused, causes]
    | missing hbound' hdeclared habsent hrequired hempty =>
      obtain rfl := Option.some.inj (hbound.symm.trans hbound')
      obtain rfl := Option.some.inj (hd.symm.trans hdeclared)
      rw [habsent]
      simp [hrequired, hempty]

/-- Nothing keeps a bound parameter from being filled exactly if the field of the event is valid for
it, or is absent and the parameter has a value or needs none. -/
theorem WellBound.faults_eq_nil_iff (h : a.WellBound)
    (hbound : a.bindings.get? name = some field) :
    a.faults e (name, field) = [] ↔
      (∀ v, e.field? field = some v →
        ∃ d w, a.schema.property? name = some d ∧ d.revalidate v = .ok w) ∧
      (e.field? field = none → ∀ d, a.schema.property? name = some d → d.required = true →
        (a.store.get? name).isSome) := by
  obtain ⟨d, hd⟩ := Option.isSome_iff_exists.1 (h.bound name field hbound)
  rw [h.faults_eq hd]
  cases e.field? field with
  | some v => simp [hd, (StopsAtFirst.causes (d.revalidate v)).exists_ok_iff]
  | none => simp [hd, Option.isSome_iff_ne_none]

/-- Every bound parameter can be filled exactly if nothing keeps a binding from it. -/
theorem WellBound.faults_eq_nil_iff_resolvable (h : a.WellBound) :
    a.bindings.entries.flatMap (a.faults e) = [] ↔ a.Resolvable e := by
  rw [List.flatMap_eq_nil_iff]
  constructor
  · intro hnil
    have hfine {name field : String} (hbound : a.bindings.get? name = some field) :=
      (h.faults_eq_nil_iff hbound).1 (hnil _ (Dict.mem_of_lookup hbound))
    exact ⟨fun name field v hbound => (hfine hbound).1 v,
      fun name field d hbound habsent => (hfine hbound).2 habsent d⟩
  · rintro hresolvable ⟨name, field⟩ hmem
    have hbound := (Dict.lookup_eq_some_iff a.bindings.nodup_keys).2 hmem
    exact (h.faults_eq_nil_iff hbound).2 ⟨fun v => hresolvable.present name field v hbound,
      fun habsent d => hresolvable.absent name field d hbound habsent⟩

/-- The first binding of an action that cannot be filled decides. -/
theorem stopsAtFirst_resolve (a : CompiledAction) (e : Event) :
    StopsAtFirst (a.bindings.entries.flatMap (a.faults e)) (a.resolve e) :=
  (stopsAtFirst_foldlM_fill a.bindings.nodup_keys fun _ _ => rfl).map

/-- An action that resolves has the values of the event and those that are stored. -/
theorem WellBound.resolvesTo_of_resolve (h : a.WellBound) {p : Snapshot}
    (hresolve : a.resolve e = .ok p) : a.ResolvesTo e p := by
  obtain ⟨values, hvalues, hp⟩ := bind_eq_ok.1 hresolve
  obtain rfl := Except.ok.inj hp
  have hfilled {name field : String} (hbound : a.bindings.get? name = some field) :=
    get?_of_foldlM_fill hvalues a.bindings.nodup_keys (Dict.mem_of_lookup hbound)
  have hresolvable := h.faults_eq_nil_iff_resolvable.1
    ((stopsAtFirst_resolve a e).exists_ok_iff.1 ⟨_, hresolve⟩)
  constructor
  · rfl
  · intro name field v hbound hpresent
    obtain ⟨d, w, hd, hw⟩ := hresolvable.present name field v hbound hpresent
    have hvalue := hfilled hbound
    rw [hpresent] at hvalue
    obtain ⟨w', hw', hget⟩ := hvalue
    rw [h.revalidate_eq hd, hw] at hw'
    obtain rfl := Except.ok.inj hw'
    exact ⟨d, w, hd, hw, hget⟩
  · intro name hname
    cases hbound : a.bindings.get? name with
    | some field =>
      have hstored := hfilled hbound
      rw [hname field hbound] at hstored
      exact hstored
    | none =>
      refine get?_of_foldlM_fill_notMem hvalues fun hmem => ?_
      obtain ⟨field, hfield⟩ := Option.isSome_iff_exists.1 (Dict.lookup_isSome.2 hmem)
      cases hbound.symm.trans hfield

/-- The first thing that keeps a binding of an action from being filled is why its least parameter
fails that does. -/
theorem WellBound.exists_of_head?_faults (h : a.WellBound)
    (hfirst : (a.bindings.entries.flatMap (a.faults e)).head? = some cause) :
    ∃ name, a.Fails e name cause ∧ ∀ other < name, ∀ cause', ¬a.Fails e other cause' := by
  obtain ⟨before, ⟨name, field⟩, after, hentries, hbefore, hcause⟩ :=
    StopsAtFirst.exists_of_error (α := Unit) hfirst
  have hbound : a.bindings.get? name = some field := by
    refine (Dict.lookup_eq_some_iff a.bindings.nodup_keys).2 ?_
    rw [hentries]
    simp
  refine ⟨name, (h.head?_faults_iff hbound).1 hcause, fun other hother cause' hfails => ?_⟩
  obtain ⟨field', hbound'⟩ : ∃ field', a.bindings.get? other = some field' := by
    cases hfails with
    | invalid hbound' | missing hbound' => exact ⟨_, hbound'⟩
  have hmem := Dict.mem_of_lt hentries (Dict.mem_of_lookup hbound') hother
  have hhead := (h.head?_faults_iff hbound').2 hfails
  rw [hbefore _ hmem] at hhead
  cases hhead

end WellBound

end CompiledAction

/-! ## Rules -/

namespace CompiledRule

variable {catalog : Catalog} {d : RuleDefinition} {compiled rule : CompiledRule} {e : Event}

/-- The first action that does not resolve decides. -/
theorem stopsAtFirst_resolve (rule : CompiledRule) (e : Event) :
    StopsAtFirst (rule.actions.flatMap fun a => a.bindings.entries.flatMap (a.faults e))
      (rule.resolve e) :=
  StopsAtFirst.mapM (fun a => a.stopsAtFirst_resolve e) rule.actions

/-- Take any catalog whose action types name each of their parameters once, any rule that compiles,
any edits of its stores, and any event. The edited rule resolves if and only if every bound
parameter can be filled. When it does, each action has the parameters that it should have, and when
it does not, the error is that of the first parameter that fails: no earlier action has one, nor
does the action have one of a lesser name. -/
theorem resolve_exact (hdistinct : catalog.Distinct) (hcompile : d.compile catalog = .ok compiled)
    (edits : List Edit) (e : Event) :
    ((∃ params, (compiled.editAll edits).resolve e = .ok params) ↔
      ∀ a ∈ (compiled.editAll edits).actions, a.Resolvable e) ∧
    (∀ params, (compiled.editAll edits).resolve e = .ok params →
      List.Forall₂ (fun a p => a.ResolvesTo e p) (compiled.editAll edits).actions params) ∧
    ∀ cause, (compiled.editAll edits).resolve e = .error cause → ∃ before a after name,
      (compiled.editAll edits).actions = before ++ a :: after ∧
      (∀ b ∈ before, b.Resolvable e) ∧ a.Fails e name cause ∧
      ∀ other < name, ∀ cause', ¬a.Fails e other cause' := by
  have hbound := wellBound_of_editAll (RuleDefinition.wellBound_of_compile hdistinct hcompile) edits
  generalize compiled.editAll edits = rule at hbound
  have hfirst := rule.stopsAtFirst_resolve e
  refine ⟨?_, fun params hresolve => ?_, fun cause hresolve => ?_⟩
  · rw [hfirst.exists_ok_iff, List.flatMap_eq_nil_iff]
    exact forall₂_congr fun a ha => (hbound a ha).faults_eq_nil_iff_resolvable
  · have hactions := (List.forall₂_and_left _ _).2 ⟨hbound, forall₂_of_mapM hresolve⟩
    exact hactions.imp fun a p ⟨ha, hp⟩ => ha.resolvesTo_of_resolve hp
  · rw [hresolve] at hfirst
    obtain ⟨before, a, after, hactions, hbefore, hcause⟩ := hfirst.exists_of_error
    have hmem {b : CompiledAction} (hb : b ∈ before ++ a :: after) : b.WellBound :=
      hbound b (hactions ▸ hb)
    obtain ⟨name, hfails, hleast⟩ := (hmem (by simp)).exists_of_head?_faults hcause
    refine ⟨before, a, after, name, hactions, fun b hb => ?_, hfails, hleast⟩
    exact (hmem (List.mem_append_left _ hb)).faults_eq_nil_iff_resolvable.1 (hbefore b hb)

/-- Write the path of a poke into the log, at the level that the poke gives, or else at the level
that is stored. -/
def relay : RuleDefinition where
  id := { value := 4 }
  name := "Relay"
  trigger := .eventKind Event.debugPoke
  actions := [
    (ActionDefinition.withBinding { type := "log" } "message" "path").withBinding "level" "level"]

/-- Two edits of the level, the second one in vain. -/
def relayEdits : List Edit :=
  [⟨0, .one "level" (.string "warn")⟩, ⟨0, .one "level" (.string "loud")⟩]

/-- A poke with a path. -/
def pathPoke : Event :=
  { kind := Event.debugPoke, fields := .ofList [("path", .string "/a")] }

/-- A poke with a level that is none. -/
def loudPoke : Event :=
  { kind := Event.debugPoke, fields := .ofList [("level", .string "loud")] }

/-- With a path the edited rule resolves, and with a level that is none it fails. -/
theorem resolve_exact_of_relay :
    ∃ compiled, relay.compile Builtin.catalog = .ok compiled ∧
      (∃ params, (compiled.editAll relayEdits).resolve pathPoke = .ok params ∧
        List.Forall₂ (fun a p => a.ResolvesTo pathPoke p)
          (compiled.editAll relayEdits).actions params) ∧
      ∃ cause, (compiled.editAll relayEdits).resolve loudPoke = .error cause ∧
        ∃ a ∈ (compiled.editAll relayEdits).actions, ∃ name, a.Fails loudPoke name cause := by
  have hanswers : (relay.compile Builtin.catalog).toOption.map (fun compiled =>
      (((compiled.editAll relayEdits).resolve pathPoke).isOk,
        ((compiled.editAll relayEdits).resolve loudPoke).isOk)) = some (true, false) := by
    decide +kernel
  cases hcompile : relay.compile Builtin.catalog with
  | error cause =>
    rw [hcompile] at hanswers
    cases hanswers
  | ok compiled =>
    rw [hcompile] at hanswers
    obtain ⟨hpath, hloud⟩ := Prod.mk.inj (Option.some.inj hanswers)
    have hdistinct : Builtin.catalog.Distinct := Builtin.distinct_of_action?
    refine ⟨compiled, rfl, ?_, ?_⟩
    · cases hresolve : (compiled.editAll relayEdits).resolve pathPoke with
      | error cause =>
        rw [hresolve] at hpath
        cases hpath
      | ok params =>
        exact ⟨params, rfl, (resolve_exact hdistinct hcompile relayEdits _).2.1 params hresolve⟩
    · cases hresolve : (compiled.editAll relayEdits).resolve loudPoke with
      | ok params =>
        rw [hresolve] at hloud
        cases hloud
      | error cause =>
        obtain ⟨before, a, after, name, hactions, -, hfails, -⟩ :=
          (resolve_exact hdistinct hcompile relayEdits _).2.2 cause hresolve
        exact ⟨cause, rfl, a, by simp [hactions], name, hfails⟩

end CompiledRule

end Reflex

import Reflex.Engine
import Reflex.Proofs.Rule.Parameters

/-!
# Runs of the Rule Engine

The engine serves requests one after the other. Whatever it is asked to load and to edit, and
whichever of the edits it refuses, the actions of its active rules are sound at every moment.

## Main definitions

- `Engine.Request`, `Engine.serve`: what can be asked of an engine, and what becomes of it.
- `Engine.Sound`: every action of every active rule is sound.

## Main statements

- `Engine.sound_of_serve`: one request keeps an engine sound.
- `Engine.sound_of_requests`: an engine without rules is sound after any requests.
-/

namespace Reflex.Engine

/-- What can be asked of an engine. -/
inductive Request where
  -- Replace the active rules.
  | load (definitions : List RuleDefinition)
  -- Edit a parameter of an action.
  | edit (id : Identifier) (index : Nat) (name : String) (raw : Json)

/-- Serve a request; an edit that is refused changes nothing. -/
def serve (engine : Engine) : Request → Engine
  | .load definitions => engine.load definitions
  | .edit id index name raw =>
    match engine.setProperty id index name raw with
    | .ok (edited, _) => edited
    | .error _ => engine

/-- Every action of every active rule is sound, and its schema is in the catalog. -/
def Sound (engine : Engine) : Prop :=
  ∀ r ∈ engine.rules, ∀ a ∈ r.actions,
    a.Sound ∧ ∃ type, engine.catalog.action? type = some a.schema

variable {engine edited : Engine} {id : Identifier} {index : Nat} {name : String} {raw : Json}

/-! ## Edits -/

/-- What is found after the first match was changed was there before, or is that match changed. -/
theorem mem_modifyFirst {α : Type} {p : α → Bool} {f : α → α} {l : List α} {x : α}
    (h : x ∈ modifyFirst p f l) : x ∈ l ∨ ∃ a, l.find? p = some a ∧ x = f a := by
  induction l with
  | nil => cases h
  | cons a rest ih =>
    rw [modifyFirst] at h
    cases hp : p a with
    | true =>
      rw [hp, if_pos rfl, List.mem_cons] at h
      rcases h with rfl | h
      · exact .inr ⟨a, List.find?_cons_of_pos hp, rfl⟩
      · exact .inl (List.mem_cons_of_mem a h)
    | false =>
      rw [hp, if_neg Bool.false_ne_true, List.mem_cons] at h
      rw [List.find?_cons_of_neg (by simp [hp])]
      rcases h with rfl | h
      · exact .inl List.mem_cons_self
      · exact (ih h).imp_left (List.mem_cons_of_mem a)

/-- What is in a list after the element at a position was changed was there before, or is that
element changed. -/
theorem mem_modify {α : Type} {f : α → α} {l : List α} {i : Nat} {x : α} (h : x ∈ l.modify i f) :
    x ∈ l ∨ ∃ a, l[i]? = some a ∧ x = f a := by
  obtain ⟨j, hj⟩ := List.mem_iff_getElem?.1 h
  rw [List.getElem?_modify] at hj
  obtain ⟨a, ha, rfl⟩ := Option.map_eq_some_iff.1 hj
  by_cases hij : i = j
  · subst hij
    exact .inr ⟨a, ha, if_pos rfl⟩
  · rw [if_neg hij]
    exact .inl (List.mem_of_getElem? ha)

/-- The action at a position of an active rule. -/
theorem exists_of_action {a : CompiledAction} (h : engine.action id index = .ok a) :
    ∃ rule, engine.rule? id = some rule ∧ rule.actions[index]? = some a := by
  obtain ⟨rule, hrule, haction⟩ := bind_eq_ok.1 h
  refine ⟨rule, ?_, ?_⟩
  · unfold requireRule at hrule
    split at hrule
    next hfound => rw [hfound, Except.ok.inj hrule]
    next => cases hrule
  · unfold requireAction at haction
    split at haction
    next hfound => rw [hfound, Except.ok.inj haction]
    next => cases haction

/-- An accepted edit puts a written store into the action that it names. -/
theorem exists_of_setProperty {version : Nat}
    (h : engine.setProperty id index name raw = .ok (edited, version)) :
    ∃ rule a store, engine.rule? id = some rule ∧ rule.actions[index]? = some a ∧
      a.store.set name raw = .ok store ∧ edited = engine.putStore id index store := by
  obtain ⟨a, haction, h⟩ := bind_eq_ok.1 h
  obtain ⟨store, hstore, h⟩ := bind_eq_ok.1 h
  obtain ⟨rule, hrule, hat⟩ := exists_of_action haction
  have hset : a.store.set name raw = .ok store := by
    unfold Failure.ofValidation at hstore
    split at hstore
    next written hwritten => rw [hwritten, Except.ok.inj hstore]
    next => cases hstore
  exact ⟨rule, a, store, hrule, hat, hset, (Prod.mk.inj (Except.ok.inj h)).1.symm⟩

/-- What a write to its store keeps of an action, an accepted edit keeps of all actions. -/
theorem forall_actions_of_setProperty {P : CompiledAction → Prop} {version : Nat}
    (hset : ∀ a store, P a → a.store.set name raw = .ok store → P { a with store })
    (h : ∀ r ∈ engine.rules, ∀ a ∈ r.actions, P a)
    (hedit : engine.setProperty id index name raw = .ok (edited, version)) :
    ∀ r ∈ edited.rules, ∀ a ∈ r.actions, P a := by
  obtain ⟨rule, a, store, hrule, hat, hwritten, rfl⟩ := exists_of_setProperty hedit
  intro r hr b hb
  rcases mem_modifyFirst hr with hr | ⟨found, hfound, rfl⟩
  · exact h r hr b hb
  -- the rule that was changed is the one in which the action was looked up
  obtain rfl : found = rule := Option.some.inj (hfound.symm.trans hrule)
  have hmem : found ∈ engine.rules := List.mem_of_find?_eq_some hfound
  rcases mem_modify hb with hb | ⟨before, hbefore, rfl⟩
  · exact h found hmem b hb
  · obtain rfl : before = a := Option.some.inj (hbefore.symm.trans hat)
    exact hset before store (h found hmem before (List.mem_of_getElem? hat)) hwritten

/-- An edit does not change the catalog. -/
theorem catalog_of_setProperty {version : Nat}
    (h : engine.setProperty id index name raw = .ok (edited, version)) :
    edited.catalog = engine.catalog := by
  obtain ⟨-, -, -, -, -, -, rfl⟩ := exists_of_setProperty h
  rfl

/-- An accepted edit keeps an engine sound. -/
theorem Sound.edit (h : engine.Sound) {version : Nat}
    (hedit : engine.setProperty id index name raw = .ok (edited, version)) : edited.Sound := by
  rw [Sound, catalog_of_setProperty hedit]
  exact forall_actions_of_setProperty (fun a store ha hset => ⟨ha.1.set hset, ha.2⟩) h hedit

/-! ## Runs -/

/-- The active rules are those of the definitions that compile. -/
theorem mem_rules_load {definitions : List RuleDefinition} {rule : CompiledRule} :
    rule ∈ (engine.load definitions).rules ↔
      ∃ d ∈ definitions, d.compile engine.catalog = .ok rule := by
  rw [load, List.mem_filterMap]
  refine exists_congr fun d => and_congr_right fun _ => ?_
  rw [compiled?, compile]
  cases d.compile engine.catalog with
  | ok compiled => simp [Except.toOption]
  | error e => simp [Except.toOption]

/-- What holds of every compiled action holds of all actions after loading. -/
theorem forall_actions_load {P : CompiledAction → Prop} {definitions : List RuleDefinition}
    (h : ∀ (d : ActionDefinition) i a, d.compile engine.catalog i = .ok a → P a) :
    ∀ r ∈ (engine.load definitions).rules, ∀ a ∈ r.actions, P a := by
  intro r hr a ha
  obtain ⟨d, -, hcompile⟩ := mem_rules_load.1 hr
  obtain ⟨definition, -, i, haction⟩ := RuleDefinition.exists_of_compile hcompile ha
  exact h definition i a haction

/-- Loading makes an engine sound, provided that parameters of the same schema differ. -/
theorem sound_load {definitions : List RuleDefinition}
    (hdistinct : ∀ type schema, engine.catalog.action? type = some schema →
      PropertyStore.Distinct schema.properties) : (engine.load definitions).Sound :=
  forall_actions_load fun d _ _ haction =>
    (ActionDefinition.sound_of_compile (hdistinct d.type) haction).imp_right fun hschema =>
      ⟨d.type, hschema⟩

/-- No request changes the catalog. -/
theorem catalog_serve (request : Request) : (engine.serve request).catalog = engine.catalog := by
  cases request with
  | load definitions => rfl
  | edit id index name raw =>
    rw [serve]
    split
    next hedit => exact catalog_of_setProperty hedit
    next => rfl

/-- One request keeps an engine sound. -/
theorem sound_of_serve (hdistinct : ∀ type schema, engine.catalog.action? type = some schema →
      PropertyStore.Distinct schema.properties) (h : engine.Sound) (request : Request) :
    (engine.serve request).Sound := by
  cases request with
  | load definitions => exact sound_load hdistinct
  | edit id index name raw =>
    rw [serve]
    split
    next hedit => exact h.edit hedit
    next => exact h

/-- Any requests keep an engine sound, and its catalog. -/
theorem sound_of_requests (hdistinct : ∀ type schema, engine.catalog.action? type = some schema →
      PropertyStore.Distinct schema.properties) (h : engine.Sound) (requests : List Request) :
    (requests.foldl serve engine).Sound ∧
      (requests.foldl serve engine).catalog = engine.catalog := by
  induction requests generalizing engine with
  | nil => exact ⟨h, rfl⟩
  | cons request later ih =>
    have hserved := sound_of_serve hdistinct h request
    rw [← catalog_serve request] at hdistinct
    obtain ⟨hsound, hcatalog⟩ := ih hdistinct hserved
    exact ⟨hsound, hcatalog.trans (catalog_serve request)⟩

end Reflex.Engine

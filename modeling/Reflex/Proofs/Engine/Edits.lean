import Reflex.Proofs.Engine
import Reflex.Proofs.PropertyStore.Batches
import Reflex.Proofs.PropertyStore.Writes

/-!
# Literals, Batches and Edits

There are three ways to give parameters to an action: as literals of its definition, as a batch that
is written to its store, and as edits of the engine, one after the other. They accept the same
entries, refuse them for the same reason, and leave the same values.

## Main definitions

- `CompiledRule.putStore`: a rule with another store in one of its actions.
- `Engine.editEach`: edits of an action, one after the other.

## Main statements

- `ActionDefinition.compile_eq_of_setEach`: literals are written to the defaults.
- `Engine.editEach_eq`: edits of the engine are writes to the store of the action.
- `Engine.same_values_of_literals_batches_edits`: all of it together.
-/

namespace Reflex

open PropertyStore

/-! ## Literals -/

/-- The literals of an action are accepted exactly if they can be written to the defaults one after
the other, and the store of the compiled action has the values that they leave. -/
theorem ActionDefinition.compile_eq_of_setEach {catalog : Catalog} {index : Nat}
    {a : ActionDefinition} {schema : ActionSchema} (hschema : catalog.action? a.type = some schema)
    (hparams : a.params.entries.forM (checkParam schema index) = .ok ()) :
    a.compile catalog index =
      match new schema.properties >>= fun s => s.setEach a.literals with
      | .error cause => .error (.invalidParameter index cause)
      | .ok s =>
        match missing? schema s a.bindings with
        | some d => .error (.invalidParameter index (.missingProperty d.name))
        | none => .ok {
            schema, store := s.atVersion 0, bindings := a.bindings, timeoutMs := a.timeoutMs } := by
  have hseeded : seeded schema.properties a.literals =
      atVersion 0 <$> (new schema.properties >>= fun s => s.setEach a.literals) := by
    rw [seeded_eq_new_setMany]
    simp only [setMany_eq_setEach, map_bind, Functor.map_map, atVersion_atVersion]
  rw [compile, hschema]
  change (a.params.entries.forM (checkParam schema index) >>= _) = _
  rw [hparams, hseeded]
  cases new schema.properties >>= fun s => s.setEach a.literals with
  | error cause => rfl
  | ok s => rfl

/-! ## Stores of actions -/

/-- A rule with another store in one of its actions. -/
def CompiledRule.putStore (r : CompiledRule) (index : Nat) (store : PropertyStore) : CompiledRule :=
  { r with actions := r.actions.modify index fun a => { a with store } }

theorem CompiledRule.putStore_putStore (r : CompiledRule) (index : Nat)
    (first last : PropertyStore) :
    (r.putStore index first).putStore index last = r.putStore index last := by
  simp only [putStore, List.modify_modify_eq]
  rfl

theorem Failure.ofValidation_bind {α β : Type} (x : Except ValidationError α)
    (f : α → Except ValidationError β) :
    ofValidation (x >>= f) = ofValidation x >>= fun a => ofValidation (f a) := by
  cases x <;> rfl

namespace Engine

section ModifyFirst

variable {α : Type} {p : α → Bool} {f g : α → α}

/-- The first match is found changed. -/
theorem find?_modifyFirst (hf : ∀ a, p (f a) = p a) (l : List α) :
    (modifyFirst p f l).find? p = (l.find? p).map f := by
  induction l with
  | nil => rfl
  | cons a rest ih =>
    rw [modifyFirst]
    cases hp : p a with
    | true => simp [hp, hf]
    | false => simp [hp, ih]

/-- What is changed twice can be changed at once. -/
theorem modifyFirst_modifyFirst (hf : ∀ a, p (f a) = p a) (l : List α) :
    modifyFirst p g (modifyFirst p f l) = modifyFirst p (g ∘ f) l := by
  induction l with
  | nil => rfl
  | cons a rest ih =>
    rw [modifyFirst, modifyFirst]
    cases hp : p a with
    | true => simp [modifyFirst, hp, hf]
    | false => simp [modifyFirst, hp, ih]

theorem modifyFirst_eq_self {l : List α} (h : ∀ a, l.find? p = some a → f a = a) :
    modifyFirst p f l = l := by
  induction l with
  | nil => rfl
  | cons a rest ih =>
    rw [modifyFirst]
    cases hp : p a with
    | true => rw [if_pos rfl, h a (List.find?_cons_of_pos hp)]
    | false =>
      rw [if_neg Bool.false_ne_true, ih]
      intro b hb
      exact h b (by rwa [List.find?_cons_of_neg (by simp [hp])])

end ModifyFirst

variable {engine : Engine} {id : Identifier} {index : Nat} {a : CompiledAction}
  {store : PropertyStore}

/-- An action is found at a position of the first rule with the identifier. -/
theorem action_eq_ok_iff : engine.action id index = .ok a ↔
    ∃ rule, engine.rule? id = some rule ∧ rule.actions[index]? = some a := by
  refine ⟨exists_of_action, ?_⟩
  rintro ⟨rule, hrule, ha⟩
  rw [action, requireRule, hrule]
  show requireAction rule index = .ok a
  rw [requireAction, ha]

theorem rule?_putStore (engine : Engine) (id : Identifier) (index : Nat) (store : PropertyStore) :
    (engine.putStore id index store).rule? id =
      (engine.rule? id).map fun r => r.putStore index store :=
  find?_modifyFirst (f := fun r : CompiledRule => r.putStore index store) (fun _ => rfl)
    engine.rules

/-- An action is found with the store that was put into it. -/
theorem action_putStore (h : engine.action id index = .ok a) (store : PropertyStore) :
    (engine.putStore id index store).action id index = .ok { a with store } := by
  obtain ⟨rule, hrule, ha⟩ := action_eq_ok_iff.1 h
  refine action_eq_ok_iff.2 ⟨rule.putStore index store, ?_, ?_⟩
  · rw [rule?_putStore, hrule, Option.map_some]
  · rw [CompiledRule.putStore, List.getElem?_modify_eq, ha, Option.map_eq_map, Option.map_some]

/-- Of two stores that are put into an action the last one stays. -/
theorem putStore_putStore (engine : Engine) (id : Identifier) (index : Nat)
    (first last : PropertyStore) :
    (engine.putStore id index first).putStore id index last = engine.putStore id index last := by
  let put (store : PropertyStore) (r : CompiledRule) := r.putStore index store
  have htwice : put last ∘ put first = put last :=
    funext fun r => r.putStore_putStore index first last
  have hrules := modifyFirst_modifyFirst (p := fun r : CompiledRule => r.id == id)
    (f := put first) (g := put last) (fun _ => rfl) engine.rules
  rw [htwice] at hrules
  exact congrArg (fun rules => { engine with rules }) hrules

/-- An action has its own store. -/
theorem putStore_self (h : engine.action id index = .ok a) :
    engine.putStore id index a.store = engine := by
  obtain ⟨rule, hrule, ha⟩ := action_eq_ok_iff.1 h
  rw [putStore, modifyFirst_eq_self]
  intro found hfound
  obtain rfl : found = rule := Option.some.inj (hfound.symm.trans hrule)
  have hsame : (found.actions.modify index fun b => { b with store := a.store }) =
      found.actions := by
    refine List.ext_getElem? fun i => ?_
    rw [List.getElem?_modify]
    split
    next hi =>
      subst hi
      rw [ha]
      rfl
    next => exact congrFun Option.map_id _
  rw [hsame]

/-! ## Edits -/

/-- Edit parameters of an action one after the other. -/
def editEach (engine : Engine) (id : Identifier) (index : Nat) (entries : RawEntries) :
    Except Failure Engine :=
  entries.foldlM (fun edited e => Prod.fst <$> edited.setProperty id index e.1 e.2) engine

/-- An edit writes to the store of the action. -/
theorem setProperty_eq (h : engine.action id index = .ok a) (name : String) (raw : Json) :
    engine.setProperty id index name raw =
      (fun store => (engine.putStore id index store, store.snapshot.version)) <$>
        Failure.ofValidation (a.store.set name raw) := by
  rw [setProperty, h, ← bind_pure_comp]
  rfl

/-- Edits are accepted exactly if they can be written to the store of the action, and they change
nothing but this store. The induction is on the edits: the first one leaves an engine in which the
action has the store that was written. -/
theorem editEach_eq (h : engine.action id index = .ok a) (entries : RawEntries) :
    engine.editEach id index entries =
      engine.putStore id index <$> Failure.ofValidation (a.store.setEach entries) := by
  induction entries generalizing engine a with
  | nil => exact congrArg Except.ok (putStore_self h).symm
  | cons e rest ih =>
    have hrest (store : PropertyStore) : (engine.putStore id index store).editEach id index rest =
        engine.putStore id index <$> Failure.ofValidation (store.setEach rest) := by
      rw [ih (action_putStore h store)]
      exact congrArg (· <$> _) (funext fun last => putStore_putStore engine id index store last)
    calc engine.editEach id index (e :: rest)
        = (Prod.fst <$> engine.setProperty id index e.1 e.2) >>= fun edited =>
            edited.editEach id index rest := List.foldlM_cons
      _ = Failure.ofValidation (a.store.set e.1 e.2) >>= fun store =>
            (engine.putStore id index store).editEach id index rest := by
          rw [setProperty_eq h, Functor.map_map, bind_map_left]
      _ = engine.putStore id index <$> (Failure.ofValidation (a.store.set e.1 e.2) >>= fun store =>
            Failure.ofValidation (store.setEach rest)) := by
          rw [map_bind]
          simp only [hrest]
      _ = engine.putStore id index <$> Failure.ofValidation (a.store.setEach (e :: rest)) := by
          rw [← Failure.ofValidation_bind]
          rfl

/-- However parameters are given, the same entries are accepted, the first one that is refused is
refused for the same reason, and the same values are left. A store is seeded with entries exactly if
they can be written to the defaults as a batch; a batch can be cut in two, and into single writes;
it leaves the last value of every name, normalised, or is refused for its first bad entry; the
literals of an action that is compiled are single writes to the defaults; and edits of the engine
are single writes to the store of the action, which is found in its place afterwards. -/
theorem same_values_of_literals_batches_edits (declared : List Descriptor) (s : PropertyStore)
    (entries first last : RawEntries) :
    seeded declared entries = atVersion 0 <$> (new declared >>= fun t => t.setMany entries) ∧
    (∀ t, seeded declared entries = .ok t → t.snapshot.version = 0) ∧
    (∀ t, (new declared >>= fun t => t.setMany entries) = .ok t → t.snapshot.version = 1) ∧
    s.setMany (first ++ last) =
      atVersion (s.snapshot.version + 1) <$> (s.setMany first >>= fun t => t.setMany last) ∧
    s.setMany entries = atVersion (s.snapshot.version + 1) <$> s.setEach entries ∧
    (∀ t, s.setMany entries = .ok t → Updated s t entries) ∧
    (∀ cause, s.setMany entries = .error cause → s.Refused entries cause) ∧
    (∀ (catalog : Catalog) (position : Nat) (d : ActionDefinition) (schema : ActionSchema),
      catalog.action? d.type = some schema →
      d.params.entries.forM (ActionDefinition.checkParam schema position) = .ok () →
      d.compile catalog position =
        match new schema.properties >>= fun t => t.setEach d.literals with
        | .error cause => .error (.invalidParameter position cause)
        | .ok t =>
          match ActionDefinition.missing? schema t d.bindings with
          | some p => .error (.invalidParameter position (.missingProperty p.name))
          | none => .ok {
              schema, store := t.atVersion 0, bindings := d.bindings, timeoutMs := d.timeoutMs }) ∧
    ∀ (engine : Engine) (id : Identifier) (index : Nat) (a : CompiledAction),
      engine.action id index = .ok a →
      engine.editEach id index entries =
        engine.putStore id index <$> Failure.ofValidation (a.store.setEach entries) ∧
      ∀ store, (engine.putStore id index store).action id index = .ok { a with store } :=
  ⟨seeded_eq_new_setMany declared entries, fun _ => version_of_seeded,
    fun _ => version_of_new_setMany, s.setMany_append first last, s.setMany_eq_setEach entries,
    fun _ => updated_of_setMany, fun _ => refused_of_setMany,
    fun _ _ _ _ => ActionDefinition.compile_eq_of_setEach,
    fun _ _ _ _ haction => ⟨editEach_eq haction entries, action_putStore haction⟩⟩

/-- An action with a number and a text. -/
def counting : ActionSchema where
  type := "count"
  name := "Count"
  properties := [{ name := "label", type := .string }, { name := "start", type := .int }]

/-- This action with a number. -/
def countFromSeven : ActionDefinition where
  type := "count"
  params := .ofList [("start", .literal (.ofString " 7 "))]

/-- An engine with a rule of this action. -/
def countingEngine : Engine :=
  Engine.load { catalog := Catalog.registerAction {} counting }
    [{ id := ⟨61, by decide⟩, name := "Count", trigger := .always, actions := [countFromSeven] }]

/-- The number that is given as a literal is edited twice. -/
theorem same_values_of_two_edits : ∃ (edited : Engine) (before after : CompiledAction),
    countFromSeven.compile countingEngine.catalog 0 = .ok before ∧
    countingEngine.action ⟨61, by decide⟩ 0 = .ok before ∧
    before.store.get? "start" = some (.int 7) ∧
    countingEngine.editEach ⟨61, by decide⟩ 0 [("start", .int 8), ("start", .string "9")] =
      .ok edited ∧
    edited.action ⟨61, by decide⟩ 0 = .ok after ∧ after.store.get? "start" = some (.int 9) := by
  obtain ⟨defaults, given, written, hdefaults, hgiven, hseven, haction, hwritten, hnine⟩ :
      ∃ defaults given written, new counting.properties = .ok defaults ∧
        defaults.setEach countFromSeven.literals = .ok given ∧
        given.get? "start" = some (.int 7) ∧
        countingEngine.action ⟨61, by decide⟩ 0 = .ok {
          schema := counting, store := given.atVersion 0, bindings := .empty, timeoutMs := none } ∧
        (given.atVersion 0).setEach [("start", .int 8), ("start", .string "9")] = .ok written ∧
        written.get? "start" = some (.int 9) := ⟨_, _, _, rfl, rfl, rfl, rfl, rfl, rfl⟩
  obtain ⟨-, -, -, -, -, -, -, hcompile, hedits⟩ := same_values_of_literals_batches_edits
    counting.properties (given.atVersion 0) [("start", .int 8), ("start", .string "9")] [] []
  obtain ⟨hedit, hfound⟩ := hedits _ _ _ _ haction
  refine ⟨_, _, _, ?_, haction, hseven, ?_, hfound written, hnine⟩
  · rw [hcompile countingEngine.catalog 0 countFromSeven counting rfl rfl, hdefaults]
    show (match defaults.setEach countFromSeven.literals with | .error _ => _ | .ok _ => _) = _
    rw [hgiven]
    rfl
  · rw [hedit, hwritten]
    rfl

end Engine

end Reflex

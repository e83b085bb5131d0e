import Reflex.Proofs.Builtin.Catalog
import Reflex.Proofs.Rule.Parameters
import Reflex.Proofs.PropertyStore.Seeding

/-!
# What the Compiler Accepts

The compiler accepts exactly the rules that have a name, an action, a trigger that compiles, and
actions whose parameters are declared, bound to named fields, valid and complete. A rule that it
refuses has a list of violations, and the first of them is the error. A rule that it accepts keeps
its definition, and the store of each of its actions starts with the defaults, overlaid with the
literals.

## Main definitions

- `ActionDefinition.violations`, `RuleDefinition.violations`: everything that is wrong with a rule,
  in the order in which it is checked.
- `ActionDefinition.Acceptable`, `RuleDefinition.Acceptable`: rules with nothing wrong.
- `ActionDefinition.CompilesTo`, `RuleDefinition.CompilesTo`: what a compiled rule has in common
  with its definition.

## Main statements

- `RuleDefinition.stopsAtFirst_compileCause`: the first violation decides.
- `RuleDefinition.violations_eq_nil_iff`: what it means that there is none.
- `RuleDefinition.compilesTo_of_compile`: what becomes of a rule that is accepted.
- `RuleDefinition.compile_exact`: all three.
-/

namespace Reflex

open PropertyStore

/-- The parameters of every action type can be told apart. -/
def Catalog.Distinct (c : Catalog) : Prop :=
  ∀ type schema, c.action? type = some schema → PropertyStore.Distinct schema.properties

namespace ActionDefinition

/-! ## Parameters -/

/-- The literal of a source, if it is one. -/
def literal? : ParamSource → Option Json
  | .literal value => some value.json
  | .eventField _ => none

section Params

variable (a : ActionDefinition) (name : String)

/-- The literals are the parameters that are one. -/
theorem literals_eq : a.literals =
    a.params.entries.filterMap fun e => (literal? e.2).map fun raw => (e.1, raw) := by
  refine List.filterMap_congr fun e _ => ?_
  rcases e with ⟨_, _ | _⟩ <;> rfl

/-- Every parameter has one literal at most. -/
theorem nodup_literals : (a.literals.map (·.1)).Nodup := by
  rw [literals_eq]
  exact Dict.nodup_filterMap literal? a.params.nodup_keys

/-- The literal of a parameter. -/
theorem lookup_literals : Dict.lookup name a.literals = (a.params.get? name).bind literal? := by
  rw [literals_eq]
  exact Dict.lookup_filterMap literal? a.params.nodup_keys name

/-- The event field that a parameter is bound to. -/
theorem get?_bindings : a.bindings.get? name = (a.params.get? name).bind boundField? := by
  rw [bindings, Dict.get?_ofList (Dict.nodup_filterMap boundField? a.params.nodup_keys)]
  exact Dict.lookup_filterMap boundField? a.params.nodup_keys name

/-- A parameter that has neither a literal nor a binding is not there. -/
theorem isNone_get?_params :
    (a.params.get? name).isNone =
      ((Dict.lookup name a.literals).isNone && (a.bindings.get? name).isNone) := by
  rw [lookup_literals, get?_bindings]
  rcases a.params.get? name with _ | _ | _ <;> rfl

end Params

/-! ## Actions -/

/-- What is wrong with a parameter, apart from its value. -/
def paramViolations (schema : ActionSchema) (index : Nat) :
    String × ParamSource → List CompileCause
  | (name, source) =>
    if (schema.property? name).isNone then [.unknownParameter index name]
    else
      match source with
      | .eventField field => if Text.isBlank field then [.emptyBinding index name] else []
      | .literal _ => []

/-- Whether a required property gets no value from anywhere. -/
def lacks (a : ActionDefinition) (d : Descriptor) : Bool :=
  d.required && d.default.isNone && (a.params.get? d.name).isNone

/-- What is wrong with an action of a schema: its parameters, the defaults, the literals, and what
is missing. Parameters and values are in the order of their names, and what is missing in the order
of the declarations. -/
def schemaViolations (schema : ActionSchema) (index : Nat) (a : ActionDefinition) :
    List CompileCause :=
  let declared := PropertyStore.index schema.properties
  a.params.entries.flatMap (paramViolations schema index) ++
    ((valueViolations declared (rawDefaults declared) ++ valueViolations declared a.literals).map
      (.invalidParameter index) ++
    (schema.properties.filter a.lacks).map fun d =>
      .invalidParameter index (.missingProperty d.name))

/-- What is wrong with the action at a position of its rule. -/
def violations (catalog : Catalog) (index : Nat) (a : ActionDefinition) : List CompileCause :=
  match catalog.action? a.type with
  | some schema => a.schemaViolations schema index
  | none => [.unknownActionType index a.type]

/-- An action of a schema with which nothing is wrong. -/
structure Acceptable (schema : ActionSchema) (a : ActionDefinition) : Prop where
  /-- Every parameter is declared. -/
  declared : ∀ name source, a.params.get? name = some source → (schema.property? name).isSome
  /-- Every binding names an event field. -/
  named : ∀ name field, a.params.get? name = some (.eventField field) → Text.isBlank field = false
  /-- Every default is valid. -/
  defaults : ∀ d ∈ schema.properties, ∀ v, d.default = some v → ∃ w, d.revalidate v = .ok w
  /-- Every literal is valid. -/
  literals : ∀ name value d, a.params.get? name = some (.literal value) →
    schema.property? name = some d → ∃ w, d.normalize value.json = .ok w
  /-- Every required property has a literal, a default or a binding. -/
  supplied : ∀ d ∈ schema.properties, d.required = true →
    d.default.isSome ∨ (a.params.get? d.name).isSome

/-- The initial value of a property: the literal, or else the default, normalised. -/
def initialValue? (schema : ActionSchema) (a : ActionDefinition) (name : String) : Option Value :=
  (schema.property? name).bind fun d =>
    match a.params.get? name with
    | some (.literal value) => (d.normalize value.json).toOption
    | _ => d.default.bind fun v => (d.revalidate v).toOption

/-- What a compiled action has in common with its definition. -/
structure CompilesTo (catalog : Catalog) (a : ActionDefinition) (action : CompiledAction) :
    Prop where
  /-- The schema is the one of the action type. -/
  schema : catalog.action? a.type = some action.schema
  /-- The store has the properties of the schema. -/
  declared : action.store.descriptors = PropertyStore.index action.schema.properties
  /-- It has its first version. -/
  version : action.store.snapshot.version = 0
  /-- It holds the defaults, overlaid with the literals. -/
  values : ∀ name, action.store.get? name = a.initialValue? action.schema name
  /-- The bindings are the parameters that are bound. -/
  bound : ∀ name field, action.bindings.get? name = some field ↔
    a.params.get? name = some (.eventField field)
  /-- The deadline is the declared one. -/
  timeout : action.timeoutMs = a.timeoutMs

section Compile

variable {catalog : Catalog} {schema : ActionSchema} {a : ActionDefinition}
  {action : CompiledAction} {index : Nat}

theorem stopsAtFirst_checkParam (param : String × ParamSource) :
    StopsAtFirst (paramViolations schema index param) (checkParam schema index param) := by
  obtain ⟨name, source⟩ := param
  unfold paramViolations checkParam
  dsimp only
  split
  · rfl
  · cases source with
    | literal value => rfl
    | eventField field =>
      dsimp only
      split <;> rfl

/-- In a new store the first property that is missing is the first one that the action lacks. -/
theorem missing?_eq_head? {store : PropertyStore} (hdistinct : Distinct schema.properties)
    (hseeded : seeded schema.properties a.literals = .ok store) :
    missing? schema store a.bindings = (schema.properties.filter a.lacks).head? := by
  rw [missing?, ← List.head?_filter]
  congr 1
  refine List.filter_congr fun d hd => ?_
  rw [lacks, isNone_get?_of_seeded hseeded a.nodup_literals, lookup_rawDefaults,
    hdistinct.index_get? hd, Option.bind_some, Option.isNone_map, isNone_get?_params, Dict.contains]
  cases d.required <;> cases d.default <;> cases Dict.lookup d.name a.literals <;>
    cases a.bindings.get? d.name <;> rfl

/-- The first violation of an action decides. -/
theorem stopsAtFirst_compile (hdistinct : catalog.Distinct) :
    StopsAtFirst (a.violations catalog index) (a.compile catalog index) := by
  unfold violations compile
  cases hfound : catalog.action? a.type with
  | none => rfl
  | some schema =>
    refine (StopsAtFirst.forM stopsAtFirst_checkParam _).bind fun _ _ => ?_
    have hvalues := (stopsAtFirst_seeded schema.properties a.literals).mapError
      (CompileCause.invalidParameter index)
    cases hseeded : seeded schema.properties a.literals with
    | error cause =>
      rw [hseeded] at hvalues
      exact StopsAtFirst.bind (x := .error _) hvalues (by simp)
    | ok store =>
      rw [hseeded] at hvalues
      refine StopsAtFirst.bind (x := .ok store) hvalues ?_
      rintro _ ⟨⟩
      dsimp only
      rw [missing?_eq_head? (hdistinct _ schema hfound) hseeded]
      cases schema.properties.filter a.lacks <;> rfl

/-- Nothing is wrong with a parameter that is declared and, if it is bound, bound to a named
field. -/
theorem paramViolations_eq_nil_iff {name : String} {source : ParamSource} :
    paramViolations schema index (name, source) = [] ↔
      (schema.property? name).isSome ∧
        ∀ field, source = .eventField field → Text.isBlank field = false := by
  unfold paramViolations
  cases hfound : schema.property? name <;> cases source <;> simp [hfound]

/-- Validation by name is validation by the property of the name. -/
theorem validateIn_eq (hdistinct : Distinct schema.properties) {name : String} {d : Descriptor}
    (hd : schema.property? name = some d) (raw : Json) :
    validateIn (PropertyStore.index schema.properties) name raw = d.normalize raw := by
  rw [ActionSchema.property?, hdistinct.find?_eq] at hd
  rw [validateIn, hd]

/-- What it means that nothing is wrong with an action of a schema. -/
theorem schemaViolations_eq_nil_iff (hdistinct : Distinct schema.properties) :
    a.schemaViolations schema index = [] ↔ a.Acceptable schema := by
  simp only [schemaViolations, List.append_eq_nil_iff, List.map_eq_nil_iff,
    List.flatMap_eq_nil_iff, valueViolations_eq_nil_iff, List.filter_eq_nil_iff]
  constructor
  · rintro ⟨hparams, ⟨hdefaults, hliterals⟩, hsupplied⟩
    have hparam : ∀ name source, a.params.get? name = some source → _ := fun name source h =>
      paramViolations_eq_nil_iff.1 (hparams (name, source) (Dict.mem_of_lookup h))
    exact {
      declared := fun name source h => (hparam name source h).1
      named := fun name field h => (hparam name _ h).2 field rfl
      defaults := by
        intro d hd v hv
        have hraw : Dict.lookup d.name (rawDefaults (PropertyStore.index schema.properties)) =
            some v.toRaw := by
          rw [lookup_rawDefaults, hdistinct.index_get? hd, Option.bind_some, hv]
          rfl
        have hvalid := hdefaults _ (Dict.mem_of_lookup hraw)
        rw [validateIn_eq hdistinct (hdistinct.find?_eq.trans (hdistinct.index_get? hd))] at hvalid
        exact hvalid
      literals := by
        intro name value d hvalue hd
        have hraw : Dict.lookup name a.literals = some value.json := by
          rw [lookup_literals, hvalue]
          rfl
        have hvalid := hliterals _ (Dict.mem_of_lookup hraw)
        rw [validateIn_eq hdistinct hd] at hvalid
        exact hvalid
      supplied := by
        intro d hd hrequired
        have hlacks := hsupplied d hd
        rw [lacks, hrequired] at hlacks
        cases hdefault : d.default <;> cases hparam : a.params.get? d.name <;> simp_all }
  · intro h
    refine ⟨fun ⟨name, source⟩ hparam => ?_,
      ⟨fun ⟨name, raw⟩ hraw => ?_, fun ⟨name, raw⟩ hraw => ?_⟩, fun d hd hlacks => ?_⟩
    · have hparam := (Dict.lookup_eq_some_iff a.params.nodup_keys).2 hparam
      refine paramViolations_eq_nil_iff.2 ⟨h.declared name source hparam, ?_⟩
      rintro field rfl
      exact h.named name field hparam
    · have hlookup := (Dict.lookup_eq_some_iff (nodup_rawDefaults _)).2 hraw
      rw [lookup_rawDefaults, Option.bind_eq_some_iff] at hlookup
      obtain ⟨d, hd, hdefault⟩ := hlookup
      obtain ⟨v, hv, rfl⟩ := Option.map_eq_some_iff.1 hdefault
      rw [validateIn_eq hdistinct (hdistinct.find?_eq.trans hd)]
      exact h.defaults d (mem_of_index hd).1 v hv
    · have hlookup := (Dict.lookup_eq_some_iff a.nodup_literals).2 hraw
      rw [lookup_literals, Option.bind_eq_some_iff] at hlookup
      obtain ⟨source, hsource, hliteral⟩ := hlookup
      obtain ⟨d, hd⟩ := Option.isSome_iff_exists.1 (h.declared name source hsource)
      cases source with
      | eventField field => cases hliteral
      | literal value =>
        obtain rfl := Option.some.inj hliteral
        rw [validateIn_eq hdistinct hd]
        exact h.literals name value d hsource hd
    · simp only [lacks, Bool.and_eq_true, Option.isNone_iff_eq_none] at hlacks
      obtain ⟨⟨hrequired, hdefault⟩, hparam⟩ := hlacks
      simpa [hdefault, hparam] using h.supplied d hd hrequired

/-- What it means that nothing is wrong with an action. -/
theorem violations_eq_nil_iff (hdistinct : catalog.Distinct) :
    a.violations catalog index = [] ↔
      ∃ schema, catalog.action? a.type = some schema ∧ a.Acceptable schema := by
  unfold violations
  cases hfound : catalog.action? a.type with
  | none => simp
  | some schema => simp [schemaViolations_eq_nil_iff (hdistinct _ schema hfound)]

/-- The initial values of a compiled action are the defaults, overlaid with the literals. -/
theorem get?_of_compile (hdistinct : Distinct action.schema.properties)
    (hseeded : seeded action.schema.properties a.literals = .ok action.store) (name : String) :
    action.store.get? name = a.initialValue? action.schema name := by
  rw [get?_of_seeded hseeded a.nodup_literals, lookup_rawDefaults, lookup_literals, initialValue?,
    ActionSchema.property?, hdistinct.find?_eq]
  cases hd : (PropertyStore.index action.schema.properties).get? name with
  | none => simp [validateIn, hd, Except.toOption]
  | some d =>
    have hvalidate : ∀ raw, validateIn (PropertyStore.index action.schema.properties) name raw =
        d.normalize raw := validateIn_eq hdistinct (hdistinct.find?_eq.trans hd)
    have hdefault : ((d.default.map Value.toRaw).bind fun raw => (d.normalize raw).toOption) =
        d.default.bind fun v => (d.revalidate v).toOption := by
      cases d.default <;> rfl
    simp only [hvalidate, Option.bind_some, hdefault]
    cases hsource : a.params.get? name with
    | none => rfl
    | some source =>
      cases source with
      | eventField field => rfl
      | literal value =>
        -- a literal of a store that was seeded is valid, so the default does not show
        have hraw : Dict.lookup name a.literals = some value.json := by
          rw [lookup_literals, hsource]
          rfl
        obtain ⟨v, hv⟩ := exists_of_seeded hseeded (.inl hraw)
        rw [hvalidate] at hv
        simp [literal?, hv, Except.toOption]

/-- A compiled action has the parameters of its definition. -/
theorem compilesTo_of_compile (hdistinct : catalog.Distinct)
    (h : a.compile catalog index = .ok action) : a.CompilesTo catalog action := by
  obtain ⟨hfound, -, hseeded, -, hbindings, htimeout⟩ := compile_eq_ok h
  exact {
    schema := hfound
    declared := (valid_of_seeded hseeded).1
    version := version_of_seeded hseeded
    values := get?_of_compile (hdistinct _ action.schema hfound) hseeded
    bound := by
      intro name field
      rw [hbindings, get?_bindings]
      rcases a.params.get? name with _ | _ | _ <;> simp [boundField?]
    timeout := htimeout }

/-! ## Lists of actions -/

/-- What is wrong with actions that stand from a position on. -/
theorem stopsAtFirst_compileFrom (hdistinct : catalog.Distinct)
    (definitions : List ActionDefinition) (index : Nat) :
    StopsAtFirst ((definitions.zipIdx index).flatMap fun p => p.1.violations catalog p.2)
      (compileFrom catalog index definitions) := by
  induction definitions generalizing index with
  | nil => rfl
  | cons a rest ih =>
    rw [List.zipIdx_cons, List.flatMap_cons]
    exact (stopsAtFirst_compile hdistinct).bind fun _ _ => (ih (index + 1)).map

/-- The compiled actions of a list correspond to their definitions. -/
theorem forall₂_of_compileFrom (hdistinct : catalog.Distinct)
    {definitions : List ActionDefinition} {index : Nat} {actions : List CompiledAction}
    (h : compileFrom catalog index definitions = .ok actions) :
    List.Forall₂ (CompilesTo catalog) definitions actions := by
  induction definitions generalizing index actions with
  | nil =>
    obtain rfl := Except.ok.inj h
    exact .nil
  | cons a rest ih =>
    obtain ⟨first, hfirst, hrest⟩ := bind_eq_ok.1 h
    obtain ⟨others, hothers, hactions⟩ := bind_eq_ok.1 hrest
    obtain rfl := Except.ok.inj hactions
    exact .cons (compilesTo_of_compile hdistinct hfirst) (ih hothers)

end Compile

end ActionDefinition

/-! ## Rules -/

namespace RuleDefinition

/-- What is wrong with a rule: its definition, its trigger, and its actions by their positions. -/
def violations (catalog : Catalog) (d : RuleDefinition) : List CompileCause :=
  (if Text.isBlank d.name then [.invalidDefinition .emptyName] else []) ++
    ((if d.actions.isEmpty then [.invalidDefinition .noActions] else []) ++
    ((causes (d.trigger.compile catalog)).map .invalidTrigger ++
    d.actions.zipIdx.flatMap fun p => p.1.violations catalog p.2))

/-- A rule with which nothing is wrong. -/
structure Acceptable (catalog : Catalog) (d : RuleDefinition) : Prop where
  /-- It has a name. -/
  named : Text.isBlank d.name = false
  /-- It has an action. -/
  active : d.actions ≠ []
  /-- Its trigger compiles. -/
  triggered : ∃ condition, d.trigger.compile catalog = .ok condition
  /-- Its actions are known, and nothing is wrong with them. -/
  actions : ∀ a ∈ d.actions, ∃ schema, catalog.action? a.type = some schema ∧ a.Acceptable schema

/-- What a compiled rule has in common with its definition. -/
structure CompilesTo (catalog : Catalog) (d : RuleDefinition) (rule : CompiledRule) : Prop where
  /-- The definition is kept. -/
  definition : rule.definition = d
  /-- The condition is the compiled trigger. -/
  condition : d.trigger.compile catalog = .ok rule.condition
  /-- The actions correspond one to one and in order. -/
  actions : List.Forall₂ (ActionDefinition.CompilesTo catalog) d.actions rule.actions

variable {catalog : Catalog} {d : RuleDefinition} {rule : CompiledRule}

/-- The first violation of a rule decides. -/
theorem stopsAtFirst_compileCause (hdistinct : catalog.Distinct) (d : RuleDefinition) :
    StopsAtFirst (d.violations catalog) (d.compileCause catalog) := by
  unfold compileCause checkInvariants violations
  cases Text.isBlank d.name with
  | true => rfl
  | false =>
    cases d.actions.isEmpty with
    | true => rfl
    | false =>
      have htrigger := (StopsAtFirst.causes (d.trigger.compile catalog)).mapError
        CompileCause.invalidTrigger
      have hactions := ActionDefinition.stopsAtFirst_compileFrom hdistinct d.actions 0
      cases hcompile : d.trigger.compile catalog with
      | error cause => rfl
      | ok condition => exact hactions.map

/-- What it means that nothing is wrong with a rule. -/
theorem violations_eq_nil_iff (hdistinct : catalog.Distinct) :
    d.violations catalog = [] ↔ d.Acceptable catalog := by
  have hactions : (d.actions.zipIdx.flatMap fun p => p.1.violations catalog p.2) = [] ↔
      ∀ a ∈ d.actions, ∃ schema, catalog.action? a.type = some schema ∧ a.Acceptable schema := by
    rw [List.flatMap_eq_nil_iff]
    simp only [ActionDefinition.violations_eq_nil_iff hdistinct]
    conv_rhs => rw [← List.zipIdx_map_fst 0 d.actions, List.forall_mem_map]
  have htrigger := (StopsAtFirst.causes (d.trigger.compile catalog)).exists_ok_iff
  simp only [violations, List.append_eq_nil_iff, List.map_eq_nil_iff, hactions, ← htrigger]
  constructor
  · rintro ⟨hname, hempty, htrigger, hactions⟩
    exact ⟨by simpa using hname, by simpa using hempty, htrigger, hactions⟩
  · intro h
    exact ⟨by simp [h.named], by simp [h.active], h.triggered, h.actions⟩

/-- A compiled rule has the condition and the actions of its definition. -/
theorem compilesTo_of_compile (hdistinct : catalog.Distinct)
    (h : d.compile catalog = .ok rule) : d.CompilesTo catalog rule := by
  obtain ⟨-, hcondition, hactions, hdefinition⟩ := compile_eq_ok h
  exact ⟨hdefinition, hcondition, ActionDefinition.forall₂_of_compileFrom hdistinct hactions⟩

/-- Take any catalog whose action types name each of their parameters once. A rule compiles if and
only if nothing is wrong with it; what it compiles to corresponds to it action by action, and when
it is refused, the error carries its name and is the first of its violations. -/
theorem compile_exact (hdistinct : catalog.Distinct) (d : RuleDefinition) :
    ((∃ rule, d.compile catalog = .ok rule) ↔ d.Acceptable catalog) ∧
    (∀ rule, d.compile catalog = .ok rule → d.CompilesTo catalog rule) ∧
    (∀ e, d.compile catalog = .error e →
      e.rule = d.name ∧ (d.violations catalog).head? = some e.cause) := by
  have hfirst := stopsAtFirst_compileCause hdistinct d
  refine ⟨?_, fun rule h => compilesTo_of_compile hdistinct h, fun e h => ?_⟩
  · rw [← violations_eq_nil_iff hdistinct, ← hfirst.exists_ok_iff]
    unfold compile
    cases d.compileCause catalog <;> simp
  · unfold compile at h
    cases hcause : d.compileCause catalog with
    | ok rule =>
      rw [hcause] at h
      cases h
    | error cause =>
      rw [hcause] at h hfirst
      obtain rfl := Except.error.inj h
      exact ⟨rfl, hfirst⟩

/-- Write a log entry at a level, with the path of a poke as its message, and wait. -/
def echo : RuleDefinition where
  id := { value := 2 }
  name := "Echo"
  trigger := .eventKind Event.debugPoke
  actions := [
    (ActionDefinition.withParam { type := "log" } "level" (.ofString "warn")).withBinding
      "message" "path",
    ActionDefinition.withParam { type := "delay" } "seconds" (.ofString "1.5")]

/-- Without a message, and with the time to wait under another name. -/
def muddle : RuleDefinition :=
  { echo with
    name := "Muddle"
    actions := [{ type := "log" }, ActionDefinition.withBinding { type := "delay" } "time" " "] }

/-- The first rule compiles; the second one is refused for the first of its three violations. -/
theorem compile_exact_of_two_rules :
    (∃ rule, echo.compile Builtin.catalog = .ok rule ∧ echo.CompilesTo Builtin.catalog rule) ∧
    ∃ e, muddle.compile Builtin.catalog = .error e ∧ e.rule = "Muddle" ∧
      (muddle.violations Builtin.catalog).head? = some e.cause ∧
      (muddle.violations Builtin.catalog).length = 3 := by
  have hlength : (muddle.violations Builtin.catalog).length = 3 := by decide +kernel
  have hfine : (echo.compile Builtin.catalog).isOk = true := by decide +kernel
  obtain ⟨-, hecho, -⟩ := compile_exact Builtin.distinct_of_action? echo
  obtain ⟨hmuddle, -, hfirst⟩ := compile_exact Builtin.distinct_of_action? muddle
  constructor
  · cases hcompile : echo.compile Builtin.catalog with
    | ok rule => exact ⟨rule, rfl, hecho rule hcompile⟩
    | error e =>
      rw [hcompile] at hfine
      cases hfine
  · cases hcompile : muddle.compile Builtin.catalog with
    | ok rule =>
      have hnil := (violations_eq_nil_iff Builtin.distinct_of_action?).2
        (hmuddle.1 ⟨rule, hcompile⟩)
      rw [hnil] at hlength
      cases hlength
    | error e =>
      obtain ⟨hrule, hcause⟩ := hfirst e hcompile
      exact ⟨e, rfl, hrule, hcause, hlength⟩

end RuleDefinition

end Reflex

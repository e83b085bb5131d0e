import Reflex.Rule.Compilation

/-!
# Resolving Parameters

When an event triggers a rule, every action gets its parameters frozen: the current values of
its store, overlaid with the fields of the event that parameters are bound to. Later writes to
the store do not change them.

## Main definitions

- `Reflex.CompiledAction.resolve`: the frozen parameters of one action.
- `Reflex.CompiledRule.resolve`: those of all actions of a rule, up to the first error.
-/

namespace Reflex

namespace CompiledAction

/-- Fill one bound parameter. A field that the event carries is validated and takes precedence;
without it a required parameter must have a value already. -/
def fill (a : CompiledAction) (e : Event) (values : Dict Value) (binding : String × String) :
    Except ValidationError (Dict Value) :=
  match e.field? binding.2 with
  | some value => do
    let value ← a.store.revalidate binding.1 value
    return values.insert binding.1 value
  | none =>
    if (a.store.descriptor? binding.1).any (·.required) && !values.contains binding.1 then
      .error (.missingProperty binding.1)
    else .ok values

/-- The parameters of the action for an event, with the version of the store that they were
taken from. -/
def resolve (a : CompiledAction) (e : Event) : Except ValidationError Snapshot := do
  let values ← a.bindings.entries.foldlM (a.fill e) a.store.snapshot.values
  return { version := a.store.snapshot.version, values }

end CompiledAction

/-- The parameters of all actions of the rule for an event. -/
def CompiledRule.resolve (r : CompiledRule) (e : Event) : Except ValidationError (List Snapshot) :=
  r.actions.mapM fun a => a.resolve e

end Reflex

import Reflex.RuleTable.Procedure

/-!
# The Rule Service

The stored rules and the engine that runs the enabled ones. Requests change the stored rules only;
the engine follows with the next reload.

## Main definitions

- `Reflex.RuleService.perform`: a request to the stored rules.
- `Reflex.RuleService.reload`: make the enabled stored rules active.
-/

namespace Reflex

/-- The stored rules and the engine that runs the enabled ones. -/
structure RuleService where
  /-- The active rules. -/
  engine : Engine
  /-- The stored rules. -/
  table : RuleTable := .empty

namespace RuleService

/-- Make all calls of a request to the stored rules. -/
def perform {α : Type} (s : RuleService) (p : Procedure α) : RuleService × Except Failure α :=
  let (table, answer) := p.run s.table
  ({ s with table }, answer)

/-- Make the enabled stored rules active, as far as they compile. The answer is what is wrong with
the others. When they cannot be read, the active rules stay. -/
def reload (s : RuleService) : RuleService × Except Failure (List CompileError) :=
  match s.engine.reload.run s.table with
  | (table, .ok (engine, failures)) => ({ engine, table }, .ok failures)
  | (table, .error e) => ({ s with table }, .error e)

end RuleService

end Reflex

import Reflex.RuleTable.Procedure

/-!
# Requests as Data

The five requests that change the stored rules are made values, so that series of them can be
spoken of. Each is one procedure of calls, and a procedure that ends with a failure has left the
table as it was.

## Main definitions

- `Reflex.RuleRequest`, `Reflex.RuleRequest.procedure`: a request and its calls.
- `Reflex.RuleRequest.runAll`: a series of requests, one after the other.
- `Reflex.Procedure.Atomic`: procedures that change nothing when they fail.

## Main statements

- `Reflex.RuleRequest.atomic_procedure`: every request is atomic.
-/

namespace Reflex

namespace Procedure

variable {α β : Type}

/-- Change the answer of a procedure. -/
def map (f : α → β) : Procedure α → Procedure β
  | .finish answer => .finish (answer.map f)
  | .call effect next => .call effect fun table => (next table).map f

/-- Changing the answer leaves the calls. -/
@[simp] theorem run_map (f : α → β) (p : Procedure α) (table : RuleTable) :
    (p.map f).run table = ((p.run table).1, (p.run table).2.map f) := by
  induction p generalizing table with
  | finish answer => rfl
  | call effect next ih => exact ih table (effect table)

/-! ## Runs -/

section Run

variable {table : RuleTable} {rule : RuleDefinition}

theorem run_query_ok {q : RuleTable → Except StorageFault β} {next : β → Procedure α} {b : β}
    (h : q table = .ok b) : (query q next).run table = (next b).run table := by
  simp only [query, run, h, id]

theorem run_change_ok {f : RuleTable → Except StorageFault RuleTable} {answer : α}
    {changed : RuleTable} (h : f table = .ok changed) :
    (change f answer).run table = (changed, .ok answer) := by
  simp only [change, run, afterChange, h]

theorem run_change_error {f : RuleTable → Except StorageFault RuleTable} {answer : α}
    {fault : StorageFault} (h : f table = .error fault) :
    (change f answer).run table = (table, .error (.storage fault)) := by
  simp only [change, run, afterChange, h, fail]

theorem run_checked_ok {next : Procedure α} (h : rule.checkInvariants = .ok ()) :
    (checked rule next).run table = next.run table := by
  simp only [checked, h]

theorem run_checked_error {next : Procedure α} {cause : ValidationError}
    (h : rule.checkInvariants = .error cause) :
    (checked rule next).run table = (table, .error (.validation cause)) := by
  simp only [checked, h, fail, run]

end Run

/-! ## Failures -/

/-- Whether a procedure leaves the table as it is when it fails. -/
def Atomic (p : Procedure α) : Prop :=
  ∀ table e, (p.run table).2 = .error e → (p.run table).1 = table

theorem Atomic.finish (answer : Except Failure α) : (finish answer).Atomic :=
  fun _ _ _ => rfl

theorem Atomic.query {q : RuleTable → Except StorageFault β} {next : β → Procedure α}
    (h : ∀ b, (next b).Atomic) : (query q next).Atomic := by
  intro table e he
  cases hq : q table with
  | ok b =>
    rw [run_query_ok hq] at he ⊢
    exact h b table e he
  | error fault => simp only [Procedure.query, run, hq, fail, id]

theorem Atomic.change (f : RuleTable → Except StorageFault RuleTable) (answer : α) :
    (change f answer).Atomic := by
  intro table e he
  cases hf : f table with
  | ok changed =>
    rw [run_change_ok hf] at he
    cases he
  | error fault => rw [run_change_error hf]

theorem Atomic.checked {rule : RuleDefinition} {next : Procedure α} (h : next.Atomic) :
    (checked rule next).Atomic := by
  rw [Procedure.checked]
  split
  next => exact h
  next => exact .finish _

theorem Atomic.withRule {id : Identifier} {next : RuleDefinition → Procedure α}
    (h : ∀ rule, (next rule).Atomic) : (withRule id next).Atomic :=
  .query fun found => by
    cases found with
    | some rule => exact h rule
    | none => exact .finish _

theorem Atomic.map {f : α → β} {p : Procedure α} (h : p.Atomic) : (p.map f).Atomic := by
  intro table e he
  rw [run_map] at he ⊢
  cases hp : (p.run table).2 with
  | ok answer =>
    rw [hp] at he
    cases he
  | error cause => exact h table cause hp

end Procedure

/-- A request that may change the stored rules. -/
inductive RuleRequest where
  -- Store a new rule.
  | create (rule : RuleDefinition)
  -- Replace a stored rule.
  | update (rule : RuleDefinition)
  -- Enable or disable a stored rule.
  | setEnabled (id : Identifier) (enabled : Bool)
  -- Store a rule that comes from outside.
  | importRule (rule : RuleDefinition)
  -- Remove a stored rule.
  | delete (id : Identifier)

namespace RuleRequest

/-- The answer of a request: the rule as it is stored then, or nothing after a removal. -/
abbrev Answer : Type := Except Failure (Option RuleDefinition)

/-- The rule that is submitted with a request, if one is. -/
def rule? : RuleRequest → Option RuleDefinition
  | .create rule | .update rule | .importRule rule => some rule
  | .setEnabled _ _ | .delete _ => none

/-- The calls of a request. -/
def procedure : RuleRequest → Procedure (Option RuleDefinition)
  | .create rule => (Procedure.create rule).map some
  | .update rule => (Procedure.update rule).map some
  | .setEnabled id enabled => (Procedure.setEnabled id enabled).map some
  | .importRule rule => (Procedure.importRule rule).map some
  | .delete id => (Procedure.delete id).map fun _ => none

/-- Make requests one after the other: the table after them, and their answers. -/
def runAll : List RuleRequest → RuleTable → RuleTable × List Answer
  | [], table => (table, [])
  | request :: rest, table =>
    let (changed, answer) := request.procedure.run table
    let (last, answers) := runAll rest changed
    (last, answer :: answers)

/-- A request that fails leaves the table as it is. -/
theorem atomic_procedure (request : RuleRequest) : request.procedure.Atomic := by
  cases request with
  | create rule => exact .map (.checked (.change _ _))
  | update rule => exact .map (.checked (.change _ _))
  | setEnabled id enabled => exact .map (.withRule fun _ => .change _ _)
  | importRule rule =>
    refine .map (.checked (.query fun found => ?_))
    cases found <;> exact .change _ _
  | delete id => exact .map (.change _ _)

end RuleRequest

end Reflex

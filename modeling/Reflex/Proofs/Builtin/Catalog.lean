import Reflex.Builtin.Performance
import Reflex.Proofs.PropertyStore

/-!
# What the Built-in Catalog Declares

Every action type of the catalog is one of the listed schemas. The parameters of each have
different names, and each is known to those who perform it.

## Main statements

- `Builtin.mem_actions_of_action?`: what the catalog holds.
- `Builtin.distinct_of_action?`: its parameters can be told apart.
- `Builtin.eq_or_eq_or_platform`: who performs an action of the catalog.
-/

namespace Reflex

namespace Catalog

variable {c : Catalog} {type : String} {s : ActionSchema}

/-- Declared actions are found under their own types. -/
theorem action?_registerActions {schemas : List ActionSchema}
    (h : (schemas.foldl registerAction c).action? type = some s) :
    c.action? type = some s ∨ s ∈ schemas ∧ s.type = type := by
  induction schemas generalizing c with
  | nil => exact .inl h
  | cons schema rest ih =>
    rcases ih h with h | ⟨hs, htype⟩
    · rw [action?, registerAction, Dict.get?_insert] at h
      split at h
      next heq =>
        obtain rfl := Option.some.inj h
        exact .inr ⟨List.mem_cons_self, heq.symm⟩
      next => exact .inl h
    · exact .inr ⟨List.mem_cons_of_mem schema hs, htype⟩

/-- Declared events do not change the actions. -/
theorem actions_registerEvents (schemas : List EventSchema) :
    (schemas.foldl registerEvent c).actions = c.actions := by
  induction schemas generalizing c with
  | nil => rfl
  | cons schema rest ih => exact ih

end Catalog

namespace Builtin

variable {type : String} {s : ActionSchema}

/-- The catalog holds the listed actions under their types. -/
theorem mem_actions_of_action? (h : catalog.action? type = some s) :
    s ∈ actions ∧ s.type = type := by
  rw [catalog, Catalog.action?, Catalog.actions_registerEvents] at h
  rcases Catalog.action?_registerActions h with hempty | hlisted
  · cases hempty
  · exact hlisted

/-- The parameters of a listed action can be told apart. -/
theorem distinct_of_mem_actions (h : s ∈ actions) : PropertyStore.Distinct s.properties := by
  have hall : ∀ s ∈ actions, PropertyStore.Distinct s.properties := by decide
  exact hall s h

theorem distinct_of_action? (type : String) (s : ActionSchema)
    (h : catalog.action? type = some s) : PropertyStore.Distinct s.properties :=
  distinct_of_mem_actions (mem_actions_of_action? h).1

/-- An action of the catalog is a log entry, a pause, or belongs to the platform. -/
theorem eq_or_eq_or_platform (h : s ∈ actions) :
    s = log ∨ s = delay ∨
      s.type ≠ log.type ∧ s.type ≠ delay.type ∧ platformTypes.contains s.type = true := by
  simp only [actions, List.mem_cons, List.not_mem_nil, or_false] at h
  rcases h with rfl | rfl | hplatform
  · exact .inl rfl
  · exact .inr (.inl rfl)
  · right
    right
    have hknown : ∀ t ∈ platformTypes,
        t ≠ log.type ∧ t ≠ delay.type ∧ platformTypes.contains t = true := by decide
    refine hknown s.type (List.mem_map_of_mem ?_)
    simpa using hplatform

end Builtin

end Reflex

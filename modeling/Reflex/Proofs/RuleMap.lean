import Reflex.Proofs.RuleTable.Request

/-!
# Maps of Rules

What the stored rules are to their user: a map from identifiers to rules in which no two rules
have the same name, so that a rule can be looked up by its name too. The requests act on such a map
directly, without rows, columns or texts.

## Main definitions

- `Reflex.RuleMap`: the map with its two look-ups.
- `Reflex.RuleMap.put`, `Reflex.RuleMap.erase`: changes of one rule.
- `Reflex.RuleMap.serve`, `Reflex.RuleMap.serveAll`: what requests do, and their answers.
-/

namespace Reflex

/-- A map from identifiers to rules with different names. -/
structure RuleMap where
  /-- The rule of an identifier. -/
  byId? : Identifier → Option RuleDefinition
  /-- The rule of a name. -/
  byName? : String → Option RuleDefinition
  /-- A rule stands at its identifier. -/
  id_eq : ∀ {id rule}, byId? id = some rule → rule.id = id
  /-- The rule of a name is the one of the map that has the name. -/
  byName?_eq_some : ∀ {name rule},
    byName? name = some rule ↔ byId? rule.id = some rule ∧ rule.name = name

namespace RuleMap

/-- The map without rules. -/
def empty : RuleMap where
  byId? _ := none
  byName? _ := none
  id_eq h := by cases h
  byName?_eq_some := by simp

variable (m : RuleMap)

/-- Whether the name of a rule is free for it: no rule has it, or only the one in its place. -/
def Admits (rule : RuleDefinition) : Prop :=
  ∀ other, m.byName? rule.name = some other → other.id = rule.id

instance (rule : RuleDefinition) : Decidable (m.Admits rule) :=
  match h : m.byName? rule.name with
  | none => isTrue fun other hother => by simp [h] at hother
  | some other => decidable_of_iff (other.id = rule.id) (by simp [Admits, h])

/-- Put a rule into its place. -/
def put (rule : RuleDefinition) (hadmits : m.Admits rule) : RuleMap where
  byId? id := if id = rule.id then some rule else m.byId? id
  byName? name :=
    if name = rule.name then some rule
    else (m.byName? name).filter fun other => other.id ≠ rule.id
  id_eq := by
    intro id other hother
    split at hother
    next hid => rw [← Option.some.inj hother, hid]
    next => exact m.id_eq hother
  byName?_eq_some := by
    intro name other
    by_cases hid : other.id = rule.id <;> by_cases hname : name = rule.name
    · rw [if_pos hname, if_pos hid, hname]
      exact ⟨fun h => ⟨h, by rw [Option.some.inj h]⟩, fun h => h.1⟩
    · rw [if_neg hname, if_pos hid, Option.filter_eq_some_iff]
      refine ⟨fun h => absurd hid (by simpa using h.2), fun ⟨h, hother⟩ => ?_⟩
      exact absurd (by rw [← hother, Option.some.inj h]) hname
    · rw [if_pos hname, if_neg hid, ← m.byName?_eq_some, hname]
      exact ⟨fun h => absurd (by rw [Option.some.inj h]) hid,
        fun h => absurd (hadmits other h) hid⟩
    · rw [if_neg hname, if_neg hid, ← m.byName?_eq_some, Option.filter_eq_some_iff]
      simp [hid]

/-- Remove the rule of an identifier. -/
def erase (id : Identifier) : RuleMap where
  byId? other := if other = id then none else m.byId? other
  byName? name := (m.byName? name).filter fun other => other.id ≠ id
  id_eq := by
    intro i rule hrule
    split at hrule
    · cases hrule
    · exact m.id_eq hrule
  byName?_eq_some := by
    intro name rule
    by_cases hid : rule.id = id <;> simp [Option.filter_eq_some_iff, m.byName?_eq_some, hid]

/-! ## Requests -/

section Admits

variable {m : RuleMap} {rule held : RuleDefinition} {id : Identifier}

/-- A rule may have a name that no rule has. -/
theorem admits_of_free (hname : m.byName? rule.name = none) : m.Admits rule := by
  simp [Admits, hname]

/-- A rule may take the place of the one that has its name, if it has its identifier as well. -/
theorem admits_of_byName? (hheld : m.byName? rule.name = some held) (hid : held.id = rule.id) :
    m.Admits rule := by
  intro other hother
  rw [← Option.some.inj (hheld.symm.trans hother), hid]

/-- The rule of an identifier may be changed in all but its identifier and its name. -/
theorem admits_of_byId? (hheld : m.byId? id = some held) (hid : held.id = rule.id)
    (hname : held.name = rule.name) : m.Admits rule :=
  admits_of_byName? (m.byName?_eq_some.2 ⟨by rwa [m.id_eq hheld], hname⟩) hid

end Admits

/-- Go on only with a rule that satisfies the invariants. -/
def checked (rule : RuleDefinition) (next : RuleMap × RuleRequest.Answer) :
    RuleMap × RuleRequest.Answer :=
  match rule.checkInvariants with
  | .ok () => next
  | .error cause => (m, .error (.validation cause))

/-- Add a rule, whose name and identifier must be free. The name is looked at first. -/
def add (rule : RuleDefinition) : RuleMap × RuleRequest.Answer :=
  match hname : m.byName? rule.name with
  | some _ => (m, .error (.storage .nameTaken))
  | none =>
    match m.byId? rule.id with
    | some _ => (m, .error (.storage .idTaken))
    | none => (m.put rule (admits_of_free hname), .ok (some rule))

/-- Put a rule in place of the one of its identifier, if there is one and the name is free. -/
def replace (rule : RuleDefinition) : RuleMap × RuleRequest.Answer :=
  match m.byId? rule.id with
  | none => (m, .ok (some rule))
  | some _ =>
    if hadmits : m.Admits rule then (m.put rule hadmits, .ok (some rule))
    else (m, .error (.storage .nameTaken))

/-- What a request does to a map, and its answer. -/
def serve : RuleRequest → RuleMap × RuleRequest.Answer
  | .create rule => m.checked rule (m.add rule)
  | .update rule => m.checked rule (m.replace rule)
  | .setEnabled id enabled =>
    match hheld : m.byId? id with
    | some held =>
      (m.put { held with enabled } (admits_of_byId? hheld rfl rfl),
        .ok (some { held with enabled }))
    | none => (m, .error (.notFound { entity := "Rule", id := id.text }))
  | .importRule rule =>
    m.checked rule <|
      match hheld : m.byName? rule.name with
      | some held =>
        (m.put { rule with id := held.id } (admits_of_byName? hheld rfl),
          .ok (some { rule with id := held.id }))
      | none => m.add rule
  | .delete id => (m.erase id, .ok none)

/-- What requests do one after the other, and their answers. -/
def serveAll : List RuleRequest → RuleMap → RuleMap × List RuleRequest.Answer
  | [], m => (m, [])
  | request :: rest, m =>
    let (changed, answer) := m.serve request
    let (last, answers) := serveAll rest changed
    (last, answer :: answers)

section Cases

variable {m : RuleMap} {rule held : RuleDefinition} {id : Identifier} {enabled : Bool}

theorem add_of_name (hname : m.byName? rule.name ≠ none) :
    m.add rule = (m, .error (.storage .nameTaken)) := by
  rw [add]
  split
  next => rfl
  next h => exact absurd h hname

theorem add_of_id (hname : m.byName? rule.name = none) (hid : m.byId? rule.id ≠ none) :
    m.add rule = (m, .error (.storage .idTaken)) := by
  obtain ⟨other, hother⟩ := Option.ne_none_iff_exists'.1 hid
  rw [add]
  split
  next h => rw [hname] at h; cases h
  next => rw [hother]

theorem add_of_free (hname : m.byName? rule.name = none) (hid : m.byId? rule.id = none) :
    m.add rule = (m.put rule (admits_of_free hname), .ok (some rule)) := by
  rw [add]
  split
  next h => rw [hname] at h; cases h
  next => rw [hid]

theorem replace_of_absent (hid : m.byId? rule.id = none) :
    m.replace rule = (m, .ok (some rule)) := by
  rw [replace, hid]

theorem replace_of_clash (hid : m.byId? rule.id ≠ none) (hclash : ¬ m.Admits rule) :
    m.replace rule = (m, .error (.storage .nameTaken)) := by
  obtain ⟨other, hother⟩ := Option.ne_none_iff_exists'.1 hid
  rw [replace, hother]
  exact dif_neg hclash

theorem replace_of_admits (hid : m.byId? rule.id ≠ none) (hadmits : m.Admits rule) :
    m.replace rule = (m.put rule hadmits, .ok (some rule)) := by
  obtain ⟨other, hother⟩ := Option.ne_none_iff_exists'.1 hid
  rw [replace, hother]
  exact dif_pos hadmits

/-- Enabling or disabling a rule of the map is a replacement that cannot fail. -/
theorem serve_setEnabled (hheld : m.byId? id = some held) :
    m.serve (.setEnabled id enabled) = m.replace { held with enabled } := by
  have hid : m.byId? { held with enabled }.id ≠ none := by simp [m.id_eq hheld, hheld]
  rw [serve]
  split
  next other h =>
    obtain rfl := Option.some.inj (hheld.symm.trans h)
    exact (replace_of_admits hid _).symm
  next h => rw [hheld] at h; cases h

theorem serve_setEnabled_of_absent (hid : m.byId? id = none) :
    m.serve (.setEnabled id enabled) =
      (m, .error (.notFound { entity := "Rule", id := id.text })) := by
  rw [serve]
  split
  next h => rw [hid] at h; cases h
  next => rfl

/-- Importing a rule under the name of a rule of the map is a replacement that cannot fail. -/
theorem serve_importRule (hheld : m.byName? rule.name = some held) :
    m.serve (.importRule rule) = m.checked rule (m.replace { rule with id := held.id }) := by
  have hid : m.byId? { rule with id := held.id }.id ≠ none := by
    simp [(m.byName?_eq_some.1 hheld).1]
  rw [serve]
  split
  next other h =>
    obtain rfl := Option.some.inj (hheld.symm.trans h)
    exact congrArg (m.checked rule) (replace_of_admits hid _).symm
  next h => rw [hheld] at h; cases h

theorem serve_importRule_of_absent (hname : m.byName? rule.name = none) :
    m.serve (.importRule rule) = m.checked rule (m.add rule) := by
  rw [serve]
  split
  next h => rw [hname] at h; cases h
  next => rfl

end Cases

end RuleMap

end Reflex

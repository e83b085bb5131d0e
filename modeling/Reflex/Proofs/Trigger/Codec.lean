import Reflex.Trigger
import Reflex.Proofs.Json
import Mathlib.Data.List.Basic

/-!
# Reading Back Triggers

Every trigger is read back from its stored form, in every format. The proof follows the tree; the
fuel of the reader must cover the depth of the stored form.

## Main statements

- `Reflex.Trigger.readTree?_toJson`: with enough fuel the reader gives the trigger.
- `Reflex.Trigger.ofJson?_toJson`: the stored form has enough fuel.
-/

namespace Reflex

@[simp] theorem CompareOp.ofName?_name (op : CompareOp) : ofName? op.name = some op := by
  cases op <;> rfl

namespace Trigger

open Json

/-- An object that starts with its tag and goes on with the fields of the tag is split into the tag
and the record of the fields. -/
theorem open_tagged (r : Reading) (name : String) (fields : List (String × Json)) {tag : Tag}
    (htag : Dict.lookup name tagNames = some tag) (hfields : fields.map (·.1) = tag.fieldNames) :
    splitTag? r (.object (("type", .string name) :: fields)) = some (tag, .object fields) ∧
      Record.ofJson? tag.fieldNames r.below (.object fields) = some ⟨fields⟩ := by
  have hnames : "type" ∉ tag.fieldNames ∧ tag.fieldNames.Nodup := by
    cases tag <;> decide
  have hother : ∀ e ∈ fields, e.1 ≠ "type" := fun e he hname =>
    hnames.1 (hfields ▸ hname ▸ List.mem_map.2 ⟨e, he, rfl⟩)
  refine ⟨?_, Record.ofJson?_object (fun e he => hfields ▸ List.mem_map.2 ⟨e, he, rfl⟩)
    (hfields ▸ hnames.2)⟩
  have htype : (fields.filter fun e => e.1 == "type") = [] :=
    List.filter_eq_nil_iff.2 fun e he h => hother e he (eq_of_beq h)
  have hrest : (fields.filter fun e => e.1 != "type") = fields :=
    List.filter_eq_self.2 fun e he => bne_iff_ne.2 (hother e he)
  simp [splitTag?, readTag?, htype, hrest, htag]

mutual

/-- A trigger is read back with any fuel that covers its stored form. -/
theorem readTree?_toJson (r : Reading) : ∀ (t : Trigger) (fuel : Nat), t.toJson.depth ≤ fuel →
    readTree? r fuel t.toJson = some t
  | t, 0, h => by cases t <;> simp [toJson, depth] at h
  | .always, fuel + 1, _ => by
    obtain ⟨hsplit, hrecord⟩ := open_tagged r "always" [] rfl rfl
    simp [toJson, readTree?, hsplit, hrecord]
  | .eventKind kind, fuel + 1, _ => by
    obtain ⟨hsplit, hrecord⟩ := open_tagged r "event_kind" [("kind", .string kind)] rfl rfl
    simp [toJson, readTree?, hsplit, hrecord, Record.required?, asString?]
  | .exists field, fuel + 1, _ => by
    obtain ⟨hsplit, hrecord⟩ := open_tagged r "exists" [("field", .string field)] rfl rfl
    simp [toJson, readTree?, hsplit, hrecord, Record.required?, asString?]
  | .compare field op value, fuel + 1, _ => by
    obtain ⟨hsplit, hrecord⟩ := open_tagged r "compare"
      [("field", .string field), ("op", .string op.name), ("value", value.json)] rfl rfl
    simp [toJson, readTree?, hsplit, hrecord, readCompare?, Record.required?,
      asString?, choice?]
  | .all conditions, fuel + 1, h => by
    simp only [toJson, depth, depthFields] at h
    have hconditions := readTrees?_toJsonList r.below conditions fuel (by omega)
    obtain ⟨hsplit, hrecord⟩ := open_tagged r "all"
      [("conditions", .array (toJsonList conditions))] rfl rfl
    simp [toJson, readTree?, hsplit, hrecord, Record.required?, hconditions]
  | .any conditions, fuel + 1, h => by
    simp only [toJson, depth, depthFields] at h
    have hconditions := readTrees?_toJsonList r.below conditions fuel (by omega)
    obtain ⟨hsplit, hrecord⟩ := open_tagged r "any"
      [("conditions", .array (toJsonList conditions))] rfl rfl
    simp [toJson, readTree?, hsplit, hrecord, Record.required?, hconditions]
  | .not condition, fuel + 1, h => by
    simp only [toJson, depth, depthFields] at h
    have hcondition := readTree?_toJson r.below condition fuel (by omega)
    obtain ⟨hsplit, hrecord⟩ := open_tagged r "not" [("condition", condition.toJson)] rfl rfl
    simp [toJson, readTree?, hsplit, hrecord, Record.required?, hcondition]

theorem readTrees?_toJsonList (r : Reading) : ∀ (ts : List Trigger) (fuel : Nat),
    depthItems (toJsonList ts) ≤ fuel → readTrees? r fuel (.array (toJsonList ts)) = some ts
  | [], fuel, _ => by simp [toJsonList, readTrees?]
  | t :: ts, fuel, h => by
    simp only [toJsonList, depthItems] at h
    have hfirst := readTree?_toJson r t fuel (by omega)
    have hrest := readTrees?_toJsonList r ts fuel (by omega)
    rw [readTrees?] at hrest
    simp [toJsonList, readTrees?, hfirst, hrest]

end

/-- A trigger is read back from its stored form. -/
@[simp] theorem ofJson?_toJson (r : Reading) (t : Trigger) : ofJson? r t.toJson = some t :=
  readTree?_toJson r t _ (Nat.le_refl _)

end Trigger

end Reflex

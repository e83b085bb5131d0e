import Reflex.Proofs.Json.Double
import Reflex.Proofs.Json.Text
import Reflex.Proofs.Rule.Codec

/-!
# What Becomes of a Stored Rule

The integers in the document of a rule fit into 64 bits and its doubles are finite, so its text is
read unless it nests too deep. What is read is the document of a rule again, in which only doubles
may be others.

## Main definitions

- `Reflex.Json.Sound`: documents whose numbers have a text that is read.
- `Reflex.RuleDefinition.settle`: the rule whose document is read from the text of a rule.

## Main statements

- `Reflex.RuleDefinition.sound_toJson`: the numbers of a rule have a text that is read.
- `Reflex.RuleDefinition.read?_storedText_settle`: what is read from the stored text of a rule.
-/

namespace Reflex

namespace Json

/-! ## Numbers in documents -/

/-- Only numbers may have a text that is not read. -/
def IsSound : Json → Prop
  | .int n => fitsInt n
  | .double d => d.isFinite = true
  | _ => True

/-- Every integer of a document fits into 64 bits, and every double is finite. -/
def Sound (j : Json) : Prop :=
  ∀ part, Within part j → part.IsSound

section Sound

variable {j : Json} {items : List Json} {fields : List (String × Json)}

@[simp] theorem sound_bool (b : Bool) : (bool b).Sound := by
  simp [Sound, IsSound]

@[simp] theorem sound_string (s : String) : (string s).Sound := by
  simp [Sound, IsSound]

@[simp] theorem sound_int {n : ℤ} : (int n).Sound ↔ fitsInt n := by
  simp [Sound, IsSound]

@[simp] theorem sound_array : (array items).Sound ↔ ∀ item ∈ items, item.Sound := by
  simp only [Sound, within_array]
  constructor
  · exact fun h item hitem part hpart => h part (.inr ⟨item, hitem, hpart⟩)
  · rintro h part (rfl | ⟨item, hitem, hpart⟩)
    · trivial
    · exact h item hitem part hpart

@[simp] theorem sound_object : (object fields).Sound ↔ ∀ field ∈ fields, field.2.Sound := by
  simp only [Sound, within_object]
  constructor
  · exact fun h field hfield part hpart => h part (.inr ⟨field, hfield, hpart⟩)
  · rintro h part (rfl | ⟨field, hfield, hpart⟩)
    · trivial
    · exact h field hfield part hpart

theorem Canonical.sound (h : j.Canonical) : j.Sound := by
  intro part hpart
  have hcanonical := h.within hpart
  cases part with
  | int n => simpa only [Canonical, IsSound] using hcanonical
  | double d => simpa only [Canonical, IsSound] using hcanonical
  | _ => trivial

theorem Sound.readable (h : j.Sound) : j.Readable := by
  intro part hpart
  have hsound := h part hpart
  cases part with
  | double d => exact Double.isReadable_of_isFinite hsound
  | _ => exact hsound

end Sound

theorem settleItems_eq_map (items : List Json) : settleItems items = items.map settle := by
  induction items with
  | nil => rfl
  | cons item items ih => rw [settleItems, ih, List.map_cons]

theorem settleFields_eq_map (fields : List (String × Json)) :
    settleFields fields = fields.map fun e => (e.1, e.2.settle) := by
  induction fields with
  | nil => rfl
  | cons e fields ih => rw [settleFields, ih, List.map_cons]

mutual

/-- What is read for a canonical document is canonical. -/
theorem Canonical.settle : ∀ {j : Json}, j.Canonical → j.settle.Canonical
  | .null, h | .bool _, h | .int _, h | .string _, h => by simpa only [Json.settle] using h
  | .double d, h => by
    rw [Canonical] at h
    rw [Json.settle, Canonical]
    exact Double.isFinite_settle h
  | .array items, h => by
    rw [Canonical] at h
    rw [Json.settle, Canonical]
    exact CanonicalItems.settle h
  | .object fields, h => by
    rw [Canonical] at h
    rw [Json.settle, Canonical]
    refine ⟨?_, CanonicalFields.settle h.2⟩
    rw [settleFields_eq_map, List.pairwise_map]
    exact h.1

theorem CanonicalItems.settle : ∀ {items : List Json}, CanonicalItems items →
    CanonicalItems (settleItems items)
  | [], _ => by simp [settleItems, CanonicalItems]
  | item :: items, h => by
    rw [CanonicalItems] at h
    rw [settleItems, CanonicalItems]
    exact ⟨h.1.settle, CanonicalItems.settle h.2⟩

theorem CanonicalFields.settle : ∀ {fields : List (String × Json)}, CanonicalFields fields →
    CanonicalFields (settleFields fields)
  | [], _ => by simp [settleFields, CanonicalFields]
  | (name, value) :: fields, h => by
    rw [CanonicalFields] at h
    rw [settleFields, CanonicalFields]
    exact ⟨h.1.settle, CanonicalFields.settle h.2⟩

end

end Json

open Json

/-! ## Literals and triggers -/

/-- The literal that is read from the text of a literal. -/
def Literal.settle (l : Literal) : Literal :=
  ⟨l.json.settle, l.canonical.settle⟩

theorem Literal.sound_json (l : Literal) : l.json.Sound :=
  l.canonical.sound

namespace Trigger

mutual

/-- The trigger that is read from the text of a trigger. -/
def settle : Trigger → Trigger
  | .compare field op value => .compare field op value.settle
  | .all conditions => .all (settleList conditions)
  | .any conditions => .any (settleList conditions)
  | .not condition => .not condition.settle
  | t => t

/-- The same for a list of triggers. -/
def settleList : List Trigger → List Trigger
  | [] => []
  | t :: ts => t.settle :: settleList ts

end

mutual

theorem toJson_settle : ∀ t : Trigger, t.settle.toJson = t.toJson.settle
  | .always | .eventKind _ | .exists _ => rfl
  | .compare field op value => by
    simp [settle, toJson, Json.settle, settleFields, Literal.settle]
  | .all conditions | .any conditions => by
    simp [settle, toJson, Json.settle, settleFields, toJsonList_settleList conditions]
  | .not condition => by
    simp [settle, toJson, Json.settle, settleFields, toJson_settle condition]

theorem toJsonList_settleList : ∀ ts : List Trigger,
    toJsonList (settleList ts) = settleItems (toJsonList ts)
  | [] => rfl
  | t :: ts => by
    simp [settleList, toJsonList, settleItems, toJson_settle t, toJsonList_settleList ts]

end

mutual

/-- The numbers of a trigger are those of its literals. -/
theorem sound_toJson : ∀ t : Trigger, t.toJson.Sound
  | .always | .eventKind _ | .exists _ => by simp [toJson]
  | .compare _ _ value => by simp [toJson, value.sound_json]
  | .all conditions | .any conditions => by simpa [toJson] using sound_toJsonList conditions
  | .not condition => by simp [toJson, sound_toJson condition]

theorem sound_toJsonList : ∀ ts : List Trigger, ∀ j ∈ toJsonList ts, j.Sound
  | [] => by simp [toJsonList]
  | t :: ts => by simpa [toJsonList] using ⟨sound_toJson t, sound_toJsonList ts⟩

end

end Trigger

/-! ## Actions -/

namespace ParamSource

/-- The source that is read from the text of a source. -/
def settle : ParamSource → ParamSource
  | .eventField field => .eventField field
  | .literal value => .literal value.settle

theorem toJson_settle (s : ParamSource) : s.settle.toJson = s.toJson.settle := by
  cases s <;> rfl

theorem sound_toJson (s : ParamSource) : s.toJson.Sound := by
  cases s with
  | eventField field => simp [toJson]
  | literal value => exact value.sound_json

end ParamSource

namespace ActionDefinition

/-- The action that is read from the text of an action. -/
def settle (a : ActionDefinition) : ActionDefinition :=
  { a with params := a.params.map ParamSource.settle }

theorem toJson_settle (a : ActionDefinition) : a.settle.toJson = a.toJson.settle := by
  obtain ⟨type, params, timeoutMs⟩ := a
  cases timeoutMs <;>
    simp [settle, toJson, Json.settle, settleFields_eq_map, Dict.map, ParamSource.toJson_settle]

/-- The numbers of an action are those of its literals and its deadline. -/
theorem sound_toJson (a : ActionDefinition) : a.toJson.Sound := by
  have hparams : ∀ e ∈ (a.params.map ParamSource.toJson).entries, e.2.Sound := by
    intro e he
    obtain ⟨written, -, rfl⟩ := List.mem_map.1 he
    exact written.2.sound_toJson
  have hdeadline : ∀ ms : UInt64, fitsInt ms.toNat := by
    intro ms
    have hms : ms.toNat < Word.size := ms.toNat_lt
    constructor <;> omega
  obtain ⟨type, params, timeoutMs⟩ := a
  cases timeoutMs with
  | none => simpa [toJson] using hparams
  | some ms => simpa [toJson, hdeadline ms] using hparams

end ActionDefinition

/-! ## Rules -/

namespace RuleDefinition

/-- The rule whose document is read from the text of a rule. -/
def settle (d : RuleDefinition) : RuleDefinition :=
  { d with trigger := d.trigger.settle, actions := d.actions.map .settle }

theorem toJson_settle (d : RuleDefinition) : d.settle.toJson = d.toJson.settle := by
  obtain ⟨id, name, enabled, exclusive, onConflict, trigger, actions⟩ := d
  cases onConflict <;>
    simp [settle, toJson, Json.settle, settleFields_eq_map, settleItems_eq_map,
      Trigger.toJson_settle, ActionDefinition.toJson_settle]

/-- The numbers of a rule have a text that is read. -/
theorem sound_toJson (d : RuleDefinition) : d.toJson.Sound := by
  obtain ⟨id, name, enabled, exclusive, onConflict, trigger, actions⟩ := d
  cases onConflict <;>
    simp [toJson, trigger.sound_toJson, ActionDefinition.sound_toJson]

/-- What is read from the stored text of a rule, if its document nests no deeper than the reader
allows. -/
theorem read?_storedText_settle {d : RuleDefinition} (hnesting : d.toJson.nesting ≤ maxDepth) :
    Json.read? d.storedText = some d.settle.toJson := by
  rw [toJson_settle]
  exact read?_render_settle d.sound_toJson.readable hnesting

end RuleDefinition

end Reflex

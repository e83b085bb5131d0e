import Reflex.Rule
import Reflex.Proofs.Except
import Reflex.Proofs.Identifier
import Reflex.Proofs.Trigger.Codec

/-!
# Reading Back Rules

A rule is read back from its stored form, unless one of its literals looks like a binding: the
document of such a literal is read as a binding. A rule that was itself read from a document holds
such a literal only if an object in it gave the name of a binding several times.

## Main definitions

- `Reflex.ParamSource.Plain`, `Reflex.RuleDefinition.Plain`: no literal looks like a binding.
- `Reflex.Json.BindsOnce`: documents whose literals do not look like bindings once they are read.
- `Reflex.RuleDefinition.reread`: the rule that is read from the stored form of a rule.
- `Reflex.RuleDefinition.Deserialised`: rules that were read from a document.

## Main statements

- `Reflex.ParamSource.ofJson_toJson`: exactly the plain sources are read back.
- `Reflex.RuleDefinition.ofJson?_toJson_eq`: what is read from the stored form of a rule.
- `Reflex.RuleDefinition.reread_eq_self`: exactly the plain rules are read back.
- `Reflex.RuleDefinition.plain_of_ofJson?`: rules that were read are plain.
-/

namespace Reflex

open Json

/-! ## Sources -/

/-- Whether every object of a document whose last field under the name of a binding is a text gives
this name once. -/
def Json.BindsOnce (j : Json) : Prop :=
  ∀ fields, Within (.object fields) j → ∀ field,
    (Dict.ofList fields).get? ParamSource.bindingName = some (.string field) →
      (fields.map (·.1)).count ParamSource.bindingName ≤ 1

theorem Json.BindsOnce.within {whole part : Json} (honce : whole.BindsOnce)
    (hpart : Within part whole) : part.BindsOnce :=
  fun fields hobject => honce fields (hobject.trans hpart)

/-- Without repeated names the one of a binding is given once. -/
theorem Json.DistinctNames.bindsOnce {j : Json} (hnames : j.DistinctNames) : j.BindsOnce := by
  intro fields hobject _ _
  have hdistinct := (distinctNames_object.1 (hnames.within hobject)).1
  exact List.nodup_iff_count.1 hdistinct ParamSource.bindingName

namespace ParamSource

/-- Whether the document of a source is read as the source and not as another one: it is a binding,
or a literal that is no object with a text under the name of a binding. -/
def Plain : ParamSource → Prop
  | .eventField _ => True
  | .literal value => ∀ field, value.json.field? bindingName ≠ some (.string field)

/-- An object that gives the name of a binding once at most is a binding if it has a text under this
name, and a literal else. -/
theorem ofJson_object {fields : List (String × Json)}
    (honce : (fields.map (·.1)).count bindingName ≤ 1) :
    ofJson (.object fields) =
      match Dict.lookup bindingName fields with
      | some (.string field) => .eventField field
      | _ => .literal (.ofJson (.object fields)) := by
  simp only [ofJson, Dict.filter_key honce]
  rcases Dict.lookup bindingName fields with _ | _ | _ | _ | _ | _ | _ | _ <;> rfl

/-- What is no object is a literal. -/
theorem ofJson_eq_literal {j : Json} (h : ∀ fields, j ≠ .object fields) :
    ofJson j = .literal (.ofJson j) := by
  cases j with
  | object fields => exact absurd rfl (h fields)
  | _ => rfl

/-- Exactly the plain sources are read back from their document. -/
theorem ofJson_toJson (s : ParamSource) : ofJson s.toJson = s ↔ s.Plain := by
  cases s with
  | eventField field => simp [toJson, ofJson_object, Dict.lookup, Plain]
  | literal value =>
    cases hjson : value.json with
    | object fields =>
      have hcanonical : (object fields).Canonical := hjson ▸ value.canonical
      have honce : (fields.map (·.1)).count bindingName ≤ 1 :=
        List.nodup_iff_count.1 hcanonical.nodup bindingName
      have hliteral : Literal.ofJson (.object fields) = value := by
        rw [← hjson, Literal.ofJson_json]
      simp only [toJson, hjson, ofJson_object honce, hliteral, Plain, field?]
      rcases Dict.lookup bindingName fields with _ | _ | _ | _ | _ | _ | _ | _ <;> simp
    | _ =>
      rw [toJson, ofJson_eq_literal (by simp [hjson]), Literal.ofJson_json]
      simp [Plain, field?_eq_some, hjson]

/-- An object that gives the name of a binding several times is a literal. -/
theorem ofJson_object_of_repeated {fields : List (String × Json)}
    (hrepeated : 1 < (fields.map (·.1)).count bindingName) :
    ofJson (.object fields) = .literal (.ofJson (.object fields)) := by
  rw [← Dict.length_filter_key] at hrepeated
  rw [ofJson]
  split
  next heq =>
    rw [heq, List.length_singleton] at hrepeated
    omega
  next => rfl

/-- An object is read as a plain source if it gives the name of a binding once, or not with a text
as its last field of this name: else the literal that is left of it looks like a binding. -/
theorem plain_ofJson_object {fields : List (String × Json)} :
    (ofJson (.object fields)).Plain ↔
      ∀ field, (Dict.ofList fields).get? bindingName = some (.string field) →
        (fields.map (·.1)).count bindingName ≤ 1 := by
  have hliteral : (literal (.ofJson (.object fields))).Plain ↔
      ∀ field, (Dict.ofList fields).get? bindingName ≠ some (.string field) := by
    have hkept : (Literal.ofJson (.object fields)).json.field? bindingName =
        ((Dict.ofList fields).get? bindingName).map canonicalize :=
      get?_canonicalize fields bindingName
    simp [Plain, hkept, Option.map_eq_some_iff, canonicalize_eq_string]
  by_cases honce : (fields.map (·.1)).count bindingName ≤ 1
  · refine ⟨fun _ _ _ => honce, fun _ => ?_⟩
    rw [ofJson_object honce]
    split
    next => trivial
    next hbinding =>
      refine hliteral.2 fun field hfield => ?_
      rw [Dict.get?_ofList_of_once honce] at hfield
      exact hbinding field hfield
  · rw [ofJson_object_of_repeated (Nat.lt_of_not_le honce), hliteral]
    exact ⟨fun h field hfield => absurd hfield (h field), fun h field hfield =>
      honce (h field hfield)⟩

/-- What is read from a document that binds once is plain. -/
theorem plain_ofJson {j : Json} (honce : j.BindsOnce) : (ofJson j).Plain := by
  cases j with
  | object fields => exact plain_ofJson_object.2 (honce fields .refl)
  | _ =>
    rw [ofJson_eq_literal (by simp)]
    intro field hfield
    obtain ⟨fields, hobject, -⟩ := field?_eq_some.1 hfield
    obtain ⟨written, hwritten, -⟩ := exists_of_canonicalize_eq_object hobject
    cases hwritten

/-- So is what is read from the stored form of a source. -/
theorem plain_reread (s : ParamSource) : (ofJson s.toJson).Plain := by
  cases s with
  | eventField field =>
    rw [(ofJson_toJson (.eventField field)).2 trivial]
    trivial
  | literal value =>
    exact plain_ofJson fun fields hobject _ _ =>
      List.nodup_iff_count.1 (value.canonical.within hobject).nodup bindingName

end ParamSource

/-! ## Actions -/

/-- A word is read back from its number. -/
theorem Json.asNatural?_toNat (ms : UInt64) : asNatural? (.int ms.toNat) = some ms.toNat := by
  have hfits : (0 : Int) ≤ ms.toNat ∧ (ms.toNat : Int) < Word.size :=
    ⟨Int.natCast_nonneg _, Int.ofNat_lt.2 ms.toNat_lt⟩
  rw [asNatural?, if_pos hfits, Int.toNat_natCast]

namespace ActionDefinition

/-- Whether no literal of an action looks like a binding. -/
def Plain (a : ActionDefinition) : Prop :=
  ∀ name source, a.params.get? name = some source → source.Plain

/-- The action that is read from the stored form of an action. -/
def reread (a : ActionDefinition) : ActionDefinition :=
  { a with params := a.params.map fun source => .ofJson source.toJson }

/-- Exactly the plain actions are read back. -/
theorem reread_eq_self {a : ActionDefinition} : a.reread = a ↔ a.Plain := by
  obtain ⟨type, params, timeoutMs⟩ := a
  simp only [reread, mk.injEq, true_and, and_true, Dict.map_eq_self_iff, ParamSource.ofJson_toJson,
    Plain]

theorem plain_reread (a : ActionDefinition) : a.reread.Plain := by
  intro name source hsource
  rw [reread, Dict.get?_map] at hsource
  obtain ⟨written, -, rfl⟩ := Option.map_eq_some_iff.1 hsource
  exact written.plain_reread

/-- The parameters are read from their sources. -/
theorem readParams?_toJson (params : Dict ParamSource) :
    readParams? (.object (params.map ParamSource.toJson).entries) =
      some (params.map fun source => .ofJson source.toJson) := by
  have hread := Dict.ofList_entries (params.map fun source => ParamSource.ofJson source.toJson)
  rw [readParams?, Dict.map, List.map_map]
  exact congrArg some hread

/-- The reading of an action with a deadline, from the readings of its fields. -/
theorem ofJson?_of_fields (r : Reading) (type : String) {params timeout : Json}
    {read : Dict ParamSource} {ms : Nat} (hparams : readParams? params = some read)
    (hpresent : timeout ≠ .null) (htimeout : asNatural? timeout = some ms) :
    ofJson? r (.object [("type", .string type), ("params", params), ("timeout_ms", timeout)]) =
      some { type, params := read, timeoutMs := some (.ofNat ms) } := by
  rw [ofJson?, Record.ofJson?_object (by simp [fieldNames]) (by simp)]
  simp [Record.required?, Record.orElse?, Record.optional?_of_field? _ hpresent, asString?, hparams,
    htimeout]

/-- What is read from the stored form of an action. -/
theorem ofJson?_toJson (r : Reading) (a : ActionDefinition) :
    ofJson? r a.toJson = some a.reread := by
  obtain ⟨type, params, timeoutMs⟩ := a
  have hparams := readParams?_toJson params
  cases timeoutMs with
  | none =>
    simp [toJson, ofJson?, Record.ofJson?_object, fieldNames, Record.required?, Record.orElse?,
      Record.optional?, asString?, hparams, reread]
  | some ms =>
    have hpresent : Json.int ms.toNat ≠ .null := by simp
    have hread := ofJson?_of_fields r type hparams hpresent (asNatural?_toNat ms)
    rwa [UInt64.ofNat_toNat] at hread

/-- The parameters that are read from a document that binds once are plain. -/
theorem plain_of_readParams? {j : Json} {params : Dict ParamSource} {name : String}
    {source : ParamSource} (h : readParams? j = some params)
    (honce : j.BindsOnce) (hsource : params.get? name = some source) :
    source.Plain := by
  cases j with
  | object fields =>
    obtain rfl := Option.some.inj h
    obtain hwritten | hempty := Dict.mem_of_get?_insertMany hsource
    · obtain ⟨field, hfield, hread⟩ := List.mem_map.1 hwritten
      obtain ⟨-, rfl⟩ := Prod.mk.inj hread
      exact ParamSource.plain_ofJson (honce.within (.field hfield .refl))
    · cases hempty
  | _ => cases h

/-- So are the actions that are read from such a document. -/
theorem plain_of_ofJson? {r : Reading} {j : Json} {a : ActionDefinition}
    (h : ofJson? r j = some a) (honce : j.BindsOnce) : a.Plain := by
  simp only [ofJson?, Option.bind_eq_bind, Option.bind_eq_some_iff] at h
  obtain ⟨record, hrecord, type, -, params, hparams, timeoutMs, -, hout⟩ := h
  obtain rfl := Option.some.inj hout
  intro name source hsource
  rw [Record.orElse?] at hparams
  split at hparams
  next value hvalue =>
    have hinside := honce.within (Record.within_of_field? hrecord hvalue)
    exact plain_of_readParams? hparams hinside hsource
  next =>
    obtain rfl := Option.some.inj hparams
    cases hsource

end ActionDefinition

/-! ## Rules -/

theorem ConflictPolicy.ofJson?_name (r : Reading) (p : ConflictPolicy) :
    ConflictPolicy.ofJson? r (.string p.name) = some p := by
  cases p <;> rfl

namespace RuleDefinition

/-- Whether no literal of a rule looks like a binding. -/
def Plain (d : RuleDefinition) : Prop :=
  ∀ a ∈ d.actions, a.Plain

/-- The rule that is read from the stored form of a rule. -/
def reread (d : RuleDefinition) : RuleDefinition :=
  { d with actions := d.actions.map .reread }

/-- Exactly the plain rules are read back. -/
theorem reread_eq_self {d : RuleDefinition} : d.reread = d ↔ d.Plain := by
  have hactions : d.actions.map .reread = d.actions ↔ ∀ a ∈ d.actions, a.reread = a := by
    simpa using List.map_inj_left (f := ActionDefinition.reread) (g := fun a => a) (l := d.actions)
  obtain ⟨id, name, enabled, exclusive, onConflict, trigger, actions⟩ := d
  simp only [reread, mk.injEq, true_and, hactions, ActionDefinition.reread_eq_self, Plain]

/-- A rule that was read from the stored form of a rule is plain. -/
theorem plain_reread (d : RuleDefinition) : d.reread.Plain := by
  intro a ha
  obtain ⟨written, -, rfl⟩ := List.mem_map.1 ha
  exact written.plain_reread

/-- What is read from the stored form of a rule. -/
theorem ofJson?_toJson_eq (fresh : Identifier) (r : Reading) (d : RuleDefinition) :
    ofJson? fresh r d.toJson = some d.reread := by
  have hactions : readActions? r (.array (d.actions.map ActionDefinition.toJson)) =
      some (d.actions.map ActionDefinition.reread) :=
    mapM_map_eq_some fun a _ => ActionDefinition.ofJson?_toJson r a
  obtain ⟨id, name, enabled, exclusive, onConflict, trigger, actions⟩ := d
  -- without a policy the document has one field less
  cases onConflict <;>
    simp [toJson, ofJson?, Record.ofJson?_object, fieldNames, Record.required?, Record.orElse?,
      Record.optional?, asString?, asBool?, Identifier.ofJson?, hactions,
      ConflictPolicy.ofJson?_name, reread]

/-- A plain rule is read back from its stored form. -/
theorem ofJson?_toJson (fresh : Identifier) (r : Reading) {d : RuleDefinition} (hplain : d.Plain) :
    ofJson? fresh r d.toJson = some d := by
  rw [ofJson?_toJson_eq, reread_eq_self.2 hplain]

/-- Rules that were read from a document that binds once are plain. -/
theorem plain_of_ofJson? {fresh : Identifier} {r : Reading} {j : Json} {d : RuleDefinition}
    (h : ofJson? fresh r j = some d) (honce : j.BindsOnce) : d.Plain := by
  simp only [ofJson?, Option.bind_eq_bind, Option.bind_eq_some_iff] at h
  obtain ⟨record, hrecord, id, -, name, -, enabled, -, exclusive, -, onConflict, -, trigger, -,
    actions, hactions, hout⟩ := h
  obtain rfl := Option.some.inj hout
  rw [Record.required?, Option.bind_eq_some_iff] at hactions
  obtain ⟨value, hvalue, hactions⟩ := hactions
  have hinside := honce.within (Record.within_of_field? hrecord hvalue)
  intro a ha
  cases value with
  | array items =>
    obtain ⟨item, hitem, hread⟩ := exists_of_mapM_eq_some hactions ha
    exact ActionDefinition.plain_of_ofJson? hread (hinside.within (.item hitem .refl))
  | _ => cases hactions

end RuleDefinition

end Reflex

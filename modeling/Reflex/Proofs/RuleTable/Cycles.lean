import Reflex.Proofs.Rule.Storage
import Reflex.Proofs.RuleTable.Content

/-!
# Storing and Reading Again

A rule that was read is stored, read, stored again and so on. Its document is read as the rule if
the rule is plain. Its row is read as the rule if the text in it is read as the document: the
integers in it always are, so this is a matter of its depth and of its doubles.

## Main definitions

- `Reflex.repeated`: a step that may fail, a number of times.

## Main statements

- `Reflex.RuleRow.read?_ofRule_settle`: what is read from the row of a rule.
- `Reflex.RuleDefinition.read?_storedText`: a stored text is read as the document it was written
  from.
- `Reflex.RuleDefinition.codec_exact`: which rules are read back, and that rules that were read are.
-/

namespace Reflex

open Json

/-! ## Rounds -/

section Repeated

variable {α : Type} {step : α → Option α} {a : α}

/-- A step that may fail, a number of times. -/
def repeated (step : α → Option α) : Nat → α → Option α
  | 0, a => some a
  | n + 1, a => (step a).bind (repeated step n)

/-- What a step keeps is kept by any number of them. -/
theorem repeated_eq_some (h : step a = some a) (n : Nat) : repeated step n a = some a := by
  induction n with
  | zero => rfl
  | succ n ih => rw [repeated, h, Option.bind_some, ih]

end Repeated

/-! ## Rounds through rows -/

/-- The row of a rule is read if its document nests no deeper than the reader allows, although its
doubles may be read as others. -/
theorem RuleRow.read?_ofRule_settle {rule : RuleDefinition}
    (hnesting : rule.toJson.nesting ≤ maxDepth) :
    (RuleRow.ofRule rule).read? = some rule.settle.reread :=
  read?_ofRule_of_text (RuleDefinition.read?_storedText_settle hnesting)

namespace RuleDefinition

/-- The stored text of a rule is read as the document it was written from, if this document nests
no deeper than the reader allows and its doubles are read back. -/
theorem read?_storedText {d : RuleDefinition} (hnesting : d.toJson.nesting ≤ maxDepth)
    (hdoubles : ∀ x, Within (.double x) d.toJson → x.IsLegible) :
    Json.read? d.storedText = some d.toJson :=
  read?_render ((legible_iff fun _ => d.sound_toJson _).2 hdoubles) hnesting

/-- Exactly the plain rules are read back from their stored form. A rule that was read from a
document that binds once stays as it is in any number of rounds through its document, and through
its row if its text can be read back. -/
theorem codec_exact :
    (∀ (fresh : Identifier) (r : Reading) (d : RuleDefinition),
      ofJson? fresh r d.toJson = some d ↔ d.Plain) ∧
    ∀ (fresh : Identifier) (r : Reading) (j : Json) (d : RuleDefinition),
      j.BindsOnce → ofJson? fresh r j = some d →
      (∀ (fresh : Identifier) (r : Reading) (n : Nat),
        repeated (fun d => ofJson? fresh r d.toJson) n d = some d) ∧
      (d.toJson.nesting ≤ maxDepth → (∀ x, Within (.double x) d.toJson → x.IsLegible) →
        ∀ n, repeated (fun d => (RuleRow.ofRule d).read?) n d = some d) := by
  refine ⟨fun fresh r d => ?_, fun fresh r j d honce hread => ?_⟩
  · rw [ofJson?_toJson_eq, Option.some_inj, reread_eq_self]
  · have hplain : d.Plain := plain_of_ofJson? hread honce
    refine ⟨fun fresh r => repeated_eq_some (ofJson?_toJson fresh r hplain),
      fun hnesting hdoubles => ?_⟩
    have htext : Json.read? d.storedText = some d.toJson := read?_storedText hnesting hdoubles
    exact repeated_eq_some (RuleRow.read?_ofRule hplain htext)

/-- A rule that logs one parameter. -/
def note (message : ParamSource) : RuleDefinition :=
  { id := { value := 7 }, name := "Note", trigger := .always
    actions := [{ type := "log", params := .ofList [("message", message)] }] }

theorem checkInvariants_note (message : ParamSource) :
    (note message).checkInvariants = .ok () := by
  have hname : Text.isBlank "Note" = false := by decide +kernel
  simp [checkInvariants, note, hname]

/-- A document of such a rule, from the document of the parameter. -/
def noteDocument (message : Json) : Json :=
  .object [("id", .string "00000000-0000-0000-0000-000000000007"), ("name", .string "Note"),
    ("trigger", .object [("type", .string "always")]),
    ("actions", .array [.object [("type", .string "log"),
      ("params", .object [("message", message)])]])]

theorem ofJson?_noteDocument (fresh : Identifier) (r : Reading) (message : Json) :
    ofJson? fresh r (noteDocument message) = some (note (.ofJson message)) := by
  have hid : Identifier.read? "00000000-0000-0000-0000-000000000007" = some { value := 7 } := by
    decide +kernel
  have htrigger : Trigger.ofJson? r (.object [("type", .string "always")]) = some .always :=
    Trigger.ofJson?_toJson r .always
  simp [noteDocument, note, ofJson?, Record.ofJson?_object, fieldNames, Record.required?,
    Record.orElse?, Record.optional?, asString?, Identifier.ofJson?, hid, htrigger, readActions?,
    ActionDefinition.ofJson?, ActionDefinition.fieldNames, ActionDefinition.readParams?]

theorem toJson_note (message : ParamSource) :
    (note message).toJson =
      .object [("id", .string (Identifier.mk 7 (by decide)).text), ("name", .string "Note"),
        ("enabled", .bool true), ("exclusive", .bool false),
        ("trigger", .object [("type", .string "always")]),
        ("actions", .array [.object [("type", .string "log"),
          ("params", .object [("message", message.toJson)])]])] :=
  rfl

/-- An object with a number, and no text, under the name of a binding. -/
def numberedBinding : Json :=
  .object [(ParamSource.bindingName, .double (.ofDecimal false 25 (-1)))]

/-- A literal of this kind is stored and read any number of times. -/
theorem codec_exact_of_note :
    ∃ d, ofJson? default {} (noteDocument numberedBinding) = some d ∧
      ∀ n, repeated (fun d => (RuleRow.ofRule d).read?) n d = some d := by
  have hread := ofJson?_noteDocument default {} numberedBinding
  have hnames : (noteDocument numberedBinding).DistinctNames := by
    simp [noteDocument, numberedBinding]
  obtain ⟨-, hrows⟩ := codec_exact.2 default {} _ _ hnames.bindsOnce hread
  refine ⟨_, hread, hrows (by decide +kernel) fun x hx => ?_⟩
  have hmessage : (ParamSource.ofJson numberedBinding).toJson = numberedBinding := by
    decide +kernel
  rw [toJson_note, hmessage] at hx
  obtain rfl : x = .ofDecimal false 25 (-1) := by
    simpa [numberedBinding, within_object, within_array] using hx
  unfold Double.IsLegible
  decide +kernel

/-! ### What else may happen to a rule that was read -/

/-- An object that gives the name of a binding twice. -/
def repeatedBinding : Json :=
  .object [(ParamSource.bindingName, .string "x"), (ParamSource.bindingName, .string "text")]

/-- The last one of the fields is kept, so that the literal is read as a binding. -/
theorem changed_of_repeatedBinding :
    let d := note (.ofJson repeatedBinding)
    ofJson? default {} d.toJson ≠ some d ∧ (RuleRow.ofRule d).read? ≠ some d := by
  -- as a binding the parameter is no literal any more
  have hliterals : (note (.ofJson repeatedBinding)).reread.actions.map (·.literals) ≠
      (note (.ofJson repeatedBinding)).actions.map (·.literals) := by decide +kernel
  have htext : Json.read? (note (.ofJson repeatedBinding)).storedText =
      some (note (.ofJson repeatedBinding)).toJson := by
    refine read?_storedText (by decide +kernel) fun x hx => ?_
    have hmessage : (ParamSource.ofJson repeatedBinding).toJson =
        .object [(ParamSource.bindingName, .string "text")] := by decide +kernel
    rw [toJson_note, hmessage] at hx
    simp [within_object, within_array] at hx
  constructor
  · rw [ofJson?_toJson_eq]
    exact fun h => hliterals (congrArg (fun d => d.actions.map (·.literals)) (Option.some.inj h))
  · rw [RuleRow.read?_ofRule_of_text htext]
    exact fun h => hliterals (congrArg (fun d => d.actions.map (·.literals)) (Option.some.inj h))

/-- A double that is read back as its neighbour. -/
def distant : Double :=
  .ofDecimal false 7420659367359409 56

theorem changed_of_distant :
    (RuleRow.ofRule (note (.ofJson (.double distant)))).read? ≠
      some (note (.ofJson (.double distant))) := by
  have hmessage : (ParamSource.ofJson (.double distant)).toJson = .double distant := by
    decide +kernel
  have htext : Json.read? (note (.ofJson (.double distant))).storedText =
      some (note (.ofJson (.double (.ofDecimal false 74206593673594095 55)))).toJson := by
    simp only [Json.read?, storedText, toJson_note, hmessage, render, renderItems, renderFields,
      String.toList_append, toList_quoted]
    decide +kernel
  rw [RuleRow.read?_ofRule_of_text htext]
  intro hsame
  have hdocument := congrArg (Option.map toJson) hsame
  revert hdocument
  decide +kernel

/-- Lists around each other. -/
def nested : Nat → Json
  | 0 => .null
  | n + 1 => .array [nested n]

theorem toList_render_nested (n : Nat) :
    (nested n).render.toList =
      List.replicate n '[' ++ (['n', 'u', 'l', 'l'] ++ List.replicate n ']') := by
  induction n with
  | zero => rfl
  | succ n ih =>
    rw [nested, toList_render_array, renderItems, ih, List.replicate_succ,
      List.replicate_succ' (a := ']')]
    simp

/-- Within a rule this is too deep for the reader of texts. -/
theorem unreadable_of_nested : (RuleRow.ofRule (note (.ofJson (nested 124)))).read? = none := by
  have hmessage : (ParamSource.ofJson (nested 124)).toJson = nested 124 := by decide +kernel
  rw [← Option.isNone_iff_eq_none]
  simp only [RuleRow.read?, RuleRow.ofRule, ofStoredText?, Json.read?, Selection.read?, storedText,
    toJson_note, hmessage, render, renderItems, renderFields, String.toList_append, toList_quoted,
    toList_render_nested]
  decide +kernel

/-- That a rule was read is not enough for it to stay as it is: a literal may have become what looks
like a binding, a double may be read back as its neighbour, and a text may be too deep to be read
back at all. -/
theorem changed_of_note :
    (∃ d, ofJson? default {} (noteDocument repeatedBinding) = some d ∧
      ofJson? default {} d.toJson ≠ some d ∧ (RuleRow.ofRule d).read? ≠ some d) ∧
    (∃ d, ofJson? default {} (noteDocument (.double distant)) = some d ∧
      (RuleRow.ofRule d).read? ≠ some d) ∧
    ∃ d, ofJson? default {} (noteDocument (nested 124)) = some d ∧
      (RuleRow.ofRule d).read? = none :=
  ⟨⟨_, ofJson?_noteDocument default {} _, changed_of_repeatedBinding⟩,
    ⟨_, ofJson?_noteDocument default {} _, changed_of_distant⟩,
    ⟨_, ofJson?_noteDocument default {} _, unreadable_of_nested⟩⟩

end RuleDefinition

end Reflex

import Reflex.Proofs.Builtin.Catalog
import Reflex.Proofs.Template

/-!
# Descriptions and Blank Texts

A description of a built-in action takes an empty text for no value at all. All but one of them take
every blank text so, and are not blank themselves. The exception is the notification, which shows
its summary and its body unless they are empty: it shows a part that is made of blanks only, and is
blank itself if it has no other part.

## Main definitions

- `Builtin.withoutBlank`, `Builtin.withoutEmpty`: values without blank texts, and without empty
  ones.
- `Builtin.HasBlankPart`: notifications with a part that is made of blanks only.
- `Builtin.OnlyBlankPart`: notifications with this part and no other.

## Main statements

- `Builtin.summary_filter`: what the description of another action does not depend on.
- `Builtin.notifySummary_withoutBlank_iff`: when a notification does not depend on blank texts.
- `Builtin.isBlank_of_notifySummary_iff`: when a notification is blank.
- `Builtin.summary_withoutBlank_iff`: all of it together, for the built-in actions.
-/

namespace Reflex

/-- A text is blank if its parts are. -/
theorem Text.isBlank_append (s t : String) : isBlank (s ++ t) = (isBlank s && isBlank t) := by
  rw [isBlank, String.toList_append, List.all_append, isBlank, isBlank]

/-- Whether a value is a blank text. -/
def Value.isBlankText (v : Value) : Bool :=
  v.asText?.any Text.isBlank

theorem Value.isBlank_display {v : Value} (h : v.isBlankText = true) :
    Text.isBlank v.display = true := by
  cases v with
  | string s => exact h
  | _ => cases h

/-- What comes of a look-up is the same without values of which nothing comes. -/
theorem Dict.bind_get?_filter {α β : Type} {p : α → Bool} {f : α → Option β}
    (h : ∀ v, p v = false → f v = none) (d : Dict α) (key : String) :
    ((d.filter fun _ v => p v).get? key).bind f = (d.get? key).bind f := by
  rw [get?_filter]
  cases d.get? key with
  | none => rfl
  | some v =>
    cases hv : p v with
    | true => rw [Option.filter_some, if_pos hv]
    | false =>
      rw [Option.filter_some, if_neg (by simp [hv]), Option.bind_some, h v hv]
      rfl

/-- A blank text is not put into a template, so that it can as well be left out. -/
theorem Template.rendering?_filter {keep : Value → Bool}
    (hkeep : ∀ v, keep v = false → v.isBlankText = true) (values : Dict Value) (name : List Char) :
    rendering? (values.filter fun _ v => keep v) name = rendering? values name :=
  Dict.bind_get?_filter (fun v hv => if_pos (Value.isBlank_display (hkeep v hv))) values _

namespace Builtin

/-- The values that are no blank texts. -/
def withoutBlank (values : Dict Value) : Dict Value :=
  values.filter fun _ v => !v.isBlankText

/-- The values that are no empty texts. -/
def withoutEmpty (values : Dict Value) : Dict Value :=
  values.filter fun _ v => v != .string ""

variable {values : Dict Value} {keep : Value → Bool} {name text type : String}

/-! ## Actions other than notifications -/

/-- A switch shows a truth value. -/
theorem switchSummary_eq (what : String) (values : Dict Value) :
    switchSummary what values = (values.get? "enable").bind fun v =>
      match v with
      | .bool enable => some ((if enable then "Enable " else "Disable ") ++ what)
      | _ => none := by
  rw [switchSummary]
  cases values.get? "enable" with
  | none => rfl
  | some v => cases v <;> rfl

/-- A text is no truth value, so that a blank one can as well be left out. -/
theorem switchSummary_filter (hkeep : ∀ v, keep v = false → v.isBlankText = true)
    (what : String) (values : Dict Value) :
    switchSummary what (values.filter fun _ v => keep v) = switchSummary what values := by
  rw [switchSummary_eq, switchSummary_eq]
  refine Dict.bind_get?_filter (fun v hv => ?_) values "enable"
  have hblank := hkeep v hv
  cases v with
  | bool enable => cases hblank
  | _ => rfl

/-- Whatever the catalog declares, blank texts can be left out of the values of an action other than
a notification. -/
theorem summary_filter (hkeep : ∀ v, keep v = false → v.isBlankText = true)
    (htype : type ≠ notify.type) (c : Catalog) (values : Dict Value) :
    summary c type (values.filter fun _ v => keep v) = summary c type values := by
  rw [summary, summary, if_neg htype, if_neg htype, switchSummary_filter hkeep,
    switchSummary_filter hkeep]
  congr 2
  refine Option.bind_congr fun schema _ => ?_
  rw [ActionSchema.summarize, ActionSchema.summarize]
  refine Option.bind_congr fun template _ => ?_
  rw [Template.fill, Template.fill,
    Template.fillFrom_congr (Template.rendering?_filter hkeep values)]

/-- What a switch shows is never blank. -/
theorem isBlank_of_switchSummary {what : String} (h : switchSummary what values = some text) :
    Text.isBlank text = false := by
  rw [switchSummary] at h
  split at h
  next enable _ =>
    obtain rfl := Option.some.inj h
    have hverb : Text.isBlank (if enable then "Enable " else "Disable ") = false := by
      cases enable <;> decide
    rw [Text.isBlank_append, hverb, Bool.false_and]
  next => cases h

/-- The templates of the catalog are not blank. -/
theorem isBlank_of_mem_actions {s : ActionSchema} {template : String} (h : s ∈ actions)
    (htemplate : s.summary = some template) : Text.isBlank template = false := by
  have hall : ∀ s ∈ actions, s.summary.all (!Text.isBlank ·) = true := by decide
  have hs := hall s h
  rw [htemplate] at hs
  simpa using hs

/-- The description of a built-in action other than a notification is never blank. -/
theorem isBlank_of_summary (htype : type ≠ notify.type)
    (h : summary catalog type values = some text) : Text.isBlank text = false := by
  rw [summary, if_neg htype] at h
  split at h
  next => exact isBlank_of_switchSummary h
  next =>
    split at h
    next => exact isBlank_of_switchSummary h
    next =>
      obtain ⟨schema, hschema, h⟩ := Option.bind_eq_some_iff.1 h
      obtain ⟨template, htemplate, h⟩ := Option.bind_eq_some_iff.1 h
      rw [Template.isBlank_of_fill h]
      exact isBlank_of_mem_actions (mem_actions_of_action? hschema).1 htemplate

/-! ## Notifications -/

/-- A part of a notification is a text that is not empty. -/
theorem text?_eq_some_iff :
    text? values name = some text ↔ values.get? name = some (.string text) ∧ text ≠ "" := by
  have htext : text? values name =
      ((values.get? name).bind Value.asText?).filter fun s => !s.isEmpty := by
    rw [text?]
    cases values.get? name with
    | none => rfl
    | some v =>
      cases v with
      | string s => cases hs : s.isEmpty <;> simp [Value.asText?, Option.filter_some, hs]
      | _ => rfl
  rw [htext, Option.filter_eq_some_iff, Option.bind_eq_some_iff]
  refine and_congr ⟨?_, fun h => ⟨_, h, rfl⟩⟩ (by simp)
  rintro ⟨v, hv, htext⟩
  cases v with
  | string s =>
    obtain rfl := Option.some.inj htext
    exact hv
  | _ => cases htext

/-- Without the empty texts a notification has the same parts. -/
theorem text?_withoutEmpty (values : Dict Value) (name : String) :
    text? (withoutEmpty values) name = text? values name := by
  ext text
  rw [text?_eq_some_iff, text?_eq_some_iff, withoutEmpty, Dict.get?_filter,
    Option.filter_eq_some_iff]
  constructor
  · rintro ⟨⟨hvalue, -⟩, htext⟩
    exact ⟨hvalue, htext⟩
  · rintro ⟨hvalue, htext⟩
    exact ⟨⟨hvalue, by simpa using htext⟩, htext⟩

/-- Without the blank texts it has the parts that are not blank. -/
theorem text?_withoutBlank (values : Dict Value) (name : String) :
    text? (withoutBlank values) name = (text? values name).filter (!Text.isBlank ·) := by
  ext text
  rw [text?_eq_some_iff, withoutBlank, Dict.get?_filter, Option.filter_eq_some_iff,
    Option.filter_eq_some_iff, text?_eq_some_iff, and_right_comm]
  rfl

/-- A part of a notification is made of blanks only. -/
def HasBlankPart (values : Dict Value) : Prop :=
  (text? values "summary").any Text.isBlank = true ∨ (text? values "body").any Text.isBlank = true

/-- A part of a notification is made of blanks only, and there is no other part. -/
def OnlyBlankPart (values : Dict Value) : Prop :=
  (text? values "summary").any Text.isBlank = true ∧ text? values "body" = none ∨
    text? values "summary" = none ∧ (text? values "body").any Text.isBlank = true

/-- Two parts with a comma between them are longer than either of them. -/
theorem join_ne (s b : String) : s ≠ s ++ ", " ++ b ∧ b ≠ s ++ ", " ++ b := by
  have hlength : (s ++ ", " ++ b).length = s.length + 2 + b.length := by
    rw [String.length_append, String.length_append]
    rfl
  constructor
  · intro h
    have := congrArg String.length h
    omega
  · intro h
    have := congrArg String.length h
    omega

/-- A comma is no blank, so that two parts are not blank together. -/
theorem isBlank_join (s b : String) : Text.isBlank (s ++ ", " ++ b) = false := by
  have hcomma : Text.isBlank ", " = false := by decide
  rw [Text.isBlank_append, Text.isBlank_append, hcomma, Bool.and_false, Bool.false_and]

/-- Blank texts can be left out of a notification exactly if none of its parts is blank. -/
theorem notifySummary_withoutBlank_iff :
    notifySummary (withoutBlank values) = notifySummary values ↔ ¬ HasBlankPart values := by
  rw [notifySummary, notifySummary, text?_withoutBlank, text?_withoutBlank, HasBlankPart]
  cases text? values "summary" with
  | none =>
    cases text? values "body" with
    | none => simp
    | some b => cases hb : Text.isBlank b <;> simp [Option.filter_some, hb]
  | some s =>
    obtain hs | hs := Bool.eq_false_or_eq_true (Text.isBlank s)
    all_goals
      cases text? values "body" with
      | none => simp [Option.filter_some, hs]
      | some b => cases hb : Text.isBlank b <;> simp [Option.filter_some, hs, hb, join_ne s b]

/-- A notification is blank exactly if it has a blank part and no other one. -/
theorem isBlank_of_notifySummary_iff :
    (∃ text, notifySummary values = some text ∧ Text.isBlank text = true) ↔
      OnlyBlankPart values := by
  rw [notifySummary, OnlyBlankPart]
  cases text? values "summary" with
  | none => cases text? values "body" <;> simp
  | some s => cases text? values "body" <;> simp [isBlank_join]

/-- Empty texts can be left out of every notification. -/
theorem notifySummary_withoutEmpty (values : Dict Value) :
    notifySummary (withoutEmpty values) = notifySummary values := by
  rw [notifySummary, notifySummary, text?_withoutEmpty, text?_withoutEmpty]

/-! ## All actions -/

/-- Take any type and any values. The description by the built-in catalog is the same without the
blank texts, unless it is a notification with a blank part; it is not blank, unless it is a
notification with a blank part and no other one; and it is the same without the empty texts. -/
theorem summary_withoutBlank_iff (type : String) (values : Dict Value) :
    (summary catalog type (withoutBlank values) = summary catalog type values ↔
      ¬ (type = notify.type ∧ HasBlankPart values)) ∧
    ((∃ text, summary catalog type values = some text ∧ Text.isBlank text = true) ↔
      type = notify.type ∧ OnlyBlankPart values) ∧
    summary catalog type (withoutEmpty values) = summary catalog type values := by
  by_cases htype : type = notify.type
  · rw [summary, summary, summary, if_pos htype, if_pos htype, if_pos htype]
    refine ⟨?_, ?_, notifySummary_withoutEmpty values⟩
    · rw [notifySummary_withoutBlank_iff, and_iff_right htype]
    · rw [isBlank_of_notifySummary_iff, and_iff_right htype]
  · have hblank : ∀ v : Value, (!v.isBlankText) = false → v.isBlankText = true := by simp
    have hempty : ∀ v : Value, (v != .string "") = false → v.isBlankText = true := by
      intro v hv
      obtain rfl : v = .string "" := by simpa using hv
      rfl
    refine ⟨iff_of_true (summary_filter hblank htype catalog values) fun h => htype h.1,
      iff_of_false ?_ fun h => htype h.1, summary_filter hempty htype catalog values⟩
    rintro ⟨text, htext, hblank⟩
    rw [isBlank_of_summary htype htext] at hblank
    cases hblank

/-- A notification of one blank is shown as it is, although there is none without blank texts. -/
theorem summary_of_blank_notification :
    summary catalog "notify" (.ofList [("summary", .string " ")]) = some " " ∧
    Text.isBlank " " = true ∧
    summary catalog "notify" (withoutBlank (.ofList [("summary", .string " ")])) = none := by
  decide

end Builtin

end Reflex

import Reflex.Property
import Reflex.Identifier

/-!
# Editing Properties

How a property is edited: with which widget, and on which selector screen if it has one. The
answers are plain data for whatever shows them.
-/

namespace Reflex

/-- The widget that edits a property in place. -/
inductive Widget where
  -- A line of text.
  | textField
  -- A list of choices.
  | comboBox
  -- A button that opens a selector.
  | dialogButton
  -- A field for integers.
  | intField
  -- A field for doubles.
  | doubleField
  -- A switch.
  | switch
  deriving DecidableEq, Repr

/-- The name of a widget. -/
def Widget.name : Widget → String
  | .textField => "text_field"
  | .comboBox => "combo_box"
  | .dialogButton => "dialog_button"
  | .intField => "int_field"
  | .doubleField => "double_field"
  | .switch => "switch"

/-- A screen that picks a value. -/
inductive Selector where
  -- Picks a time of day.
  | timePicker
  -- Picks an application.
  | applicationPicker
  deriving DecidableEq, Repr

/-- The name of a selector. -/
def Selector.name : Selector → String
  | .timePicker => "time_picker"
  | .applicationPicker => "application_picker"

/-- The widget of a type and its refinement. What has no editor in place is a button. -/
def Widget.ofType : PropertyType → PropertySubtype → Widget
  | .string, .none => .textField
  | .string, .choice => .comboBox
  | .int, .none => .intField
  | .double, .none => .doubleField
  | .bool, .none => .switch
  | _, _ => .dialogButton

/-- The selector of a type and its refinement, if it has one. -/
def Selector.ofType? : PropertyType → PropertySubtype → Option Selector
  | .time, .none => some .timePicker
  | .string, .application => some .applicationPicker
  | _, _ => none

/-- The request to open a selector for a property of an action. -/
structure SelectorRequest where
  /-- The screen to open. -/
  selector : Selector
  /-- The rule whose property is edited. -/
  rule : Identifier
  /-- The position of the action in the rule. -/
  action : Nat
  /-- The property that the choice is written to. -/
  property : String
  deriving DecidableEq

namespace Descriptor

/-- The widget of a property. -/
def widget (d : Descriptor) : Widget :=
  .ofType d.type d.subtype

/-- The request to open the selector of a property; none when it is edited in place. -/
def selectorRequest? (d : Descriptor) (rule : Identifier) (action : Nat) :
    Option SelectorRequest :=
  (Selector.ofType? d.type d.subtype).map fun selector =>
    { selector, rule, action, property := d.name }

end Descriptor

end Reflex

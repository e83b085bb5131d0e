import Reflex.Catalog

/-!
# The Built-in Catalog

The action types and event kinds that come with the program, and the short descriptions of
configured actions.

## Main definitions

- `Reflex.Builtin.catalog`: the declarations.
- `Reflex.Builtin.summary`: the description of an action with given values.
-/

namespace Reflex.Builtin

/-- The longest pause in seconds: one day. -/
def maxDelaySeconds : Int := 86400

/-- A property without refinement. -/
def property (name : String) (type : PropertyType) : Descriptor :=
  { name, type }

/-- Write a message to the log. -/
def log : ActionSchema where
  type := "log"
  name := "Log"
  description := "Write a message to the log"
  properties := [
    ((property "message" .string).withDescription "Message").withNonEmpty.asRequired,
    ((({ name := "level", type := .string, subtype := .choice : Descriptor }).withDescription
      "Log level").withChoices [⟨"Debug", "debug"⟩, ⟨"Info", "info"⟩, ⟨"Warning", "warn"⟩,
        ⟨"Error", "error"⟩]).withDefault (.string "info")]
  summary := some "Log \x7bmessage\x7d"

/-- Wait before the next action. -/
def delay : ActionSchema where
  type := "delay"
  name := "Delay"
  description := "Wait before running the next action"
  properties := [
    (((property "seconds" .double).withDescription "Seconds to wait").withRange
      (.ofInt 0) (.ofInt maxDelaySeconds)).asRequired]
  summary := some "Wait \x7bseconds\x7d s"

/-- Launch an application. -/
def launchApplication : ActionSchema where
  type := "launch_application"
  name := "Launch application"
  properties := [
    (({ name := "application", type := .string, subtype := .application :
      Descriptor }).withDescription "Application to launch").asRequired]
  summary := some "Launch \x7bapplication\x7d"

/-- Open an address. -/
def openUrl : ActionSchema where
  type := "open_url"
  name := "Open URL"
  properties := [
    ((property "url" .string).withDescription "Url to open").withNonEmpty.asRequired]
  summary := some "Open url \x7burl\x7d"

/-- Set the profile. -/
def setProfile : ActionSchema where
  type := "set_profile"
  name := "Set profile"
  properties := [
    ((({ name := "profile", type := .string, subtype := .choice : Descriptor }).withDescription
      "Profile to set").withChoices [⟨"Standard profile", "ambience"⟩,
        ⟨"Silent profile", "silent"⟩]).asRequired]
  summary := some "Set profile \x7bprofile\x7d"

/-- Show a notification. -/
def notify : ActionSchema where
  type := "notify"
  name := "Notification"
  properties := [
    (property "summary" .string).withDescription "Notification summary",
    (property "body" .string).withDescription "Notification text"]

/-- Switch something on or off. -/
def switch (type name description : String) : ActionSchema where
  type := type
  name := name
  properties := [((property "enable" .bool).withDescription description).asRequired]

/-- Switch the wireless network. -/
def wlanSwitch : ActionSchema := switch "wlan_switch" "WLAN switch" "Switch WLAN"

/-- Switch mobile data. -/
def dataSwitch : ActionSchema := switch "data_switch" "Mobile data switch" "Switch data"

/-- The actions in the order of their declaration. -/
def actions : List ActionSchema :=
  [log, delay, launchApplication, openUrl, setProfile, notify, wlanSwitch, dataSwitch]

/-- The event of the minute clock. -/
def timeTick : EventSchema where
  kind := Event.timeTick
  fields := [
    property "time" .time,
    (property "hour" .int).withRange (.ofInt 0) (.ofInt 23),
    (property "minute" .int).withRange (.ofInt 0) (.ofInt 59),
    ((property "weekday" .int).withDescription "1 = Monday, 7 = Sunday").withRange
      (.ofInt 1) (.ofInt 7)]

/-- The event that is poked in from outside. -/
def debugPoke : EventSchema where
  kind := Event.debugPoke
  fields := [
    (property "path" .string).withDescription "Which poke fired, \"/\" when unnamed"]

/-- The events in the order of their declaration. -/
def events : List EventSchema :=
  [timeTick, debugPoke]

/-- The declarations that come with the program. -/
def catalog : Catalog :=
  events.foldl Catalog.registerEvent (actions.foldl Catalog.registerAction {})

/-! ## Summaries -/

/-- The text of a value, if it is a text and not empty. -/
def text? (values : Dict Value) (name : String) : Option String :=
  match values.get? name with
  | some (.string s) => if s.isEmpty then none else some s
  | _ => none

/-- The summary and the body of a notification, as far as there are any. -/
def notifySummary (values : Dict Value) : Option String :=
  match text? values "summary", text? values "body" with
  | some summary, some body => some (summary ++ ", " ++ body)
  | some summary, none => some summary
  | none, body => body

/-- What a switch does to something. -/
def switchSummary (what : String) (values : Dict Value) : Option String :=
  match values.get? "enable" with
  | some (.bool enable) => some ((if enable then "Enable " else "Disable ") ++ what)
  | _ => none

/-- The short description of an action with the given values, if they suffice for one. -/
def summary (catalog : Catalog) (type : String) (values : Dict Value) : Option String :=
  if type = notify.type then notifySummary values
  else if type = wlanSwitch.type then switchSummary "WLAN" values
  else if type = dataSwitch.type then switchSummary "data" values
  else (catalog.action? type).bind fun schema => schema.summarize values

end Reflex.Builtin

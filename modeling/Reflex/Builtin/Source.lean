import Reflex.Event
import Reflex.Calendar
import Reflex.Text.Blank

/-!
# Built-in Event Sources

The minute clock and the pokes from outside.
-/

namespace Reflex.Builtin

/-- The path of a poke that names none. -/
def rootPath : String := "/"

/-- The event of the minute that holds a moment. -/
def tickEvent (moment : Moment) : Event where
  kind := Event.timeTick
  fields := .ofList [
    ("hour", .int (.ofNat moment.time.hour)),
    ("minute", .int (.ofNat moment.time.minute)),
    ("weekday", .int (.ofNat (Calendar.weekday moment.day))),
    ("time", .time moment.time.startOfMinute)]

/-- The event of a poke. Blanks around the path do not count. -/
def pokeEvent (path : String) : Event where
  kind := Event.debugPoke
  fields := .ofList [
    ("path", .string (if Text.isBlank path then rootPath else Text.trimmed path))]

end Reflex.Builtin

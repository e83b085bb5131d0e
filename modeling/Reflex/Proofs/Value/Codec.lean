import Reflex.Event
import Reflex.Proofs.Except
import Reflex.Proofs.Identifier
import Reflex.Proofs.Json
import Reflex.Proofs.Property.Validation
import Reflex.Proofs.TimeOfDay

/-!
# Reading Back Recorded Values

The recorded form of a value does not name the kind, and a reader tries the kinds in their order.
The kinds are still told apart, with two exceptions: a text that reads as a time is taken for that
time, and a double that is not finite is recorded as null, which is no value. An event is read back
exactly if it carries neither. Records are documents here; what becomes of a document that is
written as text and read again is a matter of the format, not of the values.

## Main definitions

- `Reflex.Value.Recordable`: values that are not among the exceptions.
- `Reflex.Value.reread`: the value that is read from the record of a value.

## Main statements

- `Reflex.Value.ofJson?_toJson`: what is read from the record of a value.
- `Reflex.Value.reread_eq_some_self`: exactly the recordable values are read back.
- `Reflex.Dict.ofList_mapM_eq_some`: reading the values of a dictionary, one by one.
- `Reflex.RecordedEvent.readFields?_toJson`: what is read from the record of the fields of an event.
- `Reflex.RecordedEvent.readBack_iff_recordable`: exactly the events with recordable fields are read
  back.
-/

namespace Reflex

/-! ## Values -/

namespace Value

/-- Whether the record of a value is told apart from the records of the kinds that are tried before
its own: it is neither a text that reads as a time nor a double that is recorded as null. -/
def Recordable : Value → Prop
  | .double d => d.isFinite = true
  | .string s => TimeOfDay.readExact? s = none
  | .bool _ | .int _ | .time _ => True

instance : DecidablePred Recordable
  | .double d => inferInstanceAs (Decidable (d.isFinite = true))
  | .string s => inferInstanceAs (Decidable (TimeOfDay.readExact? s = none))
  | .bool _ | .int _ | .time _ => inferInstanceAs (Decidable True)

/-- The value that is read from the record of a value, if there is one. -/
def reread : Value → Option Value
  | .double d => if d.isFinite then some (.double d) else none
  | .string s => some ((TimeOfDay.readExact? s).elim (.string s) .time)
  | v => some v

/-- What is read from the record of a value. -/
theorem ofJson?_toJson (v : Value) : ofJson? v.toJson = v.reread := by
  cases v with
  | bool b => rfl
  | int n => simp [toJson, ofJson?, reread, int64OfInt?_toInt]
  | double d => by_cases hfinite : d.isFinite = true <;> simp [toJson, ofJson?, reread, hfinite]
  | time t => simp [toJson, ofJson?, reread, TimeOfDay.readExact?_fullText]
  | string s => cases h : TimeOfDay.readExact? s <;> simp [toJson, ofJson?, reread, h]

/-- Exactly the recordable values are read back. -/
theorem reread_eq_some_self (v : Value) : v.reread = some v ↔ v.Recordable := by
  cases v with
  | double d => simp [reread, Recordable]
  | string s => cases h : TimeOfDay.readExact? s <;> simp [reread, Recordable, h]
  | _ => simp [reread, Recordable]

example : (string "12:30").reread = some (.time { second := 45000, nano := 0 }) := by
  decide +kernel

end Value

/-! ## Dictionaries -/

namespace Dict

variable {α β : Type} {f : α → Option β} {l : List (String × α)} {out : List (String × β)}

/-- Reading the values of entries keeps the keys, and at a key the value is read that is there. -/
theorem lookup_of_mapM (h : (l.mapM fun e => (f e.2).map fun b => (e.1, b)) = some out) :
    out.map (·.1) = l.map (·.1) ∧ ∀ key, (lookup key l).map f = (lookup key out).map some := by
  induction l generalizing out with
  | nil =>
    obtain rfl : [] = out := Option.some.inj h
    exact ⟨rfl, fun _ => rfl⟩
  | cons x rest ih =>
    simp only [List.mapM_cons, Option.bind_eq_bind, Option.bind_eq_some_iff,
      Option.map_eq_some_iff] at h
    obtain ⟨-, ⟨b, hb, rfl⟩, others, hothers, hout⟩ := h
    obtain rfl := Option.some.inj hout
    obtain ⟨hkeys, hlookup⟩ := ih hothers
    refine ⟨congrArg (x.1 :: ·) hkeys, fun key => ?_⟩
    simp only [lookup]
    split
    · exact congrArg some hb
    · exact hlookup key

/-- A dictionary is what the values of another one are read as exactly if it has the same keys, and
at each of them the value that is read. -/
theorem ofList_mapM_eq_some {d : Dict α} {e : Dict β} :
    (d.entries.mapM fun x => (f x.2).map fun b => (x.1, b)).map ofList = some e ↔
      ∀ key, (d.get? key).map f = (e.get? key).map some := by
  have hread (out : List (String × β))
      (hout : (d.entries.mapM fun x => (f x.2).map fun b => (x.1, b)) = some out) (key : String) :
      (d.get? key).map f = ((ofList out).get? key).map some := by
    obtain ⟨hkeys, hlookup⟩ := lookup_of_mapM hout
    rw [get?_ofList (hkeys ▸ d.nodup_keys)]
    exact hlookup key
  constructor
  · intro h
    obtain ⟨out, hout, rfl⟩ := Option.map_eq_some_iff.1 h
    exact hread out hout
  · intro h
    have hall : ∀ x ∈ d.entries, ∃ y, (f x.2).map (fun b => (x.1, b)) = some y := by
      rintro ⟨key, a⟩ hmem
      have hkey := h key
      rw [get?, (lookup_eq_some_iff d.nodup_keys).2 hmem] at hkey
      obtain ⟨b, -, hb⟩ := Option.map_eq_some_iff.1 hkey.symm
      exact ⟨(key, b), by rw [← hb]; rfl⟩
    obtain ⟨out, hout⟩ := exists_mapM_eq_some hall
    have hsame : ofList out = e := ext_get? fun key =>
      Option.map_injective (Option.some_injective β) ((hread out hout key).symm.trans (h key))
    rw [hout, Option.map_some, hsame]

end Dict

/-! ## Events -/

namespace RecordedEvent

variable {fields read : Dict Value} {r : RecordedEvent}

/-- The fields that are read from the record of the fields of an event. -/
theorem readFields?_toJson :
    readFields? (.object (fields.map Value.toJson).entries) = some read ↔
      ∀ name, (fields.get? name).map Value.reread = (read.get? name).map some := by
  have hvalues : Value.ofJson? ∘ Value.toJson = Value.reread := funext Value.ofJson?_toJson
  have hdict := Dict.ofList_mapM_eq_some (f := Value.ofJson?)
    (d := fields.map Value.toJson) (e := read)
  simp only [Dict.get?_map, Option.map_map, hvalues] at hdict
  rw [← hdict, readFields?]
  simp [Option.map_eq_bind]

/-- Exactly recordable fields are read back. -/
theorem readFields?_toJson_eq_self :
    readFields? (.object (fields.map Value.toJson).entries) = some fields ↔
      ∀ name v, fields.get? name = some v → v.Recordable := by
  rw [readFields?_toJson]
  refine forall_congr' fun name => ?_
  cases fields.get? name with
  | none => simp
  | some v => simp [Value.reread_eq_some_self]

/-- What is read from the record of an event, given its fields. -/
theorem ofJson?_toJson (hmoment : Moment.readOffset? r.timestamp.text = some r.timestamp) :
    ofJson? r.toJson = (readFields? (.object (r.event.fields.map Value.toJson).entries)).map
      fun fields => { r with event := { r.event with fields } } := by
  rw [toJson, ofJson?, Json.Record.ofJson?_object (by simp [fieldNames]) (by simp)]
  simp [Json.Record.required?, Json.Record.orElse?, Json.asString?, hmoment, Option.map_eq_bind]

/-- Exactly the recordable values are read back from their records, and so are the fields of an
event, and the event, exactly if all fields are recordable. -/
theorem readBack_iff_recordable :
    (∀ v : Value, Value.ofJson? v.toJson = some v ↔ v.Recordable) ∧
      ∀ r : RecordedEvent, Moment.readOffset? r.timestamp.text = some r.timestamp →
        ((ofJson? r.toJson).map (fun read => read.event.fields) = some r.event.fields ↔
            ∀ name v, r.event.fields.get? name = some v → v.Recordable) ∧
          (ofJson? r.toJson = some r ↔
            ∀ name v, r.event.fields.get? name = some v → v.Recordable) := by
  constructor
  · intro v
    rw [Value.ofJson?_toJson, Value.reread_eq_some_self]
  · intro r hmoment
    rw [ofJson?_toJson hmoment, ← readFields?_toJson_eq_self]
    cases hread : readFields? (.object (r.event.fields.map Value.toJson).entries) with
    | none => simp
    | some fields =>
      have hevent : { r with event := { r.event with fields } } = r ↔ fields = r.event.fields :=
        ⟨fun h => h ▸ rfl, fun h => h ▸ rfl⟩
      simp [hevent]

/-- A report on the leap second at the end of 2016. -/
def leapReport : RecordedEvent where
  id := { value := 30 }
  event :=
    { kind := "clock.leap"
      fields := .ofList [
        ("at", .time { second := 86399, nano := 1500000000 }),
        ("drift", .double (.ofInt 3)),
        ("least", .int (-9223372036854775808)),
        ("note", .string "24:00")] }
  timestamp := { day := 17166, time := { second := 86399, nano := 1500000000 } }

/-- Neither the leap second nor the double of a whole number is lost. -/
theorem readBack_of_leapReport :
    Moment.readOffset? leapReport.timestamp.text = some leapReport.timestamp ∧
      ofJson? leapReport.toJson = some leapReport := by
  have hmoment : Moment.readOffset? leapReport.timestamp.text = some leapReport.timestamp := by
    decide +kernel
  refine ⟨hmoment, ((readBack_iff_recordable.2 leapReport hmoment).2).2 fun name v hv => ?_⟩
  have hall : ∀ e ∈ leapReport.event.fields.entries, e.2.Recordable := by
    decide +kernel
  exact hall _ (Dict.mem_of_lookup hv)

end RecordedEvent

end Reflex

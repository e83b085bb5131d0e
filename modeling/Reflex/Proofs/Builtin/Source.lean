import Reflex.Builtin.Catalog
import Reflex.Builtin.Source
import Reflex.Proofs.Number.Nearest
import Reflex.Proofs.Trigger.Soundness

/-!
# Built-in Sources and What the Catalog Declares

The minute clock and the pokes emit events with exactly the fields that the catalog declares for
their kinds, and validation accepts the value of each field unchanged. So a rule whose trigger was
compiled against the catalog reads the fields that it expects. The clock tells the minutes apart and
nothing within a minute, not even within a leap second.

## Main definitions

- `EventSchema.Describes`, `Catalog.Describes`: an event has the declared fields and no others.
- `Moment.SameMinute`: moments of one minute.
- `Event.TellsMinute`: time, hour and minute of an event agree.

## Main statements

- `Builtin.tickEvent_eq_iff`: what an event of the clock depends on.
- `Builtin.described_of_source`: the events of both sources.
-/

namespace Reflex

/-- The event carries every field of the schema with a value that the declaration accepts
unchanged, and no other fields. -/
structure EventSchema.Describes (schema : EventSchema) (e : Event) : Prop where
  /-- Every declared field is there. -/
  conforms : schema.Conforms e
  /-- Every field that is there is declared. -/
  declared : ∀ name v, e.field? name = some v → ∃ d ∈ schema.fields, d.name = name

/-- The catalog has a schema for the kind of the event, and the schema describes it. -/
def Catalog.Describes (catalog : Catalog) (e : Event) : Prop :=
  ∃ schema, catalog.event? e.kind = some schema ∧ schema.Describes e

/-- Two moments of one day that are in the same minute. A leap second belongs to the minute that it
follows. -/
def Moment.SameMinute (a b : Moment) : Prop :=
  a.day = b.day ∧ a.time.second / 60 = b.time.second / 60

/-- The event has a time, an hour and a minute, and the time is the start of that minute of that
hour, which is the minute of a moment. -/
def Event.TellsMinute (e : Event) (moment : Moment) : Prop :=
  ∃ (t : TimeOfDay) (hour minute : Int64), e.field? "time" = some (.time t) ∧
    e.field? "hour" = some (.int hour) ∧ e.field? "minute" = some (.int minute) ∧
    hour.toInt = t.hour ∧ minute.toInt = t.minute ∧ t.shownSecond = 0 ∧ t.nano = 0 ∧
    t.hour = moment.time.hour ∧ t.minute = moment.time.minute

/-! ## Numbers of a clock -/

section Number

variable {n : ℕ}

/-- A number of the clock in the declared range is accepted unchanged. -/
theorem Descriptor.revalidate_clock {d : Descriptor} {low high : ℕ} (htype : d.type = .int)
    (hmin : d.constraints.min = some (.ofInt low)) (hmax : d.constraints.max = some (.ofInt high))
    (hlow : low ≤ n) (hhigh : n ≤ high) (hclock : high < 60) :
    d.revalidate (.int (.ofNat n)) = .ok (.int (.ofNat n)) := by
  refine revalidate_int htype (checkRange_eq_ok.2 ⟨fun least h => ?_, fun most h => ?_⟩)
  · obtain rfl := Option.some.inj (hmin.symm.trans h)
    rw [Int64.toInt_ofNat_of_lt (by omega)]
    exact Double.ofInt_lt_ofInt_eq_false (by omega) (by omega) (Int.ofNat_le.2 hlow)
  · obtain rfl := Option.some.inj (hmax.symm.trans h)
    rw [Int64.toInt_ofNat_of_lt (by omega)]
    exact Double.ofInt_lt_ofInt_eq_false (by omega) (by omega) (Int.ofNat_le.2 hhigh)

end Number

/-! ## Times -/

section Time

variable (t : TimeOfDay)

theorem TimeOfDay.hour_startOfMinute : t.startOfMinute.hour = t.hour := by
  simp only [startOfMinute, hour]
  omega

theorem TimeOfDay.minute_startOfMinute : t.startOfMinute.minute = t.minute := by
  simp only [startOfMinute, minute]
  omega

theorem TimeOfDay.shownSecond_startOfMinute : t.startOfMinute.shownSecond = 0 := by
  simp only [startOfMinute, shownSecond]
  omega

/-- The start of a minute is what a clock shows without seconds. -/
theorem TimeOfDay.ofClock?_startOfMinute :
    ofClock? t.hour t.minute 0 0 = some t.startOfMinute := by
  have h := ofClock?_shown t.startOfMinute
  rwa [hour_startOfMinute, minute_startOfMinute, shownSecond_startOfMinute] at h

theorem TimeOfDay.startOfMinute_eq_iff {t u : TimeOfDay} :
    t.startOfMinute = u.startOfMinute ↔ t.second / 60 = u.second / 60 := by
  refine ⟨fun h => ?_, fun h => ext ?_ rfl⟩
  · have hsecond := congrArg TimeOfDay.second h
    simp only [startOfMinute] at hsecond
    omega
  · simp only [startOfMinute, h]

end Time

theorem Calendar.weekday_bounds (day : Int) : 1 ≤ weekday day ∧ weekday day ≤ 7 := by
  unfold weekday
  omega

/-! ## Events of the sources -/

namespace Builtin

variable (moment : Moment) (path : String)

/-- The fields of the minute clock. -/
theorem field?_tickEvent (name : String) :
    (tickEvent moment).field? name = Dict.lookup name [
      ("hour", .int (.ofNat moment.time.hour)),
      ("minute", .int (.ofNat moment.time.minute)),
      ("weekday", .int (.ofNat (Calendar.weekday moment.day))),
      ("time", .time moment.time.startOfMinute)] :=
  Dict.get?_ofList (by simp) name

theorem event?_timeTick : catalog.event? Event.timeTick = some timeTick := by
  decide +kernel

theorem event?_debugPoke : catalog.event? Event.debugPoke = some debugPoke := by
  decide +kernel

theorem conforms_tickEvent : timeTick.Conforms (tickEvent moment) := by
  obtain ⟨hhour, hminute, -⟩ := moment.time.shown_lt
  obtain ⟨hmonday, hsunday⟩ := Calendar.weekday_bounds moment.day
  intro d hd
  simp only [timeTick, List.mem_cons, List.not_mem_nil, or_false] at hd
  rcases hd with rfl | rfl | rfl | rfl
  · exact ⟨_, field?_tickEvent moment "time",
      Descriptor.revalidate_time rfl moment.time.ofClock?_startOfMinute⟩
  · exact ⟨_, field?_tickEvent moment "hour",
      Descriptor.revalidate_clock rfl rfl rfl (Nat.zero_le _) (Nat.le_of_lt_succ hhour) (by decide)⟩
  · exact ⟨_, field?_tickEvent moment "minute", Descriptor.revalidate_clock rfl rfl rfl
      (Nat.zero_le _) (Nat.le_of_lt_succ hminute) (by decide)⟩
  · exact ⟨_, field?_tickEvent moment "weekday",
      Descriptor.revalidate_clock rfl rfl rfl hmonday hsunday (by decide)⟩

theorem describes_tickEvent : catalog.Describes (tickEvent moment) := by
  refine ⟨timeTick, event?_timeTick, conforms_tickEvent moment, fun name v h => ?_⟩
  have hall : ∀ name ∈ ["hour", "minute", "weekday", "time"],
      ∃ d ∈ timeTick.fields, d.name = name := by decide +kernel
  rw [field?_tickEvent] at h
  exact hall name (Dict.lookup_isSome.1 (Option.isSome_of_eq_some h))

/-- The fields of a poke. -/
theorem field?_pokeEvent (name : String) :
    (pokeEvent path).field? name = Dict.lookup name [
      ("path", .string (if Text.isBlank path then rootPath else Text.trimmed path))] :=
  Dict.get?_ofList (by simp) name

theorem describes_pokeEvent : catalog.Describes (pokeEvent path) := by
  refine ⟨debugPoke, event?_debugPoke, fun d hd => ?_, fun name v h => ?_⟩
  · obtain rfl := List.mem_singleton.1 hd
    exact ⟨_, field?_pokeEvent path "path", Descriptor.revalidate_text rfl rfl rfl⟩
  · rw [field?_pokeEvent] at h
    have hname := Dict.lookup_isSome.1 (Option.isSome_of_eq_some h)
    exact ⟨_, List.mem_singleton.2 rfl, (List.mem_singleton.1 hname).symm⟩

theorem tellsMinute_tickEvent : (tickEvent moment).TellsMinute moment := by
  obtain ⟨hhour, hminute, -⟩ := moment.time.shown_lt
  refine ⟨moment.time.startOfMinute, .ofNat moment.time.hour, .ofNat moment.time.minute,
    field?_tickEvent moment "time", field?_tickEvent moment "hour",
    field?_tickEvent moment "minute", ?_, ?_, moment.time.shownSecond_startOfMinute, rfl,
    moment.time.hour_startOfMinute, moment.time.minute_startOfMinute⟩
  · rw [Int64.toInt_ofNat_of_lt (by omega), TimeOfDay.hour_startOfMinute]
  · rw [Int64.toInt_ofNat_of_lt (by omega), TimeOfDay.minute_startOfMinute]

/-- The clock tells moments apart by the day of the week and the minute of the day, and by nothing
else. -/
theorem tickEvent_eq_iff {a b : Moment} : tickEvent a = tickEvent b ↔
    Calendar.weekday a.day = Calendar.weekday b.day ∧ a.time.second / 60 = b.time.second / 60 := by
  rw [← TimeOfDay.startOfMinute_eq_iff]
  constructor
  · intro h
    have hfields (name : String) := congrArg (·.field? name) h
    have hweekday : some (Value.int (.ofNat (Calendar.weekday a.day))) =
        some (.int (.ofNat (Calendar.weekday b.day))) :=
      (field?_tickEvent a "weekday").symm.trans
        ((hfields "weekday").trans (field?_tickEvent b "weekday"))
    have htime : some (Value.time a.time.startOfMinute) = some (.time b.time.startOfMinute) :=
      (field?_tickEvent a "time").symm.trans ((hfields "time").trans (field?_tickEvent b "time"))
    refine ⟨?_, Value.time.inj (Option.some.inj htime)⟩
    have hnumber := congrArg Int64.toInt (Value.int.inj (Option.some.inj hweekday))
    have ha := Calendar.weekday_bounds a.day
    have hb := Calendar.weekday_bounds b.day
    rw [Int64.toInt_ofNat_of_lt (by omega), Int64.toInt_ofNat_of_lt (by omega)] at hnumber
    exact Int.ofNat.inj hnumber
  · rintro ⟨hweekday, htime⟩
    have hhour : a.time.hour = b.time.hour := by
      rw [← a.time.hour_startOfMinute, htime, b.time.hour_startOfMinute]
    have hminute : a.time.minute = b.time.minute := by
      rw [← a.time.minute_startOfMinute, htime, b.time.minute_startOfMinute]
    rw [tickEvent, tickEvent, hhour, hminute, hweekday, htime]

/-- Take any moment and any path. The catalog describes the events of both sources: each has the
declared fields, with values that are accepted unchanged, and no others. The events of the clock are
equal for moments of one minute, different for moments of different minutes of a day, and tell the
minute alike by their time, their hour and their minute. -/
theorem described_of_source :
    (∀ moment, catalog.Describes (tickEvent moment)) ∧
    (∀ path, catalog.Describes (pokeEvent path)) ∧
    (∀ a b : Moment, a.SameMinute b → tickEvent a = tickEvent b) ∧
    (∀ a b : Moment, a.day = b.day → tickEvent a = tickEvent b → a.SameMinute b) ∧
    ∀ moment, (tickEvent moment).TellsMinute moment := by
  refine ⟨describes_tickEvent, describes_pokeEvent, fun a b ⟨hday, hminute⟩ => ?_,
    fun a b hday h => ⟨hday, (tickEvent_eq_iff.1 h).2⟩, tellsMinute_tickEvent⟩
  exact tickEvent_eq_iff.2 ⟨congrArg Calendar.weekday hday, hminute⟩

/-- A quarter of a second into the leap second at the end of 2016, as clocks an hour ahead show
it. -/
def leapMoment : Moment where
  day := 17167
  time := { second := 3599, nano := 1250000000 }

/-- The start of the minute that the leap second follows. -/
def lastMinute : Moment where
  day := 17167
  time := leapMoment.time.startOfMinute

/-- The clock emits the event of the minute in a leap second that follows it. -/
theorem described_of_leapMoment :
    catalog.Describes (tickEvent leapMoment) ∧ catalog.Describes (pokeEvent " /alarm ") ∧
    leapMoment.SameMinute lastMinute ∧ tickEvent leapMoment = tickEvent lastMinute ∧
    (tickEvent leapMoment).TellsMinute leapMoment := by
  obtain ⟨htick, hpoke, hsame, hdifferent, htells⟩ := described_of_source
  have hminute : leapMoment.SameMinute lastMinute := ⟨rfl, rfl⟩
  have hequal := hsame _ _ hminute
  exact ⟨htick _, hpoke _, hdifferent _ _ rfl hequal, hequal, htells _⟩

end Builtin

end Reflex

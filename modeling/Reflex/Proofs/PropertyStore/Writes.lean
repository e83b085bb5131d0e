import Reflex.Proofs.PropertyStore
import Mathlib.Data.List.Induction

/-!
# Series of Writes

A store that was seeded stays lawful through every series of writes, refused ones among them.
Every accepted write is one new version with the last value of every name that it gives, and a
refused one is as if it had not been made.

## Main definitions

- `PropertyStore.Write`, `PropertyStore.write`, `PropertyStore.writeAll`: writes and their answers.
- `PropertyStore.Lawful`: every value is that of a declaration and satisfies it.
- `PropertyStore.Updated`, `PropertyStore.Refused`: what an answer says about a write.

## Main statements

- `PropertyStore.get?_of_overlay`: of several entries of a name the last one counts.
- `PropertyStore.write_cases`: a write is accepted as a whole or refused as a whole.
- `PropertyStore.lawful_of_writeAll`: what holds after every series of writes.
-/

namespace Reflex.PropertyStore

/-- A write of properties. -/
inductive Write where
  -- One property is written.
  | one (name : String) (raw : Json)
  -- Several properties are written as one change.
  | many (changes : RawEntries)

/-- What is written, in order. -/
def Write.entries : Write → RawEntries
  | .one name raw => [(name, raw)]
  | .many changes => changes

/-- Make a write. The answer is the new version; a refused write leaves the store. -/
def write (s : PropertyStore) (w : Write) : PropertyStore × Except ValidationError Nat :=
  let result := match w with
    | .one name raw => s.set name raw
    | .many changes => s.setMany changes
  match result with
  | .ok s' => (s', .ok s'.snapshot.version)
  | .error e => (s, .error e)

/-- Make writes one after the other, and keep the answers. -/
def writeAll (s : PropertyStore) : List Write → PropertyStore × List (Except ValidationError Nat)
  | [] => (s, [])
  | w :: rest =>
    let (next, answer) := s.write w
    let (last, answers) := next.writeAll rest
    (last, answer :: answers)

/-- Every value belongs to a declaration, has its type, and is accepted unchanged. -/
structure Lawful (declared : List Descriptor) (s : PropertyStore) : Prop where
  /-- Values have declared names. -/
  named : ∀ name ∈ s.snapshot.values.keys, ∃ d ∈ declared, d.name = name
  /-- They have the declared types. -/
  typed : ∀ d ∈ declared, ∀ v, s.get? d.name = some v → v.HasType d.type
  /-- Validation changes them no more. -/
  normal : ∀ d ∈ declared, ∀ v, s.get? d.name = some v → s.revalidate d.name v = .ok v

/-- The store is another one after the entries were written: of several entries of a name the last
one counts. -/
structure Updated (s s' : PropertyStore) (entries : RawEntries) : Prop where
  /-- Every entry is acceptable. -/
  accepted : ∀ e ∈ entries, ∃ v, s.validate e.1 e.2 = .ok v
  /-- The declarations stay. -/
  descriptors : s'.descriptors = s.descriptors
  /-- The version is the next one. -/
  version : s'.snapshot.version = s.snapshot.version + 1
  /-- A name that is given has its last value, normalised. -/
  given : ∀ name raw, Dict.lookup name entries.reverse = some raw →
    ∃ v, s.validate name raw = .ok v ∧ s'.get? name = some v
  /-- The other names keep their values. -/
  kept : ∀ name, Dict.lookup name entries.reverse = none → s'.get? name = s.get? name

/-- The first entry that is not acceptable is so for the given reason. -/
def Refused (s : PropertyStore) (entries : RawEntries) (e : ValidationError) : Prop :=
  ∃ before name raw after, entries = before ++ (name, raw) :: after ∧
    (∀ b ∈ before, ∃ v, s.validate b.1 b.2 = .ok v) ∧ s.validate name raw = .error e

/-! ## Batches -/

section Overlay

variable {descriptors : Dict Descriptor} {values out : Dict Value} {entries : RawEntries}
  {name : String} {raw : Json} {v : Value} {e : ValidationError}

/-- A batch that is written is acceptable entry by entry. -/
theorem exists_of_overlay (h : overlay descriptors values entries = .ok out)
    {entry : String × Json} (hentry : entry ∈ entries) :
    ∃ v, validateIn descriptors entry.1 entry.2 = .ok v := by
  induction entries generalizing values with
  | nil => cases hentry
  | cons first rest ih =>
    rw [overlay, List.foldlM_cons, bind_eq_ok] at h
    obtain ⟨next, hnext, hrest⟩ := h
    obtain ⟨v, hv, -⟩ := bind_eq_ok.1 hnext
    rcases List.mem_cons.1 hentry with rfl | hentry
    · exact ⟨v, hv⟩
    · exact ih hrest hentry

/-- After a batch a name that it gives has its last value, and any other name the value that it
had. The induction is on the end of the batch, where the value is decided. -/
theorem get?_of_overlay (h : overlay descriptors values entries = .ok out) (name : String) :
    (∀ raw, Dict.lookup name entries.reverse = some raw →
      ∃ v, validateIn descriptors name raw = .ok v ∧ out.get? name = some v) ∧
    (Dict.lookup name entries.reverse = none → out.get? name = values.get? name) := by
  induction entries using List.reverseRecOn generalizing out with
  | nil =>
    obtain rfl : values = out := Except.ok.inj h
    exact ⟨fun raw hraw => by simp [Dict.lookup] at hraw, fun _ => rfl⟩
  | append_singleton init last ih =>
    rw [overlay, List.foldlM_append, bind_eq_ok] at h
    obtain ⟨before, hbefore, hlast⟩ := h
    rw [List.foldlM_cons, bind_eq_ok] at hlast
    obtain ⟨after, hafter, hout⟩ := hlast
    obtain ⟨v, hv, hinsert⟩ := bind_eq_ok.1 hafter
    obtain rfl := Except.ok.inj hinsert
    obtain rfl := Except.ok.inj hout
    rw [List.reverse_concat, Dict.lookup, Dict.get?_insert]
    split
    next hname =>
      subst hname
      refine ⟨fun raw hraw => ⟨v, ?_, rfl⟩, fun hnone => by cases hnone⟩
      rw [← Option.some.inj hraw]
      exact hv
    next => exact ih hbefore

/-- A batch is refused for the reason of its first entry that is not acceptable. -/
theorem exists_of_overlay_eq_error (h : overlay descriptors values entries = .error e) :
    ∃ before name raw after, entries = before ++ (name, raw) :: after ∧
      (∀ b ∈ before, ∃ v, validateIn descriptors b.1 b.2 = .ok v) ∧
      validateIn descriptors name raw = .error e := by
  induction entries generalizing values with
  | nil => cases h
  | cons first rest ih =>
    obtain ⟨name, raw⟩ := first
    rw [overlay, List.foldlM_cons] at h
    cases hfirst : validateIn descriptors name raw with
    | error cause =>
      rw [hfirst] at h
      obtain rfl : cause = e := Except.error.inj h
      exact ⟨[], name, raw, rest, rfl, by simp, hfirst⟩
    | ok v =>
      rw [hfirst] at h
      obtain ⟨before, name', raw', after, rfl, hbefore, hcause⟩ := ih h
      refine ⟨(name, raw) :: before, name', raw', after, rfl, fun b hb => ?_, hcause⟩
      rcases List.mem_cons.1 hb with rfl | hb
      · exact ⟨v, hfirst⟩
      · exact hbefore b hb

end Overlay

/-! ## Single writes -/

section Write

variable {declared : List Descriptor} {initial : RawEntries} {s s' s₀ : PropertyStore} {w : Write}
  {answer : Except ValidationError Nat} {writes : List Write}

theorem write_eq (s : PropertyStore) (w : Write) :
    s.write w = match s.setMany w.entries with
      | .ok s' => (s', .ok s'.snapshot.version)
      | .error e => (s, .error e) := by
  cases w <;> rfl

/-- A batch that is accepted is written. -/
theorem updated_of_setMany {entries : RawEntries} (h : s.setMany entries = .ok s') :
    Updated s s' entries := by
  obtain ⟨hdescriptors, hversion, hvalues⟩ := overlay_of_setMany h
  exact {
    accepted := fun e he => exists_of_overlay hvalues he
    descriptors := hdescriptors
    version := hversion
    given := fun name => (get?_of_overlay hvalues name).1
    kept := fun name => (get?_of_overlay hvalues name).2 }

/-- A batch that is not accepted has an entry that is not. -/
theorem refused_of_setMany {entries : RawEntries} {e : ValidationError}
    (h : s.setMany entries = .error e) : s.Refused entries e := by
  rw [setMany] at h
  cases hvalues : overlay s.descriptors s.snapshot.values entries with
  | ok values =>
    rw [hvalues] at h
    cases h
  | error cause =>
    rw [hvalues] at h
    obtain rfl : cause = e := Except.error.inj h
    exact exists_of_overlay_eq_error hvalues

/-- A write is accepted and answers the new version, or is refused and leaves the store. -/
theorem write_cases (s : PropertyStore) (w : Write) :
    (∃ s', s.write w = (s', .ok s'.snapshot.version) ∧ s.setMany w.entries = .ok s') ∨
      ∃ e, s.write w = (s, .error e) ∧ s.setMany w.entries = .error e := by
  rw [write_eq]
  cases s.setMany w.entries with
  | ok s' => exact .inl ⟨s', rfl, rfl⟩
  | error e => exact .inr ⟨e, rfl, rfl⟩

/-- A write keeps the declarations, and the values valid. -/
theorem valid_of_write (s : PropertyStore) (w : Write)
    (hvalid : Valid s.descriptors s.snapshot.values) :
    (s.write w).1.descriptors = s.descriptors ∧
      Valid s.descriptors (s.write w).1.snapshot.values := by
  obtain ⟨s', hwrite, haccepted⟩ | ⟨e, hwrite, -⟩ := s.write_cases w <;> rw [hwrite]
  · obtain ⟨hdescriptors, -, hvalues⟩ := overlay_of_setMany haccepted
    exact ⟨hdescriptors, valid_of_overlay hvalid hvalues⟩
  · exact ⟨rfl, hvalid⟩

/-- A write takes no value away. -/
theorem isSome_of_write (s : PropertyStore) (w : Write) {name : String}
    (hname : (s.get? name).isSome) : ((s.write w).1.get? name).isSome := by
  obtain ⟨s', hwrite, haccepted⟩ | ⟨e, hwrite, -⟩ := s.write_cases w <;> rw [hwrite]
  · exact isSome_of_overlay hname (overlay_of_setMany haccepted).2.2
  · exact hname

end Write

/-! ## Series of writes -/

section Series

variable {declared : List Descriptor} {initial : RawEntries} {s s₀ : PropertyStore}

/-- The last writes of a series are made on what the first ones leave. -/
theorem writeAll_append (s : PropertyStore) (first last : List Write) :
    s.writeAll (first ++ last) =
      (((s.writeAll first).1.writeAll last).1,
        (s.writeAll first).2 ++ ((s.writeAll first).1.writeAll last).2) := by
  induction first generalizing s with
  | nil => rfl
  | cons w rest ih => simp only [List.cons_append, writeAll, ih]

/-- A series of writes keeps the declarations, and the values valid. -/
theorem valid_of_writeAll (s : PropertyStore) (writes : List Write)
    (hvalid : Valid s.descriptors s.snapshot.values) :
    (s.writeAll writes).1.descriptors = s.descriptors ∧
      Valid s.descriptors (s.writeAll writes).1.snapshot.values := by
  induction writes generalizing s with
  | nil => exact ⟨rfl, hvalid⟩
  | cons w rest ih =>
    obtain ⟨hdescriptors, hnext⟩ := s.valid_of_write w hvalid
    rw [← hdescriptors] at hnext ⊢
    exact ih (s.write w).1 hnext

/-- A series of writes takes no value away. -/
theorem isSome_of_writeAll (s : PropertyStore) (writes : List Write) {name : String}
    (hname : (s.get? name).isSome) : ((s.writeAll writes).1.get? name).isSome := by
  induction writes generalizing s with
  | nil => exact hname
  | cons w rest ih => exact ih (s.write w).1 (s.isSome_of_write w hname)

/-- The version grows by one with every write that is accepted. -/
theorem version_writeAll (s : PropertyStore) (writes : List Write) :
    (s.writeAll writes).1.snapshot.version =
      s.snapshot.version + (s.writeAll writes).2.countP (·.isOk) := by
  induction writes generalizing s with
  | nil => rfl
  | cons w rest ih =>
    rw [writeAll, ih, List.countP_cons]
    obtain ⟨s', hwrite, haccepted⟩ | ⟨e, hwrite, -⟩ := s.write_cases w <;> rw [hwrite]
    · rw [(overlay_of_setMany haccepted).2.1]
      simp only [Except.isOk, Except.toBool, if_true]
      omega
    · simp [Except.isOk, Except.toBool]

/-- There is one answer for every write. -/
theorem length_writeAll (s : PropertyStore) (writes : List Write) :
    (s.writeAll writes).2.length = writes.length := by
  induction writes generalizing s with
  | nil => rfl
  | cons w rest ih => simp only [writeAll, List.length_cons, ih]

/-- What the declarations of a store accept is lawful. -/
theorem lawful_of_valid (hdistinct : Distinct declared) (hdeclared : s.descriptors = index declared)
    (hvalid : Valid s.descriptors s.snapshot.values) : Lawful declared s where
  named := by
    intro name hname
    obtain ⟨v, hv⟩ := Option.isSome_iff_exists.1 (Dict.lookup_isSome.2 hname)
    obtain ⟨d, hd, -⟩ := hvalid name v hv
    exact ⟨d, mem_of_index (hdeclared ▸ hd)⟩
  typed := by
    intro d hd v hv
    obtain ⟨d', hd', hnormal⟩ := hvalid d.name v hv
    rw [hdeclared, hdistinct.index_get? hd] at hd'
    obtain rfl := Option.some.inj hd'
    exact Descriptor.hasType_of_normalize hnormal
  normal := by
    intro d hd v hv
    obtain ⟨d', hd', hnormal⟩ := hvalid d.name v hv
    simp only [revalidate, validate, validateIn, hd']
    exact hnormal

/-- Take any declarations with different names and any initial values with which a store can be
seeded, and any series of writes. The store is lawful after it, its version counts the writes that
were accepted, and no value was lost on the way. Each of the writes was accepted as a whole and
answered its version, or was refused for its first bad entry and changed nothing. -/
theorem lawful_of_writeAll (hdistinct : Distinct declared)
    (hseeded : seeded declared initial = .ok s₀) {writes : List Write}
    (hlength : writes.length < Word.size) :
    Lawful declared (s₀.writeAll writes).1 ∧
    (s₀.writeAll writes).1.snapshot.version = (s₀.writeAll writes).2.countP (·.isOk) ∧
    (s₀.writeAll writes).1.snapshot.version < Word.size ∧
    (∀ before after, writes = before ++ after → ∀ name,
      ((s₀.writeAll before).1.get? name).isSome → ((s₀.writeAll writes).1.get? name).isSome) ∧
    (∀ before w after, writes = before ++ w :: after →
      (∃ s', (s₀.writeAll before).1.write w = (s', .ok s'.snapshot.version) ∧
        Updated (s₀.writeAll before).1 s' w.entries) ∨
      ∃ e, (s₀.writeAll before).1.write w = ((s₀.writeAll before).1, .error e) ∧
        Refused (s₀.writeAll before).1 w.entries e) := by
  obtain ⟨hdeclared, hvalid⟩ := valid_of_seeded hseeded
  obtain ⟨hdescriptors, hafter⟩ := s₀.valid_of_writeAll writes hvalid
  have hversion := s₀.version_writeAll writes
  rw [version_of_seeded hseeded, Nat.zero_add] at hversion
  refine ⟨lawful_of_valid hdistinct (hdescriptors.trans hdeclared) (hdescriptors ▸ hafter),
    hversion, ?_, ?_, fun before w after _ => ?_⟩
  · have hcount := List.countP_le_length (p := (·.isOk)) (l := (s₀.writeAll writes).2)
    rw [length_writeAll] at hcount
    omega
  · rintro before after rfl name hname
    rw [writeAll_append]
    exact isSome_of_writeAll _ after hname
  · rcases (s₀.writeAll before).1.write_cases w with ⟨s', hwrite, haccepted⟩ | ⟨e, hwrite, hrefused⟩
    · exact .inl ⟨s', hwrite, updated_of_setMany haccepted⟩
    · exact .inr ⟨e, hwrite, refused_of_setMany hrefused⟩

end Series

/-- A property of every type; the time has a default, which is a leap second. -/
def clockwork : List Descriptor :=
  [{ name := "at", type := .time,
     default := (TimeOfDay.read? "23:59:60").map .time },
    { name := "count", type := .int }, { name := "enabled", type := .bool },
    { name := "label", type := .string, constraints := { nonEmpty := true } },
    { name := "pace", type := .double }]

/-- A change that gives one property twice, one with a bad entry, and a time. -/
def clockworkWrites : List Write :=
  [.many [("count", .double (.ofInt 8)), ("pace", .string "1.5"), ("count", .int 9)],
    .many [("label", .string "front"), ("enabled", .string "yes"), ("count", .int 1)],
    .one "at" (.object [("hour", .int 7), ("minute", .int 30)])]

/-- The change with the bad entry is refused, and the store stays lawful. -/
theorem lawful_of_three_writes :
    ∃ s₀ : PropertyStore, seeded clockwork [("count", .string " 7 ")] = .ok s₀ ∧
      (s₀.writeAll clockworkWrites).2.map (·.isOk) = [true, false, true] ∧
      Lawful clockwork (s₀.writeAll clockworkWrites).1 := by
  have hanswers : (seeded clockwork [("count", .string " 7 ")]).toOption.map
      (fun s => (s.writeAll clockworkWrites).2.map (·.isOk)) = some [true, false, true] := by
    decide +kernel
  cases hseeded : seeded clockwork [("count", .string " 7 ")] with
  | error e =>
    rw [hseeded] at hanswers
    cases hanswers
  | ok s₀ =>
    rw [hseeded] at hanswers
    exact ⟨s₀, rfl, Option.some.inj hanswers,
      (lawful_of_writeAll (by decide) hseeded (by decide)).1⟩

end Reflex.PropertyStore

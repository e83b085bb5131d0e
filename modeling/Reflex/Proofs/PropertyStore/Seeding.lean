import Reflex.Proofs.PropertyStore.Writes

/-!
# New Stores

A new store holds the defaults of its properties, overlaid with the initial values. It is refused
for the first of them that its declaration refuses.

## Main definitions

- `PropertyStore.valueViolations`: what is wrong with raw values that are written.

## Main statements

- `PropertyStore.stopsAtFirst_seeded`: defaults are checked before initial values.
- `PropertyStore.get?_of_seeded`: the value of a property in a new store.
-/

namespace Reflex.PropertyStore

variable {declared : List Descriptor} {initial : RawEntries} {s : PropertyStore}

/-- What is wrong with raw values that are written one after the other. -/
def valueViolations (descriptors : Dict Descriptor) (entries : RawEntries) :
    List ValidationError :=
  entries.flatMap fun e => causes (validateIn descriptors e.1 e.2)

theorem rawDefaults_eq (descriptors : Dict Descriptor) :
    rawDefaults descriptors = descriptors.entries.filterMap fun e =>
      (e.2.default.map Value.toRaw).map fun raw => (e.1, raw) :=
  List.filterMap_congr fun _ _ => (Option.map_map _ _ _).symm

/-- Every property has one default at most. -/
theorem nodup_rawDefaults (descriptors : Dict Descriptor) :
    ((rawDefaults descriptors).map (·.1)).Nodup := by
  rw [rawDefaults_eq]
  exact Dict.nodup_filterMap (fun d => d.default.map Value.toRaw) descriptors.nodup_keys

/-- The raw default of a property. -/
theorem lookup_rawDefaults (descriptors : Dict Descriptor) (name : String) :
    Dict.lookup name (rawDefaults descriptors) =
      (descriptors.get? name).bind fun d => d.default.map Value.toRaw := by
  rw [rawDefaults_eq]
  exact Dict.lookup_filterMap (fun d => d.default.map Value.toRaw) descriptors.nodup_keys name

/-- A store is seeded unless a default or an initial value is refused. The defaults come first. -/
theorem stopsAtFirst_seeded (declared : List Descriptor) (initial : RawEntries) :
    StopsAtFirst (valueViolations (index declared) (rawDefaults (index declared)) ++
      valueViolations (index declared) initial) (seeded declared initial) := by
  have hwrites : ∀ (values : Dict Value) (entries : RawEntries), StopsAtFirst
      (valueViolations (index declared) entries) (overlay (index declared) values entries) :=
    fun values entries =>
      StopsAtFirst.foldlM (fun _ _ => (StopsAtFirst.causes _).map) entries values
  exact (hwrites _ _).bind fun defaults _ => (hwrites defaults initial).map

/-- Nothing is wrong with raw values exactly if each is accepted. -/
theorem valueViolations_eq_nil_iff {descriptors : Dict Descriptor} {entries : RawEntries} :
    valueViolations descriptors entries = [] ↔
      ∀ e ∈ entries, ∃ v, validateIn descriptors e.1 e.2 = .ok v := by
  rw [valueViolations, List.flatMap_eq_nil_iff]
  exact forall₂_congr fun e _ => (StopsAtFirst.causes _).exists_ok_iff.symm

/-- After writes under different names a property has the value that was written, if one was. -/
theorem get?_of_overlay_distinct {descriptors : Dict Descriptor} {values out : Dict Value}
    {entries : RawEntries} (h : overlay descriptors values entries = .ok out)
    (hdistinct : (entries.map (·.1)).Nodup) (name : String) :
    out.get? name = ((Dict.lookup name entries).bind fun raw =>
      (validateIn descriptors name raw).toOption).or (values.get? name) := by
  obtain ⟨hgiven, hkept⟩ := get?_of_overlay h name
  rw [← Dict.lookup_eq_of_perm entries.reverse_perm.symm hdistinct name] at hgiven hkept
  cases hlookup : Dict.lookup name entries with
  | none => exact hkept hlookup
  | some raw =>
    obtain ⟨v, hv, hout⟩ := hgiven raw hlookup
    rw [hout, Option.bind_some, hv]
    rfl

/-- A store that was seeded has the initial values, and below them the defaults. -/
theorem get?_of_seeded (h : seeded declared initial = .ok s)
    (hdistinct : (initial.map (·.1)).Nodup) (name : String) :
    s.get? name =
      ((Dict.lookup name initial).bind fun raw =>
        (validateIn (index declared) name raw).toOption).or
      ((Dict.lookup name (rawDefaults (index declared))).bind fun raw =>
        (validateIn (index declared) name raw).toOption) := by
  obtain ⟨defaults, hdefaults, hrest⟩ := bind_eq_ok.1 h
  obtain ⟨values, hvalues, hs⟩ := bind_eq_ok.1 hrest
  obtain rfl := Except.ok.inj hs
  refine (get?_of_overlay_distinct hvalues hdistinct name).trans ?_
  rw [get?_of_overlay_distinct hdefaults (nodup_rawDefaults _), Dict.get?_empty, Option.or_none]

/-- Defaults and initial values of a store that was seeded are valid. -/
theorem exists_of_seeded (h : seeded declared initial = .ok s) {name : String} {raw : Json}
    (hraw : Dict.lookup name initial = some raw ∨
      Dict.lookup name (rawDefaults (index declared)) = some raw) :
    ∃ v, validateIn (index declared) name raw = .ok v := by
  have hnil := (stopsAtFirst_seeded declared initial).exists_ok_iff.1 ⟨s, h⟩
  obtain ⟨hdefaults, hinitial⟩ := List.append_eq_nil_iff.1 hnil
  rcases hraw with hraw | hraw
  · exact valueViolations_eq_nil_iff.1 hinitial _ (Dict.mem_of_lookup hraw)
  · exact valueViolations_eq_nil_iff.1 hdefaults _ (Dict.mem_of_lookup hraw)

/-- A new store lacks the properties that have neither an initial value nor a default. -/
theorem isNone_get?_of_seeded (h : seeded declared initial = .ok s)
    (hdistinct : (initial.map (·.1)).Nodup) (name : String) :
    (s.get? name).isNone = ((Dict.lookup name initial).isNone &&
      (Dict.lookup name (rawDefaults (index declared))).isNone) := by
  rw [get?_of_seeded h hdistinct name]
  cases hinitial : Dict.lookup name initial with
  | some raw =>
    obtain ⟨v, hv⟩ := exists_of_seeded h (.inl hinitial)
    simp [hv, Except.toOption]
  | none =>
    cases hdefault : Dict.lookup name (rawDefaults (index declared)) with
    | none => rfl
    | some raw =>
      obtain ⟨v, hv⟩ := exists_of_seeded h (.inr hdefault)
      simp [hv, Except.toOption]

end Reflex.PropertyStore

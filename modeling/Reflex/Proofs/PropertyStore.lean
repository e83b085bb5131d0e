import Reflex.Proofs.Property.Validation
import Reflex.PropertyStore

/-!
# What Property Stores Hold

Every value of a store belongs to a declaration that accepts it unchanged, from the defaults
through every accepted write. A property that has a value keeps one.

## Main definitions

- `PropertyStore.Valid`: the values are accepted by their declarations.
- `PropertyStore.Distinct`: declarations that can be told apart.

## Main statements

- `PropertyStore.valid_of_overlay`, `PropertyStore.isSome_of_overlay`: writing keeps both.
- `PropertyStore.valid_of_seeded`: a new store is valid.
-/

namespace Reflex.PropertyStore

/-- Every value belongs to a declaration that accepts it unchanged. -/
def Valid (descriptors : Dict Descriptor) (values : Dict Value) : Prop :=
  ∀ name v, values.get? name = some v →
    ∃ d, descriptors.get? name = some d ∧ d.revalidate v = .ok v

/-- The declarations have different names. -/
def Distinct (declared : List Descriptor) : Prop :=
  (declared.map (·.name)).Nodup

instance (declared : List Descriptor) : Decidable (Distinct declared) :=
  inferInstanceAs (Decidable (List.Nodup _))

section Index

variable {declared : List Descriptor} {name : String} {d : Descriptor}

/-- What is found by name is a declaration of the name. -/
theorem mem_of_index (h : (index declared).get? name = some d) : d ∈ declared ∧ d.name = name := by
  rcases Dict.mem_of_get?_insertMany h with hmem | hempty
  · obtain ⟨d', hd', heq⟩ := List.mem_map.1 hmem
    obtain ⟨rfl, rfl⟩ := Prod.mk.inj heq
    exact ⟨hd', rfl⟩
  · cases hempty

/-- A declaration is found by its name. -/
theorem Distinct.index_get? (h : Distinct declared) (hd : d ∈ declared) :
    (index declared).get? d.name = some d := by
  refine Dict.get?_insertMany_of_mem .empty ?_ (List.mem_map_of_mem hd)
  rw [List.map_map]
  exact List.nodup_iff_count.1 h d.name

/-- The first declaration of a name is the one that is found. -/
theorem Distinct.find?_eq (h : Distinct declared) :
    declared.find? (·.name == name) = (index declared).get? name := by
  cases hfind : declared.find? (·.name == name) with
  | some d =>
    obtain rfl : d.name = name := by simpa using List.find?_some hfind
    exact (h.index_get? (List.mem_of_find?_eq_some hfind)).symm
  | none =>
    cases hindex : (index declared).get? name with
    | none => rfl
    | some d =>
      obtain ⟨hd, hname⟩ := mem_of_index hindex
      simpa [hname] using List.find?_eq_none.1 hfind d hd

end Index

section Overlay

variable {descriptors : Dict Descriptor} {values out : Dict Value} {entries : RawEntries}
  {name : String} {raw : Json} {v : Value}

theorem valid_empty : Valid descriptors .empty := by
  intro name v h
  cases h

/-- A value that its declaration accepts unchanged can be written. -/
theorem Valid.insert {d : Descriptor} (h : Valid descriptors values)
    (hd : descriptors.get? name = some d) (hv : d.revalidate v = .ok v) :
    Valid descriptors (values.insert name v) := by
  intro n w hw
  rw [Dict.get?_insert] at hw
  split at hw
  next hn =>
    obtain rfl := Option.some.inj hw
    exact ⟨d, hn ▸ hd, hv⟩
  next => exact h n w hw

/-- A write leaves no property without a value. -/
theorem isSome_insert {n : String} (h : (values.get? n).isSome) :
    ((values.insert name v).get? n).isSome := by
  rw [Dict.get?_insert]
  split
  · rfl
  · exact h

/-- What validation by name produces its declaration accepts unchanged. -/
theorem exists_of_validateIn (h : validateIn descriptors name raw = .ok v) :
    ∃ d, descriptors.get? name = some d ∧ d.revalidate v = .ok v := by
  unfold validateIn at h
  split at h
  next d hd => exact ⟨d, hd, Descriptor.revalidate_of_normalize h⟩
  next => cases h

/-- Writing raw values keeps the values valid. -/
theorem valid_of_overlay (hvalid : Valid descriptors values)
    (h : overlay descriptors values entries = .ok out) : Valid descriptors out := by
  refine foldlM_induction h hvalid fun e _ before after hbefore hstep => ?_
  obtain ⟨v, hv, hafter⟩ := bind_eq_ok.1 hstep
  obtain rfl := Except.ok.inj hafter
  obtain ⟨d, hd, hrevalidate⟩ := exists_of_validateIn hv
  exact hbefore.insert hd hrevalidate

/-- Writing raw values leaves no property without a value. -/
theorem isSome_of_overlay (hname : (values.get? name).isSome)
    (h : overlay descriptors values entries = .ok out) : (out.get? name).isSome := by
  refine foldlM_induction (P := fun values => (values.get? name).isSome) h hname
    fun e _ before after hbefore hstep => ?_
  obtain ⟨v, -, hafter⟩ := bind_eq_ok.1 hstep
  obtain rfl := Except.ok.inj hafter
  exact isSome_insert hbefore

end Overlay

section Store

variable {declared : List Descriptor} {s s' : PropertyStore} {initial : RawEntries}
  {name : String} {raw : Json}

/-- A new store knows its declarations, and its values are valid. -/
theorem valid_of_seeded (h : seeded declared initial = .ok s) :
    s.descriptors = index declared ∧ Valid s.descriptors s.snapshot.values := by
  obtain ⟨defaults, hdefaults, hrest⟩ := bind_eq_ok.1 h
  obtain ⟨values, hvalues, hs⟩ := bind_eq_ok.1 hrest
  obtain rfl := Except.ok.inj hs
  exact ⟨rfl, valid_of_overlay (valid_of_overlay valid_empty hdefaults) hvalues⟩

/-- A new store has version zero. -/
theorem version_of_seeded (h : seeded declared initial = .ok s) : s.snapshot.version = 0 := by
  obtain ⟨defaults, -, hrest⟩ := bind_eq_ok.1 h
  obtain ⟨values, -, hs⟩ := bind_eq_ok.1 hrest
  obtain rfl := Except.ok.inj hs
  rfl

/-- An accepted write makes the next version of the values, with the old declarations. -/
theorem overlay_of_setMany {entries : RawEntries} (h : s.setMany entries = .ok s') :
    s'.descriptors = s.descriptors ∧ s'.snapshot.version = s.snapshot.version + 1 ∧
      overlay s.descriptors s.snapshot.values entries = .ok s'.snapshot.values := by
  obtain ⟨values, hvalues, hs⟩ := bind_eq_ok.1 h
  obtain rfl := Except.ok.inj hs
  exact ⟨rfl, rfl, hvalues⟩

end Store

end Reflex.PropertyStore

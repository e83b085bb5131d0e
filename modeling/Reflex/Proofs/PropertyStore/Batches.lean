import Reflex.Proofs.PropertyStore

/-!
# Batches

A batch of raw values is one change of a store. It makes no difference to the values how the entries
are divided into batches, nor to whether they are accepted: each entry is validated by itself, and
writing batches one after the other writes the same entries in the same order. Only the version
counts the batches.

## Main definitions

- `PropertyStore.atVersion`: the same values at another version.
- `PropertyStore.setEach`: one write for every entry.

## Main statements

- `PropertyStore.setMany_append`: a batch that is cut in two.
- `PropertyStore.setMany_flatten`, `PropertyStore.setMany_eq_setEach`: one that is cut into many.
- `PropertyStore.seeded_eq_new_setMany`: initial values are a batch that is written to the defaults.
-/

namespace Reflex.PropertyStore

/-- The same values at another version. -/
def atVersion (version : Nat) (s : PropertyStore) : PropertyStore :=
  { s with snapshot := { s.snapshot with version } }

/-- Write properties one after the other, each as a change of its own. -/
def setEach (s : PropertyStore) (entries : RawEntries) : Except ValidationError PropertyStore :=
  entries.foldlM (fun t e => t.set e.1 e.2) s

variable {s t : PropertyStore} {declared : List Descriptor} {n : Nat}

@[simp] theorem atVersion_atVersion (m : Nat) : (s.atVersion m).atVersion n = s.atVersion n := rfl

/-- The first entries of a batch are written before the others. -/
theorem overlay_append (descriptors : Dict Descriptor) (values : Dict Value)
    (first last : RawEntries) : overlay descriptors values (first ++ last) =
      overlay descriptors values first >>= fun before => overlay descriptors before last :=
  List.foldlM_append

/-- A batch is accepted exactly if both of its parts are, one after the other, with the same values;
a part that is refused is refused for the same reason. -/
theorem setMany_append (s : PropertyStore) (first last : RawEntries) :
    s.setMany (first ++ last) =
      atVersion (s.snapshot.version + 1) <$> (s.setMany first >>= fun t => t.setMany last) := by
  rw [setMany, overlay_append, setMany]
  cases overlay s.descriptors s.snapshot.values first with
  | error e => rfl
  | ok before =>
    show (overlay s.descriptors before last >>= _) =
      atVersion _ <$> (overlay s.descriptors before last >>= _)
    cases overlay s.descriptors before last <;> rfl

/-- The same for any number of parts. The induction is on the parts: the first of them is cut off,
and the others are written to the store that it leaves. -/
theorem setMany_flatten (s : PropertyStore) (batches : List RawEntries) :
    s.setMany batches.flatten =
      atVersion (s.snapshot.version + 1) <$> batches.foldlM setMany s := by
  induction batches generalizing s with
  | nil => rfl
  | cons first rest ih =>
    calc s.setMany (first ++ rest.flatten)
        = atVersion (s.snapshot.version + 1) <$>
            (s.setMany first >>= fun t => t.setMany rest.flatten) := setMany_append ..
      _ = atVersion (s.snapshot.version + 1) <$> (s.setMany first >>= fun t =>
            atVersion (t.snapshot.version + 1) <$> rest.foldlM setMany t) := by simp only [ih]
      _ = atVersion (s.snapshot.version + 1) <$> (first :: rest).foldlM setMany s := by
        rw [List.foldlM_cons, map_bind, map_bind]
        simp only [Functor.map_map, atVersion_atVersion]

/-- A batch can be written entry by entry. -/
theorem setMany_eq_setEach (s : PropertyStore) (entries : RawEntries) :
    s.setMany entries = atVersion (s.snapshot.version + 1) <$> s.setEach entries := by
  have hparts := s.setMany_flatten (entries.map fun e => [e])
  rw [List.foldlM_map] at hparts
  rwa [← List.flatMap_def, List.flatMap_singleton'] at hparts

/-- A store is seeded exactly if its defaults are accepted and then its initial values as a batch,
with the same values; what is refused is refused for the same reason. -/
theorem seeded_eq_new_setMany (declared : List Descriptor) (initial : RawEntries) :
    seeded declared initial = atVersion 0 <$> (new declared >>= fun s => s.setMany initial) := by
  rw [new, seeded, seeded]
  cases overlay (index declared) .empty (rawDefaults (index declared)) with
  | error e => rfl
  | ok defaults =>
    show (overlay (index declared) defaults initial >>= _) =
      atVersion 0 <$> (overlay (index declared) defaults initial >>= _)
    cases overlay (index declared) defaults initial <;> rfl

/-- The batch of the initial values is the first change of the defaults. -/
theorem version_of_new_setMany {initial : RawEntries}
    (h : (new declared >>= fun s => s.setMany initial) = .ok s) : s.snapshot.version = 1 := by
  obtain ⟨defaults, hdefaults, hs⟩ := bind_eq_ok.1 h
  rw [(overlay_of_setMany hs).2.1, version_of_seeded hdefaults]

end Reflex.PropertyStore

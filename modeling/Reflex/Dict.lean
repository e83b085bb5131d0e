/-!
# Dictionaries

Finite maps from text to `α`, kept as the list of their entries in strictly increasing order
of the keys. The order of strings is by code point, which is also the order of their UTF-8
bytes. Two dictionaries with the same look-ups are equal, so a dictionary is determined by
its content.

## Main definitions

- `Reflex.Dict.get?`, `Reflex.Dict.insert`, `Reflex.Dict.ofList`.

## Main statements

- `Reflex.Dict.get?_insert`: a write is read back at its key and nowhere else.
- `Reflex.Dict.ext_get?`: dictionaries with equal look-ups are equal.
-/

namespace Reflex

variable {α β : Type}

/-- A finite map from text, as its entries in strictly increasing order of the keys. -/
structure Dict (α : Type) where
  /-- The entries in order. -/
  entries : List (String × α)
  /-- The keys increase strictly. -/
  sorted : entries.Pairwise fun a b => a.1 < b.1
  deriving DecidableEq

namespace Dict

/-- The dictionary without entries. -/
def empty : Dict α := ⟨[], .nil⟩

instance : Inhabited (Dict α) := ⟨empty⟩
instance : EmptyCollection (Dict α) := ⟨empty⟩

/-- The value of the first entry with a key. -/
def lookup (key : String) : List (String × α) → Option α
  | [] => none
  | (k, v) :: rest => if key = k then some v else lookup key rest

/-- The value at a key. -/
def get? (d : Dict α) (key : String) : Option α :=
  lookup key d.entries

/-- Whether the key has a value. -/
def contains (d : Dict α) (key : String) : Bool :=
  (d.get? key).isSome

/-- The entries in order. -/
def toList (d : Dict α) : List (String × α) :=
  d.entries

/-- The keys in order. -/
def keys (d : Dict α) : List String :=
  d.entries.map (·.1)

/-- The number of entries. -/
def size (d : Dict α) : Nat :=
  d.entries.length

/-- Put an entry into a sorted list, in place of the one that has its key. -/
def insertEntry (key : String) (value : α) : List (String × α) → List (String × α)
  | [] => [(key, value)]
  | (k, v) :: rest =>
    if key < k then (key, value) :: (k, v) :: rest
    else if k < key then (k, v) :: insertEntry key value rest
    else (key, value) :: rest

/-- An entry after a write is the written one or was there before. -/
theorem mem_insertEntry {key : String} {value : α} {l : List (String × α)} {e : String × α}
    (h : e ∈ insertEntry key value l) : e = (key, value) ∨ e ∈ l := by
  induction l with
  | nil => simpa [insertEntry] using h
  | cons x rest ih =>
    simp only [insertEntry] at h
    split at h
    · simpa using h
    · split at h
      · rcases List.mem_cons.1 h with rfl | h
        · simp
        · rcases ih h with rfl | h <;> simp_all
      · rcases List.mem_cons.1 h with rfl | h <;> simp_all

/-- A write keeps the keys in order. -/
theorem sorted_insertEntry {key : String} {value : α} {l : List (String × α)}
    (h : l.Pairwise fun a b => a.1 < b.1) :
    (insertEntry key value l).Pairwise fun a b => a.1 < b.1 := by
  induction l with
  | nil => simp [insertEntry]
  | cons x rest ih =>
    have hx := List.pairwise_cons.1 h
    simp only [insertEntry]
    split
    · rename_i hlt
      refine List.pairwise_cons.2 ⟨fun e he => ?_, h⟩
      rcases List.mem_cons.1 he with rfl | he
      · exact hlt
      · exact String.lt_trans hlt (hx.1 e he)
    · split
      · rename_i hlt
        refine List.pairwise_cons.2 ⟨fun e he => ?_, ih hx.2⟩
        rcases mem_insertEntry he with rfl | he
        · exact hlt
        · exact hx.1 e he
      · rename_i hnlt hngt
        have heq : x.1 = key :=
          String.le_antisymm (String.not_lt.1 hnlt) (String.not_lt.1 hngt)
        exact List.pairwise_cons.2 ⟨fun e he => heq ▸ hx.1 e he, hx.2⟩

/-- Write the value at a key. -/
def insert (d : Dict α) (key : String) (value : α) : Dict α :=
  ⟨insertEntry key value d.entries, sorted_insertEntry d.sorted⟩

/-- Write entries one after the other; the last one of a key stays. -/
def insertMany (d : Dict α) (entries : List (String × α)) : Dict α :=
  entries.foldl (fun acc e => acc.insert e.1 e.2) d

/-- The dictionary of a list of entries; the last one of a key stays. -/
def ofList (entries : List (String × α)) : Dict α :=
  (empty : Dict α).insertMany entries

/-- Keep the entries that satisfy a test. -/
def filter (p : String → α → Bool) (d : Dict α) : Dict α :=
  ⟨d.entries.filter fun e => p e.1 e.2, d.sorted.filter _⟩

/-- Change every value, keeping the keys. -/
def map (f : α → β) (d : Dict α) : Dict β :=
  ⟨d.entries.map fun e => (e.1, f e.2), List.pairwise_map.2 d.sorted⟩

/-- The empty dictionary has no values. -/
@[simp] theorem get?_empty (key : String) : (empty : Dict α).get? key = none := rfl

/-- A look-up after a write finds the written value at its key. -/
theorem lookup_insertEntry (key k : String) (value : α) (l : List (String × α)) :
    lookup k (insertEntry key value l) = if k = key then some value else lookup k l := by
  induction l with
  | nil => simp [insertEntry, lookup]
  | cons x rest ih =>
    simp only [insertEntry]
    split
    · simp [lookup]
    · split
      · rename_i hlt
        have hne : x.1 ≠ key := fun h => String.lt_irrefl key (h ▸ hlt)
        by_cases hk : k = x.1 <;> simp_all [lookup]
      · rename_i hnlt hngt
        have heq : x.1 = key :=
          String.le_antisymm (String.not_lt.1 hnlt) (String.not_lt.1 hngt)
        by_cases hk : k = key <;> simp_all [lookup]

/-- A write is read back at its key and leaves every other key alone. -/
@[simp] theorem get?_insert (d : Dict α) (key k : String) (value : α) :
    (d.insert key value).get? k = if k = key then some value else d.get? k :=
  lookup_insertEntry key k value d.entries

/-- What is found at a key is an entry. -/
theorem mem_of_lookup {key : String} {value : α} {l : List (String × α)}
    (h : lookup key l = some value) : (key, value) ∈ l := by
  induction l with
  | nil => cases h
  | cons x rest ih =>
    rw [lookup] at h
    split at h
    next hkey =>
      obtain rfl := Option.some.inj h
      simp [hkey]
    next => exact List.mem_cons_of_mem x (ih h)

/-- A key has a value exactly if it is the key of an entry. -/
theorem lookup_isSome {key : String} {l : List (String × α)} :
    (lookup key l).isSome ↔ key ∈ l.map (·.1) := by
  induction l with
  | nil => simp [lookup]
  | cons x rest ih =>
    rw [lookup, List.map_cons, List.mem_cons]
    split
    next hkey => simp [hkey]
    next hkey => simp [hkey, ih]

/-- What is found after some writes was written or was there before. -/
theorem mem_of_get?_insertMany {d : Dict α} {key : String} {value : α}
    {l : List (String × α)} (h : (d.insertMany l).get? key = some value) :
    (key, value) ∈ l ∨ d.get? key = some value := by
  induction l generalizing d with
  | nil => exact .inr h
  | cons x rest ih =>
    rcases ih (d := d.insert x.1 x.2) h with hrest | hfirst
    · exact .inl (List.mem_cons_of_mem x hrest)
    · rw [get?_insert] at hfirst
      split at hfirst
      next hkey =>
        obtain rfl := Option.some.inj hfirst
        simp [hkey]
      next => exact .inr hfirst

/-- Writes at other keys leave the value at a key. -/
theorem get?_insertMany_of_notMem (d : Dict α) {key : String} {l : List (String × α)}
    (h : key ∉ l.map (·.1)) : (d.insertMany l).get? key = d.get? key := by
  induction l generalizing d with
  | nil => rfl
  | cons x rest ih =>
    simp only [List.map_cons, List.mem_cons, not_or] at h
    refine (ih (d.insert x.1 x.2) h.2).trans ?_
    rw [get?_insert, if_neg h.1]

/-- A write stays if it is the only one at its key. -/
theorem get?_insertMany_of_mem (d : Dict α) {key : String} {value : α}
    {l : List (String × α)} (honce : (l.map (·.1)).count key ≤ 1) (h : (key, value) ∈ l) :
    (d.insertMany l).get? key = some value := by
  induction l generalizing d with
  | nil => cases h
  | cons x rest ih =>
    rw [List.map_cons] at honce
    rcases List.mem_cons.1 h with rfl | hmem
    · rw [List.count_cons_self] at honce
      have hrest : key ∉ rest.map (·.1) := List.count_eq_zero.1 (by omega)
      refine (get?_insertMany_of_notMem (d.insert key value) hrest).trans ?_
      rw [get?_insert, if_pos rfl]
    · exact ih (d.insert x.1 x.2) (Nat.le_trans List.count_le_count_cons honce) hmem

/-- A key below all others is not there. -/
theorem lookup_eq_none_of_lt {key : String} {l : List (String × α)}
    (h : ∀ e ∈ l, key < e.1) : lookup key l = none := by
  induction l with
  | nil => rfl
  | cons x rest ih =>
    have hne : key ≠ x.1 := fun he => String.lt_irrefl key (he ▸ h x (by simp))
    simp [lookup, hne, ih fun e he => h e (by simp [he])]

/-- Sorted lists of entries with equal look-ups are equal: their least keys agree, and then the
rests do. -/
theorem entries_eq_of_lookup_eq {l m : List (String × α)}
    (hl : l.Pairwise fun a b => a.1 < b.1) (hm : m.Pairwise fun a b => a.1 < b.1)
    (h : ∀ key, lookup key l = lookup key m) : l = m := by
  induction l generalizing m with
  | nil =>
    cases m with
    | nil => rfl
    | cons y m => simpa [lookup] using h y.1
  | cons x l ih =>
    have hx := List.pairwise_cons.1 hl
    cases m with
    | nil => simpa [lookup] using h x.1
    | cons y m =>
      have hy := List.pairwise_cons.1 hm
      have hkey : x.1 = y.1 := by
        refine String.le_antisymm (String.not_lt.1 fun hlt => ?_) (String.not_lt.1 fun hlt => ?_)
        · have hne : y.1 ≠ x.1 := fun he => String.lt_irrefl _ (he ▸ hlt)
          have := h y.1
          simp [lookup, hne,
            lookup_eq_none_of_lt fun e he => String.lt_trans hlt (hx.1 e he)] at this
        · have hne : x.1 ≠ y.1 := fun he => String.lt_irrefl _ (he ▸ hlt)
          have := h x.1
          simp [lookup, hne,
            lookup_eq_none_of_lt fun e he => String.lt_trans hlt (hy.1 e he)] at this
      have hval : x.2 = y.2 := by simpa [lookup, hkey] using h x.1
      have htail : l = m := by
        refine ih hx.2 hy.2 fun key => ?_
        by_cases hk : key = x.1
        · rw [hk, lookup_eq_none_of_lt hx.1, hkey, lookup_eq_none_of_lt hy.1]
        · have hk' : key ≠ y.1 := hkey ▸ hk
          simpa [lookup, hk, hk'] using h key
      rw [htail, Prod.ext hkey hval]

/-- Dictionaries with equal look-ups are equal. -/
theorem ext_get? {d e : Dict α} (h : ∀ key, d.get? key = e.get? key) : d = e := by
  obtain ⟨l, hl⟩ := d
  obtain ⟨m, hm⟩ := e
  have : l = m := entries_eq_of_lookup_eq hl hm h
  subst this
  rfl

/-- Keys that increase strictly do not repeat. -/
theorem nodup_keys (d : Dict α) : (d.entries.map (·.1)).Nodup :=
  List.pairwise_map.2 (d.sorted.imp fun h => String.ne_of_lt h)

/-- The dictionary of entries has the value of a key that stands once at most. -/
theorem get?_ofList_of_once {l : List (String × α)} {key : String}
    (honce : (l.map (·.1)).count key ≤ 1) : (ofList l).get? key = lookup key l := by
  by_cases hkey : key ∈ l.map (·.1)
  · obtain ⟨value, hvalue⟩ := Option.isSome_iff_exists.1 (lookup_isSome.2 hkey)
    exact (get?_insertMany_of_mem empty honce (mem_of_lookup hvalue)).trans hvalue.symm
  · have hnone : lookup key l = none := by
      rw [← Option.not_isSome_iff_eq_none, lookup_isSome]
      exact hkey
    exact (get?_insertMany_of_notMem empty hkey).trans hnone.symm

/-- The dictionary of entries with different keys has their values. -/
theorem get?_ofList {l : List (String × α)} (hdistinct : (l.map (·.1)).Nodup) (key : String) :
    (ofList l).get? key = lookup key l :=
  get?_ofList_of_once (List.nodup_iff_count.1 hdistinct key)

/-- A dictionary is the one of its entries. -/
@[simp] theorem ofList_entries (d : Dict α) : ofList d.entries = d :=
  ext_get? fun key => get?_ofList d.nodup_keys key

/-- A look-up among changed values finds the changed value. -/
theorem lookup_map (f : α → β) (key : String) (l : List (String × α)) :
    lookup key (l.map fun e => (e.1, f e.2)) = (lookup key l).map f := by
  induction l with
  | nil => rfl
  | cons x rest ih =>
    simp only [List.map_cons, lookup]
    split
    · rfl
    · exact ih

/-- Changing every value changes what is found. -/
@[simp] theorem get?_map (f : α → β) (d : Dict α) (key : String) :
    (d.map f).get? key = (d.get? key).map f :=
  lookup_map f key d.entries

/-- Changing every value of a dictionary of entries changes the entries. -/
theorem map_ofList (f : α → β) (l : List (String × α)) :
    (ofList l).map f = ofList (l.map fun e => (e.1, f e.2)) := by
  suffices h : ∀ d : Dict α,
      (d.insertMany l).map f = (d.map f).insertMany (l.map fun e => (e.1, f e.2)) from h empty
  induction l with
  | nil => exact fun d => rfl
  | cons x rest ih =>
    intro d
    have hinsert : (d.insert x.1 x.2).map f = (d.map f).insert x.1 (f x.2) := by
      refine ext_get? fun key => ?_
      simp only [get?_map, get?_insert]
      split <;> rfl
    refine (ih (d.insert x.1 x.2)).trans ?_
    rw [hinsert]
    rfl

/-- A dictionary stays the same if what is found in it does. -/
theorem map_eq_self_iff {f : α → α} {d : Dict α} :
    d.map f = d ↔ ∀ key value, d.get? key = some value → f value = value := by
  constructor
  · intro hmap key value hvalue
    have hchanged := d.get?_map f key
    rw [hmap, hvalue] at hchanged
    exact (Option.some.inj hchanged).symm
  · intro hsame
    refine ext_get? fun key => ?_
    rw [get?_map]
    cases hvalue : d.get? key with
    | none => rfl
    | some value => rw [Option.map_some, hsame key value hvalue]

/-- As many entries have a key as the key stands among the keys. -/
theorem length_filter_key (key : String) (l : List (String × α)) :
    (l.filter fun e => e.1 == key).length = (l.map (·.1)).count key := by
  rw [List.count, List.countP_map, List.countP_eq_length_filter]
  rfl

/-- If a key stands once at most, the entry that is found is the only one with the key. -/
theorem filter_key {l : List (String × α)} {key : String}
    (honce : (l.map (·.1)).count key ≤ 1) :
    (l.filter fun e => e.1 == key) = ((lookup key l).map fun value => (key, value)).toList := by
  induction l with
  | nil => rfl
  | cons x rest ih =>
    rw [List.map_cons] at honce
    rw [List.filter_cons, lookup]
    by_cases hkey : x.1 = key
    · subst hkey
      rw [List.count_cons_self] at honce
      have hrest : (rest.filter fun e => e.1 == x.1) = [] :=
        List.filter_eq_nil_iff.2 fun e he hek =>
          List.count_eq_zero.1 (Nat.le_zero.1 (Nat.le_of_succ_le_succ honce))
            (List.mem_map.2 ⟨e, he, eq_of_beq hek⟩)
      rw [if_pos (beq_self_eq_true x.1), if_pos rfl, hrest]
      rfl
    · rw [List.count_cons_of_ne hkey] at honce
      rw [if_neg (fun h => hkey (eq_of_beq h)), if_neg (fun h => hkey h.symm), ih honce]

/-- Among entries with different keys the one that is found is the only one with its key. -/
theorem lookup_eq_some_iff {key : String} {value : α} {l : List (String × α)}
    (hdistinct : (l.map (·.1)).Nodup) : lookup key l = some value ↔ (key, value) ∈ l := by
  refine ⟨mem_of_lookup, fun hmem => ?_⟩
  rw [← get?_ofList hdistinct]
  exact get?_insertMany_of_mem empty (List.nodup_iff_count.1 hdistinct key) hmem

/-- Entries with different keys are found in every order. -/
theorem lookup_eq_of_perm {l m : List (String × α)} (hperm : l.Perm m)
    (hdistinct : (l.map (·.1)).Nodup) (key : String) : lookup key l = lookup key m := by
  ext value
  rw [lookup_eq_some_iff hdistinct, lookup_eq_some_iff ((hperm.map _).nodup_iff.1 hdistinct),
    hperm.mem_iff]

/-- Changing some entries and leaving the others out keeps the keys different. -/
theorem nodup_filterMap (f : α → Option β) {l : List (String × α)}
    (hdistinct : (l.map (·.1)).Nodup) :
    ((l.filterMap fun e => (f e.2).map fun value => (e.1, value)).map (·.1)).Nodup := by
  refine List.pairwise_map.2 (List.Pairwise.filterMap _ ?_ (List.pairwise_map.1 hdistinct))
  intro x y hne x' hx y' hy
  obtain ⟨v, -, rfl⟩ := Option.map_eq_some_iff.1 hx
  obtain ⟨w, -, rfl⟩ := Option.map_eq_some_iff.1 hy
  exact hne

/-- A look-up among the entries that a function keeps. -/
theorem lookup_filterMap (f : α → Option β) {l : List (String × α)}
    (hdistinct : (l.map (·.1)).Nodup) (key : String) :
    lookup key (l.filterMap fun e => (f e.2).map fun value => (e.1, value)) =
      (lookup key l).bind f := by
  ext value
  rw [lookup_eq_some_iff (nodup_filterMap f hdistinct), List.mem_filterMap,
    Option.bind_eq_some_iff]
  constructor
  · rintro ⟨⟨k, a⟩, ha, hvalue⟩
    obtain ⟨v, hv, heq⟩ := Option.map_eq_some_iff.1 hvalue
    obtain ⟨rfl, rfl⟩ := Prod.mk.inj heq
    exact ⟨a, (lookup_eq_some_iff hdistinct).2 ha, hv⟩
  · rintro ⟨a, ha, hv⟩
    exact ⟨(key, a), mem_of_lookup ha, by rw [hv]; rfl⟩

/-- A look-up among the entries that pass a test. -/
@[simp] theorem get?_filter (p : String → α → Bool) (d : Dict α) (key : String) :
    (d.filter p).get? key = (d.get? key).filter (p key) := by
  ext value
  rw [get?, get?, lookup_eq_some_iff (d.filter p).nodup_keys, Option.filter_eq_some_iff,
    lookup_eq_some_iff d.nodup_keys]
  exact List.mem_filter

end Dict

end Reflex

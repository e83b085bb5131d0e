import Mathlib.Data.List.Forall2

/-!
# Computations That May Fail

What is known of the parts of a computation when it as a whole did not fail, and of the cause when
it did.

## Main definitions

- `Reflex.StopsAtFirst`: a check that answers the first of a list of violations.

## Main statements

- `Reflex.bind_eq_ok`: one step after another.
- `Reflex.foldlM_induction`, `Reflex.foldlM_of_mem`: what steps that follow each other keep.
- `Reflex.forall₂_of_mapM`: the same step for every element of a list.
- `Reflex.mapM_map_eq_some`, `Reflex.exists_of_mapM_eq_some`: the same for steps without a cause.
- `Reflex.StopsAtFirst.bind`, `Reflex.StopsAtFirst.foldlM`: the violations of a check that is made
  of checks.
- `Reflex.StopsAtFirst.exists_of_error`: which element of a list makes its check fail.
-/

namespace Reflex

variable {ε α β γ : Type}

/-- A step after another one succeeds when both do. -/
theorem bind_eq_ok {x : Except ε α} {f : α → Except ε β} {b : β} :
    x >>= f = .ok b ↔ ∃ a, x = .ok a ∧ f a = .ok b := by
  constructor
  · intro h
    cases x with
    | error e => cases h
    | ok a => exact ⟨a, rfl, h⟩
  · rintro ⟨a, rfl, h⟩
    exact h

/-- What every step keeps holds after all of them. -/
theorem foldlM_induction {f : β → α → Except ε β} {l : List α} {init out : β} {P : β → Prop}
    (h : l.foldlM f init = .ok out) (hinit : P init)
    (hstep : ∀ a ∈ l, ∀ b b', P b → f b a = .ok b' → P b') : P out := by
  induction l generalizing init with
  | nil =>
    obtain rfl : init = out := Except.ok.inj h
    exact hinit
  | cons a rest ih =>
    rw [List.foldlM_cons, bind_eq_ok] at h
    obtain ⟨b, hb, hrest⟩ := h
    exact ih hrest (hstep a (by simp) init b hinit hb) fun a ha => hstep a (by simp [ha])

/-- What the step of an element establishes and every step keeps holds after all of them. -/
theorem foldlM_of_mem {f : β → α → Except ε β} {l : List α} {init out : β} {P : β → Prop} {a : α}
    (h : l.foldlM f init = .ok out) (ha : a ∈ l) (hreach : ∀ b b', f b a = .ok b' → P b')
    (hstep : ∀ c ∈ l, ∀ b b', P b → f b c = .ok b' → P b') : P out := by
  induction l generalizing init with
  | nil => cases ha
  | cons c rest ih =>
    rw [List.foldlM_cons, bind_eq_ok] at h
    obtain ⟨b, hb, hrest⟩ := h
    have hstep' : ∀ d ∈ rest, ∀ b b', P b → f b d = .ok b' → P b' :=
      fun d hd => hstep d (by simp [hd])
    rcases List.mem_cons.1 ha with rfl | ha
    · exact foldlM_induction hrest (hreach init b hb) hstep'
    · exact ih hrest ha hstep'

/-- A step for every element of a list succeeds when all do. -/
theorem forall₂_of_mapM {f : α → Except ε β} {l : List α} {out : List β}
    (h : l.mapM f = .ok out) : List.Forall₂ (fun a b => f a = .ok b) l out := by
  induction l generalizing out with
  | nil =>
    obtain rfl : [] = out := Except.ok.inj h
    exact .nil
  | cons a rest ih =>
    rw [List.mapM_cons, bind_eq_ok] at h
    obtain ⟨b, hb, hrest⟩ := h
    rw [bind_eq_ok] at hrest
    obtain ⟨bs, hbs, hout⟩ := hrest
    obtain rfl : b :: bs = out := Except.ok.inj hout
    exact .cons hb (ih hbs)

/-- A step after a change that amounts to one change of an element amounts to it for every element
of a list. -/
theorem mapM_map_eq_some {f : β → Option γ} {g : α → β} {k : α → γ} {l : List α}
    (h : ∀ a ∈ l, f (g a) = some (k a)) : (l.map g).mapM f = some (l.map k) := by
  induction l with
  | nil => rfl
  | cons a rest ih =>
    have hrest : (rest.map g).mapM f = some (rest.map k) := ih fun a ha => h a (by simp [ha])
    simp [h a (by simp), hrest]

/-- A step for every element of a list gives a result if each of them does. -/
theorem exists_mapM_eq_some {f : α → Option β} {l : List α} (h : ∀ a ∈ l, ∃ b, f a = some b) :
    ∃ out, l.mapM f = some out := by
  induction l with
  | nil => exact ⟨[], rfl⟩
  | cons a rest ih =>
    obtain ⟨b, hb⟩ := h a (by simp)
    obtain ⟨out, hout⟩ := ih fun a ha => h a (by simp [ha])
    exact ⟨b :: out, by simp [hb, hout]⟩

/-- What the steps for a list gave was given by one of them. -/
theorem exists_of_mapM_eq_some {f : α → Option β} {l : List α} {out : List β}
    (h : l.mapM f = some out) {b : β} (hb : b ∈ out) : ∃ a ∈ l, f a = some b := by
  induction l generalizing out with
  | nil =>
    obtain rfl : [] = out := Option.some.inj h
    cases hb
  | cons a rest ih =>
    rw [List.mapM_cons, Option.bind_eq_bind, Option.bind_eq_some_iff] at h
    obtain ⟨first, hfirst, h⟩ := h
    rw [Option.bind_eq_bind, Option.bind_eq_some_iff] at h
    obtain ⟨others, hothers, hout⟩ := h
    obtain rfl : first :: others = out := Option.some.inj hout
    rcases List.mem_cons.1 hb with rfl | hb
    · exact ⟨a, by simp, hfirst⟩
    · obtain ⟨c, hc, hread⟩ := ih hothers hb
      exact ⟨c, List.mem_cons_of_mem a hc, hread⟩

/-! ## Checks with several violations -/

/-- The cause of a failure, if there is one. -/
def causes : Except ε α → List ε
  | .ok _ => []
  | .error e => [e]

/-- A check passes if there are no violations, and fails with the first one otherwise. -/
def StopsAtFirst (violations : List ε) : Except ε α → Prop
  | .ok _ => violations = []
  | .error e => violations.head? = some e

namespace StopsAtFirst

variable {vs ws : List ε} {x : Except ε α}

/-- A computation fails with its cause. -/
theorem causes (x : Except ε α) : StopsAtFirst (causes x) x := by
  cases x <;> rfl

/-- A check passes exactly if there are no violations. -/
theorem exists_ok_iff (h : StopsAtFirst vs x) : (∃ a, x = .ok a) ↔ vs = [] := by
  cases x with
  | ok a => exact ⟨fun _ => h, fun _ => ⟨a, rfl⟩⟩
  | error e =>
    have hhead : vs.head? = some e := h
    constructor
    · rintro ⟨a, ha⟩
      cases ha
    · rintro rfl
      cases hhead

/-- The violations of a check and of the one that follows it stand in this order. The second one
is made on what the first one gives. -/
theorem bind {f : α → Except ε β} (hx : StopsAtFirst vs x)
    (hf : ∀ a, x = .ok a → StopsAtFirst ws (f a)) : StopsAtFirst (vs ++ ws) (x >>= f) := by
  cases x with
  | ok a =>
    obtain rfl : vs = [] := hx
    exact hf a rfl
  | error e =>
    obtain ⟨rest, rfl⟩ := List.head?_eq_some_iff.1 hx
    rfl

/-- What becomes of the result of a check does not change its violations. -/
theorem map {f : α → β} (hx : StopsAtFirst vs x) :
    StopsAtFirst vs (x >>= fun a => .ok (f a)) := by
  cases x <;> exact hx

/-- A check whose causes are put into a wider type. -/
theorem mapError {δ : Type} (g : ε → δ) (hx : StopsAtFirst vs x) :
    StopsAtFirst (vs.map g) (x.mapError g) := by
  cases x with
  | ok a =>
    obtain rfl : vs = [] := hx
    rfl
  | error e =>
    obtain ⟨rest, rfl⟩ := List.head?_eq_some_iff.1 hx
    rfl

/-- Checks of the elements of a list, each made on what the ones before it gave. -/
theorem foldlM {f : β → α → Except ε β} {vs : α → List ε}
    (h : ∀ b a, StopsAtFirst (vs a) (f b a)) (l : List α) (init : β) :
    StopsAtFirst (l.flatMap vs) (l.foldlM f init) := by
  induction l generalizing init with
  | nil => rfl
  | cons a rest ih =>
    rw [List.flatMap_cons, List.foldlM_cons]
    exact (h init a).bind fun b _ => ih b

/-- Checks of the elements of a list one after the other, each with its own result. -/
theorem mapM {f : α → Except ε β} {vs : α → List ε} (h : ∀ a, StopsAtFirst (vs a) (f a))
    (l : List α) : StopsAtFirst (l.flatMap vs) (l.mapM f) := by
  induction l with
  | nil => rfl
  | cons a rest ih =>
    rw [List.flatMap_cons, List.mapM_cons]
    exact (h a).bind fun _ _ => ih.map

/-- Checks of the elements of a list one after the other. -/
theorem forM {f : α → Except ε Unit} {vs : α → List ε} (h : ∀ a, StopsAtFirst (vs a) (f a))
    (l : List α) : StopsAtFirst (l.flatMap vs) (l.forM f) := by
  induction l with
  | nil => rfl
  | cons a rest ih => exact (h a).bind fun _ _ => ih

/-- When a check of the elements of a list fails, it does so for the first violation of the first
element that has one. -/
theorem exists_of_error {vs : β → List ε} {l : List β} {e : ε}
    (h : StopsAtFirst (l.flatMap vs) (.error e : Except ε α)) :
    ∃ before b after, l = before ++ b :: after ∧ (∀ c ∈ before, vs c = []) ∧
      (vs b).head? = some e := by
  have hhead : (l.flatMap vs).head? = some e := h
  rw [List.head?_flatMap, List.findSome?_eq_some_iff] at hhead
  obtain ⟨before, b, after, hl, hb, hbefore⟩ := hhead
  exact ⟨before, b, after, hl, fun c hc => List.head?_eq_none_iff.1 (hbefore c hc), hb⟩

end StopsAtFirst

end Reflex

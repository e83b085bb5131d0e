import Reflex.Proofs.Except
import Reflex.Trigger.Evaluation

/-!
# Locality of Schemas

The truth of a compiled trigger on an event depends on the catalog only through the schema of the
event's own kind. A literal that is checked against the schema of another kind stands below an
`all` that names this kind, and that `all` does not hold on the event.

## Main statements

- `Trigger.evaluateAll_eq_false_of_fixedKind?`: an `all` that fixes another kind does not hold.
- `Trigger.evaluate_eq_of_event?_eq`: catalogs with the same schema for the kind of an event give
  the same truth on it.
-/

namespace Reflex

/-- One condition that does not hold decides an `all`. -/
theorem Condition.evaluateAll_eq_false {e : Event} {conditions : List Condition} {c : Condition}
    (hc : c ∈ conditions) (hfalse : c.evaluate e = .false) (sofar : Truth) :
    evaluateAll e sofar conditions = .false := by
  induction conditions generalizing sofar with
  | nil => cases hc
  | cons d rest ih =>
    rw [evaluateAll]
    rcases List.mem_cons.1 hc with rfl | hc
    · rw [hfalse]
    · cases d.evaluate e with
      | false => rfl
      | unknown => exact ih hc .unknown
      | true => exact ih hc sofar

namespace Trigger

open Condition

section Compile

variable {catalog : Catalog} {fixed : Option String} {t : Trigger} {triggers : List Trigger}
  {condition : Condition} {conditions : List Condition}

/-- A list compiles when its first expression and the rest do. -/
theorem compileList_cons_eq_ok (h : compileList catalog fixed (t :: triggers) = .ok conditions) :
    ∃ c cs, compileBelow catalog fixed t = .ok c ∧ compileList catalog fixed triggers = .ok cs ∧
      conditions = c :: cs := by
  rw [compileList, bind_eq_ok] at h
  obtain ⟨c, hc, hrest⟩ := h
  rw [bind_eq_ok] at hrest
  obtain ⟨cs, hcs, hout⟩ := hrest
  exact ⟨c, cs, hc, hcs, (Except.ok.inj hout).symm⟩

theorem compileBelow_exists_eq_ok {field : String}
    (h : compileBelow catalog fixed (.exists field) = .ok condition) :
    condition = .exists field := by
  rw [compileBelow] at h
  split at h
  · cases h
  · exact (Except.ok.inj h).symm

theorem compileBelow_compare_eq_ok {field : String} {op : CompareOp} {value : Literal}
    (h : compileBelow catalog fixed (.compare field op value) = .ok condition) :
    ∃ operand, compileOperand field op (catalog.declared? fixed field) value.json = .ok operand ∧
      condition = .compare field op operand := by
  rw [compileBelow] at h
  split at h
  · cases h
  · obtain ⟨operand, hoperand, hout⟩ := bind_eq_ok.1 h
    exact ⟨operand, hoperand, (Except.ok.inj hout).symm⟩

theorem compileBelow_all_eq_ok (h : compileBelow catalog fixed (.all triggers) = .ok condition) :
    ∃ cs, compileList catalog ((fixedKind? triggers).or fixed) triggers = .ok cs ∧
      condition = .all cs := by
  rw [compileBelow, bind_eq_ok] at h
  obtain ⟨cs, hcs, hout⟩ := h
  exact ⟨cs, hcs, (Except.ok.inj hout).symm⟩

theorem compileBelow_any_eq_ok (h : compileBelow catalog fixed (.any triggers) = .ok condition) :
    ∃ cs, compileList catalog fixed triggers = .ok cs ∧ condition = .any cs := by
  rw [compileBelow, bind_eq_ok] at h
  obtain ⟨cs, hcs, hout⟩ := h
  exact ⟨cs, hcs, (Except.ok.inj hout).symm⟩

theorem compileBelow_not_eq_ok (h : compileBelow catalog fixed (.not t) = .ok condition) :
    ∃ c, compileBelow catalog fixed t = .ok c ∧ condition = .not c := by
  rw [compileBelow, bind_eq_ok] at h
  obtain ⟨c, hc, hout⟩ := h
  exact ⟨c, hc, (Except.ok.inj hout).symm⟩

/-- A kind that is named in a list is named in its compiled form. -/
theorem eventKind_mem_of_compileList {kind : String}
    (h : compileList catalog fixed triggers = .ok conditions)
    (hkind : .eventKind kind ∈ triggers) : .eventKind kind ∈ conditions := by
  induction triggers generalizing conditions with
  | nil => cases hkind
  | cons t ts ih =>
    obtain ⟨c, cs, hc, hcs, rfl⟩ := compileList_cons_eq_ok h
    rcases List.mem_cons.1 hkind with rfl | hkind
    · rw [compileBelow, Except.ok.injEq] at hc
      simp [hc]
    · exact List.mem_cons_of_mem c (ih hcs hkind)

/-- The kind that a list fixes is named in it. -/
theorem eventKind_mem_of_fixedKind? {kind : String} (h : fixedKind? triggers = some kind) :
    .eventKind kind ∈ triggers := by
  obtain ⟨t, ht, hkind⟩ := List.exists_of_findSome?_eq_some h
  split at hkind
  next k =>
    obtain rfl := Option.some.inj hkind
    exact ht
  next => cases hkind

/-- A list below no kind or a given one that fixes something else fixes it itself. -/
theorem exists_fixedKind?_of_or {given : String} (hfixed : fixed = none ∨ fixed = some given)
    (hkind : ¬((fixedKind? triggers).or fixed = none ∨
      (fixedKind? triggers).or fixed = some given)) :
    ∃ kind, fixedKind? triggers = some kind ∧ kind ≠ given := by
  cases hlist : fixedKind? triggers with
  | none =>
    rw [hlist, Option.none_or] at hkind
    exact (hkind hfixed).elim
  | some kind =>
    refine ⟨kind, rfl, ?_⟩
    rintro rfl
    exact hkind (.inr (by rw [hlist, Option.some_or]))

/-- An `all` that fixes another kind than that of the event does not hold. -/
theorem evaluateAll_eq_false_of_fixedKind? {kind : String} {e : Event}
    (hfixed : fixedKind? triggers = some kind) (hkind : kind ≠ e.kind)
    (h : compileList catalog fixed triggers = .ok conditions) :
    (Condition.all conditions).evaluate e = .false := by
  have hmem := eventKind_mem_of_compileList h (eventKind_mem_of_fixedKind? hfixed)
  rw [evaluate]
  exact evaluateAll_eq_false hmem (by simp [evaluate, Truth.ofBool, Ne.symm hkind]) .true

end Compile

section Locality

variable {c₁ c₂ : Catalog} {e : Event}

/-- The declarations of fields agree where no kind is fixed, or that of the event. -/
theorem declared?_eq (hschema : c₁.event? e.kind = c₂.event? e.kind) {fixed : Option String}
    (hfixed : fixed = none ∨ fixed = some e.kind) (field : String) :
    c₁.declared? fixed field = c₂.declared? fixed field := by
  rcases hfixed with rfl | rfl
  · rfl
  · simp [Catalog.declared?, hschema]

mutual

/-- Below no fixed kind or that of the event, an expression has the same truth under both
catalogs. -/
theorem evaluate_eq_of_compileBelow (hschema : c₁.event? e.kind = c₂.event? e.kind) :
    ∀ (t : Trigger) {fixed : Option String} {k₁ k₂ : Condition},
      fixed = none ∨ fixed = some e.kind →
      compileBelow c₁ fixed t = .ok k₁ → compileBelow c₂ fixed t = .ok k₂ →
      k₁.evaluate e = k₂.evaluate e
  | .always, _, k₁, k₂, _, h₁, h₂ => by
    rw [compileBelow, Except.ok.injEq] at h₁ h₂
    rw [← h₁, ← h₂]
  | .eventKind k, _, k₁, k₂, _, h₁, h₂ => by
    rw [compileBelow, Except.ok.injEq] at h₁ h₂
    rw [← h₁, ← h₂]
  | .exists field, fixed, k₁, k₂, _, h₁, h₂ => by
    have hsame : k₁ = k₂ := Except.ok.inj (h₁.symm.trans h₂)
    rw [hsame]
  | .compare field op value, fixed, k₁, k₂, hfixed, h₁, h₂ => by
    have hcompile : compileBelow c₁ fixed (.compare field op value) =
        compileBelow c₂ fixed (.compare field op value) := by
      rw [compileBelow, compileBelow, declared?_eq hschema hfixed]
    have hsame : k₁ = k₂ := Except.ok.inj (h₁.symm.trans (hcompile.trans h₂))
    rw [hsame]
  | .all triggers, fixed, k₁, k₂, hfixed, h₁, h₂ => by
    obtain ⟨cs₁, hcs₁, rfl⟩ := compileBelow_all_eq_ok h₁
    obtain ⟨cs₂, hcs₂, rfl⟩ := compileBelow_all_eq_ok h₂
    by_cases hkind : (fixedKind? triggers).or fixed = none ∨
        (fixedKind? triggers).or fixed = some e.kind
    · rw [evaluate, evaluate]
      exact (evaluateList_eq_of_compileList hschema triggers hkind hcs₁ hcs₂ .true).1
    · -- the literals below may differ, but the list names a kind that the event has not
      obtain ⟨kind, hlist, hne⟩ := exists_fixedKind?_of_or hfixed hkind
      rw [evaluateAll_eq_false_of_fixedKind? hlist hne hcs₁,
        evaluateAll_eq_false_of_fixedKind? hlist hne hcs₂]
  | .any triggers, fixed, k₁, k₂, hfixed, h₁, h₂ => by
    obtain ⟨cs₁, hcs₁, rfl⟩ := compileBelow_any_eq_ok h₁
    obtain ⟨cs₂, hcs₂, rfl⟩ := compileBelow_any_eq_ok h₂
    rw [evaluate, evaluate]
    exact (evaluateList_eq_of_compileList hschema triggers hfixed hcs₁ hcs₂ .false).2
  | .not t, fixed, k₁, k₂, hfixed, h₁, h₂ => by
    obtain ⟨d₁, hd₁, rfl⟩ := compileBelow_not_eq_ok h₁
    obtain ⟨d₂, hd₂, rfl⟩ := compileBelow_not_eq_ok h₂
    rw [evaluate, evaluate, evaluate_eq_of_compileBelow hschema t hfixed hd₁ hd₂]

/-- The same for a list of expressions, read as an `all` and as an `any`. -/
theorem evaluateList_eq_of_compileList (hschema : c₁.event? e.kind = c₂.event? e.kind) :
    ∀ (triggers : List Trigger) {fixed : Option String} {cs₁ cs₂ : List Condition},
      fixed = none ∨ fixed = some e.kind →
      compileList c₁ fixed triggers = .ok cs₁ → compileList c₂ fixed triggers = .ok cs₂ →
      ∀ sofar, evaluateAll e sofar cs₁ = evaluateAll e sofar cs₂ ∧
        evaluateAny e sofar cs₁ = evaluateAny e sofar cs₂
  | [], _, cs₁, cs₂, _, h₁, h₂, sofar => by
    rw [compileList, Except.ok.injEq] at h₁ h₂
    rw [← h₁, ← h₂]
    exact ⟨rfl, rfl⟩
  | t :: ts, fixed, cs₁, cs₂, hfixed, h₁, h₂, sofar => by
    obtain ⟨d₁, rest₁, hd₁, hrest₁, rfl⟩ := compileList_cons_eq_ok h₁
    obtain ⟨d₂, rest₂, hd₂, hrest₂, rfl⟩ := compileList_cons_eq_ok h₂
    have hfirst := evaluate_eq_of_compileBelow hschema t hfixed hd₁ hd₂
    have hrest := evaluateList_eq_of_compileList hschema ts hfixed hrest₁ hrest₂
    rw [evaluateAll, evaluateAll, evaluateAny, evaluateAny, hfirst]
    cases d₂.evaluate e with
    | false => exact ⟨rfl, (hrest sofar).2⟩
    | unknown => exact hrest .unknown
    | true => exact ⟨(hrest sofar).1, rfl⟩

end

/-- Catalogs with the same schema for the kind of an event, or both without one, give a trigger
the same truth on it. -/
theorem evaluate_eq_of_event?_eq {t : Trigger} {k₁ k₂ : Condition}
    (h₁ : t.compile c₁ = .ok k₁) (h₂ : t.compile c₂ = .ok k₂)
    (hschema : c₁.event? e.kind = c₂.event? e.kind) : k₁.evaluate e = k₂.evaluate e :=
  evaluate_eq_of_compileBelow hschema t (.inl rfl) h₁ h₂

/-- With the schema of a door event the literal is a truth value, without it a text. On a clock
event this makes no difference. -/
theorem evaluate_eq_on_other_kind :
    ∃ (c₁ c₂ : Catalog) (t : Trigger) (k₁ k₂ : Condition) (e : Event),
      t.compile c₁ = .ok k₁ ∧ t.compile c₂ = .ok k₂ ∧ k₁ ≠ k₂ ∧
      c₁.event? e.kind = c₂.event? e.kind ∧ k₁.evaluate e = k₂.evaluate e := by
  let doors : Catalog := Catalog.registerEvent {}
    { kind := "door", fields := [{ name := "locked", type := .bool }] }
  let t : Trigger := .not (.all [.eventKind "door", .compare "locked" .eq (.ofString "true")])
  let condition (v : Value) : Condition :=
    .not (.all [.eventKind "door", .compare "locked" .eq (.single v)])
  have h₁ : t.compile doors = .ok (condition (.bool true)) := rfl
  have h₂ : t.compile {} = .ok (condition (.string "true")) := rfl
  have hschema : doors.event? Event.timeTick = Catalog.event? {} Event.timeTick := rfl
  exact ⟨doors, {}, t, _, _, { kind := Event.timeTick }, h₁, h₂, by simp [condition], hschema,
    evaluate_eq_of_event?_eq h₁ h₂ hschema⟩

end Locality

end Trigger

end Reflex

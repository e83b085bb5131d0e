import Reflex.Proofs.Property.Validation
import Reflex.Proofs.Trigger.Locality

/-!
# What the Trigger Compiler Accepts

The compiler accepts exactly the expressions whose parts are acceptable one by one: every part that
reads a field names it, and every literal suits its operator. Which declaration a literal is checked
against depends on what stands around its part: the nearest `all` that names an event kind fixes the
kind. The compiled condition is the expression with the values of its literals in their places, and
an expression that is refused is refused for its first part that is not acceptable.

## Main definitions

- `Trigger.LiteralValue`, `Trigger.OperandValue`: what becomes of the literals.
- `Trigger.Suits`: literals that an operator can have.
- `Trigger.Occurrence`, `Trigger.occurrences`: the parts of an expression in reading order.
- `Trigger.kindBelow?`: the event kind that is fixed at a place.
- `Trigger.CompilesTo`: what a condition has in common with its expression.

## Main statements

- `Trigger.stopsAtFirst_compileBelow`: the first part with which something is wrong decides.
- `Trigger.compilesTo_of_compileBelow`: what becomes of an expression that is accepted.
- `Trigger.compile_iff_acceptable`: which expressions are accepted, and why the others are not.
-/

namespace Reflex

/-- What a document stands for by itself: a number is an integer of 64 bits if it can be, and a
double otherwise. Null, lists and objects stand for nothing. -/
inductive Json.StandsFor : Json → Value → Prop where
  -- A truth value.
  | bool (b : Bool) : StandsFor (.bool b) (.bool b)
  -- An integer of 64 bits.
  | int (n : Int64) : StandsFor (.int n.toInt) (.int n)
  -- An integer beyond 64 bits.
  | wide {n : Int} (h : ∀ i : Int64, i.toInt ≠ n) : StandsFor (.int n) (.double (.ofInt n))
  -- Any other number.
  | double (x : Double) : StandsFor (.double x) (.double x)
  -- A text.
  | string (s : String) : StandsFor (.string s) (.string s)

namespace Trigger

/-! ## Literals -/

/-- The value of a literal: what validation makes of it where its field is declared, and what it
stands for by itself elsewhere. -/
def LiteralValue : Option Descriptor → Json → Value → Prop
  | some d, raw, v => d.normalize raw = .ok v
  | none, raw, v => raw.StandsFor v

/-- What is wrong with a literal. -/
def literalViolations (field : String) : Option Descriptor → Json → List TriggerError
  | some d, raw => (causes (d.normalize raw)).map (.invalidLiteral field)
  | none, .null | none, .array _ | none, .object _ => [.unsupportedLiteral field]
  | none, _ => []

/-- Whether a literal is a truth value: its field is declared as one, or it is one by itself. -/
def isTruthValue : Option Descriptor → Json → Bool
  | some d, _ => d.type == .bool
  | none, .bool _ => true
  | none, _ => false

section Literal

variable {field : String} {declared : Option Descriptor} {raw : Json} {v : Value}

theorem plainScalar_eq_ok_iff : plainScalar field raw = .ok v ↔ raw.StandsFor v := by
  constructor
  · intro h
    cases raw with
    | null | array _ | object _ => cases h
    | int n =>
      rw [plainScalar] at h
      split at h
      next i hi =>
        obtain rfl := Except.ok.inj h
        obtain rfl := int64OfInt?_eq_some_iff.1 hi
        exact .int i
      next hnone =>
        obtain rfl := Except.ok.inj h
        refine .wide fun i hi => ?_
        rw [int64OfInt?_eq_some_iff.2 hi] at hnone
        cases hnone
    | bool b =>
      obtain rfl := Except.ok.inj h
      exact .bool b
    | double x =>
      obtain rfl := Except.ok.inj h
      exact .double x
    | string s =>
      obtain rfl := Except.ok.inj h
      exact .string s
  · intro h
    cases h with
    | bool | double | string => rfl
    | int n => rw [plainScalar, int64OfInt?_toInt]
    | wide hwide =>
      have hnone := Option.eq_none_iff_forall_ne_some.2 fun i hi =>
        hwide i (int64OfInt?_eq_some_iff.1 hi)
      rw [plainScalar, hnone]

theorem scalar_eq_mapError (d : Descriptor) (raw : Json) :
    scalar field (some d) raw = (d.normalize raw).mapError (.invalidLiteral field) := by
  rw [scalar]
  cases d.normalize raw <;> rfl

/-- A literal is read as its value. -/
theorem scalar_eq_ok_iff : scalar field declared raw = .ok v ↔ LiteralValue declared raw v := by
  cases declared with
  | none => exact plainScalar_eq_ok_iff
  | some d =>
    rw [scalar_eq_mapError, LiteralValue]
    cases d.normalize raw <;> simp [Except.mapError]

theorem stopsAtFirst_scalar (field : String) (declared : Option Descriptor) (raw : Json) :
    StopsAtFirst (literalViolations field declared raw) (scalar field declared raw) := by
  cases declared with
  | none =>
    cases raw with
    | int n =>
      rw [scalar, plainScalar]
      cases int64OfInt? n <;> rfl
    | _ => rfl
  | some d =>
    rw [scalar_eq_mapError]
    exact (StopsAtFirst.causes _).mapError _

/-- Nothing is wrong with a literal that has a value. -/
theorem exists_literalValue_iff :
    (∃ v, LiteralValue declared raw v) ↔ literalViolations field declared raw = [] := by
  rw [← (stopsAtFirst_scalar field declared raw).exists_ok_iff]
  simp only [scalar_eq_ok_iff]

/-- That the value of a literal is a truth value shows in the declaration, or else in the
literal. -/
theorem LiteralValue.isTruthValue_iff (h : LiteralValue declared raw v) :
    isTruthValue declared raw = true ↔ ∃ b, v = .bool b := by
  cases declared with
  | none => cases h <;> simp [isTruthValue]
  | some d =>
    have htype := Descriptor.hasType_of_normalize h
    rw [isTruthValue, beq_iff_eq]
    generalize d.type = type at htype
    cases htype <;> simp

end Literal

/-! ## Operands -/

/-- Whether a literal suits an operator. -/
structure Suits (op : CompareOp) (declared : Option Descriptor) (raw : Json) : Prop where
  /-- `in` takes a list of literals that have values. -/
  list : op = .within → ∃ items, raw = .array items ∧
    ∀ item ∈ items, ∃ v, LiteralValue declared item v
  /-- `contains` takes a text. -/
  text : op = .contains → ∃ s, raw = .string s
  /-- Any other operator takes a literal that has a value, and an ordering no truth value. -/
  single : op ≠ .within → op ≠ .contains →
    ∃ v, LiteralValue declared raw v ∧ (op.isOrdering = true → ∀ b, v ≠ .bool b)

/-- What an operator makes of its literal. -/
inductive OperandValue (declared : Option Descriptor) : CompareOp → Json → Operand → Prop where
  -- A list has the values of its items.
  | list {items : List Json} {values : List Value}
      (h : List.Forall₂ (LiteralValue declared) items values) :
      OperandValue declared .within (.array items) (.list values)
  -- A text to look for is taken as it is.
  | text (s : String) : OperandValue declared .contains (.string s) (.single (.string s))
  -- Any other operator takes one value.
  | single {op : CompareOp} {raw : Json} {v : Value} (hlist : op ≠ .within) (htext : op ≠ .contains)
      (h : LiteralValue declared raw v) : OperandValue declared op raw (.single v)

/-- What is wrong with the literal of an operator. -/
def operandViolations (field : String) (op : CompareOp) (declared : Option Descriptor)
    (raw : Json) : List TriggerError :=
  match op, raw with
  | .within, .array items => items.flatMap (literalViolations field declared)
  | .contains, .string _ => []
  | .within, raw | .contains, raw => [.operatorMismatch field op raw.kind]
  | op, raw => literalViolations field declared raw ++
      if op.isOrdering && isTruthValue declared raw then [.operatorMismatch field op "bool"] else []

section Operand

variable {field : String} {op : CompareOp} {declared : Option Descriptor} {raw : Json}
  {operand : Operand}

/-- An operator that is neither `in` nor `contains` compares with the value of its literal. -/
theorem compileOperand_eq_bind (hlist : op ≠ .within) (htext : op ≠ .contains) :
    compileOperand field op declared raw = (scalar field declared raw >>= fun v =>
      match v with
      | .bool b =>
        if op.isOrdering then .error (.operatorMismatch field op "bool")
        else return .single (.bool b)
      | v => return .single v) := by
  cases op <;> first | rfl | contradiction

theorem operandViolations_eq_append (hlist : op ≠ .within) (htext : op ≠ .contains) :
    operandViolations field op declared raw = literalViolations field declared raw ++
      if op.isOrdering && isTruthValue declared raw then [.operatorMismatch field op "bool"]
      else [] := by
  cases op <;> first | rfl | contradiction

/-- The first thing that is wrong with the literal of an operator decides. -/
theorem stopsAtFirst_compileOperand (field : String) (op : CompareOp)
    (declared : Option Descriptor) (raw : Json) :
    StopsAtFirst (operandViolations field op declared raw)
      (compileOperand field op declared raw) := by
  by_cases hlist : op = .within
  · subst hlist
    cases raw with
    | array items => exact (StopsAtFirst.mapM (stopsAtFirst_scalar field declared) items).map
    | _ => rfl
  by_cases htext : op = .contains
  · subst htext
    cases raw <;> rfl
  · rw [compileOperand_eq_bind hlist htext, operandViolations_eq_append hlist htext]
    refine (stopsAtFirst_scalar field declared raw).bind fun v hv => ?_
    have htruth := (scalar_eq_ok_iff.1 hv).isTruthValue_iff
    cases v with
    | bool b =>
      rw [htruth.2 ⟨b, rfl⟩, Bool.and_true]
      cases op.isOrdering <;> rfl
    | _ =>
      have hfalse : isTruthValue declared raw = false := by simpa using htruth
      rw [hfalse, Bool.and_false]
      rfl

/-- What is compared with is made of the values of the literal. -/
theorem operandValue_of_compileOperand (h : compileOperand field op declared raw = .ok operand) :
    OperandValue declared op raw operand := by
  by_cases hlist : op = .within
  · subst hlist
    unfold compileOperand at h
    dsimp only at h
    split at h
    next items =>
      obtain ⟨values, hvalues, hoperand⟩ := bind_eq_ok.1 h
      obtain rfl := Except.ok.inj hoperand
      exact .list ((forall₂_of_mapM hvalues).imp fun _ _ => scalar_eq_ok_iff.1)
    next => cases h
  by_cases htext : op = .contains
  · subst htext
    unfold compileOperand at h
    dsimp only at h
    split at h
    next s =>
      obtain rfl := Except.ok.inj h
      exact .text s
    next => cases h
  · rw [compileOperand_eq_bind hlist htext] at h
    obtain ⟨v, hv, hoperand⟩ := bind_eq_ok.1 h
    have hsingle : operand = .single v := by
      split at hoperand
      next =>
        split at hoperand
        next => cases hoperand
        next => exact (Except.ok.inj hoperand).symm
      next => exact (Except.ok.inj hoperand).symm
    rw [hsingle]
    exact .single hlist htext (scalar_eq_ok_iff.1 hv)

/-- Nothing is wrong with the literal of an operator exactly if it suits the operator. -/
theorem operandViolations_eq_nil_iff :
    operandViolations field op declared raw = [] ↔ Suits op declared raw := by
  by_cases hlist : op = .within
  · subst hlist
    cases raw with
    | array items =>
      have hnil : operandViolations field .within declared (.array items) = [] ↔
          ∀ item ∈ items, ∃ v, LiteralValue declared item v := by
        rw [show operandViolations field .within declared (.array items) =
          items.flatMap (literalViolations field declared) from rfl, List.flatMap_eq_nil_iff]
        simp only [← exists_literalValue_iff]
      rw [hnil]
      refine ⟨fun h => ⟨fun _ => ⟨items, rfl, h⟩, by simp, by simp⟩, fun h => ?_⟩
      obtain ⟨_, hitems, hvalues⟩ := h.list rfl
      obtain rfl := Json.array.inj hitems
      exact hvalues
    | _ =>
      refine ⟨fun h => (by cases h), fun h => ?_⟩
      obtain ⟨_, hitems, -⟩ := h.list rfl
      cases hitems
  by_cases htext : op = .contains
  · subst htext
    cases raw with
    | string s => exact ⟨fun _ => ⟨by simp, fun _ => ⟨s, rfl⟩, by simp⟩, fun _ => rfl⟩
    | _ =>
      refine ⟨fun h => (by cases h), fun h => ?_⟩
      obtain ⟨_, hs⟩ := h.text rfl
      cases hs
  · rw [operandViolations_eq_append hlist htext, List.append_eq_nil_iff, ← exists_literalValue_iff]
    constructor
    · rintro ⟨⟨v, hv⟩, horder⟩
      refine ⟨fun h => absurd h hlist, fun h => absurd h htext, fun _ _ => ⟨v, hv, ?_⟩⟩
      rintro hordering b rfl
      rw [hordering, hv.isTruthValue_iff.2 ⟨b, rfl⟩] at horder
      cases horder
    · intro h
      obtain ⟨v, hv, horder⟩ := h.single hlist htext
      refine ⟨⟨v, hv⟩, if_neg fun hboth => ?_⟩
      rw [Bool.and_eq_true, hv.isTruthValue_iff] at hboth
      obtain ⟨hordering, b, hb⟩ := hboth
      exact horder hordering b hb

end Operand

/-! ## Expressions -/

/-- A part of an expression, and the expressions around it from the inside out. -/
structure Occurrence where
  /-- The part. -/
  part : Trigger
  /-- The expressions around it, the nearest one first. -/
  around : List Trigger

mutual

/-- The parts of an expression that has others around it, each before the parts below it and all
from left to right. -/
def occurrences (around : List Trigger) : Trigger → List Occurrence
  | .always => [⟨.always, around⟩]
  | .eventKind kind => [⟨.eventKind kind, around⟩]
  | .exists field => [⟨.exists field, around⟩]
  | .compare field op value => [⟨.compare field op value, around⟩]
  | .all ts => ⟨.all ts, around⟩ :: occurrencesList (.all ts :: around) ts
  | .any ts => ⟨.any ts, around⟩ :: occurrencesList (.any ts :: around) ts
  | .not t => ⟨.not t, around⟩ :: occurrences (.not t :: around) t

/-- The parts of several expressions. -/
def occurrencesList (around : List Trigger) : List Trigger → List Occurrence
  | [] => []
  | t :: ts => occurrences around t ++ occurrencesList around ts

end

/-- The event kind that an expression names. -/
def namedKind? : Trigger → Option String
  | .eventKind kind => some kind
  | _ => none

/-- The event kind that an expression fixes for its parts: an `all` fixes that of the first of its
conditions which names one. -/
def kindFixed? : Trigger → Option String
  | .all ts => ts.findSome? namedKind?
  | _ => none

/-- The event kind that is fixed below some expressions: the nearest one that fixes a kind
decides. -/
def kindBelow? (around : List Trigger) : Option String :=
  around.findSome? kindFixed?

namespace Occurrence

/-- A part with which nothing is wrong: it names its field, and its literal suits its operator. -/
def Acceptable (catalog : Catalog) (o : Occurrence) : Prop :=
  match o.part with
  | .exists field => field ≠ ""
  | .compare field op value =>
    field ≠ "" ∧ Suits op (catalog.declared? (kindBelow? o.around) field) value.json
  | _ => True

/-- What is wrong with a part by itself. -/
def violations (catalog : Catalog) (o : Occurrence) : List TriggerError :=
  match o.part with
  | .exists field => if field = "" then [.emptyField] else []
  | .compare field op value =>
    (if field = "" then [.emptyField] else []) ++
      operandViolations field op (catalog.declared? (kindBelow? o.around) field) value.json
  | _ => []

/-- Nothing is wrong with a part exactly if it is acceptable. -/
theorem violations_eq_nil_iff {catalog : Catalog} (o : Occurrence) :
    o.violations catalog = [] ↔ o.Acceptable catalog := by
  obtain ⟨part, around⟩ := o
  cases part with
  | «exists» field => simp [violations, Acceptable]
  | compare field op value => simp [violations, Acceptable, operandViolations_eq_nil_iff]
  | _ => simp [violations, Acceptable]

end Occurrence

mutual

/-- Whether a condition is an expression with the values of its literals, which are read below the
given expressions. -/
def CompilesTo (catalog : Catalog) (around : List Trigger) : Trigger → Condition → Prop
  | .always, c => c = .always
  | .eventKind kind, c => c = .eventKind kind
  | .exists field, c => c = .exists field
  | .compare field op value, c => ∃ operand,
    OperandValue (catalog.declared? (kindBelow? around) field) op value.json operand ∧
      c = .compare field op operand
  | .all ts, c => ∃ cs, CompilesToList catalog (.all ts :: around) ts cs ∧ c = .all cs
  | .any ts, c => ∃ cs, CompilesToList catalog (.any ts :: around) ts cs ∧ c = .any cs
  | .not t, c => ∃ d, CompilesTo catalog (.not t :: around) t d ∧ c = .not d

/-- The same for several expressions, one by one. -/
def CompilesToList (catalog : Catalog) (around : List Trigger) :
    List Trigger → List Condition → Prop
  | [], cs => cs = []
  | t :: ts, cs => ∃ d ds, CompilesTo catalog around t d ∧ CompilesToList catalog around ts ds ∧
      cs = d :: ds

end

section Compile

variable {catalog : Catalog} {around : List Trigger} {t : Trigger} {ts : List Trigger}

theorem kindFixed?_all (ts : List Trigger) : kindFixed? (.all ts) = fixedKind? ts := by
  unfold kindFixed? fixedKind?
  congr

@[simp] theorem kindBelow?_nil : kindBelow? [] = none := rfl

/-- An `all` that names a kind fixes it, and any other one leaves the kind as it is. -/
@[simp] theorem kindBelow?_all :
    kindBelow? (.all ts :: around) = (fixedKind? ts).or (kindBelow? around) := by
  rw [kindBelow?, List.findSome?_cons, kindFixed?_all]
  cases fixedKind? ts <;> rfl

@[simp] theorem kindBelow?_any : kindBelow? (.any ts :: around) = kindBelow? around := rfl

@[simp] theorem kindBelow?_not : kindBelow? (.not t :: around) = kindBelow? around := rfl

mutual

/-- The first part with which something is wrong decides. -/
theorem stopsAtFirst_compileBelow (catalog : Catalog) : ∀ (t : Trigger) (around : List Trigger),
    StopsAtFirst ((occurrences around t).flatMap (Occurrence.violations catalog))
      (compileBelow catalog (kindBelow? around) t)
  | .always, _ | .eventKind _, _ => rfl
  | .exists field, _ => by
    rw [occurrences, List.flatMap_singleton, Occurrence.violations, compileBelow]
    dsimp only
    split <;> rfl
  | .compare field op value, around => by
    have hoperand := stopsAtFirst_compileOperand field op
      (catalog.declared? (kindBelow? around) field) value.json
    rw [occurrences, List.flatMap_singleton, Occurrence.violations, compileBelow]
    dsimp only
    split
    · rfl
    · exact hoperand.map
  | .all ts, around => by
    have hlist := stopsAtFirst_compileList catalog ts (.all ts :: around)
    rw [kindBelow?_all] at hlist
    rw [occurrences, compileBelow]
    exact hlist.map
  | .any ts, around => by
    rw [occurrences, compileBelow]
    exact (stopsAtFirst_compileList catalog ts (.any ts :: around)).map
  | .not t, around => by
    rw [occurrences, compileBelow]
    exact (stopsAtFirst_compileBelow catalog t (.not t :: around)).map

/-- The same for several expressions. -/
theorem stopsAtFirst_compileList (catalog : Catalog) : ∀ ts around : List Trigger,
    StopsAtFirst ((occurrencesList around ts).flatMap (Occurrence.violations catalog))
      (compileList catalog (kindBelow? around) ts)
  | [], _ => rfl
  | t :: ts, around => by
    rw [occurrencesList, List.flatMap_append, compileList]
    exact (stopsAtFirst_compileBelow catalog t around).bind fun _ _ =>
      (stopsAtFirst_compileList catalog ts around).map

end

mutual

/-- A condition keeps the shape of its expression and has the values of its literals. -/
theorem compilesTo_of_compileBelow : ∀ (t : Trigger) {around : List Trigger} {c : Condition},
    compileBelow catalog (kindBelow? around) t = .ok c → t.CompilesTo catalog around c
  | .always, _, _, h | .eventKind _, _, _, h => by
    rw [compileBelow, Except.ok.injEq] at h
    rw [CompilesTo, h]
  | .exists _, _, _, h => by
    rw [CompilesTo, compileBelow_exists_eq_ok h]
  | .compare _ _ _, _, _, h => by
    obtain ⟨operand, hoperand, hc⟩ := compileBelow_compare_eq_ok h
    rw [CompilesTo]
    exact ⟨operand, operandValue_of_compileOperand hoperand, hc⟩
  | .all ts, _, _, h => by
    obtain ⟨cs, hcs, hc⟩ := compileBelow_all_eq_ok h
    rw [← kindBelow?_all] at hcs
    rw [CompilesTo]
    exact ⟨cs, compilesToList_of_compileList ts hcs, hc⟩
  | .any ts, _, _, h => by
    obtain ⟨cs, hcs, hc⟩ := compileBelow_any_eq_ok h
    rw [CompilesTo]
    exact ⟨cs, compilesToList_of_compileList ts hcs, hc⟩
  | .not t, _, _, h => by
    obtain ⟨d, hd, hc⟩ := compileBelow_not_eq_ok h
    rw [CompilesTo]
    exact ⟨d, compilesTo_of_compileBelow t hd, hc⟩

/-- The same for several expressions. -/
theorem compilesToList_of_compileList : ∀ (ts : List Trigger) {around : List Trigger}
    {cs : List Condition}, compileList catalog (kindBelow? around) ts = .ok cs →
    CompilesToList catalog around ts cs
  | [], _, _, h => by
    rw [compileList, Except.ok.injEq] at h
    rw [CompilesToList, h]
  | t :: ts, _, _, h => by
    obtain ⟨d, ds, hd, hds, hcs⟩ := compileList_cons_eq_ok h
    rw [CompilesToList]
    exact ⟨d, ds, compilesTo_of_compileBelow t hd, compilesToList_of_compileList ts hds, hcs⟩

end

/-- Take any catalog and any expression. It compiles if and only if all of its parts are
acceptable; the condition has the same shape, with the values of the literals. When the expression
is refused, the error is the first one of its first part that is not acceptable. -/
theorem compile_iff_acceptable (catalog : Catalog) (t : Trigger) :
    ((∃ c, t.compile catalog = .ok c) ↔ ∀ o ∈ t.occurrences [], o.Acceptable catalog) ∧
    (∀ c, t.compile catalog = .ok c → t.CompilesTo catalog [] c) ∧
    ∀ e, t.compile catalog = .error e → ∃ before o after,
      t.occurrences [] = before ++ o :: after ∧ (∀ b ∈ before, b.Acceptable catalog) ∧
        ¬o.Acceptable catalog ∧ (o.violations catalog).head? = some e := by
  have hfirst : StopsAtFirst ((t.occurrences []).flatMap (Occurrence.violations catalog))
      (t.compile catalog) := stopsAtFirst_compileBelow catalog t []
  refine ⟨?_, fun c h => compilesTo_of_compileBelow t h, fun e h => ?_⟩
  · rw [hfirst.exists_ok_iff, List.flatMap_eq_nil_iff]
    simp only [Occurrence.violations_eq_nil_iff]
  · rw [h] at hfirst
    obtain ⟨before, o, after, hparts, hbefore, ho⟩ := hfirst.exists_of_error
    refine ⟨before, o, after, hparts, fun b hb => b.violations_eq_nil_iff.1 (hbefore b hb),
      fun hacceptable => ?_, ho⟩
    rw [o.violations_eq_nil_iff.2 hacceptable] at ho
    cases ho

/-- The first condition of an `all` that names a kind counts, also for what stands before it, and
the nearest `all` that has such a condition. -/
example :
    kindBelow? [.any [.always], .all [.always], .all [.exists "a", .eventKind "b", .eventKind "c"],
      .all [.eventKind "d"]] = some "b" := by
  decide

end Compile

end Trigger

end Reflex

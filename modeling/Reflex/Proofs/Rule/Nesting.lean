import Reflex.Proofs.Json.Text
import Reflex.Proofs.Rule.Codec

/-!
# How Deep Rules Nest

A document nests no deeper than the reader of texts allows, and the document of a rule that was read
nests no deeper than what it was read from, except that the places of its parameters are written out
even if there are none. So a rule that was read from a text is not too deep to be read again. Rules
that come from elsewhere may be.

## Main definitions

- `Reflex.RuleDefinition.Shallow`: rules whose text is not too deep to be read.

## Main statements

- `Reflex.Json.nesting_of_read?`: documents that were read from a text.
- `Reflex.Trigger.nesting_of_ofJson?`, `Reflex.RuleDefinition.nesting_of_ofJson?`: what was read from
  a document.
- `Reflex.RuleDefinition.nesting_of_read?`: rules that were read from a text.
-/

namespace Reflex

/-- What is in a dictionary was written into it. -/
theorem Dict.mem_of_mem_ofList {α : Type} {l : List (String × α)} {e : String × α}
    (h : e ∈ (ofList l).entries) : e ∈ l := by
  have hget : (ofList l).get? e.1 = some e.2 := (lookup_eq_some_iff (ofList l).nodup_keys).2 h
  rcases mem_of_get?_insertMany hget with hwritten | hempty
  · exact hwritten
  · cases hempty

namespace Json

variable {fields : List (String × Json)} {items : List Json} {depth : ℕ}

theorem nestingItems_le : nestingItems items ≤ depth ↔ ∀ item ∈ items, item.nesting ≤ depth := by
  induction items with
  | nil => simp [nestingItems]
  | cons item items ih => simp [nestingItems, ih]

theorem nestingFields_le :
    nestingFields fields ≤ depth ↔ ∀ field ∈ fields, field.2.nesting ≤ depth := by
  induction fields with
  | nil => simp [nestingFields]
  | cons field fields ih => simp [nestingFields, ih]

theorem nesting_item {item : Json} (h : item ∈ items) : item.nesting < (array items).nesting := by
  rw [nesting]
  exact Nat.lt_succ_of_le (nestingItems_le.1 le_rfl item h)

theorem nesting_field {field : String × Json} (h : field ∈ fields) :
    field.2.nesting < (object fields).nesting := by
  rw [nesting]
  exact Nat.lt_succ_of_le (nestingFields_le.1 le_rfl field h)

/-! ## Documents from texts -/

/-- A number nests in nothing. -/
theorem nesting_of_value? {n : Numeral} {j : Json} (h : n.value? = some j) : j.nesting = 0 := by
  unfold Numeral.value? at h
  simp only at h
  (repeat' split at h) <;> first
    | obtain rfl := Option.some.inj h
      rfl
    | obtain ⟨d, -, rfl⟩ := Option.map_eq_some_iff.1 h
      rfl
    | cases h

theorem nesting_of_readNumber? {cs rest : List Char} {j : Json}
    (h : readNumber? cs = some (j, rest)) : j.nesting = 0 := by
  simp only [readNumber?, Option.bind_eq_bind, Option.bind_eq_some_iff] at h
  obtain ⟨_, _, value, hvalue, heq⟩ := h
  obtain ⟨rfl, -⟩ := Prod.mk.inj (Option.some.inj heq)
  exact nesting_of_value? hvalue

/-- What is read nests no deeper than the reader may go. The induction is on the fuel that the three
readers share. -/
theorem nesting_le_depth (fuel : ℕ) :
    (∀ depth cs j rest, readValue? fuel depth cs = some (j, rest) → j.nesting ≤ depth) ∧
    (∀ depth cs items rest, readItems? fuel depth cs = some (items, rest) →
      nestingItems items ≤ depth) ∧
    ∀ depth cs fields rest, readFields? fuel depth cs = some (fields, rest) →
      nestingFields fields ≤ depth := by
  induction fuel with
  | zero => simp [readValue?, readItems?, readFields?]
  | succ fuel ih =>
    obtain ⟨hvalue, hitems, hfields⟩ := ih
    refine ⟨fun depth cs j rest h => ?_, fun depth cs items rest h => ?_,
      fun depth cs fields rest h => ?_⟩
    · rw [readValue?] at h
      split at h
      case h_4 =>
        simp only [Option.bind_eq_bind, Option.bind_eq_some_iff] at h
        obtain ⟨_, _, heq⟩ := h
        obtain ⟨rfl, -⟩ := Prod.mk.inj (Option.some.inj heq)
        exact Nat.zero_le _
      case h_5 =>
        split at h
        next => cases h
        next hopen =>
          split at h
          next =>
            obtain ⟨rfl, -⟩ := Prod.mk.inj (Option.some.inj h)
            exact Nat.one_le_iff_ne_zero.2 hopen
          next =>
            simp only [Option.bind_eq_bind, Option.bind_eq_some_iff] at h
            obtain ⟨⟨items, left⟩, hread, heq⟩ := h
            obtain ⟨rfl, -⟩ := Prod.mk.inj (Option.some.inj heq)
            have hinside : nestingItems items ≤ depth - 1 := hitems _ _ _ _ hread
            show nestingItems items + 1 ≤ depth
            omega
      case h_6 =>
        split at h
        next => cases h
        next hopen =>
          split at h
          next =>
            obtain ⟨rfl, -⟩ := Prod.mk.inj (Option.some.inj h)
            exact Nat.one_le_iff_ne_zero.2 hopen
          next =>
            simp only [Option.bind_eq_bind, Option.bind_eq_some_iff] at h
            obtain ⟨⟨fields, left⟩, hread, heq⟩ := h
            obtain ⟨rfl, -⟩ := Prod.mk.inj (Option.some.inj heq)
            have hinside : nestingFields fields ≤ depth - 1 := hfields _ _ _ _ hread
            show nestingFields fields + 1 ≤ depth
            omega
      case h_7 =>
        rw [nesting_of_readNumber? h]
        exact Nat.zero_le _
      all_goals
        obtain ⟨rfl, -⟩ := Prod.mk.inj (Option.some.inj h)
        exact Nat.zero_le _
    · simp only [readItems?, Option.bind_eq_bind, Option.bind_eq_some_iff] at h
      obtain ⟨⟨item, left⟩, hitem, h⟩ := h
      split at h
      next =>
        simp only [Option.bind_eq_some_iff] at h
        obtain ⟨⟨others, left⟩, hothers, heq⟩ := h
        obtain ⟨rfl, -⟩ := Prod.mk.inj (Option.some.inj heq)
        exact max_le (hvalue _ _ _ _ hitem) (hitems _ _ _ _ hothers)
      next =>
        obtain ⟨rfl, -⟩ := Prod.mk.inj (Option.some.inj h)
        exact max_le (hvalue _ _ _ _ hitem) (Nat.zero_le _)
      next => cases h
    · rw [readFields?] at h
      split at h
      next =>
        simp only [Option.bind_eq_bind, Option.bind_eq_some_iff] at h
        obtain ⟨⟨name, left⟩, -, h⟩ := h
        split at h
        next =>
          simp only [Option.bind_eq_some_iff] at h
          obtain ⟨⟨value, left⟩, hread, h⟩ := h
          split at h
          next =>
            simp only [Option.bind_eq_some_iff] at h
            obtain ⟨⟨others, left⟩, hothers, heq⟩ := h
            obtain ⟨rfl, -⟩ := Prod.mk.inj (Option.some.inj heq)
            exact max_le (hvalue _ _ _ _ hread) (hfields _ _ _ _ hothers)
          next =>
            obtain ⟨rfl, -⟩ := Prod.mk.inj (Option.some.inj h)
            exact max_le (hvalue _ _ _ _ hread) (Nat.zero_le _)
          next => cases h
        next => cases h
      next => cases h

/-- A document that was read from a text nests no deeper than the reader allows. -/
theorem nesting_of_read? {s : String} {j : Json} (h : read? s = some j) : j.nesting ≤ maxDepth := by
  simp only [read?, Option.bind_eq_bind, Option.bind_eq_some_iff] at h
  obtain ⟨⟨whole, rest⟩, hwhole, hend⟩ := h
  split at hend
  next =>
    obtain rfl := Option.some.inj hend
    exact (nesting_le_depth _).1 _ _ _ _ hwhole
  next => cases hend

/-! ## Literals -/

mutual

/-- The canonical form of a document nests no deeper. -/
theorem nesting_canonicalize_le : ∀ j : Json, j.canonicalize.nesting ≤ j.nesting
  | .null | .bool _ | .string _ => by simp only [canonicalize]; exact le_rfl
  | .int n => by
    simp only [canonicalize, canonicalize.canonicalDouble]
    (repeat' split) <;> exact le_rfl
  | .double d => by
    simp only [canonicalize, canonicalize.canonicalDouble]
    split <;> exact le_rfl
  | .array items => by
    rw [canonicalize, nesting, nesting]
    exact Nat.succ_le_succ (nestingItems_canonicalizeItems_le items)
  | .object fields => by
    rw [canonicalize, nesting, nesting]
    refine Nat.succ_le_succ ?_
    rw [nestingFields_le]
    intro e he
    have hmem := Dict.mem_of_mem_ofList he
    exact (nestingFields_le.1 le_rfl e hmem).trans (nestingFields_canonicalizeFields_le fields)

theorem nestingItems_canonicalizeItems_le : ∀ items : List Json,
    nestingItems (canonicalizeItems items) ≤ nestingItems items
  | [] => le_rfl
  | item :: items => by
    rw [canonicalizeItems, nestingItems, nestingItems]
    exact max_le_max (nesting_canonicalize_le item) (nestingItems_canonicalizeItems_le items)

theorem nestingFields_canonicalizeFields_le : ∀ fields : List (String × Json),
    nestingFields (canonicalizeFields fields) ≤ nestingFields fields
  | [] => le_rfl
  | (name, value) :: fields => by
    rw [canonicalizeFields, nestingFields, nestingFields]
    exact max_le_max (nesting_canonicalize_le value) (nestingFields_canonicalizeFields_le fields)

end

/-- The value of a field of a record nests less deep than the record. -/
theorem Record.nesting_of_field? {names : List String} {r : Reading} {j value : Json}
    {record : Record} {name : String} (h : Record.ofJson? names r j = some record)
    (hvalue : record.field? name = some value) : value.nesting < j.nesting := by
  have hmem := Dict.mem_of_lookup hvalue
  cases j with
  | array items =>
    rw [Record.ofJson?] at h
    split at h
    · cases h
    · obtain rfl := Option.some.inj h
      exact nesting_item (List.of_mem_zip hmem).2
  | object fields =>
    rw [Record.ofJson?] at h
    split at h
    · cases h
    · obtain rfl := Option.some.inj h
      exact nesting_field (List.mem_filter.1 hmem).1
  | _ => cases h

end Json

open Json

namespace Trigger

/-- The part of a tagged document that holds the fields nests no deeper, and is an object or a
list. -/
theorem nesting_of_splitTag? {r : Reading} {j content : Json} {tag : Tag}
    (h : splitTag? r j = some (tag, content)) : content.nesting ≤ j.nesting ∧ 0 < j.nesting := by
  cases j with
  | object fields =>
    refine ⟨?_, Nat.succ_pos _⟩
    rw [splitTag?] at h
    split at h
    next =>
      obtain ⟨_, _, heq⟩ := Option.map_eq_some_iff.1 h
      obtain ⟨-, rfl⟩ := Prod.mk.inj heq
      rw [nesting, nesting]
      refine Nat.succ_le_succ (nestingFields_le.2 fun e he => ?_)
      exact nestingFields_le.1 le_rfl e (List.mem_filter.1 he).1
    next => cases h
  | array items =>
    refine ⟨?_, Nat.succ_pos _⟩
    cases items with
    | nil => cases h
    | cons tag items =>
      obtain ⟨_, _, heq⟩ := Option.map_eq_some_iff.1 h
      obtain ⟨-, rfl⟩ := Prod.mk.inj heq
      rw [nesting, nesting, nestingItems]
      exact Nat.succ_le_succ (le_max_right _ _)
  | _ => cases h

theorem nestingItems_toJsonList_le {ts : List Trigger} {depth : ℕ} :
    nestingItems (toJsonList ts) ≤ depth ↔ ∀ t ∈ ts, t.toJson.nesting ≤ depth := by
  induction ts with
  | nil => simp [toJsonList, nestingItems]
  | cons t ts ih => simp [toJsonList, nestingItems, ih]

/-- The document of a trigger that was read nests no deeper than what it was read from. The
induction is on the fuel of the reader. -/
theorem nesting_of_readTree? {r : Reading} (fuel : ℕ) {j : Json} {t : Trigger}
    (h : readTree? r fuel j = some t) : t.toJson.nesting ≤ j.nesting := by
  induction fuel generalizing r j t with
  | zero => simp [readTree?] at h
  | succ fuel ih =>
    simp only [readTree?, Option.bind_eq_bind, Option.bind_eq_some_iff] at h
    obtain ⟨⟨tag, content⟩, hsplit, record, hrecord, h⟩ := h
    obtain ⟨hcontent, hpos⟩ := nesting_of_splitTag? hsplit
    dsimp only at hrecord
    -- the conditions of a trigger, one field below it
    have hconditions : ∀ ts, record.required? "conditions" (readTrees? r.below fuel) = some ts →
        nestingItems (toJsonList ts) + 2 ≤ j.nesting := by
      intro ts hts
      obtain ⟨value, hvalue, hread⟩ := Option.bind_eq_some_iff.1 hts
      have hinside := Record.nesting_of_field? hrecord hvalue
      cases value with
      | array items =>
        rw [readTrees?] at hread
        have hitems : nestingItems (toJsonList ts) ≤ nestingItems items := by
          refine nestingItems_toJsonList_le.2 fun t ht => ?_
          obtain ⟨item, hitem, hitemRead⟩ := exists_of_mapM_eq_some hread ht
          exact (ih hitemRead).trans (nestingItems_le.1 le_rfl item hitem)
        rw [nesting] at hinside
        omega
      | _ => simp [readTrees?] at hread
    cases tag with
    | always =>
      obtain rfl := Option.some.inj h
      exact hpos
    | eventKind =>
      obtain ⟨kind, -, heq⟩ := Option.bind_eq_some_iff.1 h
      obtain rfl := Option.some.inj heq
      exact hpos
    | «exists» =>
      obtain ⟨field, -, heq⟩ := Option.bind_eq_some_iff.1 h
      obtain rfl := Option.some.inj heq
      exact hpos
    | compare =>
      simp only [readCompare?, Option.bind_eq_bind, Option.bind_eq_some_iff] at h
      obtain ⟨field, -, op, -, value, hvalue, heq⟩ := h
      obtain rfl := Option.some.inj heq
      have hinside := Record.nesting_of_field? hrecord hvalue
      have hliteral := nesting_canonicalize_le value
      simp only [toJson, Literal.ofJson, nesting, nestingFields]
      omega
    | all =>
      obtain ⟨ts, hts, heq⟩ := Option.bind_eq_some_iff.1 h
      obtain rfl := Option.some.inj heq
      have hinside := hconditions ts hts
      simp only [toJson, nesting, nestingFields]
      omega
    | any =>
      obtain ⟨ts, hts, heq⟩ := Option.bind_eq_some_iff.1 h
      obtain rfl := Option.some.inj heq
      have hinside := hconditions ts hts
      simp only [toJson, nesting, nestingFields]
      omega
    | not =>
      obtain ⟨t, ht, heq⟩ := Option.bind_eq_some_iff.1 h
      obtain rfl := Option.some.inj heq
      obtain ⟨value, hvalue, hread⟩ := Option.bind_eq_some_iff.1 ht
      have hinside := Record.nesting_of_field? hrecord hvalue
      have hcondition := ih hread
      simp only [toJson, nesting, nestingFields]
      omega

theorem nesting_of_ofJson? {r : Reading} {j : Json} {t : Trigger} (h : ofJson? r j = some t) :
    t.toJson.nesting ≤ j.nesting :=
  nesting_of_readTree? _ h

end Trigger

theorem ParamSource.nesting_ofJson_le (j : Json) :
    (ParamSource.ofJson j).toJson.nesting ≤ j.nesting := by
  have hliteral := nesting_canonicalize_le j
  unfold ParamSource.ofJson
  split
  next fields =>
    split
    next => exact Nat.succ_le_succ (Nat.zero_le _)
    next => exact hliteral
  next => exact hliteral

/-- The parameters of an action that was read nest no deeper than what they were read from. -/
theorem ActionDefinition.nesting_of_readParams? {j : Json} {params : Dict ParamSource}
    (h : readParams? j = some params) :
    (object (params.map ParamSource.toJson).entries).nesting ≤ j.nesting := by
  cases j with
  | object fields =>
    obtain rfl := Option.some.inj h
    rw [nesting, nesting]
    refine Nat.succ_le_succ (nestingFields_le.2 fun e he => ?_)
    obtain ⟨source, hsource, rfl⟩ := List.mem_map.1 he
    obtain ⟨field, hfield, rfl⟩ := List.mem_map.1 (Dict.mem_of_mem_ofList hsource)
    exact (ParamSource.nesting_ofJson_le field.2).trans (nestingFields_le.1 le_rfl field hfield)
  | _ => cases h

/-- An action that was read nests no deeper than what it was read from, up to the place of its
parameters. -/
theorem ActionDefinition.nesting_of_ofJson? {r : Reading} {j : Json} {a : ActionDefinition}
    (h : ofJson? r j = some a) : a.toJson.nesting ≤ max 2 j.nesting := by
  simp only [ofJson?, Option.bind_eq_bind, Option.bind_eq_some_iff] at h
  obtain ⟨record, hrecord, type, -, params, hparams, timeoutMs, -, heq⟩ := h
  obtain rfl := Option.some.inj heq
  have hinside : (object (params.map ParamSource.toJson).entries).nesting + 1 ≤
      max 2 j.nesting := by
    rw [Record.orElse?] at hparams
    split at hparams
    next value hvalue =>
      have hread := nesting_of_readParams? hparams
      have hfield := Record.nesting_of_field? hrecord hvalue
      omega
    next =>
      obtain rfl := Option.some.inj hparams
      exact le_max_left _ _
  cases timeoutMs <;> simp only [toJson, nesting, nestingFields, Option.map_none, Option.map_some,
    Option.toList, List.append_nil, List.cons_append, List.nil_append] at hinside ⊢ <;> omega

namespace RuleDefinition

/-- Only the trigger and the actions of a rule nest. -/
theorem nesting_toJson (d : RuleDefinition) : d.toJson.nesting =
    max d.trigger.toJson.nesting (nestingItems (d.actions.map ActionDefinition.toJson) + 1) + 1 := by
  obtain ⟨id, name, enabled, exclusive, onConflict, trigger, actions⟩ := d
  cases onConflict <;> simp [toJson, nesting, nestingFields]

/-- A rule that was read nests no deeper than what it was read from, up to the places of its
parameters. -/
theorem nesting_of_ofJson? {fresh : Identifier} {r : Reading} {j : Json} {d : RuleDefinition}
    (h : ofJson? fresh r j = some d) : d.toJson.nesting ≤ max 4 j.nesting := by
  simp only [ofJson?, Option.bind_eq_bind, Option.bind_eq_some_iff] at h
  obtain ⟨record, hrecord, id, -, name, -, enabled, -, exclusive, -, onConflict, -, trigger,
    htrigger, actions, hactions, heq⟩ := h
  obtain rfl := Option.some.inj heq
  have htriggerInside : trigger.toJson.nesting + 1 ≤ j.nesting := by
    obtain ⟨value, hvalue, hread⟩ := Option.bind_eq_some_iff.1 htrigger
    have hfield := Record.nesting_of_field? hrecord hvalue
    have hnested := Trigger.nesting_of_ofJson? hread
    omega
  have hactionsInside : nestingItems (actions.map ActionDefinition.toJson) + 2 ≤
      max 4 j.nesting := by
    obtain ⟨value, hvalue, hread⟩ := Option.bind_eq_some_iff.1 hactions
    have hfield := Record.nesting_of_field? hrecord hvalue
    cases value with
    | array items =>
      have hitems : nestingItems (actions.map ActionDefinition.toJson) ≤
          max 2 (nestingItems items) := by
        refine nestingItems_le.2 fun item hitem => ?_
        obtain ⟨a, ha, rfl⟩ := List.mem_map.1 hitem
        obtain ⟨written, hwritten, haction⟩ := exists_of_mapM_eq_some hread ha
        exact (ActionDefinition.nesting_of_ofJson? haction).trans
          (max_le_max le_rfl (nestingItems_le.1 le_rfl written hwritten))
      rw [nesting] at hfield
      omega
    | _ => cases hread
  rw [nesting_toJson]
  dsimp only
  omega

/-- A rule that was read from a text is not too deep to be read from one again. -/
theorem nesting_of_read? {fresh : Identifier} {r : Reading} {s : String} {j : Json}
    {d : RuleDefinition} (htext : Json.read? s = some j) (h : ofJson? fresh r j = some d) :
    d.toJson.nesting ≤ maxDepth := by
  have hread := nesting_of_ofJson? h
  have hdocument := Json.nesting_of_read? htext
  unfold maxDepth at hdocument ⊢
  omega

/-- Whether the document of a rule nests no deeper than the reader of texts allows, as every rule
does that was read from a text. -/
def Shallow (rule : RuleDefinition) : Prop :=
  rule.toJson.nesting ≤ maxDepth

instance (rule : RuleDefinition) : Decidable rule.Shallow :=
  inferInstanceAs (Decidable (_ ≤ _))

/-- Identifier and flag do not count. -/
theorem shallow_with (rule : RuleDefinition) (id : Identifier) (enabled : Bool) :
    ({ rule with id, enabled } : RuleDefinition).Shallow ↔ rule.Shallow := by
  rw [Shallow, Shallow, nesting_toJson, nesting_toJson]

end RuleDefinition

end Reflex

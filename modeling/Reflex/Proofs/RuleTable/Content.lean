import Reflex.Proofs.Rule.Codec
import Reflex.Proofs.RuleMap

/-!
# What the Table Holds

A table mirrors a map when its rows are the rows of the rules of the map. The look-ups and changes
of such a table are those of the map, as long as the rows of its rules are read back.

## Main definitions

- `Reflex.RuleRow.Faithful`: a kind of rules that can be stored and read back.
- `Reflex.RuleTable.Mirrors`: the rows of a table are those of the rules of a map.

## Main statements

- `Reflex.RuleTable.Mirrors.findById`, `Reflex.RuleTable.Mirrors.findByName`: look-ups.
- `Reflex.RuleTable.Mirrors.insert`, `Reflex.RuleTable.Mirrors.update`,
  `Reflex.RuleTable.Mirrors.delete`: changes.
-/

namespace Reflex

namespace RuleRow

/-- A kind of valid rules that stays the same under what requests do to a rule. The rules are read
back from their documents, and their documents from their texts. -/
structure Faithful (P : RuleDefinition → Prop) : Prop where
  /-- The rules satisfy the invariants. -/
  valid : ∀ {rule}, P rule → rule.checkInvariants = .ok ()
  /-- No literal looks like a binding. -/
  plain : ∀ {rule}, P rule → rule.Plain
  /-- The text of the document is read as the document. -/
  text : ∀ {rule}, P rule → Json.read? rule.storedText = some rule.toJson
  /-- A rule may take over the identifier of another one. -/
  withId : ∀ {rule other}, P rule → P other → P { rule with id := other.id }
  /-- A rule may be enabled and disabled. -/
  withEnabled : ∀ {rule}, P rule → ∀ enabled, P { rule with enabled }

/-- The row of a rule is read as what its text stands for, with its own identifier and flag. -/
theorem read?_ofRule_of_text {rule other : RuleDefinition}
    (htext : Json.read? rule.storedText = some other.toJson) :
    (ofRule rule).read? = some { other.reread with id := rule.id, enabled := rule.enabled } := by
  have hdefinition : RuleDefinition.ofStoredText? rule.id rule.storedText = some other.reread := by
    rw [RuleDefinition.ofStoredText?, htext]
    exact RuleDefinition.ofJson?_toJson_eq rule.id {} other
  simp only [read?, ofRule, Identifier.read?_text, Option.bind_eq_bind, Option.bind_some,
    hdefinition, Option.pure_def]
  obtain ⟨id, name, enabled, exclusive, onConflict, trigger, actions⟩ := rule
  cases enabled <;> rfl

/-- The row of a plain rule is read as the rule, if its text is read as its document. -/
theorem read?_ofRule {rule : RuleDefinition} (hplain : rule.Plain)
    (htext : Json.read? rule.storedText = some rule.toJson) :
    (ofRule rule).read? = some rule := by
  rw [read?_ofRule_of_text htext, RuleDefinition.reread_eq_self.2 hplain]

theorem Faithful.read {P : RuleDefinition → Prop} (hP : Faithful P) {rule : RuleDefinition}
    (hrule : P rule) : (ofRule rule).read? = some rule :=
  read?_ofRule (hP.plain hrule) (hP.text hrule)

end RuleRow

namespace RuleTable

/-- Whether the rows of a table are those of the rules of a map, and the rules of one kind. -/
structure Mirrors (P : RuleDefinition → Prop) (table : RuleTable) (m : RuleMap) : Prop where
  /-- The rows are those of the rules. -/
  mem_rows : ∀ {row}, row ∈ table.rows ↔ ∃ rule, m.byId? rule.id = some rule ∧ row = .ofRule rule
  /-- The rules are of the kind. -/
  kind : ∀ {id rule}, m.byId? id = some rule → P rule

namespace Mirrors

variable {P : RuleDefinition → Prop} {table : RuleTable} {m : RuleMap} {rule : RuleDefinition}

theorem empty : Mirrors P .empty .empty where
  mem_rows := by simp [RuleTable.empty, RuleMap.empty]
  kind h := by cases h

/-! ## Look-ups -/

/-- A row with a property is the row of a rule. -/
theorem any_rows (h : Mirrors P table m) (p : RuleRow → Bool) :
    table.rows.any p = true ↔ ∃ rule, m.byId? rule.id = some rule ∧ p (.ofRule rule) = true := by
  rw [List.any_eq_true]
  constructor
  · rintro ⟨row, hrow, hp⟩
    obtain ⟨rule, hrule, rfl⟩ := h.mem_rows.1 hrow
    exact ⟨rule, hrule, hp⟩
  · rintro ⟨rule, hrule, hp⟩
    exact ⟨.ofRule rule, h.mem_rows.2 ⟨rule, hrule, rfl⟩, hp⟩

/-- The row with a property that one rule at most has is the row of this rule. -/
theorem find?_rows (h : Mirrors P table m) {p : RuleRow → Bool} {found : Option RuleDefinition}
    (hfound : ∀ rule, found = some rule ↔ m.byId? rule.id = some rule ∧ p (.ofRule rule) = true) :
    table.rows.find? p = found.map .ofRule := by
  cases hfind : table.rows.find? p with
  | none =>
    cases hrule : found with
    | none => rfl
    | some rule =>
      obtain ⟨hrule, hp⟩ := (hfound rule).1 hrule
      exact absurd hp (List.find?_eq_none.1 hfind _ (h.mem_rows.2 ⟨rule, hrule, rfl⟩))
  | some row =>
    obtain ⟨rule, hrule, rfl⟩ := h.mem_rows.1 (List.mem_of_find?_eq_some hfind)
    rw [(hfound rule).2 ⟨hrule, List.find?_some hfind⟩]
    rfl

theorem rowById? (h : Mirrors P table m) (id : Identifier) :
    table.rowById? id.text = (m.byId? id).map .ofRule := by
  refine h.find?_rows fun rule => ?_
  simp only [RuleRow.ofRule, beq_iff_eq, Identifier.text_injective.eq_iff]
  constructor
  · intro hrule
    obtain rfl := m.id_eq hrule
    exact ⟨hrule, rfl⟩
  · rintro ⟨hrule, rfl⟩
    exact hrule

theorem rowByName? (h : Mirrors P table m) (name : String) :
    table.rowByName? name = (m.byName? name).map .ofRule := by
  refine h.find?_rows fun rule => ?_
  simp only [RuleRow.ofRule, beq_iff_eq, m.byName?_eq_some]

/-- The row of a rule of the kind is read as the rule. -/
theorem readRow? (hP : RuleRow.Faithful P) {found : Option RuleDefinition}
    (hfound : ∀ rule, found = some rule → P rule) :
    RuleTable.readRow? (found.map .ofRule) = .ok found := by
  cases found with
  | none => rfl
  | some rule => simp [RuleTable.readRow?, RuleRow.read, hP.read (hfound rule rfl), Except.map]

/-- A look-up by identifier gives the rule of the map. -/
theorem findById (h : Mirrors P table m) (hP : RuleRow.Faithful P) (id : Identifier) :
    table.findById id = .ok (m.byId? id) := by
  rw [RuleTable.findById, h.rowById?]
  exact readRow? hP fun rule hrule => h.kind hrule

/-- A look-up by name gives the rule of the map. -/
theorem findByName (h : Mirrors P table m) (hP : RuleRow.Faithful P) (name : String) :
    table.findByName name = .ok (m.byName? name) := by
  rw [RuleTable.findByName, h.rowByName?]
  exact readRow? hP fun rule hrule => h.kind (m.byName?_eq_some.1 hrule).1

theorem hasName_iff (h : Mirrors P table m) {name : String} :
    table.hasName name = true ↔ m.byName? name ≠ none := by
  simp only [hasName, h.any_rows, RuleRow.ofRule, beq_iff_eq, Option.ne_none_iff_exists',
    m.byName?_eq_some]

theorem hasId_iff (h : Mirrors P table m) {id : Identifier} :
    table.hasId id.text = true ↔ m.byId? id ≠ none := by
  simp only [hasId, h.any_rows, RuleRow.ofRule, beq_iff_eq, Option.ne_none_iff_exists',
    Identifier.text_injective.eq_iff]
  constructor
  · rintro ⟨rule, hrule, rfl⟩
    exact ⟨rule, hrule⟩
  · rintro ⟨rule, hrule⟩
    obtain rfl := m.id_eq hrule
    exact ⟨rule, hrule, rfl⟩

theorem nameClashes_iff (h : Mirrors P table m) :
    table.nameClashes (.ofRule rule) = true ↔ ¬ m.Admits rule := by
  simp only [nameClashes, h.any_rows, RuleRow.ofRule, Bool.and_eq_true, beq_iff_eq, bne_iff_ne,
    ne_eq, Identifier.text_injective.eq_iff, RuleMap.Admits, m.byName?_eq_some, not_forall,
    exists_prop, and_assoc]

/-! ## Changes -/

/-- Putting in the row of a rule, in place of the one of its identifier. -/
theorem put (h : Mirrors P table m) (hkind : P rule) (hadmits : m.Admits rule)
    {changed : RuleTable} (hrows : ∀ row, row ∈ changed.rows ↔
      row = .ofRule rule ∨ row ∈ table.rows ∧ row.id ≠ rule.id.text) :
    Mirrors P changed (m.put rule hadmits) where
  mem_rows := by
    intro row
    rw [hrows]
    constructor
    · rintro (rfl | ⟨hrow, hid⟩)
      · exact ⟨rule, if_pos rfl, rfl⟩
      · obtain ⟨other, hother, rfl⟩ := h.mem_rows.1 hrow
        have hne : other.id ≠ rule.id := fun he => hid (congrArg Identifier.text he)
        exact ⟨other, (if_neg hne).trans hother, rfl⟩
    · rintro ⟨other, hother, rfl⟩
      simp only [RuleMap.put] at hother
      split at hother
      next => exact .inl (by rw [Option.some.inj hother])
      next hne =>
        exact .inr ⟨h.mem_rows.2 ⟨other, hother, rfl⟩, fun he => hne (Identifier.text_injective he)⟩
  kind := by
    intro id other hother
    simp only [RuleMap.put] at hother
    split at hother
    next => exact Option.some.inj hother ▸ hkind
    next => exact h.kind hother

theorem insert_eq_nameTaken (h : Mirrors P table m) (hname : m.byName? rule.name ≠ none) :
    table.insert (.ofRule rule) = .error .nameTaken :=
  dif_pos (h.hasName_iff.2 hname)

theorem insert_eq_idTaken (h : Mirrors P table m) (hname : m.byName? rule.name = none)
    (hid : m.byId? rule.id ≠ none) : table.insert (.ofRule rule) = .error .idTaken :=
  (dif_neg fun hother => h.hasName_iff.1 hother hname).trans (dif_pos (h.hasId_iff.2 hid))

/-- A rule with a new name and a new identifier is inserted. -/
theorem exists_insert_eq_ok (h : Mirrors P table m) (hkind : P rule)
    (hname : m.byName? rule.name = none) (hid : m.byId? rule.id = none) (hadmits : m.Admits rule) :
    ∃ changed, table.insert (.ofRule rule) = .ok changed ∧
      Mirrors P changed (m.put rule hadmits) := by
  refine ⟨_, (dif_neg fun hother => h.hasName_iff.1 hother hname).trans
    (dif_neg fun hother => h.hasId_iff.1 hother hid), h.put hkind hadmits fun row => ?_⟩
  have hother : row ∈ table.rows → row.id ≠ rule.id.text := by
    rintro hrow he
    obtain ⟨other, hother, rfl⟩ := h.mem_rows.1 hrow
    rw [Identifier.text_injective he, hid] at hother
    cases hother
  rw [List.mem_cons, and_iff_left_of_imp hother]

theorem update_eq_self (h : Mirrors P table m) (hid : m.byId? rule.id = none) :
    table.update (.ofRule rule) = .ok table := by
  have habsent : table.hasId (RuleRow.ofRule rule).id = false :=
    Bool.eq_false_iff.2 fun hother => h.hasId_iff.1 hother hid
  simp only [RuleTable.update, habsent, Bool.not_false, if_true]

theorem update_eq_nameTaken (h : Mirrors P table m) (hid : m.byId? rule.id ≠ none)
    (hadmits : ¬ m.Admits rule) : table.update (.ofRule rule) = .error .nameTaken := by
  have hpresent : table.hasId (RuleRow.ofRule rule).id = true := h.hasId_iff.2 hid
  simp only [RuleTable.update, hpresent, Bool.not_true, Bool.false_eq_true, if_false,
    h.nameClashes_iff.2 hadmits, dite_true]

/-- A rule with a free name takes the place of the one of its identifier. -/
theorem exists_update_eq_ok (h : Mirrors P table m) (hkind : P rule)
    (hid : m.byId? rule.id ≠ none) (hadmits : m.Admits rule) :
    ∃ changed, table.update (.ofRule rule) = .ok changed ∧
      Mirrors P changed (m.put rule hadmits) := by
  have hpresent : table.hasId (RuleRow.ofRule rule).id = true := h.hasId_iff.2 hid
  have hfree : ¬ table.nameClashes (.ofRule rule) = true := fun hclash =>
    h.nameClashes_iff.1 hclash hadmits
  refine ⟨_, (if_neg (by rw [hpresent]; simp)).trans (dif_neg hfree),
    h.put hkind hadmits fun row => ?_⟩
  obtain ⟨held, hheld⟩ := Option.ne_none_iff_exists'.1 hid
  have hrow : RuleRow.ofRule held ∈ table.rows :=
    h.mem_rows.2 ⟨held, by rwa [m.id_eq hheld], rfl⟩
  have hheldId : (RuleRow.ofRule held).id = rule.id.text := congrArg Identifier.text (m.id_eq hheld)
  simp only [replaceRow, List.mem_map]
  constructor
  · rintro ⟨other, hother, rfl⟩
    split
    next => exact .inl rfl
    next hne => exact .inr ⟨hother, hne⟩
  · rintro (rfl | ⟨hother, hne⟩)
    · exact ⟨_, hrow, if_pos hheldId⟩
    · exact ⟨row, hother, if_neg hne⟩

/-- A removal takes out the rule of the identifier. -/
theorem delete (h : Mirrors P table m) (id : Identifier) :
    Mirrors P (table.delete id.text) (m.erase id) where
  mem_rows := by
    intro row
    simp only [RuleTable.delete, List.mem_filter, bne_iff_ne, h.mem_rows, RuleMap.erase]
    constructor
    · rintro ⟨⟨rule, hrule, rfl⟩, hne⟩
      have hid : rule.id ≠ id := fun he => hne (congrArg Identifier.text he)
      exact ⟨rule, (if_neg hid).trans hrule, rfl⟩
    · rintro ⟨rule, hrule, rfl⟩
      split at hrule
      next => cases hrule
      next hne => exact ⟨⟨rule, hrule, rfl⟩, fun he => hne (Identifier.text_injective he)⟩
  kind := by
    intro other rule hrule
    simp only [RuleMap.erase] at hrule
    split at hrule
    · cases hrule
    · exact h.kind hrule

end Mirrors

end RuleTable

end Reflex

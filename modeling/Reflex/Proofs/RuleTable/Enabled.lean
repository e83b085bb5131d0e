import Reflex.Proofs.RuleTable.Content
import Reflex.Proofs.RuleTable.Listing
import Reflex.Proofs.RuleTable.Rows

/-!
# The Listing of the Enabled Rules

The column for enabled rules holds a number. A rule that is read from its row is enabled unless the
number is zero, but the listing of the enabled rules, which a reload makes active, takes the rows
with a one only. So it is the part of the listing of all rules that is shown as enabled exactly if
the table holds no other numbers. Requests write no other ones.

## Main statements

- `Reflex.RuleTable.allEnabled_of_all`: the listing of the enabled ones, once all are listed.
- `Reflex.RuleTable.allEnabled_eq_ok_filter_iff`: when the two agree.
- `Reflex.RuleTable.Written.allEnabled_eq`: they agree if requests wrote the table.
- `Reflex.RuleTable.allEnabled_of_all_exact`: all of it together.
-/

namespace Reflex

/-- The rule of a row takes its flag from the column. -/
theorem RuleRow.read?_enabled (row : RuleRow) (n : Int) :
    RuleRow.read? { row with enabled := n } =
      row.read?.map fun rule => { rule with enabled := n ≠ 0 } := by
  simp only [read?]
  cases Identifier.read? row.id with
  | none => rfl
  | some id =>
    cases hrule : RuleDefinition.ofStoredText? id row.definition <;> simp [hrule]

/-- A rule is shown as enabled unless its column holds a zero. -/
theorem RuleRow.enabled_of_read? {row : RuleRow} {rule : RuleDefinition}
    (h : row.read? = some rule) : rule.enabled = true ↔ row.enabled ≠ 0 := by
  have hcolumn := read?_enabled row row.enabled
  rw [h, Option.map_some, Option.some_inj] at hcolumn
  rw [congrArg RuleDefinition.enabled hcolumn, decide_eq_true_iff]

namespace RuleTable

variable {table : RuleTable} {rows : List RuleRow} {rules : List RuleDefinition}

/-- Once all rules are listed, the enabled ones are: those of the rows with a one. -/
theorem allEnabled_of_all (h : table.all = .ok rules) : table.allEnabled =
    .ok (((byName table.rows).filter fun r => r.enabled == 1).filterMap RuleRow.read?) := by
  rw [allEnabled, byName_filter table.distinct]
  refine mapM_read fun row hrow => (all_eq_ok.1 h).1 row ?_
  exact mem_byName.1 (List.mem_filter.1 hrow).1

/-- The rules that are shown as enabled are those of the rows without a zero. -/
theorem filter_enabled_filterMap (rows : List RuleRow) :
    (rows.filterMap RuleRow.read?).filter (·.enabled) =
      (rows.filter fun r => r.enabled != 0).filterMap RuleRow.read? := by
  induction rows with
  | nil => rfl
  | cons row rest ih =>
    cases hread : row.read? with
    | none =>
      rw [List.filterMap_cons_none hread, ih, List.filter_cons]
      split
      next => rw [List.filterMap_cons_none hread]
      next => rfl
    | some rule =>
      have hflag : rule.enabled = (row.enabled != 0) := by
        rw [Bool.eq_iff_iff, RuleRow.enabled_of_read? hread, bne_iff_ne]
      rw [List.filterMap_cons_some hread, List.filter_cons, List.filter_cons, hflag, ih]
      split
      next => rw [List.filterMap_cons_some hread]
      next => rfl

/-- The rows with a one are among those without a zero. -/
theorem filter_one (rows : List RuleRow) : (rows.filter fun r => r.enabled == 1) =
    (rows.filter fun r => r.enabled != 0).filter fun r => r.enabled == 1 := by
  rw [List.filter_filter]
  refine List.filter_congr fun row _ => ?_
  rw [Bool.eq_iff_iff, Bool.and_eq_true, beq_iff_eq, bne_iff_ne]
  omega

/-- Leaving out readable rows leaves out rules. -/
theorem filterMap_filter_eq_iff {p : RuleRow → Bool} (h : ∀ row ∈ rows, row.read? ≠ none) :
    (rows.filter p).filterMap RuleRow.read? = rows.filterMap RuleRow.read? ↔
      ∀ row ∈ rows, p row = true := by
  have hlength {rows : List RuleRow} (h : ∀ row ∈ rows, row.read? ≠ none) :
      (rows.filterMap RuleRow.read?).length = rows.length :=
    (forall₂_of_mapM_read (mapM_read h)).length_eq.symm
  constructor
  · intro heq
    have hrows := congrArg List.length heq
    rw [hlength h, hlength fun row hrow => h row (List.mem_filter.1 hrow).1] at hrows
    exact List.filter_eq_self.1 (List.filter_sublist.eq_of_length hrows)
  · intro hall
    rw [List.filter_eq_self.2 hall]

/-- The two listings agree exactly if every row that does not hold a zero holds a one. -/
theorem allEnabled_eq_ok_filter_iff (h : table.all = .ok rules) :
    table.allEnabled = .ok (rules.filter (·.enabled)) ↔
      ∀ row ∈ table.rows, row.enabled ≠ 0 → row.enabled = 1 := by
  obtain ⟨hreadable, hrules⟩ := all_eq_ok.1 h
  rw [allEnabled_of_all h, hrules, filter_enabled_filterMap, filter_one, Except.ok.injEq,
    filterMap_filter_eq_iff]
  · simp [mem_byName]
  · exact fun row hrow => hreadable row (mem_byName.1 (List.mem_filter.1 hrow).1)

/-- The two listings of a table that requests wrote agree. -/
theorem Written.allEnabled_eq (hwritten : table.Written) (h : table.all = .ok rules) :
    table.allEnabled = .ok (rules.filter (·.enabled)) := by
  refine (allEnabled_eq_ok_filter_iff h).2 fun row hrow hflag => ?_
  obtain ⟨rule, rfl⟩ := hwritten row hrow
  cases hrule : rule.enabled with
  | true => simp [RuleRow.ofRule, hrule]
  | false => simp [RuleRow.ofRule, hrule] at hflag

/-- If all rules are listed, so are the enabled ones. They are some of those that the listing of all
shows as enabled, in the same order, and each is the rule of a row with a one. They are all of them
exactly if every row that does not hold a zero holds a one. -/
theorem allEnabled_of_all_exact (h : table.all = .ok rules) :
    ∃ listed, table.allEnabled = .ok listed ∧ listed.Sublist (rules.filter (·.enabled)) ∧
      (∀ rule, rule ∈ listed ↔
        ∃ row ∈ table.rows, row.enabled = 1 ∧ row.read? = some rule) ∧
      (listed = rules.filter (·.enabled) ↔
        ∀ row ∈ table.rows, row.enabled ≠ 0 → row.enabled = 1) := by
  refine ⟨_, allEnabled_of_all h, ?_, fun rule => ?_, ?_⟩
  · rw [(all_eq_ok.1 h).2, filter_enabled_filterMap, filter_one]
    exact List.filter_sublist.filterMap _
  · simp [List.mem_filterMap, mem_byName, and_assoc]
  · rw [← allEnabled_eq_ok_filter_iff h, allEnabled_of_all h, Except.ok.injEq]

/-! ## Examples -/

/-- A rule that rings a bell. -/
def bell : RuleDefinition :=
  { id := { value := 81 }, name := "Bell", trigger := .always, actions := [{ type := "bell" }] }

/-- The table with the row of the bell alone, in which the column holds some number. -/
def bellTable (n : Int) : RuleTable :=
  ⟨[{ RuleRow.ofRule bell with enabled := n }], List.pairwise_singleton _ _⟩

/-- The listing of all rules shows the bell as enabled unless the column holds a zero. -/
theorem all_bellTable (n : Int) : (bellTable n).all = .ok [{ bell with enabled := n ≠ 0 }] := by
  have hplain : bell.Plain := by
    intro a ha name source hsource
    obtain rfl := List.mem_singleton.1 ha
    cases hsource
  have hread : (RuleRow.ofRule bell).read? = some bell :=
    RuleRow.read?_ofRule hplain (by decide +kernel)
  have hrow := RuleRow.read?_enabled (RuleRow.ofRule bell) n
  rw [hread, Option.map_some] at hrow
  refine all_eq_ok.2 ⟨?_, ?_⟩
  · intro row hmem
    obtain rfl := List.mem_singleton.1 hmem
    simp [hrow]
  · simp [bellTable, byName, hrow]

/-- The bell is among the enabled rules with a one in its column. -/
theorem allEnabled_of_all_exact_of_bell :
    (bellTable 1).all = .ok [bell] ∧ (bellTable 1).allEnabled = .ok [bell] := by
  obtain ⟨listed, hlisted, -, -, hall⟩ := allEnabled_of_all_exact (all_bellTable 1)
  refine ⟨all_bellTable 1, hlisted.trans (congrArg Except.ok (hall.2 ?_))⟩
  intro row hrow hflag
  obtain rfl := List.mem_singleton.1 hrow
  rfl

/-- With a two in its column it is shown as enabled, but is not among the enabled rules. -/
theorem allEnabled_of_odd_bell :
    (bellTable 2).all = .ok [bell] ∧ bell.enabled = true ∧ (bellTable 2).allEnabled = .ok [] :=
  ⟨all_bellTable 2, rfl, by rw [allEnabled_of_all (all_bellTable 2)]; simp [bellTable, byName]⟩

end RuleTable

end Reflex

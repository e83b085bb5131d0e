import Mathlib.Data.List.Pairwise
import Reflex.Proofs.RuleTable.Keys
import Reflex.Proofs.RuleTable.Request

/-!
# Rows and their Keys

Look-ups and changes of a table in terms of its rows, and what requests keep. All rows that
requests lead to are rows of rules, whether or not they can be read, and a rule that is looked up
has the keys of its row.

## Main definitions

- `Reflex.RuleTable.Written`: tables whose rows are rows of rules.
- `Reflex.Procedure.Preserves`: procedures that keep a property of the table.

## Main statements

- `Reflex.RuleTable.exists_insert`, `Reflex.RuleTable.exists_update`: changes that succeed.
- `Reflex.RuleTable.findById_eq_some`, `Reflex.RuleTable.findByName_eq_some`: look-ups.
- `Reflex.RuleRequest.preserves_procedure`: what requests keep.
-/

namespace Reflex

/-! ## Tables -/

instance : Std.Symm RuleRow.Distinct :=
  ⟨fun _ _ h => ⟨h.1.symm, h.2.symm⟩⟩

namespace RuleTable

variable {table : RuleTable} {row a b : RuleRow} {id name : String}

/-- Rows of a table with the same identifier or the same name are the same. -/
theorem eq_of_key (ha : a ∈ table.rows) (hb : b ∈ table.rows) (h : a.id = b.id ∨ a.name = b.name) :
    a = b := by
  by_contra hne
  obtain ⟨hid, hname⟩ := table.distinct.forall ha hb hne
  exact h.elim hid hname

theorem rowById?_eq_some : table.rowById? id = some row ↔ row ∈ table.rows ∧ row.id = id := by
  constructor
  · intro h
    exact ⟨List.mem_of_find?_eq_some h, by simpa using List.find?_some h⟩
  · rintro ⟨hrow, rfl⟩
    obtain ⟨found, hfound⟩ : ∃ found, table.rowById? row.id = some found :=
      Option.isSome_iff_exists.1 (List.find?_isSome.2 ⟨row, hrow, by simp⟩)
    rw [hfound, eq_of_key (List.mem_of_find?_eq_some hfound) hrow
      (.inl (by simpa using List.find?_some hfound))]

theorem rowByName?_eq_some :
    table.rowByName? name = some row ↔ row ∈ table.rows ∧ row.name = name := by
  constructor
  · intro h
    exact ⟨List.mem_of_find?_eq_some h, by simpa using List.find?_some h⟩
  · rintro ⟨hrow, rfl⟩
    obtain ⟨found, hfound⟩ : ∃ found, table.rowByName? row.name = some found :=
      Option.isSome_iff_exists.1 (List.find?_isSome.2 ⟨row, hrow, by simp⟩)
    rw [hfound, eq_of_key (List.mem_of_find?_eq_some hfound) hrow
      (.inr (by simpa using List.find?_some hfound))]

theorem hasId_iff : table.hasId id = true ↔ ∃ row ∈ table.rows, row.id = id := by
  simp [hasId]

theorem hasName_iff : table.hasName name = true ↔ ∃ row ∈ table.rows, row.name = name := by
  simp [hasName]

theorem rowById?_eq_none : table.rowById? id = none ↔ table.hasId id = false := by
  rw [Bool.eq_false_iff, ne_eq, hasId_iff]
  simp [rowById?]

theorem rowByName?_eq_none : table.rowByName? name = none ↔ table.hasName name = false := by
  rw [Bool.eq_false_iff, ne_eq, hasName_iff]
  simp [rowByName?]

/-- A row that is there gives a rule or is unreadable. -/
theorem readRow?_eq_ok {found : Option RuleRow} {rule? : Option RuleDefinition} :
    readRow? found = .ok rule? ↔ found.map RuleRow.read? = rule?.map some := by
  cases found with
  | none => cases rule? <;> simp [readRow?]
  | some row =>
    rw [readRow?, RuleRow.read]
    cases hread : row.read? <;> cases rule? <;> simp [Except.map, hread]

theorem findById_eq_some {id : Identifier} {rule : RuleDefinition} :
    table.findById id = .ok (some rule) ↔
      ∃ row ∈ table.rows, row.id = id.text ∧ row.read? = some rule := by
  simp [findById, readRow?_eq_ok, rowById?_eq_some, and_assoc]

theorem findById_eq_none {id : Identifier} :
    table.findById id = .ok none ↔ table.hasId id.text = false := by
  simp [findById, readRow?_eq_ok, rowById?_eq_none]

theorem findByName_eq_some {rule : RuleDefinition} :
    table.findByName name = .ok (some rule) ↔
      ∃ row ∈ table.rows, row.name = name ∧ row.read? = some rule := by
  simp [findByName, readRow?_eq_ok, rowByName?_eq_some, and_assoc]

theorem findByName_eq_none :
    table.findByName name = .ok none ↔ table.hasName name = false := by
  simp [findByName, readRow?_eq_ok, rowByName?_eq_none]

/-! ### Changes -/

/-- A row whose keys are free is inserted. -/
theorem exists_insert (hname : table.hasName row.name = false) (hid : table.hasId row.id = false) :
    ∃ changed, table.insert row = .ok changed ∧ changed.rows = row :: table.rows :=
  ⟨_, (dif_neg (by simp [hname])).trans (dif_neg (by simp [hid])), rfl⟩

theorem insert_of_hasId (hname : table.hasName row.name = false)
    (hid : table.hasId row.id = true) : table.insert row = .error .idTaken :=
  (dif_neg (by simp [hname])).trans (dif_pos hid)

theorem rows_of_insert {changed : RuleTable} (h : table.insert row = .ok changed) :
    changed.rows = row :: table.rows := by
  rw [insert] at h
  split at h
  next => cases h
  next =>
    split at h
    next => cases h
    next => rw [← Except.ok.inj h]

/-- A row takes the place of the one with its identifier, if no other one has its name. -/
theorem exists_update (hid : table.hasId row.id = true)
    (hname : ∀ other ∈ table.rows, other.name = row.name → other.id = row.id) :
    ∃ changed, table.update row = .ok changed ∧ changed.rows = replaceRow row table.rows := by
  have hclash : ¬ table.nameClashes row = true := by
    simpa [nameClashes] using hname
  exact ⟨_, (if_neg (by simp [hid])).trans (dif_neg hclash), rfl⟩

theorem update_of_absent (hid : table.hasId row.id = false) : table.update row = .ok table := by
  rw [update, hid]
  rfl

/-- An update leaves the table as it is, or puts the row into the place of another one. -/
theorem rows_of_update {changed : RuleTable} (h : table.update row = .ok changed) :
    changed = table ∨ changed.rows = replaceRow row table.rows := by
  rw [update] at h
  split at h
  next => exact .inl (Except.ok.inj h).symm
  next =>
    split at h
    next => cases h
    next => exact .inr (by rw [← Except.ok.inj h])

/-- Replacing a row leaves the identifiers. -/
theorem map_id_replaceRow (row : RuleRow) (rows : List RuleRow) :
    (replaceRow row rows).map RuleRow.id = rows.map RuleRow.id := by
  rw [replaceRow, List.map_map]
  refine List.map_congr_left fun other _ => ?_
  rw [Function.comp_apply]
  split
  next h => exact h.symm
  next => rfl

/-- Removing a row undoes its replacement. -/
theorem filter_replaceRow (row : RuleRow) (rows : List RuleRow) :
    (replaceRow row rows).filter (fun r => r.id != row.id) =
      rows.filter fun r => r.id != row.id := by
  induction rows with
  | nil => rfl
  | cons other rest ih =>
    rw [replaceRow, List.map_cons, ← replaceRow]
    by_cases h : other.id = row.id
    · rw [if_pos h, List.filter_cons_of_neg (by simp), List.filter_cons_of_neg (by simp [h]), ih]
    · rw [if_neg h, List.filter_cons_of_pos (by simpa using h),
        List.filter_cons_of_pos (by simpa using h), ih]

/-- Whether every row is the row of a rule. -/
def Written (table : RuleTable) : Prop :=
  ∀ row ∈ table.rows, ∃ rule, row = .ofRule rule

theorem written_empty : Written .empty := by
  simp [Written, empty]

/-- A rule that is read from a row has the keys of the row. -/
theorem Written.keys_of_read? (hwritten : table.Written) (hrow : row ∈ table.rows)
    {rule : RuleDefinition} (hread : row.read? = some rule) :
    row.id = rule.id.text ∧ row.name = rule.name := by
  obtain ⟨stored, rfl⟩ := hwritten row hrow
  obtain ⟨hid, hname⟩ := RuleRow.keys_of_read? hread
  rw [hid, hname]
  exact ⟨rfl, rfl⟩

theorem eq_of_rows {other : RuleTable} (h : table.rows = other.rows) : table = other := by
  cases table
  cases other
  cases h
  rfl

end RuleTable

/-! ## What requests keep -/

namespace Procedure

variable {α β : Type} {P : RuleTable → Prop}

/-- Whether a procedure keeps a property of the table. -/
def Preserves (P : RuleTable → Prop) (p : Procedure α) : Prop :=
  ∀ table, P table → P (p.run table).1

theorem Preserves.finish (answer : Except Failure α) : (finish answer).Preserves P :=
  fun _ h => h

theorem Preserves.query {q : RuleTable → Except StorageFault β} {next : β → Procedure α}
    (h : ∀ b, (next b).Preserves P) : (query q next).Preserves P := by
  intro table htable
  cases hq : q table with
  | ok b =>
    rw [run_query_ok hq]
    exact h b table htable
  | error fault => simpa only [Procedure.query, run, hq, fail, id] using htable

theorem Preserves.change {f : RuleTable → Except StorageFault RuleTable} {answer : α}
    (h : ∀ table changed, P table → f table = .ok changed → P changed) :
    (change f answer).Preserves P := by
  intro table htable
  cases hf : f table with
  | ok changed =>
    rw [run_change_ok hf]
    exact h table changed htable hf
  | error fault =>
    rw [run_change_error hf]
    exact htable

theorem Preserves.checked {rule : RuleDefinition} {next : Procedure α} (h : next.Preserves P) :
    (checked rule next).Preserves P := by
  rw [Procedure.checked]
  split
  next => exact h
  next => exact .finish _

theorem Preserves.withRule {id : Identifier} {next : RuleDefinition → Procedure α}
    (h : ∀ rule, (next rule).Preserves P) : (withRule id next).Preserves P :=
  .query fun found => by
    cases found with
    | some rule => exact h rule
    | none => exact .finish _

theorem Preserves.map {f : α → β} {p : Procedure α} (h : p.Preserves P) :
    (p.map f).Preserves P := by
  intro table htable
  rw [run_map]
  exact h table htable

end Procedure

namespace RuleRequest

variable {P : RuleTable → Prop}

/-- A request keeps what the changes that it may make keep. -/
theorem preserves_procedure {request : RuleRequest}
    (hinsert : ∀ rule table changed, P table → table.insert (.ofRule rule) = .ok changed →
      P changed)
    (hupdate : ∀ rule table changed, P table → table.update (.ofRule rule) = .ok changed →
      P changed)
    (hdelete : ∀ id, request = .delete id → ∀ table : RuleTable, P table → P (table.delete id.text)) :
    request.procedure.Preserves P := by
  cases request with
  | create rule => exact .map (.checked (.change (hinsert rule)))
  | update rule => exact .map (.checked (.change (hupdate rule)))
  | setEnabled id enabled => exact .map (.withRule fun rule => .change (hupdate _))
  | importRule rule =>
    refine .map (.checked (.query fun found => ?_))
    cases found with
    | some existing => exact .change (hupdate _)
    | none => exact .change (hinsert rule)
  | delete id =>
    refine .map (.change fun table changed htable h => ?_)
    rw [← Except.ok.inj h]
    exact hdelete id rfl table htable

/-- Requests write rows of rules only. -/
theorem written_procedure (request : RuleRequest) :
    request.procedure.Preserves RuleTable.Written := by
  refine preserves_procedure (fun rule table changed hwritten h row hrow => ?_)
    (fun rule table changed hwritten h => ?_) (fun id _ table hwritten row hrow => ?_)
  · rw [RuleTable.rows_of_insert h, List.mem_cons] at hrow
    rcases hrow with rfl | hrow
    · exact ⟨rule, rfl⟩
    · exact hwritten row hrow
  · rcases RuleTable.rows_of_update h with rfl | hrows
    · exact hwritten
    · intro row hrow
      rw [hrows] at hrow
      obtain ⟨other, hother, rfl⟩ := List.mem_map.1 hrow
      split
      next => exact ⟨rule, rfl⟩
      next => exact hwritten other hother
  · exact hwritten row (List.mem_filter.1 hrow).1

/-- What every request keeps holds after a series of them. -/
theorem preserves_runAll (h : ∀ request : RuleRequest, request.procedure.Preserves P)
    (requests : List RuleRequest) {table : RuleTable} (htable : P table) :
    P (runAll requests table).1 := by
  induction requests generalizing table with
  | nil => exact htable
  | cons request rest ih => exact ih (h request table htable)

theorem written_runAll (requests : List RuleRequest) :
    (runAll requests .empty).1.Written :=
  preserves_runAll written_procedure requests RuleTable.written_empty

/-- Only the removal of a rule takes its identifier out of the table. -/
theorem hasId_procedure {request : RuleRequest} {id : Identifier} (hother : request ≠ .delete id) :
    request.procedure.Preserves fun table => table.hasId id.text = true := by
  have hmem (table : RuleTable) :
      table.hasId id.text = true ↔ id.text ∈ table.rows.map RuleRow.id := by
    simp [RuleTable.hasId_iff]
  simp only [hmem]
  refine preserves_procedure (fun rule table changed hid h => ?_)
    (fun rule table changed hid h => ?_) (fun removed hrequest table hid => ?_)
  · rw [RuleTable.rows_of_insert h, List.map_cons]
    exact List.mem_cons_of_mem _ hid
  · rcases RuleTable.rows_of_update h with rfl | hrows
    · exact hid
    · rwa [hrows, RuleTable.map_id_replaceRow]
  · obtain ⟨row, hrow, hrowId⟩ := List.mem_map.1 hid
    refine List.mem_map.2 ⟨row, List.mem_filter.2 ⟨hrow, ?_⟩, hrowId⟩
    have hne : id ≠ removed := by
      rintro rfl
      exact hother hrequest
    simpa [hrowId, Identifier.text_injective.eq_iff] using hne

end RuleRequest

end Reflex

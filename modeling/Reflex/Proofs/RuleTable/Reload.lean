import Reflex.Proofs.RuleTable.Listing
import Reflex.Proofs.RuleTable.Request
import Reflex.Proofs.Text.ByteOrder
import Reflex.RuleService

/-!
# From the Stored Rules to the Active Ones

A reload reads the enabled rows of the table and makes their rules active. It does this for all of
them or not at all: one enabled row that cannot be read keeps the old rules active. A rule that does
not compile is left out and reported, and has no effect on the other ones. What becomes of a row
does not depend on any other row.

## Main definitions

- `Reflex.RuleTable.ListsEnabled`: the enabled rows in the order of their names.
- `Reflex.CompiledEach`: rules compiled one by one.
- `Reflex.RuleService.alone`: the service with one stored row only.

## Main statements

- `Reflex.RuleTable.allEnabled_eq_error`: why the enabled rules cannot be read.
- `Reflex.RuleTable.allEnabled_congr`: only enabled rows matter.
- `Reflex.Engine.compiledEach_load`: every rule is compiled by itself.
- `Reflex.RuleService.reload_exact`: what a reload does to a service.
-/

namespace Reflex

/-! ## Reading the enabled rows -/

namespace RuleTable

variable {table : RuleTable} {rows : List RuleRow} {rules : List RuleDefinition}

/-- Whether rows are those of the table whose column for enabled rules holds a one, in the order of
the bytes of their names. -/
structure ListsEnabled (table : RuleTable) (rows : List RuleRow) : Prop where
  /-- They are the enabled rows. -/
  mem_iff : ∀ {row}, row ∈ rows ↔ row ∈ table.rows ∧ row.enabled = 1
  /-- The names increase strictly. -/
  sorted : rows.Pairwise fun a b => Text.utf8 a.name < Text.utf8 b.name

/-- The enabled rows in the order of their names. -/
def enabledRows (table : RuleTable) : List RuleRow :=
  byName (table.rows.filter fun r => r.enabled == 1)

theorem mem_enabledRows {row : RuleRow} :
    row ∈ table.enabledRows ↔ row ∈ table.rows ∧ row.enabled = 1 := by
  simp [enabledRows, mem_byName]

theorem listsEnabled_enabledRows (table : RuleTable) : table.ListsEnabled table.enabledRows where
  mem_iff := mem_enabledRows
  sorted := (pairwise_byName (table.distinct.filter _)).imp Text.utf8_lt_utf8

/-- A listing fails only because one of its rows is unreadable. -/
theorem mapM_read_eq_error {fault : StorageFault} (h : rows.mapM RuleRow.read = .error fault) :
    fault = .unreadable ∧ ∃ row ∈ rows, row.read? = none := by
  induction rows with
  | nil => cases h
  | cons row rest ih =>
    rw [List.mapM_cons] at h
    cases hread : row.read? with
    | none =>
      rw [RuleRow.read, hread] at h
      exact ⟨(Except.error.inj h).symm, row, by simp, hread⟩
    | some rule =>
      rw [RuleRow.read, hread] at h
      cases hrest : rest.mapM RuleRow.read with
      | ok rules =>
        rw [hrest] at h
        cases h
      | error e =>
        rw [hrest] at h
        obtain ⟨rfl, other, hother, hunreadable⟩ := ih (hrest.trans h)
        exact ⟨rfl, other, List.mem_cons_of_mem row hother, hunreadable⟩

/-- The enabled rules are listed if every enabled row is readable, one rule for each row. -/
theorem forall₂_of_allEnabled (h : table.allEnabled = .ok rules) :
    List.Forall₂ (fun row rule => row.read? = some rule) table.enabledRows rules :=
  forall₂_of_mapM_read h

/-- The enabled rules cannot be listed only because one of their rows is unreadable. -/
theorem allEnabled_eq_error {fault : StorageFault} (h : table.allEnabled = .error fault) :
    fault = .unreadable ∧ ∃ row ∈ table.rows, row.enabled = 1 ∧ row.read? = none := by
  obtain ⟨hfault, row, hrow, hunreadable⟩ := mapM_read_eq_error h
  obtain ⟨hmem, henabled⟩ := mem_enabledRows.1 hrow
  exact ⟨hfault, row, hmem, henabled, hunreadable⟩

/-- The enabled rules are listed only if every enabled row is readable. -/
theorem read?_ne_none_of_allEnabled (h : table.allEnabled = .ok rules) {row : RuleRow}
    (hrow : row ∈ table.rows) (henabled : row.enabled = 1) : row.read? ≠ none :=
  (mapM_read_eq_ok.1 h).1 row (mem_enabledRows.2 ⟨hrow, henabled⟩)

/-- Tables with the same enabled rows list the same rules. -/
theorem allEnabled_congr {other : RuleTable}
    (h : ∀ row : RuleRow, row.enabled = 1 → (row ∈ other.rows ↔ row ∈ table.rows)) :
    other.allEnabled = table.allEnabled := by
  have hmem : ∀ row, row ∈ other.enabledRows ↔ row ∈ table.enabledRows := by
    intro row
    rw [mem_enabledRows, mem_enabledRows]
    exact and_congr_left (h row)
  have hsorted (t : RuleTable) : t.enabledRows.Pairwise fun a b => a.name < b.name :=
    pairwise_byName (t.distinct.filter _)
  have hnodup (t : RuleTable) : t.enabledRows.Nodup :=
    (hsorted t).imp fun hlt heq => absurd (heq ▸ hlt) (String.lt_irrefl _)
  have hperm : other.enabledRows.Perm table.enabledRows :=
    (List.perm_ext_iff_of_nodup (hnodup other) (hnodup table)).2 hmem
  have hrows : other.enabledRows = table.enabledRows :=
    hperm.eq_of_pairwise (fun a b _ _ hab hba => absurd hba (String.lt_asymm hab))
      (hsorted other) (hsorted table)
  exact congrArg (List.mapM RuleRow.read) hrows

end RuleTable

/-! ## Compiling one by one -/

/-- The compiled forms of those rules that compile, and the errors of the others, in the order of
the rules. -/
inductive CompiledEach (catalog : Catalog) :
    List RuleDefinition → List CompiledRule → List CompileError → Prop where
  /-- No rules. -/
  | nil : CompiledEach catalog [] [] []
  /-- The first rule compiles. -/
  | accepted {rule rules compiled active failures} (h : rule.compile catalog = .ok compiled)
      (hrest : CompiledEach catalog rules active failures) :
      CompiledEach catalog (rule :: rules) (compiled :: active) failures
  /-- The first rule does not compile. -/
  | refused {rule rules e active failures} (h : rule.compile catalog = .error e)
      (hrest : CompiledEach catalog rules active failures) :
      CompiledEach catalog (rule :: rules) active (e :: failures)

namespace Engine

/-- An engine loads the compiled forms of the rules, and reports the errors of those without. -/
theorem compiledEach_load (engine : Engine) (rules : List RuleDefinition) :
    CompiledEach engine.catalog rules (engine.load rules).rules (engine.failures rules) := by
  induction rules with
  | nil => exact .nil
  | cons rule rest ih =>
    cases hcompile : engine.compile rule with
    | ok compiled =>
      have hactive : engine.compiled? rule = some compiled := by
        simp [compiled?, hcompile, Except.toOption]
      have hfailure : engine.refusal? rule = none := by rw [refusal?, hcompile]
      simp only [load, failures, List.filterMap_cons, hactive, hfailure]
      exact .accepted hcompile ih
    | error e =>
      have hactive : engine.compiled? rule = none := by
        simp [compiled?, hcompile, Except.toOption]
      have hfailure : engine.refusal? rule = some e := by rw [refusal?, hcompile]
      simp only [load, failures, List.filterMap_cons, hactive, hfailure]
      exact .refused hcompile ih

end Engine

/-! ## Reloads -/

namespace RuleService

variable {s : RuleService} {rules : List RuleDefinition}

/-- If the enabled rules are listed, they replace the active ones. -/
theorem reload_of_ok (h : s.table.allEnabled = .ok rules) :
    s.reload = ({ s with engine := s.engine.load rules }, .ok (s.engine.failures rules)) := by
  rw [reload, Engine.reload, Procedure.run_query_ok h]
  rfl

/-- If the enabled rules cannot be listed, nothing changes. -/
theorem reload_of_error {fault : StorageFault} (h : s.table.allEnabled = .error fault) :
    s.reload = (s, .error (.storage fault)) := by
  simp only [reload, Engine.reload, Procedure.query, Procedure.run, h, Procedure.fail, id]

/-- The service with one stored row only. -/
def alone (s : RuleService) (row : RuleRow) : RuleService :=
  { s with table := ⟨[row], List.pairwise_singleton _ _⟩ }

/-- The outcome for one readable row is that of its rule. -/
theorem reload_alone {row : RuleRow} {rule : RuleDefinition} (henabled : row.enabled = 1)
    (hread : row.read? = some rule) :
    (s.alone row).reload.1.engine.rules = (s.engine.load [rule]).rules ∧
      (s.alone row).reload.2 = .ok (s.engine.failures [rule]) := by
  have hlisted : (s.alone row).table.allEnabled = .ok [rule] := by
    have hrows : (s.alone row).table.enabledRows = [row] := by
      simp [RuleTable.enabledRows, alone, henabled, RuleTable.byName]
    have hall : (s.alone row).table.allEnabled = [row].mapM RuleRow.read :=
      congrArg (List.mapM RuleRow.read) hrows
    rw [hall, RuleTable.mapM_read (by simp [hread])]
    simp [hread]
  rw [reload_of_ok hlisted]
  exact ⟨rfl, rfl⟩

/-- The outcome for readable enabled rows is made of the outcomes for each of them alone. -/
theorem outcomes_alone {rows : List RuleRow} (henabled : ∀ row ∈ rows, row.enabled = 1)
    (hread : List.Forall₂ (fun row rule => row.read? = some rule) rows rules) :
    (s.engine.load rules).rules = rows.flatMap (fun row => (s.alone row).reload.1.engine.rules) ∧
      ∃ refused, List.Forall₂ (fun row errors => (s.alone row).reload.2 = .ok errors) rows refused ∧
        s.engine.failures rules = refused.flatten := by
  induction hread with
  | nil => exact ⟨rfl, [], .nil, rfl⟩
  | @cons row rule _ rest hrow _ ih =>
    obtain ⟨hactive, hfailures⟩ := reload_alone (s := s) (henabled row (by simp)) hrow
    obtain ⟨hrules, refused, hrefused, hflatten⟩ :=
      ih fun other hother => henabled other (List.mem_cons_of_mem row hother)
    refine ⟨?_, _, .cons hfailures hrefused, ?_⟩
    · rw [List.flatMap_cons, hactive, ← hrules]
      exact List.filterMap_append (l := [rule])
    · rw [List.flatten_cons, ← hflatten]
      exact List.filterMap_append (l := [rule])

/-- What a reload does to a service. -/
structure ReloadLaws (s : RuleService) : Prop where
  /-- The stored rules stay as they are. -/
  table : s.reload.1.table = s.table
  /-- It fails exactly if the row of an enabled rule is unreadable. -/
  fails_iff : (∃ e, s.reload.2 = .error e) ↔
    ∃ row ∈ s.table.rows, row.enabled = 1 ∧ row.read? = none
  /-- If it fails, it names this cause, and the engine stays as it is. -/
  unchanged : ∀ e, s.reload.2 = .error e → e = .storage .unreadable ∧ s.reload.1.engine = s.engine
  /-- Otherwise the rules of the enabled rows are compiled one by one in the order of their names.
  The compiled ones are the active rules, and the answer is what is wrong with the others. -/
  refreshed : ∀ failures, s.reload.2 = .ok failures → ∃ rows rules active,
    s.table.ListsEnabled rows ∧
    List.Forall₂ (fun row rule => row.read? = some rule) rows rules ∧
    CompiledEach s.engine.catalog rules active failures ∧
    s.reload.1.engine = { s.engine with rules := active }
  /-- Each enabled row contributes to both what it gives as the only row of the table. -/
  alone : ∀ failures, s.reload.2 = .ok failures → ∃ rows refused,
    s.table.ListsEnabled rows ∧
    List.Forall₂ (fun row errors => (s.alone row).reload.2 = .ok errors) rows refused ∧
    s.reload.1.engine.rules = rows.flatMap (fun row => (s.alone row).reload.1.engine.rules) ∧
    failures = refused.flatten
  /-- Rows of rules that are not enabled do not matter. -/
  others : ∀ stored : RuleTable,
    (∀ row : RuleRow, row.enabled = 1 → (row ∈ stored.rows ↔ row ∈ s.table.rows)) →
      RuleService.reload { s with table := stored } =
        ({ s.reload.1 with table := stored }, s.reload.2)

/-- A reload refreshes the active rules as a whole or not at all, whatever the table, the engine
and its catalog are. -/
theorem reload_exact (s : RuleService) : ReloadLaws s := by
  cases hlisted : s.table.allEnabled with
  | error fault =>
    obtain ⟨rfl, hunreadable⟩ := RuleTable.allEnabled_eq_error hlisted
    have hreload : s.reload = (s, .error (.storage .unreadable)) := reload_of_error hlisted
    refine ⟨by rw [hreload], ?_, ?_, ?_, ?_, fun stored hsame => ?_⟩
    · rw [hreload]
      exact iff_of_true ⟨_, rfl⟩ hunreadable
    · rw [hreload]
      rintro e ⟨⟩
      exact ⟨rfl, rfl⟩
    · rw [hreload]
      rintro failures ⟨⟩
    · rw [hreload]
      rintro failures ⟨⟩
    · rw [hreload]
      exact reload_of_error ((RuleTable.allEnabled_congr hsame).trans hlisted)
  | ok rules =>
    have hreload := reload_of_ok hlisted
    have hlists := s.table.listsEnabled_enabledRows
    have hread := RuleTable.forall₂_of_allEnabled hlisted
    refine ⟨by rw [hreload], ?_, ?_, ?_, ?_, fun stored hsame => ?_⟩
    · rw [hreload]
      refine iff_of_false (by rintro ⟨e, ⟨⟩⟩) ?_
      rintro ⟨row, hrow, henabled, hunreadable⟩
      exact RuleTable.read?_ne_none_of_allEnabled hlisted hrow henabled hunreadable
    · rw [hreload]
      rintro e ⟨⟩
    · rw [hreload]
      rintro failures ⟨⟩
      exact ⟨_, rules, _, hlists, hread, s.engine.compiledEach_load rules, rfl⟩
    · rw [hreload]
      rintro failures ⟨⟩
      obtain ⟨hactive, refused, hrefused, hflatten⟩ :=
        outcomes_alone (s := s) (fun row hrow => (hlists.mem_iff.1 hrow).2) hread
      exact ⟨_, refused, hlists, hrefused, hactive, hflatten⟩
    · rw [hreload]
      exact reload_of_ok ((RuleTable.allEnabled_congr hsame).trans hlisted)

end RuleService

end Reflex

import Reflex.Proofs.Rule.Nesting
import Reflex.Proofs.RuleTable.Cycles
import Reflex.Proofs.RuleTable.Rows
import Reflex.RuleFile

/-!
# Importing Rules Again

Rules from outside are imported one by one, and what is wrong with one of them does not keep the
others back. A rule without an identifier gets a new one each time. The rows of the table keep their
keys in this: an import overwrites the row of its name, or adds one, or does nothing. When all rules
have been imported, importing them again changes nothing, if those with an identifier of their own
nest no deeper than the reader of stored texts allows. A rule file may hold a deeper one. If it was
refused the first time, because its identifier was in use, it may be written the second time, over a
rule of the same name, and then its row cannot be read any more.

## Main definitions

- `Reflex.RuleTable.importAll`: importing rules one by one.
- `Reflex.RuleRow.overwrite`, `Reflex.RuleRow.overwriteAll`: what becomes of a row.
- `Reflex.RuleTable.Settled`: tables to which the import of a rule does not add a row.
- `Reflex.RuleTable.deepFile`: a rule file that nests deeper than a stored text may.

## Main statements

- `Reflex.RuleTable.rows_importRule`: what one import does.
- `Reflex.RuleTable.rows_importAll`: what imports do that add no row.
- `Reflex.RuleTable.overwriteAll_of_mem`: a row is overwritten by what it holds.
- `Reflex.RuleTable.importAll_again`: importing rules again changes nothing.
- `Reflex.RuleTable.importAll_ne_of_deepFile`: it may, if one of them nests too deep.
-/

namespace Reflex

/-! ## Rows -/

namespace RuleRow

/-- What the import of a rule makes of a row: a readable row of its name is overwritten and keeps
its identifier. -/
def overwrite (row : RuleRow) (rule : RuleDefinition) : RuleRow :=
  match rule.checkInvariants, row.read? with
  | .ok (), some held => if row.name = rule.name then .ofRule { rule with id := held.id } else row
  | _, _ => row

variable {row : RuleRow} {rule held : RuleDefinition}

theorem overwrite_of_applies (hvalid : rule.checkInvariants = .ok ()) (hname : row.name = rule.name)
    (hread : row.read? = some held) : row.overwrite rule = .ofRule { rule with id := held.id } := by
  rw [overwrite, hvalid, hread]
  exact if_pos hname

theorem overwrite_of_unreadable (hread : row.read? = none) (rule : RuleDefinition) :
    row.overwrite rule = row := by
  rw [overwrite, hread]
  cases rule.checkInvariants <;> rfl

theorem overwrite_of_invalid {cause : ValidationError} (h : rule.checkInvariants = .error cause)
    (row : RuleRow) : row.overwrite rule = row := by
  rw [overwrite, h]

theorem overwrite_of_name (hname : row.name ≠ rule.name) : row.overwrite rule = row := by
  rw [overwrite]
  split
  next => exact if_neg hname
  next => rfl

/-- A row stays as it is, or it is overwritten. -/
theorem overwrite_cases (row : RuleRow) (rule : RuleDefinition) :
    row.overwrite rule = row ∨ rule.checkInvariants = .ok () ∧ row.name = rule.name ∧
      ∃ held, row.read? = some held := by
  cases hread : row.read? with
  | none => exact .inl (overwrite_of_unreadable hread rule)
  | some held =>
    cases hvalid : rule.checkInvariants with
    | error cause => exact .inl (overwrite_of_invalid hvalid row)
    | ok =>
      by_cases hname : row.name = rule.name
      · exact .inr ⟨rfl, hname, held, rfl⟩
      · exact .inl (overwrite_of_name hname)

/-- An overwritten row keeps its keys. -/
theorem keys_overwrite (hrow : ∃ d, row = .ofRule d) (rule : RuleDefinition) :
    (∃ d, row.overwrite rule = .ofRule d) ∧ (row.overwrite rule).id = row.id ∧
      (row.overwrite rule).name = row.name := by
  rcases overwrite_cases row rule with h | ⟨hvalid, hname, held, hread⟩
  · rw [h]
    exact ⟨hrow, rfl, rfl⟩
  · rw [overwrite_of_applies hvalid hname hread]
    obtain ⟨d, rfl⟩ := hrow
    obtain ⟨hid, -⟩ := keys_of_read? hread
    exact ⟨⟨_, rfl⟩, congrArg Identifier.text hid, hname.symm⟩

/-- What the imports of drafts make of a row, one after the other. The identifiers of the drafts do
not matter. -/
def overwriteAll (drafts : List RuleDraft) (row : RuleRow) : RuleRow :=
  drafts.foldl (fun row draft => row.overwrite (draft.finish default)) row

theorem overwriteAll_of_unreadable (hread : row.read? = none) (drafts : List RuleDraft) :
    overwriteAll drafts row = row := by
  induction drafts with
  | nil => rfl
  | cons draft rest ih =>
    rw [overwriteAll, List.foldl_cons, overwrite_of_unreadable hread]
    exact ih

theorem keys_overwriteAll (hrow : ∃ d, row = .ofRule d) (drafts : List RuleDraft) :
    (overwriteAll drafts row).id = row.id ∧ (overwriteAll drafts row).name = row.name := by
  induction drafts generalizing row with
  | nil => exact ⟨rfl, rfl⟩
  | cons draft rest ih =>
    obtain ⟨hwritten, hid, hname⟩ := keys_overwrite hrow (draft.finish default)
    obtain ⟨hrestId, hrestName⟩ := ih hwritten
    exact ⟨hrestId.trans hid, hrestName.trans hname⟩

/-- Once a draft has overwritten it, nothing is left of what was in a readable row. -/
theorem overwriteAll_congr {other : RuleRow} {drafts : List RuleDraft}
    (hrow : ∃ d, row = .ofRule d) (hother : ∃ d, other = .ofRule d) (hid : row.id = other.id)
    (hname : row.name = other.name) (hread : row.read? ≠ none) (hotherRead : other.read? ≠ none)
    (happlies : ∃ draft ∈ drafts, (draft.finish default).checkInvariants = .ok () ∧
      draft.name = row.name) : overwriteAll drafts row = overwriteAll drafts other := by
  induction drafts with
  | nil =>
    obtain ⟨draft, hdraft, -⟩ := happlies
    cases hdraft
  | cons draft rest ih =>
    rw [overwriteAll, overwriteAll, List.foldl_cons, List.foldl_cons]
    by_cases hfirst : (draft.finish default).checkInvariants = .ok () ∧ draft.name = row.name
    · -- both rows hold the same from here on
      obtain ⟨hvalid, hdraft⟩ := hfirst
      obtain ⟨held, hheld⟩ := Option.ne_none_iff_exists'.1 hread
      obtain ⟨otherHeld, hotherHeld⟩ := Option.ne_none_iff_exists'.1 hotherRead
      have hsame : held.id = otherHeld.id := by
        obtain ⟨d, rfl⟩ := hrow
        obtain ⟨d', rfl⟩ := hother
        rw [(keys_of_read? hheld).1, (keys_of_read? hotherHeld).1]
        exact Identifier.text_injective hid
      rw [overwrite_of_applies hvalid hdraft.symm hheld,
        overwrite_of_applies hvalid (hname.symm.trans hdraft.symm) hotherHeld, hsame]
    · have hstays : ∀ row' : RuleRow, row'.name = row.name →
          row'.overwrite (draft.finish default) = row' := by
        intro row' hrow'
        rcases overwrite_cases row' (draft.finish default) with h | ⟨hvalid, hdraft, -⟩
        · exact h
        · exact absurd ⟨hvalid, hdraft.symm.trans hrow'⟩ hfirst
      rw [hstays row rfl, hstays other hname.symm]
      apply ih
      obtain ⟨applied, happlied, hvalid⟩ := happlies
      rcases List.mem_cons.1 happlied with rfl | happlied
      · exact absurd hvalid hfirst
      · exact ⟨applied, happlied, hvalid⟩

/-- The keys of a row. -/
def keys (row : RuleRow) : String × String :=
  (row.id, row.name)

end RuleRow

/-! ## Tables -/

namespace RuleTable

open RuleRow (overwriteAll)

/-- Import a rule, whether it succeeds or not. -/
def importRule (table : RuleTable) (rule : RuleDefinition) : RuleTable :=
  ((Procedure.importRule rule).run table).1

/-- Import rules one by one. -/
def importAll (table : RuleTable) (rules : List RuleDefinition) : RuleTable :=
  rules.foldl importRule table

/-- Whether the import of a rule adds no row: the rule is not valid, or one of its keys is there. -/
def Settled (table : RuleTable) (rule : RuleDefinition) : Prop :=
  rule.checkInvariants = .ok () → table.hasName rule.name = true ∨ table.hasId rule.id.text = true

variable {table : RuleTable} {rule : RuleDefinition}

theorem written_importRule (hwritten : table.Written) (rule : RuleDefinition) :
    (table.importRule rule).Written := by
  have h := RuleRequest.written_procedure (.importRule rule) table hwritten
  rwa [RuleRequest.procedure, Procedure.run_map] at h

/-! ### One import -/

theorem importRule_of_invalid {cause : ValidationError} (h : rule.checkInvariants = .error cause) :
    table.importRule rule = table := by
  rw [importRule, Procedure.importRule, Procedure.run_checked_error h]

section Valid

variable (hvalid : rule.checkInvariants = .ok ())
include hvalid

/-- An import is refused if only its identifier is taken. -/
theorem importRule_of_hasId (hname : table.hasName rule.name = false)
    (hid : table.hasId rule.id.text = true) : table.importRule rule = table := by
  have hrefused : table.insert (.ofRule rule) = .error .idTaken := insert_of_hasId hname hid
  rw [importRule, Procedure.importRule, Procedure.run_checked_ok hvalid,
    Procedure.run_query_ok (findByName_eq_none.2 hname), Procedure.insertRow,
    Procedure.run_change_error hrefused]

/-- An import fails if the row of its name is unreadable. -/
theorem importRule_of_unreadable {row : RuleRow} (hrow : row ∈ table.rows)
    (hname : row.name = rule.name) (hread : row.read? = none) : table.importRule rule = table := by
  have hfind : table.findByName rule.name = .error .unreadable := by
    rw [findByName, rowByName?_eq_some.2 ⟨hrow, hname⟩, readRow?, RuleRow.read, hread]
    rfl
  rw [importRule, Procedure.importRule, Procedure.run_checked_ok hvalid]
  simp only [Procedure.query, Procedure.run, hfind, Procedure.fail, id]

/-- An import replaces the row of its name, which keeps its identifier. -/
theorem rows_importRule_of_held (hwritten : table.Written) {row : RuleRow}
    (hrow : row ∈ table.rows) (hname : row.name = rule.name) {held : RuleDefinition}
    (hread : row.read? = some held) :
    (table.importRule rule).rows = replaceRow (.ofRule { rule with id := held.id }) table.rows := by
  obtain ⟨hid, -⟩ := hwritten.keys_of_read? hrow hread
  have hpresent : table.hasId (RuleRow.ofRule { rule with id := held.id }).id = true :=
    hasId_iff.2 ⟨row, hrow, hid⟩
  have hfree : ∀ other ∈ table.rows, other.name = rule.name → other.id = held.id.text := by
    intro other hother hotherName
    rw [eq_of_key hother hrow (.inr (hotherName.trans hname.symm)), hid]
  obtain ⟨changed, hupdate, hrows⟩ := exists_update hpresent hfree
  rw [importRule, Procedure.importRule, Procedure.run_checked_ok hvalid,
    Procedure.run_query_ok (findByName_eq_some.2 ⟨row, hrow, hname, hread⟩)]
  show ((Procedure.updateRow { rule with id := held.id }).run table).1.rows = _
  rw [Procedure.updateRow, Procedure.run_change_ok hupdate, hrows]

end Valid

theorem map_overwrite_eq_self (h : ∀ row ∈ table.rows, row.overwrite rule = row) :
    table.rows.map (·.overwrite rule) = table.rows :=
  (List.map_congr_left h).trans (List.map_id' _)

/-- If no row is added, the row of the name is overwritten. -/
theorem rows_importRule_of_settled (hwritten : table.Written) (h : table.Settled rule) :
    (table.importRule rule).rows = table.rows.map (·.overwrite rule) := by
  cases hvalid : rule.checkInvariants with
  | error cause =>
    rw [importRule_of_invalid hvalid]
    exact (map_overwrite_eq_self fun row _ => RuleRow.overwrite_of_invalid hvalid row).symm
  | ok =>
    cases hname : table.hasName rule.name with
    | false =>
      rw [importRule_of_hasId hvalid hname ((h hvalid).resolve_left (by simp [hname]))]
      refine (map_overwrite_eq_self fun row hrow => RuleRow.overwrite_of_name ?_).symm
      intro hrowName
      rw [hasName_iff.2 ⟨row, hrow, hrowName⟩] at hname
      cases hname
    | true =>
      obtain ⟨row, hrow, hrowName⟩ := hasName_iff.1 hname
      -- no other row has the name
      have hother : ∀ other ∈ table.rows, other ≠ row → other.overwrite rule = other := by
        intro other hother hne
        apply RuleRow.overwrite_of_name
        intro hotherName
        exact hne (eq_of_key hother hrow (.inr (hotherName.trans hrowName.symm)))
      cases hread : row.read? with
      | none =>
        rw [importRule_of_unreadable hvalid hrow hrowName hread]
        refine (map_overwrite_eq_self fun other hmem => ?_).symm
        by_cases hsame : other = row
        · rw [hsame, RuleRow.overwrite_of_unreadable hread]
        · exact hother other hmem hsame
      | some held =>
        obtain ⟨hid, -⟩ := hwritten.keys_of_read? hrow hread
        rw [rows_importRule_of_held hvalid hwritten hrow hrowName hread]
        refine List.map_congr_left fun other hmem => ?_
        by_cases hsame : other = row
        · rw [hsame, RuleRow.overwrite_of_applies hvalid hrowName hread]
          exact if_pos hid
        · rw [hother other hmem hsame]
          exact if_neg fun hotherId => hsame (eq_of_key hmem hrow (.inl (hotherId.trans hid.symm)))

/-- A valid rule whose keys are free is added. -/
theorem rows_importRule_of_free (hvalid : rule.checkInvariants = .ok ())
    (hname : table.hasName rule.name = false) (hid : table.hasId rule.id.text = false) :
    (table.importRule rule).rows = .ofRule rule :: table.rows := by
  have hnew : table.hasName (RuleRow.ofRule rule).name = false := hname
  obtain ⟨changed, hinsert, hrows⟩ := exists_insert hnew hid
  rw [importRule, Procedure.importRule, Procedure.run_checked_ok hvalid,
    Procedure.run_query_ok (findByName_eq_none.2 hname), Procedure.insertRow,
    Procedure.run_change_ok hinsert, hrows]

/-- One import overwrites a row or none, or it adds a row. -/
theorem rows_importRule (hwritten : table.Written) (rule : RuleDefinition) :
    table.Settled rule ∧ (table.importRule rule).rows = table.rows.map (·.overwrite rule) ∨
      rule.checkInvariants = .ok () ∧ table.hasName rule.name = false ∧
        table.hasId rule.id.text = false ∧
          (table.importRule rule).rows = .ofRule rule :: table.rows := by
  by_cases hsettled : table.Settled rule
  · exact .inl ⟨hsettled, rows_importRule_of_settled hwritten hsettled⟩
  · right
    rw [Settled, Classical.not_imp, not_or, Bool.not_eq_true, Bool.not_eq_true] at hsettled
    obtain ⟨hvalid, hname, hid⟩ := hsettled
    exact ⟨hvalid, hname, hid, rows_importRule_of_free hvalid hname hid⟩

/-! ### Keys -/

/-- An import keeps the rows with their keys, in their order, and may add one in front. -/
theorem keys_importRule (hwritten : table.Written) (rule : RuleDefinition) :
    (table.rows.map RuleRow.keys) <:+ (table.importRule rule).rows.map RuleRow.keys := by
  rcases rows_importRule hwritten rule with ⟨-, hrows⟩ | ⟨-, -, -, hrows⟩
  · have hkeys : (table.importRule rule).rows.map RuleRow.keys = table.rows.map RuleRow.keys := by
      rw [hrows, List.map_map]
      refine List.map_congr_left fun row hrow => ?_
      obtain ⟨-, hid, hname⟩ := RuleRow.keys_overwrite (hwritten row hrow) rule
      show ((row.overwrite rule).id, (row.overwrite rule).name) = (row.id, row.name)
      rw [hid, hname]
    exact hkeys ▸ List.suffix_refl _
  · rw [hrows, List.map_cons]
    exact List.suffix_cons _ _

theorem written_importAll (hwritten : table.Written) (rules : List RuleDefinition) :
    (table.importAll rules).Written := by
  induction rules generalizing table with
  | nil => exact hwritten
  | cons rule rest ih => exact ih (written_importRule hwritten rule)

/-- So do any imports. -/
theorem keys_importAll (hwritten : table.Written) (rules : List RuleDefinition) :
    (table.rows.map RuleRow.keys) <:+ (table.importAll rules).rows.map RuleRow.keys := by
  induction rules generalizing table with
  | nil => exact List.suffix_refl _
  | cons rule rest ih =>
    exact (keys_importRule hwritten rule).trans (ih (written_importRule hwritten rule))

/-- A table that keeps the keys of another one has its names and its identifiers. -/
theorem Settled.of_keys {later : RuleTable} (h : table.Settled rule)
    (hkeys : (table.rows.map RuleRow.keys) <:+ later.rows.map RuleRow.keys) :
    later.Settled rule := by
  have hkept : ∀ row ∈ table.rows,
      ∃ kept ∈ later.rows, kept.id = row.id ∧ kept.name = row.name := by
    intro row hrow
    obtain ⟨kept, hkept, hsame⟩ := List.mem_map.1 (hkeys.subset (List.mem_map_of_mem hrow))
    obtain ⟨hid, hname⟩ := Prod.mk.inj hsame
    exact ⟨kept, hkept, hid, hname⟩
  intro hvalid
  rcases h hvalid with hname | hid
  · obtain ⟨row, hrow, hrowName⟩ := hasName_iff.1 hname
    obtain ⟨kept, hmem, -, hkeptName⟩ := hkept row hrow
    exact .inl (hasName_iff.2 ⟨kept, hmem, hkeptName.trans hrowName⟩)
  · obtain ⟨row, hrow, hrowId⟩ := hasId_iff.1 hid
    obtain ⟨kept, hmem, hkeptId, -⟩ := hkept row hrow
    exact .inr (hasId_iff.2 ⟨kept, hmem, hkeptId.trans hrowId⟩)

/-- After its import the import of a rule adds no row. -/
theorem settled_importRule (hwritten : table.Written) (rule : RuleDefinition) :
    (table.importRule rule).Settled rule := by
  rcases rows_importRule hwritten rule with ⟨hsettled, -⟩ | ⟨-, -, -, hrows⟩
  · exact hsettled.of_keys (keys_importRule hwritten rule)
  · intro _
    refine .inl (hasName_iff.2 ⟨.ofRule rule, ?_, rfl⟩)
    rw [hrows]
    exact List.mem_cons_self

/-! ### Passes -/

/-- The rules of a pass: drafts, and for each of them the identifier that it gets if it has none. -/
def finishAll (pass : List (RuleDraft × Identifier)) : List RuleDefinition :=
  pass.map fun e => e.1.finish e.2

/-- Whether no identifier is in use when a draft gets it. -/
def GetsFresh : RuleTable → List (RuleDraft × Identifier) → Prop
  | _, [] => True
  | table, (draft, fresh) :: rest =>
    (draft.id = none → table.hasId fresh.text = false) ∧
      GetsFresh (table.importRule (draft.finish fresh)) rest

variable {pass : List (RuleDraft × Identifier)}

/-- A row of the table is overwritten in a pass. -/
theorem overwriteAll_mem (hwritten : table.Written) {row : RuleRow} (hrow : row ∈ table.rows) :
    overwriteAll (pass.map (·.1)) row ∈ (table.importAll (finishAll pass)).rows := by
  induction pass generalizing table row with
  | nil => exact hrow
  | cons e rest ih =>
    refine ih (written_importRule hwritten (e.1.finish e.2)) ?_
    show row.overwrite (e.1.finish e.2) ∈ (table.importRule (e.1.finish e.2)).rows
    rcases rows_importRule hwritten (e.1.finish e.2) with ⟨-, hrows⟩ | ⟨-, hname, -, hrows⟩
    · rw [hrows]
      exact List.mem_map_of_mem hrow
    · have hstays : row.overwrite (e.1.finish e.2) = row := by
        apply RuleRow.overwrite_of_name
        intro hrowName
        rw [hasName_iff.2 ⟨row, hrow, hrowName⟩] at hname
        cases hname
      rw [hrows, hstays]
      exact List.mem_cons_of_mem _ hrow

/-- A name that is there after a pass was there before, or a valid draft has it. -/
theorem exists_of_hasName (hwritten : table.Written) {name : String}
    (h : (table.importAll (finishAll pass)).hasName name = true) :
    table.hasName name = true ∨ ∃ draft ∈ pass.map (·.1),
      (draft.finish default).checkInvariants = .ok () ∧ draft.name = name := by
  induction pass generalizing table with
  | nil => exact .inl h
  | cons e rest ih =>
    have hnext := written_importRule hwritten (e.1.finish e.2)
    rcases ih hnext h with hname | ⟨draft, hdraft, happlies⟩
    · rcases rows_importRule hwritten (e.1.finish e.2) with ⟨-, hrows⟩ | ⟨hvalid, -, -, hrows⟩
      · obtain ⟨row, hrow, hrowName⟩ := hasName_iff.1 hname
        rw [hrows] at hrow
        obtain ⟨before, hbefore, rfl⟩ := List.mem_map.1 hrow
        obtain ⟨-, -, hkept⟩ := RuleRow.keys_overwrite (hwritten before hbefore) (e.1.finish e.2)
        exact .inl (hasName_iff.2 ⟨before, hbefore, hkept.symm.trans hrowName⟩)
      · obtain ⟨row, hrow, hrowName⟩ := hasName_iff.1 hname
        rw [hrows, List.mem_cons] at hrow
        rcases hrow with rfl | hrow
        · exact .inr ⟨e.1, by simp, hvalid, hrowName⟩
        · exact .inl (hasName_iff.2 ⟨row, hrow, hrowName⟩)
    · exact .inr ⟨draft, List.mem_cons_of_mem _ hdraft, happlies⟩

/-- A rule that is not too deep is read from its row, perhaps as another one. -/
theorem read?_ofRule_ne_none (hshallow : rule.Shallow) : (RuleRow.ofRule rule).read? ≠ none := by
  rw [RuleRow.read?_ofRule_settle hshallow]
  exact Option.some_ne_none _

/-- After a pass each row is overwritten by what it holds. The induction is on the pass: the first
draft of it may have overwritten the row, or have added it, or have been refused for its identifier
before another draft added the row. -/
theorem overwriteAll_of_mem (hwritten : table.Written) (hfresh : table.GetsFresh pass)
    (hshallow : ∀ draft ∈ pass.map (·.1), draft.id ≠ none → (draft.finish default).Shallow)
    {row : RuleRow} (hrow : row ∈ (table.importAll (finishAll pass)).rows) :
    overwriteAll (pass.map (·.1)) row = row := by
  induction pass generalizing table row with
  | nil => rfl
  | cons e rest ih =>
    obtain ⟨draft, fresh⟩ := e
    let rule := draft.finish fresh
    let next := table.importRule rule
    let last := next.importAll (finishAll rest)
    have hnext : next.Written := written_importRule hwritten rule
    have hlast : last.Written := written_importAll hnext (finishAll rest)
    have hrest : overwriteAll (rest.map (·.1)) row = row :=
      ih hnext hfresh.2 (fun d hd => hshallow d (List.mem_cons_of_mem _ hd)) hrow
    show overwriteAll (rest.map (·.1)) (row.overwrite rule) = row
    rcases row.overwrite_cases rule with hstays | ⟨hvalid, hname, held, hread⟩
    · rw [hstays, hrest]
    -- the row that the first draft leaves behind becomes the row
    have hbecomes : ∀ first ∈ next.rows, first.name = rule.name →
        overwriteAll (rest.map (·.1)) first = row ∧ first.id = row.id := by
      intro first hfirst hfirstName
      obtain ⟨hid, hkept⟩ := RuleRow.keys_overwriteAll (hnext first hfirst) (rest.map (·.1))
      have hmem : overwriteAll (rest.map (·.1)) first ∈ last.rows := overwriteAll_mem hnext hfirst
      have hsame : overwriteAll (rest.map (·.1)) first = row :=
        eq_of_key hmem hrow (.inr (hkept.trans (hfirstName.trans hname.symm)))
      rw [hsame] at hid
      exact ⟨hsame, hid.symm⟩
    obtain ⟨hrowId, -⟩ := hlast.keys_of_read? hrow hread
    rw [RuleRow.overwrite_of_applies hvalid hname hread]
    rcases rows_importRule hwritten rule with ⟨hsettled, hrows⟩ | ⟨-, -, -, hrows⟩
    · cases hpresent : table.hasName rule.name with
      | true =>
        obtain ⟨before, hbefore, hbeforeName⟩ := hasName_iff.1 hpresent
        have hfirst : before.overwrite rule ∈ next.rows := by
          show _ ∈ (table.importRule rule).rows
          rw [hrows]
          exact List.mem_map_of_mem hbefore
        obtain ⟨-, -, hkept⟩ := RuleRow.keys_overwrite (hwritten before hbefore) rule
        obtain ⟨hsame, hid⟩ := hbecomes _ hfirst (hkept.trans hbeforeName)
        cases hheld : before.read? with
        | none =>
          rw [RuleRow.overwrite_of_unreadable hheld,
            RuleRow.overwriteAll_of_unreadable hheld] at hsame
          rw [← hsame, hheld] at hread
          cases hread
        | some other =>
          rw [RuleRow.overwrite_of_applies hvalid hbeforeName hheld] at hsame hid
          have hsameId : other.id = held.id := Identifier.text_injective (hid.trans hrowId)
          rwa [hsameId] at hsame
      | false =>
        have hid : table.hasId rule.id.text = true :=
          (hsettled hvalid).resolve_left (by simp [hpresent])
        have hown : draft.id ≠ none := by
          intro hnone
          have hgiven : rule.id = fresh := congrArg (·.getD fresh) hnone
          rw [hgiven, hfresh.1 hnone] at hid
          cases hid
        -- a later draft has added the row, and overwrites whatever is readable in its place
        have hrefused : next = table := importRule_of_hasId hvalid hpresent hid
        have hlastName : last.hasName rule.name = true := hasName_iff.2 ⟨row, hrow, hname⟩
        rcases exists_of_hasName hnext hlastName with hnextName | ⟨d, hd, hdvalid, hdname⟩
        · rw [hrefused, hpresent] at hnextName
          cases hnextName
        · have hcreated : ∃ d, RuleRow.ofRule { rule with id := held.id } = .ofRule d := ⟨_, rfl⟩
          refine (RuleRow.overwriteAll_congr hcreated (hlast row hrow) hrowId.symm hname.symm ?_
            (by simp [hread]) ⟨d, hd, hdvalid, hdname⟩).trans hrest
          have hwrittenShallow : RuleDefinition.Shallow { rule with id := held.id } :=
            (RuleDefinition.shallow_with (draft.finish default) held.id draft.enabled).2
              (hshallow draft List.mem_cons_self hown)
          exact read?_ofRule_ne_none hwrittenShallow
    · have hfirst : RuleRow.ofRule rule ∈ next.rows := by
        show _ ∈ (table.importRule rule).rows
        rw [hrows]
        exact List.mem_cons_self
      obtain ⟨hsame, hid⟩ := hbecomes _ hfirst rfl
      have hsameId : rule.id = held.id := Identifier.text_injective (hid.trans hrowId)
      rwa [← hsameId]

/-- After its import the import of a draft adds no row, whatever identifier it gets. -/
theorem settled_finish (hwritten : table.Written) {draft : RuleDraft} {fresh : Identifier}
    (hfresh : draft.id = none → table.hasId fresh.text = false) (other : Identifier) :
    (table.importRule (draft.finish fresh)).Settled (draft.finish other) := by
  cases hid : draft.id with
  | some id =>
    have hsame : draft.finish other = draft.finish fresh := by
      simp only [RuleDraft.finish, hid, Option.getD_some]
    rw [hsame]
    exact settled_importRule hwritten (draft.finish fresh)
  | none =>
    have hgiven : (draft.finish fresh).id = fresh := congrArg (·.getD fresh) hid
    rcases rows_importRule hwritten (draft.finish fresh) with ⟨hsettled, -⟩ | ⟨-, -, -, hrows⟩
    · -- the identifier was not in use, so it is the name that is there
      refine Settled.of_keys (fun hvalid => .inl ?_) (keys_importRule hwritten _)
      rcases hsettled hvalid with hname | htaken
      · exact hname
      · rw [hgiven, hfresh hid] at htaken
        cases htaken
    · intro _
      refine .inl (hasName_iff.2 ⟨.ofRule (draft.finish fresh), ?_, rfl⟩)
      rw [hrows]
      exact List.mem_cons_self

/-- So it is after a pass for any of its drafts. -/
theorem settled_of_mem (hwritten : table.Written) (hfresh : table.GetsFresh pass)
    {draft : RuleDraft} (hdraft : draft ∈ pass.map (·.1)) (other : Identifier) :
    (table.importAll (finishAll pass)).Settled (draft.finish other) := by
  induction pass generalizing table with
  | nil => cases hdraft
  | cons e rest ih =>
    have hnext := written_importRule hwritten (e.1.finish e.2)
    rcases List.mem_cons.1 hdraft with rfl | hdraft
    · exact (settled_finish hwritten hfresh.1 other).of_keys (keys_importAll hnext (finishAll rest))
    · exact ih hnext hfresh.2 hdraft

/-- Imports that add no rows overwrite the rows. -/
theorem rows_importAll (hwritten : table.Written)
    (hsettled : ∀ e ∈ pass, table.Settled (e.1.finish e.2)) :
    (table.importAll (finishAll pass)).rows = table.rows.map (overwriteAll (pass.map (·.1))) := by
  induction pass generalizing table with
  | nil => exact (List.map_id' _).symm
  | cons e rest ih =>
    have hnext := written_importRule hwritten (e.1.finish e.2)
    have hkeys := keys_importRule hwritten (e.1.finish e.2)
    have hrows := rows_importRule_of_settled hwritten (hsettled e List.mem_cons_self)
    refine (ih hnext fun other hother => ?_).trans ?_
    · exact (hsettled other (List.mem_cons_of_mem e hother)).of_keys hkeys
    · rw [hrows, List.map_map]
      rfl

/-- Import rules into a table that requests led to, one by one, whether they succeed or not. Rules
without an identifier get one that is not in use, and those with one nest at most 127 lists and
objects in their stored form, which is the limit of the reader of stored texts. Then importing the
same rules again changes nothing, whatever identifiers they get now. Rows are never removed and keep
their keys, however deep the rules nest. -/
theorem importAll_again {requests : List RuleRequest} {first second : List (RuleDraft × Identifier)}
    (hsame : second.map (·.1) = first.map (·.1))
    (hfresh : (RuleRequest.runAll requests .empty).1.GetsFresh first)
    (hshallow : ∀ draft ∈ first.map (·.1), draft.id ≠ none → (draft.finish default).Shallow) :
    let table := (RuleRequest.runAll requests .empty).1
    let once := table.importAll (finishAll first)
    once.importAll (finishAll second) = once ∧
      ∀ rules, (table.rows.map RuleRow.keys) <:+ (table.importAll rules).rows.map RuleRow.keys := by
  intro table once
  have hwritten : table.Written := RuleRequest.written_runAll requests
  have honce : once.Written := written_importAll hwritten (finishAll first)
  refine ⟨eq_of_rows ?_, keys_importAll hwritten⟩
  have hsettled : ∀ e ∈ second, once.Settled (e.1.finish e.2) := by
    intro e he
    refine settled_of_mem hwritten hfresh ?_ e.2
    rw [← hsame]
    exact List.mem_map_of_mem he
  rw [rows_importAll honce hsettled, hsame]
  refine (List.map_congr_left fun row hrow => ?_).trans (List.map_id' _)
  exact overwriteAll_of_mem hwritten hfresh hshallow hrow

/-- A rule that strikes a chime. -/
def chimeDraft (id : Option Identifier) (name : String) : RuleDraft :=
  { id, name, actions := [{ type := "chime" }] }

/-- Of two rules for a chime the first one is refused, because a bell has its identifier. When they
are imported again with other identifiers, the first one is accepted, and then overwritten by the
second one as before. -/
theorem importAll_again_chimes :
    let table := (RuleRequest.runAll
      [.create ((chimeDraft none "Bell").finish { value := 11 })] .empty).1
    let drafts := [chimeDraft (some { value := 11 }) "Chime", chimeDraft none "Chime"]
    let once := table.importAll (finishAll (drafts.zip [{ value := 12 }, { value := 13 }]))
    once.rows.length = 2 ∧
      once.importAll (finishAll (drafts.zip [{ value := 14 }, { value := 15 }])) = once := by
  intro table drafts once
  have hfresh : table.GetsFresh (drafts.zip [{ value := 12 }, { value := 13 }]) := by
    refine ⟨nofun, fun _ => ?_, trivial⟩
    decide +kernel
  have hshallow : ∀ draft ∈ drafts, draft.id ≠ none → (draft.finish default).Shallow := by
    intro draft hdraft _
    rcases List.mem_pair.1 hdraft with rfl | rfl
    · decide +kernel
    · decide +kernel
  have hsame : (drafts.zip [({ value := 14 } : Identifier), { value := 15 }]).map (·.1) =
      (drafts.zip [({ value := 12 } : Identifier), { value := 13 }]).map (·.1) :=
    rfl
  obtain ⟨hagain, -⟩ := importAll_again hsame hfresh hshallow
  exact ⟨by decide +kernel, hagain⟩

/-! ### Rules that are too deep -/

open Json
open RuleDefinition (note noteDocument checkInvariants_note ofJson?_noteDocument)

/-- Tables within each other, all under the same name. -/
def tower : Nat → Json
  | 0 => .bool true
  | n + 1 => .object [("a", tower n)]

theorem toList_render_tower (n : Nat) :
    (tower n).render.toList =
      (List.replicate n ['\x7b', '"', 'a', '"', ':']).flatten ++
        (['t', 'r', 'u', 'e'] ++ List.replicate n '\x7d') := by
  induction n with
  | zero => rfl
  | succ n ih =>
    have hname : (quoted "a").toList = ['"', 'a', '"'] := by decide +kernel
    rw [tower, toList_render_object, toList_renderFields_singleton, ih, hname, List.replicate_succ,
      List.replicate_succ' (a := '\x7d')]
    simp

/-- The steps from a table down to another one. -/
def steps (n : Nat) : List Char :=
  (List.replicate n ['.', 'a']).flatten

/-- A rule file that nests deeper than a stored text may: it sets a parameter to 124 tables within
each other, by a key in the table of a header. -/
def deepFile : String :=
  String.ofList (("id = \"00000000-0000-0000-0000-000000000007\"\nname = \"Note\"\n" ++
    "[trigger]\ntype = \"always\"\n[[actions]]\ntype = \"log\"\n" ++
    "[actions.params.message").toList ++ steps 62 ++ "]\na".toList ++ steps 61 ++
    " = true\n".toList)

theorem read?_deepFile : Toml.read? deepFile = some (noteDocument (tower 124)) := by
  unfold Toml.read? deepFile
  rw [String.toList_ofList]
  decide +kernel

/-- The rule of the file. -/
def deepRule : RuleDefinition :=
  note (.ofJson (tower 124))

/-- The same as a draft with an identifier of its own. -/
def deepDraft : RuleDraft :=
  { id := some deepRule.id, name := deepRule.name, actions := deepRule.actions }

theorem ofText?_deepFile (fresh : Identifier) :
    RuleFile.ofText? fresh deepFile = some (deepDraft.finish fresh) := by
  rw [RuleFile.ofText?, read?_deepFile]
  exact ofJson?_noteDocument fresh _ (tower 124)

/-- The rule of the file under another identifier. -/
def deepNote (id : Identifier) : RuleDefinition :=
  { deepRule with id }

/-- Its row is not read. -/
theorem unreadable_of_deepNote : (RuleRow.ofRule (deepNote { value := 13 })).read? = none := by
  have hmessage : (ParamSource.ofJson (tower 124)).toJson = tower 124 := by decide +kernel
  have hdocument : (deepNote { value := 13 }).toJson =
      .object [("id", .string (Identifier.mk 13 (by decide)).text), ("name", .string "Note"),
        ("enabled", .bool true), ("exclusive", .bool false),
        ("trigger", .object [("type", .string "always")]),
        ("actions", .array [.object [("type", .string "log"),
          ("params", .object [("message", (ParamSource.ofJson (tower 124)).toJson)])]])] :=
    rfl
  rw [← Option.isNone_iff_eq_none]
  simp only [RuleRow.read?, RuleRow.ofRule, RuleDefinition.ofStoredText?, Json.read?,
    Selection.read?, RuleDefinition.storedText, hdocument, hmessage, render, renderItems,
    renderFields, String.toList_append, toList_quoted, toList_render_tower]
  decide +kernel

/-- A pass with the rule of the file, which needs no other identifier, and a rule of its name. -/
def notes (fresh : Identifier) : List (RuleDraft × Identifier) :=
  [(deepDraft, default), (chimeDraft none "Note", fresh)]

theorem importAll_notes (table : RuleTable) (fresh : Identifier) :
    table.importAll (finishAll (notes fresh)) =
      (table.importRule deepRule).importRule ((chimeDraft none "Note").finish fresh) :=
  rfl

theorem getsFresh_notes {fresh : Identifier}
    (h : (table.importRule deepRule).hasId fresh.text = false) : table.GetsFresh (notes fresh) :=
  ⟨fun hnone => absurd hnone (Option.some_ne_none _), fun _ => h, trivial⟩

theorem checkInvariants_deepRule : deepRule.checkInvariants = .ok () :=
  checkInvariants_note _

theorem checkInvariants_chimeDraft (fresh : Identifier) :
    ((chimeDraft none "Note").finish fresh).checkInvariants = .ok () := by
  have hname : Text.isBlank "Note" = false := by decide +kernel
  simp [RuleDefinition.checkInvariants, RuleDraft.finish, chimeDraft, hname]

/-- If the other rule is there, the rule of the file is written over it. -/
theorem rows_importRule_deepRule (hwritten : table.Written) {id : Identifier}
    (hrow : .ofRule ((chimeDraft none "Note").finish id) ∈ table.rows) :
    (table.importRule deepRule).rows = replaceRow (.ofRule (deepNote id)) table.rows := by
  let other := (chimeDraft none "Note").finish id
  have hshallow : other.Shallow :=
    (RuleDefinition.shallow_with ((chimeDraft none "Note").finish default) id true).2
      (by decide +kernel)
  have hid : other.settle.reread.id = id := rfl
  have hrows := rows_importRule_of_held checkInvariants_deepRule hwritten hrow rfl
    (RuleRow.read?_ofRule_settle hshallow)
  rwa [hid] at hrows

/-- A rule with the identifier of the rule of the file. -/
def doorbell : RuleDefinition :=
  (chimeDraft none "Bell").finish deepRule.id

/-- A table with this rule. -/
def belled : RuleTable :=
  (RuleRequest.runAll [.create doorbell] .empty).1

theorem rows_belled : belled.rows = [.ofRule doorbell] := by
  decide +kernel

/-- The identifier of the rule of the file is in use, but not its name. -/
theorem importRule_deepRule_belled : belled.importRule deepRule = belled :=
  importRule_of_hasId checkInvariants_deepRule (by decide +kernel) (by decide +kernel)

/-- So the other rule of the pass is added. -/
theorem rows_importAll_notes_belled :
    (belled.importAll (finishAll (notes { value := 13 }))).rows =
      [.ofRule ((chimeDraft none "Note").finish { value := 13 }), .ofRule doorbell] := by
  rw [importAll_notes, importRule_deepRule_belled, ← rows_belled]
  exact rows_importRule_of_free (checkInvariants_chimeDraft _) (by decide +kernel)
    (by decide +kernel)

/-- Then the rule of the file is written over the other one. -/
theorem rows_importRule_deepRule_again :
    ((belled.importAll (finishAll (notes { value := 13 }))).importRule deepRule).rows =
      [.ofRule (deepNote { value := 13 }), .ofRule doorbell] := by
  have hwritten : (belled.importAll (finishAll (notes { value := 13 }))).Written :=
    written_importAll (RuleRequest.written_runAll _) _
  have hrows := rows_importAll_notes_belled
  have hadded : .ofRule ((chimeDraft none "Note").finish { value := 13 }) ∈
      (belled.importAll (finishAll (notes { value := 13 }))).rows := by
    rw [hrows]
    exact List.mem_cons_self
  have hown : (RuleRow.ofRule ((chimeDraft none "Note").finish { value := 13 })).id =
      (RuleRow.ofRule (deepNote { value := 13 })).id := rfl
  have hother : (RuleRow.ofRule doorbell).id ≠ (RuleRow.ofRule (deepNote { value := 13 })).id := by
    decide +kernel
  rw [rows_importRule_deepRule hwritten hadded, hrows, replaceRow, List.map_cons, List.map_cons,
    List.map_nil, if_pos hown, if_neg hother]

/-- The rule of the file is refused first, because a bell has its identifier, and another rule of
its name is added. When both are imported again, the rule of the file is written over this one, and
then the row cannot be read any more. -/
theorem importAll_ne_of_deepFile :
    let once := belled.importAll (finishAll (notes { value := 13 }))
    let twice := once.importAll (finishAll (notes { value := 15 }))
    (∀ fresh, RuleFile.ofText? fresh deepFile = some (deepDraft.finish fresh)) ∧
      belled.GetsFresh (notes { value := 13 }) ∧ once.GetsFresh (notes { value := 15 }) ∧
      twice.rows ≠ once.rows ∧ (∀ row ∈ once.rows, row.read? ≠ none) ∧
      ∃ row ∈ twice.rows, row.read? = none := by
  intro once twice
  have honce := rows_importAll_notes_belled
  have hlast := rows_importRule_deepRule_again
  have hwritten : .ofRule (deepNote { value := 13 }) ∈ (once.importRule deepRule).rows := by
    rw [hlast]
    exact List.mem_cons_self
  -- the other rule of the second pass meets a row that is not read
  have htwice : twice = once.importRule deepRule :=
    (importAll_notes once _).trans <| importRule_of_unreadable (checkInvariants_chimeDraft _)
      hwritten rfl unreadable_of_deepNote
  rw [← htwice] at hwritten
  have hreadable : ∀ row ∈ once.rows, row.read? ≠ none := by
    have hadded : ((chimeDraft none "Note").finish { value := 13 }).Shallow := by decide +kernel
    have hdoorbell : doorbell.Shallow := by decide +kernel
    intro row hrow
    rw [honce] at hrow
    rcases List.mem_pair.1 hrow with rfl | rfl
    · exact read?_ofRule_ne_none hadded
    · exact read?_ofRule_ne_none hdoorbell
  refine ⟨ofText?_deepFile, getsFresh_notes ?_, getsFresh_notes ?_, fun hsame => ?_, hreadable,
    ⟨_, hwritten, unreadable_of_deepNote⟩⟩
  · rw [importRule_deepRule_belled]
    decide +kernel
  · rw [hasId, hlast]
    decide +kernel
  · exact hreadable _ (hsame ▸ hwritten) unreadable_of_deepNote

end RuleTable

end Reflex

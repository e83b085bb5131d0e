import Reflex.Proofs.RuleTable.Content
import Reflex.Proofs.RuleTable.Interleaving
import Reflex.Proofs.RuleTable.Rows

/-!
# Requests One After the Other

Two requests at the same time end as they would one after the other, unless one of them changes the
rule that the other one has looked up. Nothing keeps the rule between the two calls of a request, so
the other one then goes on with what it has: it may write back a rule that has changed since, or add
a rule whose name has been taken since. A removal in between does no harm.

## Main definitions

- `Reflex.RuleRequest.OvertakenBy`: a request changes what another one has looked up.
- `Reflex.RuleRequest.Anomalous`: two requests may end as neither order of them does.

## Main statements

- `Reflex.RuleRequest.overtaken_cases`: what becomes of a request with another one between its
  calls.
- `Reflex.RuleRequest.serial_of_interleaving`: all outcomes of two requests at the same time.
- `Reflex.RuleRequest.exists_anomalous`: requests that are overtaken, and what is lost by it.
-/

namespace Reflex

namespace Procedure

variable {α β : Type} {p : Procedure α} {q : Procedure β} {table : RuleTable}

/-- A procedure that is over with its look-up has run before the other one. -/
theorem overtaken_of_finish (hp : p.LookUp) {answer : Except Failure α}
    (hrest : p.rest table = .finish answer) : overtaken p q table = leftFirst p q table := by
  rw [overtaken, leftFirst, ← hp.run_rest, hrest]
  rfl

/-- A procedure that would look up the same later runs after the other one. -/
theorem overtaken_of_rest_eq (hp : p.LookUp)
    (hrest : p.rest table = p.rest (q.run table).1) : overtaken p q table = rightFirst p q table := by
  have hrun := hp.run_rest (q.run table).1
  simp only [overtaken, rightFirst, leftFirst, Outcome.swap, hrest, hrun]

/-! The orders in terms of what is left of a procedure after its look-up. -/

section Orders

variable {found later : Procedure α}

theorem leftFirst_of_rest (hp : p.LookUp) (hfound : p.rest table = found) :
    leftFirst p q table = leftFirst found q table := by
  rw [leftFirst, leftFirst, ← hfound, hp.run_rest]

theorem rightFirst_of_rest (hp : p.LookUp) (hlater : p.rest (q.run table).1 = later) :
    rightFirst p q table = rightFirst later q table := by
  have hrun := hp.run_rest (q.run table).1
  simp only [rightFirst, leftFirst, ← hlater, hrun]

theorem overtaken_eq_rightFirst (hfound : p.rest table = found) :
    overtaken p q table = rightFirst found q table := by
  rw [← hfound]
  rfl

/-- Outcomes with different tables are different. -/
theorem Outcome.ne_of_rows {o o' : Outcome α β} (h : o.table.rows ≠ o'.table.rows) : o ≠ o' := by
  rintro rfl
  exact h rfl

end Orders

/-- A row is removed, whether it is updated before or no longer found after it. -/
theorem overtaken_of_delete (hp : p.LookUp) {rule : RuleDefinition} {f : RuleDefinition → α} {b : β}
    (hrest : p.rest table = (updateRow rule).map f)
    (hq : ∀ t, q.run t = (t.delete rule.id.text, .ok b)) (hid : table.hasId rule.id.text = true)
    (hname : ∀ other ∈ table.rows, other.name = rule.name → other.id = rule.id.text) :
    overtaken p q table = leftFirst p q table := by
  have habsent : (table.delete rule.id.text).hasId rule.id.text = false := by
    simp [RuleTable.delete, RuleTable.hasId]
  have hpresent : table.hasId (RuleRow.ofRule rule).id = true := hid
  obtain ⟨changed, hupdate, hrows⟩ := RuleTable.exists_update hpresent hname
  have hsame : changed.delete rule.id.text = table.delete rule.id.text := by
    apply RuleTable.eq_of_rows
    show changed.rows.filter _ = table.rows.filter _
    rw [hrows]
    exact RuleTable.filter_replaceRow (.ofRule rule) table.rows
  have hlate : (updateRow rule).run (table.delete rule.id.text) =
      (table.delete rule.id.text, .ok rule) :=
    run_change_ok (RuleTable.update_of_absent habsent)
  have hearly : (updateRow rule).run table = (changed, .ok rule) := run_change_ok hupdate
  rw [overtaken, leftFirst, ← hp.run_rest, hrest]
  simp only [hq, run_map, hlate, hearly, hsame]

end Procedure

namespace RuleRequest

open Procedure

/-- Whether a request, run between the calls of another one, changes what the other one has looked
up, so that the other one goes on with a rule that is out of date. -/
inductive OvertakenBy : RuleRequest → RuleRequest → RuleTable → Prop where
  /-- The rule that is enabled or disabled changes, in more than this, and is not removed. -/
  | rewritten {id enabled request table held} (hheld : table.findById id = .ok (some held))
      (hpresent : (request.procedure.run table).1.findById id ≠ .ok none)
      (hchanged : ∀ flag, (request.procedure.run table).1.findById id ≠
        .ok (some { held with enabled := flag })) :
      OvertakenBy (.setEnabled id enabled) request table
  /-- The rule that is replaced by an imported one loses its name, and is not removed. -/
  | renamed {rule request table held} (hvalid : rule.checkInvariants = .ok ())
      (hheld : table.findByName rule.name = .ok (some held))
      (hpresent : (request.procedure.run table).1.findById held.id ≠ .ok none)
      (hchanged : ∀ other, (request.procedure.run table).1.findByName rule.name =
        .ok (some other) → other.id ≠ held.id) :
      OvertakenBy (.importRule rule) request table
  /-- The name of an imported rule is taken. -/
  | taken {rule request table} (hvalid : rule.checkInvariants = .ok ())
      (hfree : table.findByName rule.name = .ok none)
      (htaken : (request.procedure.run table).1.findByName rule.name ≠ .ok none) :
      OvertakenBy (.importRule rule) request table

/-! ## What follows a look-up -/

section Rest

variable {table : RuleTable} {id : Identifier} {rule : RuleDefinition} {found : Option RuleDefinition}

/-- Enabling or disabling the rule that was found. -/
def afterFindById (id : Identifier) (enabled : Bool) :
    Option RuleDefinition → Procedure RuleDefinition
  | some held => updateRow { held with enabled }
  | none => fail (.notFound { entity := "Rule", id := id.text })

/-- Replacing the rule that was found, or adding a rule. -/
def afterFindByName (rule : RuleDefinition) : Option RuleDefinition → Procedure RuleDefinition
  | some held => updateRow { rule with id := held.id }
  | none => insertRow rule

theorem rest_setEnabled (h : table.findById id = .ok found) (enabled : Bool) :
    (setEnabled id enabled).procedure.rest table = (afterFindById id enabled found).map some := by
  rw [procedure, rest_map, Procedure.setEnabled, withRule, rest_query_ok h]
  cases found <;> rfl

theorem procedure_importRule (hvalid : rule.checkInvariants = .ok ()) :
    (importRule rule).procedure =
      (query (fun table => table.findByName rule.name) (afterFindByName rule)).map some := by
  rw [procedure, Procedure.importRule, Procedure.checked, hvalid]
  rfl

theorem rest_importRule (hvalid : rule.checkInvariants = .ok ())
    (h : table.findByName rule.name = .ok found) :
    (importRule rule).procedure.rest table = (afterFindByName rule found).map some := by
  rw [procedure_importRule hvalid, rest_map, rest_query_ok h]

end Rest

/-! ## Requests that are overtaken -/

section Cases

variable {table : RuleTable} {a b : RuleRequest}

/-- Only its removal takes an identifier out of the table. -/
theorem eq_delete_of_hasId {id : Identifier} (hid : table.hasId id.text = true)
    (hremoved : (b.procedure.run table).1.hasId id.text = false) : b = .delete id := by
  by_contra hother
  have hkept : (b.procedure.run table).1.hasId id.text = true := hasId_procedure hother table hid
  rw [hremoved] at hkept
  cases hkept

/-- If the rule that a request has looked up is removed before it is updated, the request ends as it
would before the removal. -/
theorem overtaken_of_removed (hp : a.procedure.LookUp) {rule : RuleDefinition}
    (hrest : a.procedure.rest table = (updateRow rule).map some) {row : RuleRow}
    (hrow : row ∈ table.rows) (hid : row.id = rule.id.text) (hname : row.name = rule.name)
    (hremoved : (b.procedure.run table).1.findById rule.id = .ok none) :
    overtaken a.procedure b.procedure table = leftFirst a.procedure b.procedure table := by
  have hpresent : table.hasId rule.id.text = true := RuleTable.hasId_iff.2 ⟨row, hrow, hid⟩
  obtain rfl : b = .delete rule.id :=
    eq_delete_of_hasId hpresent (RuleTable.findById_eq_none.1 hremoved)
  refine overtaken_of_delete hp hrest (fun _ => rfl) hpresent fun other hother h => ?_
  rw [RuleTable.eq_of_key hother hrow (.inr (h.trans hname.symm)), hid]

/-- A rule is enabled or disabled before or after another request, or the request is overtaken. -/
theorem overtaken_setEnabled (hwritten : table.Written) (id : Identifier) (enabled : Bool)
    (b : RuleRequest) :
    let p := (setEnabled id enabled).procedure
    overtaken p b.procedure table = leftFirst p b.procedure table ∨
      overtaken p b.procedure table = rightFirst p b.procedure table ∨
        (setEnabled id enabled).OvertakenBy b table := by
  intro p
  have hlook : p.LookUp := lookUp_setEnabled id enabled
  cases hfind : table.findById id with
  | error fault =>
    left
    have hrest : p.rest table = .finish (.error (.storage fault)) := by
      show ((Procedure.setEnabled id enabled).map some).rest table = _
      rw [rest_map, Procedure.setEnabled, withRule, rest_query_error hfind]
      rfl
    exact overtaken_of_finish hlook hrest
  | ok found =>
    cases found with
    | none => exact .inl (overtaken_of_finish hlook (rest_setEnabled hfind enabled))
    | some held =>
      obtain ⟨row, hrow, hrowId, hread⟩ := RuleTable.findById_eq_some.1 hfind
      obtain ⟨hid, hname⟩ := hwritten.keys_of_read? hrow hread
      obtain rfl : held.id = id := Identifier.text_injective (hid.symm.trans hrowId)
      by_cases hremoved : (b.procedure.run table).1.findById held.id = .ok none
      · exact .inl (overtaken_of_removed hlook (rest_setEnabled hfind enabled) hrow hid hname
          hremoved)
      · by_cases hflag : ∃ flag, (b.procedure.run table).1.findById held.id =
            .ok (some { held with enabled := flag })
        · -- the flag that was found is not written back
          obtain ⟨flag, hflag⟩ := hflag
          right
          left
          apply overtaken_of_rest_eq hlook
          rw [rest_setEnabled hfind, rest_setEnabled hflag]
          rfl
        · exact .inr (.inr (.rewritten hfind hremoved (not_exists.1 hflag)))

/-- A rule is imported before or after another request, or the request is overtaken. -/
theorem overtaken_importRule (hwritten : table.Written) {rule : RuleDefinition}
    (hvalid : rule.checkInvariants = .ok ()) (b : RuleRequest) :
    let p := (importRule rule).procedure
    overtaken p b.procedure table = leftFirst p b.procedure table ∨
      overtaken p b.procedure table = rightFirst p b.procedure table ∨
        (importRule rule).OvertakenBy b table := by
  intro p
  have hlook : p.LookUp := lookUp_importRule hvalid
  cases hfind : table.findByName rule.name with
  | error fault =>
    left
    have hrest : p.rest table = .finish (.error (.storage fault)) := by
      show (importRule rule).procedure.rest table = _
      rw [procedure_importRule hvalid, rest_map, rest_query_error hfind]
      rfl
    exact overtaken_of_finish hlook hrest
  | ok found =>
    cases found with
    | none =>
      by_cases hfree : (b.procedure.run table).1.findByName rule.name = .ok none
      · right
        left
        apply overtaken_of_rest_eq hlook
        rw [rest_importRule hvalid hfind, rest_importRule hvalid hfree]
      · exact .inr (.inr (.taken hvalid hfind hfree))
    | some held =>
      obtain ⟨row, hrow, hrowName, hread⟩ := RuleTable.findByName_eq_some.1 hfind
      obtain ⟨hid, -⟩ := hwritten.keys_of_read? hrow hread
      by_cases hremoved : (b.procedure.run table).1.findById held.id = .ok none
      · exact .inl (overtaken_of_removed hlook (rest_importRule hvalid hfind) hrow hid hrowName
          hremoved)
      · by_cases hsame : ∃ other, (b.procedure.run table).1.findByName rule.name =
            .ok (some other) ∧ other.id = held.id
        · -- only the identifier that was found is used
          obtain ⟨other, hother, hotherId⟩ := hsame
          right
          left
          apply overtaken_of_rest_eq hlook
          rw [rest_importRule hvalid hfind, rest_importRule hvalid hother, afterFindByName,
            afterFindByName, hotherId]
        · refine .inr (.inr (.renamed hvalid hfind hremoved ?_))
          intro other hother hotherId
          exact hsame ⟨other, hother, hotherId⟩

/-- A request with another one between its two calls ends as one of the two orders does, or it is
overtaken. -/
theorem overtaken_cases (hwritten : table.Written) (ha : ¬ a.procedure.Single) (b : RuleRequest) :
    overtaken a.procedure b.procedure table = leftFirst a.procedure b.procedure table ∨
      overtaken a.procedure b.procedure table = rightFirst a.procedure b.procedure table ∨
        a.OvertakenBy b table := by
  cases a with
  | create rule => exact absurd (single_create rule) ha
  | update rule => exact absurd (single_update rule) ha
  | delete id => exact absurd (single_delete id) ha
  | setEnabled id enabled => exact overtaken_setEnabled hwritten id enabled b
  | importRule rule =>
    cases hvalid : rule.checkInvariants with
    | error cause => exact absurd (single_importRule hvalid) ha
    | ok => exact overtaken_importRule hwritten hvalid b

end Cases

/-- Two requests at the same time, in a table that requests led to, end as they do one after the
other. Only a request that is overtaken by the other one may end otherwise: it goes on with what it
looked up before the other one ran. -/
theorem serial_of_interleaving {requests : List RuleRequest} {a b : RuleRequest}
    {o : Outcome (Option RuleDefinition) (Option RuleDefinition)}
    (h : Interleaving a.procedure b.procedure (runAll requests .empty).1 o) :
    let table := (runAll requests .empty).1
    o = leftFirst a.procedure b.procedure table ∨ o = rightFirst a.procedure b.procedure table ∨
      a.OvertakenBy b table ∧ o = overtaken a.procedure b.procedure table ∨
        b.OvertakenBy a table ∧ o = (overtaken b.procedure a.procedure table).swap := by
  intro table
  have hwritten : table.Written := written_runAll requests
  rcases h.outcomes a.brief_procedure b.brief_procedure with h | h | ⟨ha, h⟩ | ⟨hb, h⟩
  · exact .inl h
  · exact .inr (.inl h)
  · rcases overtaken_cases hwritten ha b with hserial | hserial | hovertaken
    · exact .inl (h.trans hserial)
    · exact .inr (.inl (h.trans hserial))
    · exact .inr (.inr (.inl ⟨hovertaken, h⟩))
  · rcases overtaken_cases hwritten hb a with hserial | hserial | hovertaken
    · exact .inr (.inl (h.trans (congrArg Outcome.swap hserial)))
    · exact .inl (h.trans (congrArg Outcome.swap hserial))
    · exact .inr (.inr (.inr ⟨hovertaken, h⟩))

/-! ## Examples -/

/-- A rule that strikes a chime. -/
def chime (id : Identifier) (name : String) (exclusive : Bool) : RuleDefinition :=
  { id, name, exclusive, trigger := .always, actions := [{ type := "chime" }] }

/-- It is read back from its row if its text is. -/
theorem read?_chime {id : Identifier} {name : String} {exclusive : Bool}
    (htext : Json.read? (chime id name exclusive).storedText =
      some (chime id name exclusive).toJson) :
    (RuleRow.ofRule (chime id name exclusive)).read? = some (chime id name exclusive) := by
  apply RuleRow.read?_ofRule _ htext
  intro a ha name source hsource
  obtain rfl := List.mem_singleton.1 ha
  cases hsource

/-- The identifier of the first chime. -/
def firstId : Identifier := { value := 10 }

/-- The identifier of the second chime. -/
def secondId : Identifier := { value := 20 }

/-- The table with one chime. -/
def chimeTable : RuleTable :=
  (runAll [.create (chime firstId "Chime" false)] .empty).1

theorem rows_chimeTable : chimeTable.rows = [.ofRule (chime firstId "Chime" false)] := by
  decide +kernel

theorem findById_chimeTable :
    chimeTable.findById firstId = .ok (some (chime firstId "Chime" false)) := by
  refine RuleTable.findById_eq_some.2 ⟨_, ?_, rfl, read?_chime (by decide +kernel)⟩
  rw [rows_chimeTable]
  exact List.mem_singleton.2 rfl

/-- The chime is removed while it is being disabled. This ends as if it was disabled first, and not
as if there was nothing to be disabled. -/
theorem serial_of_removed_chime :
    let p := (setEnabled firstId false).procedure
    let q := (delete firstId).procedure
    ∃ o, Interleaving p q chimeTable o ∧ o = leftFirst p q chimeTable ∧
      o ≠ rightFirst p q chimeTable := by
  intro p q
  have hlook : p.LookUp := lookUp_setEnabled firstId false
  have hremoved : (q.run chimeTable).1.findById firstId = .ok none :=
    RuleTable.findById_eq_none.2 (by decide +kernel)
  have hleft : (overtaken p q chimeTable).left.isOk = true := by
    rw [overtaken_eq_rightFirst (rest_setEnabled findById_chimeTable false)]
    decide +kernel
  have hright : (rightFirst p q chimeTable).left.isOk = false := by
    rw [rightFirst_of_rest hlook (rest_setEnabled hremoved false)]
    decide +kernel
  have hne : overtaken p q chimeTable ≠ rightFirst p q chimeTable := by
    intro h
    rw [h, hright] at hleft
    cases hleft
  have h := interleaving_overtaken hlook q chimeTable
  refine ⟨_, h, ?_, hne⟩
  rcases serial_of_interleaving h with h | h | ⟨h, -⟩ | ⟨h, -⟩
  · exact h
  · exact absurd h hne
  · cases h with
    | rewritten hheld hpresent hchanged => exact absurd hremoved hpresent
  · cases h

/-! ### What is lost -/

/-- Whether two requests at the same time may end as neither order of them does. -/
def Anomalous (a b : RuleRequest) (table : RuleTable) : Prop :=
  ∃ o, Interleaving a.procedure b.procedure table o ∧
    o ≠ leftFirst a.procedure b.procedure table ∧ o ≠ rightFirst a.procedure b.procedure table

/-- Two requests may end as neither order does if what follows the look-up of one of them, made
after the other one, is different from both. -/
theorem anomalous_of_rest {a b : RuleRequest} {table : RuleTable}
    {found later : Procedure (Option RuleDefinition)} (hlook : a.procedure.LookUp)
    (hfound : a.procedure.rest table = found)
    (hlater : a.procedure.rest (b.procedure.run table).1 = later)
    (hleft : rightFirst found b.procedure table ≠ leftFirst found b.procedure table)
    (hright : rightFirst found b.procedure table ≠ rightFirst later b.procedure table) :
    Anomalous a b table := by
  refine ⟨_, interleaving_overtaken hlook b.procedure table, ?_, ?_⟩
  · rwa [overtaken_eq_rightFirst hfound, leftFirst_of_rest hlook hfound]
  · rwa [overtaken_eq_rightFirst hfound, rightFirst_of_rest hlook hlater]

/-- Disabling the chime undoes an update that was made meanwhile. -/
theorem anomalous_of_rewritten :
    Anomalous (setEnabled firstId false) (update (chime firstId "Chime" true)) chimeTable := by
  have hlater : ((update (chime firstId "Chime" true)).procedure.run chimeTable).1.findById
      firstId = .ok (some (chime firstId "Chime" true)) := by
    refine RuleTable.findById_eq_some.2 ⟨_, ?_, rfl, read?_chime (by decide +kernel)⟩
    decide +kernel
  apply anomalous_of_rest (lookUp_setEnabled firstId false)
    (rest_setEnabled findById_chimeTable false) (rest_setEnabled hlater false)
  · apply Outcome.ne_of_rows
    decide +kernel
  · apply Outcome.ne_of_rows
    decide +kernel

/-- Importing a chime of the same name undoes a change of the name that was made meanwhile. -/
theorem anomalous_of_renamed :
    Anomalous (importRule (chime secondId "Chime" true)) (update (chime firstId "Bell" false))
      chimeTable := by
  have hfound : chimeTable.findByName "Chime" = .ok (some (chime firstId "Chime" false)) := by
    obtain ⟨row, hrow, -, hread⟩ := RuleTable.findById_eq_some.1 findById_chimeTable
    refine RuleTable.findByName_eq_some.2 ⟨row, hrow, ?_, hread⟩
    rw [rows_chimeTable, List.mem_singleton] at hrow
    rw [hrow]
    rfl
  have hlater : ((update (chime firstId "Bell" false)).procedure.run chimeTable).1.findByName
      "Chime" = .ok none :=
    RuleTable.findByName_eq_none.2 (by decide +kernel)
  have hvalid : (chime secondId "Chime" true).checkInvariants = .ok () := by decide +kernel
  apply anomalous_of_rest (lookUp_importRule hvalid) (rest_importRule hvalid hfound)
    (rest_importRule hvalid hlater)
  · apply Outcome.ne_of_rows
    decide +kernel
  · apply Outcome.ne_of_rows
    decide +kernel

/-- Importing a chime is refused if another one of the same name is added meanwhile. -/
theorem anomalous_of_taken :
    Anomalous (importRule (chime firstId "Chime" false)) (create (chime secondId "Chime" true))
      .empty := by
  have hlater : ((create (chime secondId "Chime" true)).procedure.run .empty).1.findByName
      "Chime" = .ok (some (chime secondId "Chime" true)) := by
    refine RuleTable.findByName_eq_some.2 ⟨_, ?_, rfl, read?_chime (by decide +kernel)⟩
    decide +kernel
  have hvalid : (chime firstId "Chime" false).checkInvariants = .ok () := by decide +kernel
  apply anomalous_of_rest (lookUp_importRule hvalid)
    (rest_importRule hvalid (RuleTable.findByName_eq_none.2 (by decide +kernel)))
    (rest_importRule hvalid hlater)
  · apply Outcome.ne_of_rows
    decide +kernel
  · apply Outcome.ne_of_rows
    decide +kernel

/-- Nothing keeps two requests apart. While a chime is being disabled it may be updated, and what is
stored then is the disabled chime from before the update, although both requests succeed. An import
may undo a change of a name, and it may be refused for a name that was taken meanwhile. -/
theorem exists_anomalous :
    (∃ o, Interleaving (setEnabled firstId false).procedure
        (update (chime firstId "Chime" true)).procedure chimeTable o ∧
      o.left.isOk = true ∧ o.right.isOk = true ∧
      o.table.rows = [.ofRule { chime firstId "Chime" false with enabled := false }]) ∧
    Anomalous (setEnabled firstId false) (update (chime firstId "Chime" true)) chimeTable ∧
    Anomalous (importRule (chime secondId "Chime" true)) (update (chime firstId "Bell" false))
      chimeTable ∧
    Anomalous (importRule (chime firstId "Chime" false)) (create (chime secondId "Chime" true))
      .empty := by
  refine ⟨⟨_, interleaving_overtaken (lookUp_setEnabled firstId false) _ chimeTable, ?_⟩,
    anomalous_of_rewritten, anomalous_of_renamed, anomalous_of_taken⟩
  rw [overtaken_eq_rightFirst (rest_setEnabled findById_chimeTable false)]
  decide +kernel

end RuleRequest

end Reflex

import Reflex.Failure
import Reflex.Rule

/-!
# The Table of Stored Rules

Rules are stored as rows. A row holds the text of the rule, and beside it the identifier, the
name and the flag for enabled rules in columns of their own. Identifiers and names are unique.

## Main definitions

- `Reflex.RuleRow`, `Reflex.RuleRow.ofRule`, `Reflex.RuleRow.read?`: rows and the rules in them.
- `Reflex.RuleTable`: rows that are distinct in both keys.
- `Reflex.RuleTable.insert`, `Reflex.RuleTable.update`, `Reflex.RuleTable.delete`: changes.
- `Reflex.RuleTable.findById`, `Reflex.RuleTable.findByName`, `Reflex.RuleTable.all`,
  `Reflex.RuleTable.allEnabled`: queries.
-/

namespace Reflex

/-- A stored rule. -/
structure RuleRow where
  /-- The identifier as text. -/
  id : String
  /-- The name. -/
  name : String
  /-- Whether the rule is enabled, as a number; zero means no. -/
  enabled : Int
  /-- The text of the rule. -/
  definition : String
  deriving DecidableEq

namespace RuleRow

/-- The row under which a rule is stored. -/
def ofRule (d : RuleDefinition) : RuleRow :=
  { id := d.id.text, name := d.name, enabled := if d.enabled then 1 else 0
    definition := d.storedText }

/-- The rule of a row. Its identifier and its flag come from their columns. -/
def read? (row : RuleRow) : Option RuleDefinition := do
  let id ← Identifier.read? row.id
  let rule ← RuleDefinition.ofStoredText? id row.definition
  return { rule with id, enabled := row.enabled ≠ 0 }

/-- The rule of a row, which must be readable. -/
def read (row : RuleRow) : Except StorageFault RuleDefinition :=
  match row.read? with
  | some rule => .ok rule
  | none => .error .unreadable

/-- Whether two rows differ in both keys. -/
def Distinct (a b : RuleRow) : Prop :=
  a.id ≠ b.id ∧ a.name ≠ b.name

end RuleRow

/-- The stored rules: rows that are pairwise distinct in both keys. -/
structure RuleTable where
  /-- The rows. -/
  rows : List RuleRow
  /-- Identifiers and names are unique. -/
  distinct : rows.Pairwise RuleRow.Distinct

namespace RuleTable

/-- The table without rows. -/
def empty : RuleTable := ⟨[], .nil⟩

instance : Inhabited RuleTable := ⟨empty⟩

variable (table : RuleTable)

/-- Whether a row has the name. -/
def hasName (name : String) : Bool :=
  table.rows.any fun r => r.name == name

/-- Whether a row has the identifier. -/
def hasId (id : String) : Bool :=
  table.rows.any fun r => r.id == id

/-- Add a row. Of two clashes the one of the name is reported. -/
def insert (row : RuleRow) : Except StorageFault RuleTable :=
  if hname : table.hasName row.name then .error .nameTaken
  else if hid : table.hasId row.id then .error .idTaken
  else .ok ⟨row :: table.rows, List.pairwise_cons.2 ⟨fun r hr => by
    simp only [hasName, hasId, List.any_eq_true, beq_iff_eq, not_exists, not_and] at hname hid
    exact ⟨fun h => hid r hr h.symm, fun h => hname r hr h.symm⟩, table.distinct⟩⟩

/-- Whether the name belongs to a row with another identifier. -/
def nameClashes (row : RuleRow) : Bool :=
  table.rows.any fun r => r.name == row.name && r.id != row.id

/-- The rows with one of them in place of the row that has its identifier. -/
def replaceRow (row : RuleRow) (rows : List RuleRow) : List RuleRow :=
  rows.map fun r => if r.id = row.id then row else r

/-- Putting a row into the place of the one with its identifier keeps rows distinct, if its name
is free. -/
theorem pairwise_replaceRow {row : RuleRow} {rows : List RuleRow}
    (hd : rows.Pairwise RuleRow.Distinct)
    (hn : ∀ r ∈ rows, r.name = row.name → r.id = row.id) :
    (replaceRow row rows).Pairwise RuleRow.Distinct := by
  induction rows with
  | nil => exact .nil
  | cons x rest ih =>
    have hx := List.pairwise_cons.1 hd
    refine List.pairwise_cons.2 ⟨fun y hy => ?_, ih hx.2 fun r hr => hn r (by simp [hr])⟩
    obtain ⟨z, hz, rfl⟩ := List.mem_map.1 hy
    have hxz := hx.1 z hz
    have hxn := hn x (by simp)
    have hzn := hn z (by simp [hz])
    by_cases h₁ : x.id = row.id <;> by_cases h₂ : z.id = row.id
    · exact absurd (h₁.trans h₂.symm) hxz.1
    · simp only [h₁, h₂, if_true, if_false]
      exact ⟨fun h => h₂ h.symm, fun h => h₂ (hzn h.symm)⟩
    · simp only [h₁, h₂, if_true, if_false]
      exact ⟨h₁, fun h => h₁ (hxn h)⟩
    · simpa only [h₁, h₂, if_false] using hxz

/-- Put a row in place of the one that has its identifier. Without one nothing changes. -/
def update (row : RuleRow) : Except StorageFault RuleTable :=
  if !table.hasId row.id then .ok table
  else if hclash : table.nameClashes row then .error .nameTaken
  else .ok ⟨replaceRow row table.rows, pairwise_replaceRow table.distinct fun r hr hname => by
    simp only [nameClashes, List.any_eq_true, Bool.and_eq_true, beq_iff_eq, bne_iff_ne,
      not_exists, not_and, Decidable.not_not] at hclash
    exact hclash r hr hname⟩

/-- Remove the row with an identifier. -/
def delete (id : String) : RuleTable :=
  ⟨table.rows.filter fun r => r.id != id, table.distinct.filter _⟩

/-- The row with an identifier. -/
def rowById? (id : String) : Option RuleRow :=
  table.rows.find? fun r => r.id == id

/-- The row with a name. -/
def rowByName? (name : String) : Option RuleRow :=
  table.rows.find? fun r => r.name == name

/-- The rule in a row, if there is a row. -/
def readRow? : Option RuleRow → Except StorageFault (Option RuleDefinition)
  | some row => row.read.map some
  | none => .ok none

/-- The rule with an identifier. -/
def findById (id : Identifier) : Except StorageFault (Option RuleDefinition) :=
  readRow? (table.rowById? id.text)

/-- The rule with a name. -/
def findByName (name : String) : Except StorageFault (Option RuleDefinition) :=
  readRow? (table.rowByName? name)

/-- Rows in the order of their names. -/
def byName (rows : List RuleRow) : List RuleRow :=
  rows.mergeSort fun a b => a.name ≤ b.name

/-- All rules in the order of their names, if every row is readable. -/
def all : Except StorageFault (List RuleDefinition) :=
  (byName table.rows).mapM RuleRow.read

/-- The rules whose column for enabled rules holds a one, in the order of their names, if every
row of them is readable. -/
def allEnabled : Except StorageFault (List RuleDefinition) :=
  (byName (table.rows.filter fun r => r.enabled == 1)).mapM RuleRow.read

end RuleTable

end Reflex

import Reflex.ActionError
import Reflex.Activity
import Reflex.Builtin.Catalog
import Reflex.Builtin.Performance
import Reflex.Builtin.Source
import Reflex.Calendar
import Reflex.Catalog
import Reflex.Catalog.Document
import Reflex.Configuration
import Reflex.Dict
import Reflex.Dispatch
import Reflex.Duration
import Reflex.Engine
import Reflex.Event
import Reflex.Failure
import Reflex.FileEntry
import Reflex.Identifier
import Reflex.Inspection
import Reflex.Json
import Reflex.Json.Field
import Reflex.Json.Reader
import Reflex.Json.Record
import Reflex.Json.Selection
import Reflex.Mailbox
import Reflex.Main
import Reflex.Number.Decimal
import Reflex.Number.Double
import Reflex.Number.Hexadecimal
import Reflex.Number.Word
import Reflex.Proofs.Activity
import Reflex.Proofs.Builtin.Catalog
import Reflex.Proofs.Builtin.Performance
import Reflex.Proofs.Builtin.Source
import Reflex.Proofs.Builtin.Summary
import Reflex.Proofs.Daemon
import Reflex.Proofs.Dispatch
import Reflex.Proofs.Engine
import Reflex.Proofs.Engine.Edits
import Reflex.Proofs.Engine.Frame
import Reflex.Proofs.Except
import Reflex.Proofs.Identifier
import Reflex.Proofs.Json
import Reflex.Proofs.Json.Double
import Reflex.Proofs.Json.Number
import Reflex.Proofs.Json.Text
import Reflex.Proofs.Number.Decimal
import Reflex.Proofs.Number.Double
import Reflex.Proofs.Number.Nearest
import Reflex.Proofs.Number.Numeral
import Reflex.Proofs.Number.Rounding
import Reflex.Proofs.Number.Shortest
import Reflex.Proofs.Property.Integer
import Reflex.Proofs.Property.Validation
import Reflex.Proofs.PropertyStore
import Reflex.Proofs.PropertyStore.Batches
import Reflex.Proofs.PropertyStore.Seeding
import Reflex.Proofs.PropertyStore.Writes
import Reflex.Proofs.Rule.Acceptance
import Reflex.Proofs.Rule.Binding
import Reflex.Proofs.Rule.Codec
import Reflex.Proofs.Rule.Nesting
import Reflex.Proofs.Rule.Parameters
import Reflex.Proofs.Rule.Resolution
import Reflex.Proofs.Rule.Storage
import Reflex.Proofs.RuleMap
import Reflex.Proofs.RuleTable.Acknowledgement
import Reflex.Proofs.RuleTable.Content
import Reflex.Proofs.RuleTable.Cycles
import Reflex.Proofs.RuleTable.Enabled
import Reflex.Proofs.RuleTable.Interleaving
import Reflex.Proofs.RuleTable.Keys
import Reflex.Proofs.RuleTable.Listing
import Reflex.Proofs.RuleTable.Refinement
import Reflex.Proofs.RuleTable.Reimport
import Reflex.Proofs.RuleTable.Reload
import Reflex.Proofs.RuleTable.Request
import Reflex.Proofs.RuleTable.Rows
import Reflex.Proofs.RuleTable.Serial
import Reflex.Proofs.Scheduler.Accounting
import Reflex.Proofs.Scheduler.Calls
import Reflex.Proofs.Scheduler.Exclusive
import Reflex.Proofs.Scheduler.Faithful
import Reflex.Proofs.Scheduler.Handover
import Reflex.Proofs.Scheduler.Lane
import Reflex.Proofs.Scheduler.Order
import Reflex.Proofs.Scheduler.Passage
import Reflex.Proofs.Scheduler.Rest
import Reflex.Proofs.Scheduler.Run
import Reflex.Proofs.Scheduler.Scope
import Reflex.Proofs.Scheduler.Shutdown
import Reflex.Proofs.Scheduler.Turns
import Reflex.Proofs.Template
import Reflex.Proofs.Text.ByteOrder
import Reflex.Proofs.TimeOfDay
import Reflex.Proofs.Trigger.Acceptance
import Reflex.Proofs.Trigger.Codec
import Reflex.Proofs.Trigger.Complement
import Reflex.Proofs.Trigger.Fields
import Reflex.Proofs.Trigger.Information
import Reflex.Proofs.Trigger.Kleene
import Reflex.Proofs.Trigger.Locality
import Reflex.Proofs.Trigger.Membership
import Reflex.Proofs.Trigger.Order
import Reflex.Proofs.Trigger.Soundness
import Reflex.Proofs.Value.Codec
import Reflex.Proofs.Value.Order
import Reflex.Property
import Reflex.Property.Validation
import Reflex.Property.Widget
import Reflex.PropertyStore
import Reflex.Rehearsal.Script
import Reflex.Rehearsal.Solo
import Reflex.Rehearsal.Stage
import Reflex.Report
import Reflex.Rule
import Reflex.Rule.Compilation
import Reflex.Rule.Resolution
import Reflex.RuleFile
import Reflex.RuleService
import Reflex.RuleTable
import Reflex.RuleTable.Procedure
import Reflex.Scheduler
import Reflex.Text.Blank
import Reflex.Text.Hidden
import Reflex.Text.Quoted
import Reflex.Text.Scan
import Reflex.TimeOfDay
import Reflex.Toml.Line
import Reflex.Toml.Moment
import Reflex.Toml.Number
import Reflex.Toml.Quoted
import Reflex.Toml.Reader
import Reflex.Toml.Table
import Reflex.Trigger
import Reflex.Trigger.Condition
import Reflex.Trigger.Evaluation
import Reflex.Value
import Reflex.Value.Tagged

import StepWeave.Context.Keys
import StepWeave.Display
import StepWeave.Document
import StepWeave.Execution
import StepWeave.Json
import StepWeave.Main
import StepWeave.Outline
import StepWeave.Proofs.Execution.Events
import StepWeave.Proofs.Registry.Runnable
import StepWeave.Proofs.Run.Abort
import StepWeave.Timestamp
import StepWeave.Proofs.Registry.Inventory
import StepWeave.Proofs.Registry.Reference
import StepWeave.Proofs.Run.Log
import StepWeave.Proofs.Run.Origin
import StepWeave.Proofs.Run.Finish
import StepWeave.Proofs.Execution.Stop
import StepWeave.Proofs.Execution.Passive
import StepWeave.Proofs.Blueprint.Link
import StepWeave.Proofs.Blueprint.Check
import StepWeave.Proofs.Blueprint.Inlining
import StepWeave.Proofs.Execution.Registered
import StepWeave.Proofs.Catalog
import StepWeave.Proofs.Blueprint.Register
import StepWeave.Proofs.Document
import StepWeave.Proofs.Toolbox
import StepWeave.Proofs.Document.Order
import StepWeave.Proofs.Plan.Contents
import StepWeave.Proofs.Run.Text
import StepWeave.Proofs.Run.Containment
import StepWeave.Proofs.Document.Safety
import StepWeave.Proofs.Command.Report
import StepWeave.Proofs.Weave.Layout
import StepWeave.Proofs.Weave.Slots
import StepWeave.Proofs.Plan.Acceptance
import StepWeave.Proofs.Weave.Extension
import StepWeave.Proofs.Hook.Reading
import StepWeave.Proofs.Plan.Declaration
import StepWeave.Proofs.Plan.Stretch
import StepWeave.Proofs.Hook.Forms
import StepWeave.Proofs.Hook.Locate
import StepWeave.Proofs.Execution.Sequence
import StepWeave.Proofs.Context
import StepWeave.Proofs.Progress
import StepWeave.Proofs.Execution.Cutoff
import StepWeave.Proofs.Run.Writes
import StepWeave.Proofs.Toolbox.Catalog
import StepWeave.Proofs.Command.Assignment
import StepWeave.Proofs.Run.Response
import StepWeave.Proofs.Document.Markup

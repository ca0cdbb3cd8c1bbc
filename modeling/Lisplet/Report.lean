import Lisplet.Failure

/-!
# Reports

What a user is shown: one report for each diagnostic, or a single report for any
other failure.
-/

namespace Lisplet

/-- The weight of a report. -/
inductive ReportSeverity where
  | advice
  | error
deriving DecidableEq, Repr

/-- The word for the weight of a report. -/
def ReportSeverity.name : ReportSeverity → String
  | advice => "advice"
  | error => "error"

/-- Something to show to a user. -/
structure Report where
  text : String
  code : Option String := none
  severity : Option ReportSeverity := none
  help : Option String := none
  labels : List Label := []
  /-- Whether the report is about places in a source. -/
  hasSource : Bool := false
deriving DecidableEq, Repr

/-- The report of a diagnostic. Those that end the work on a program say so. -/
def Diagnostic.report (diagnostic : Diagnostic) : Report where
  text :=
    if diagnostic.severity.isFatal then s!"{diagnostic.severity.name}: {diagnostic.message}"
    else diagnostic.message
  code := diagnostic.code.map Code.name
  severity := some (if diagnostic.severity.isInfo then .advice else .error)
  help := diagnostic.help
  labels := diagnostic.labels
  hasSource := true

/-- The reports of a failure. -/
def Failure.reports (failure : Failure) : List Report :=
  match failure with
  | rejected rejection _ => rejection.diagnostics.map Diagnostic.report
  | file _ => [{ text := failure.message, code := some "lc::io" }]
  | evaluation _ => [{ text := failure.message, code := some "lc::eval" }]
  | config _ => [{ text := failure.message, code := some "lc::config" }]
  | noTarget => [{ text := failure.message, code := some "lc::internal" }]

end Lisplet

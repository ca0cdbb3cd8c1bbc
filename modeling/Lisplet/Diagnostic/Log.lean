import Lisplet.Diagnostic.Basic

/-!
# Logs of diagnostics

A log keeps diagnostics in the order in which they were made, and a flag that is
set once one of them is not mere advice. A log whose flag is set closes as a
rejection. `Log.Flagged` says that the flag is right; it holds of an empty log and
of every log that diagnostics are added to one after another.
-/

namespace Lisplet

/-- The diagnostics made about one program, oldest first. -/
structure Log where
  entries : List Diagnostic := []
  /-- Whether a diagnostic was added that is not mere advice. -/
  hasErrors : Bool := false
deriving DecidableEq, Repr

/-- The diagnostics of a program that is rejected. -/
structure Rejection where
  diagnostics : List Diagnostic
deriving DecidableEq, Repr

namespace Rejection

/-- The findings that are not mere advice. -/
def errors (rejection : Rejection) : List Diagnostic :=
  rejection.diagnostics.filter fun diagnostic => diagnostic.severity.isError

/-- The number of findings that are not mere advice. -/
def errorCount (rejection : Rejection) : Nat :=
  rejection.errors.length

/-- The first finding that is not mere advice, and how many more there are. -/
def message (rejection : Rejection) : String :=
  match rejection.errors with
  | [] => ""
  | [only] => only.headline
  | first :: others => s!"{first.headline} (+{others.length} more)"

end Rejection

namespace Log

/-- Add a diagnostic at the end of a log. -/
def emit (log : Log) (diagnostic : Diagnostic) : Log :=
  let flagged := if diagnostic.severity.isError then { log with hasErrors := true } else log
  { flagged with entries := flagged.entries ++ [diagnostic] }

@[simp] theorem entries_emit (log : Log) (diagnostic : Diagnostic) :
    (log.emit diagnostic).entries = log.entries ++ [diagnostic] := by
  unfold emit
  split <;> rfl

@[simp] theorem hasErrors_emit (log : Log) (diagnostic : Diagnostic) :
    (log.emit diagnostic).hasErrors = (diagnostic.severity.isError || log.hasErrors) := by
  unfold emit
  cases diagnostic.severity.isError <;> rfl

/-- Diagnostics added one after another stand at the end of a log in their order. -/
theorem entries_foldl_emit (diagnostics : List Diagnostic) (log : Log) :
    (diagnostics.foldl emit log).entries = log.entries ++ diagnostics := by
  induction diagnostics generalizing log with
  | nil => rw [List.foldl_nil, List.append_nil]
  | cons first rest inductionHypothesis =>
    rw [List.foldl_cons, inductionHypothesis, entries_emit, List.append_assoc,
      List.singleton_append]

/-- Whether the flag of a log is set exactly if some entry is not mere advice. -/
def Flagged (log : Log) : Prop :=
  log.hasErrors = true ↔ ∃ diagnostic ∈ log.entries, diagnostic.severity ≠ .info

theorem flagged_empty : ({} : Log).Flagged := by
  simp [Flagged]

/-- The flag of a log stays right when a diagnostic is added. -/
theorem Flagged.emit {log : Log} (flagged : log.Flagged) (diagnostic : Diagnostic) :
    (log.emit diagnostic).Flagged := by
  unfold Flagged at flagged ⊢
  rw [hasErrors_emit, Bool.or_eq_true, Severity.isError_iff, flagged, entries_emit]
  constructor
  · rintro (severe | ⟨earlier, member, severe⟩)
    · exact ⟨diagnostic, List.mem_append_right _ List.mem_cons_self, severe⟩
    · exact ⟨earlier, List.mem_append_left _ member, severe⟩
  · rintro ⟨entry, member, severe⟩
    rcases List.mem_append.1 member with earlier | new
    · exact .inr ⟨entry, earlier, severe⟩
    · cases List.mem_singleton.1 new
      exact .inl severe

/-- The flag of a log stays right when diagnostics are added one after another. -/
theorem Flagged.foldl_emit {log : Log} (flagged : log.Flagged) (diagnostics : List Diagnostic) :
    (diagnostics.foldl Log.emit log).Flagged := by
  induction diagnostics generalizing log with
  | nil => exact flagged
  | cons first rest inductionHypothesis => exact inductionHypothesis (flagged.emit first)

/-- Add a finding that is not in the catalogue. A place is labelled with the
name of the phase. -/
def register (log : Log) (phase : Phase) (message : String) (severity : Severity)
    (place : Option Span) : Log :=
  log.emit {
    severity
    message
    explicitPhase := some phase
    labels := place.toList.map fun span => Label.primary span phase.name }

/-- Close a log: its entries if the flag is not set, else a rejection that holds all
of them. -/
def finish (log : Log) : Except Rejection (List Diagnostic) :=
  if log.hasErrors then .error ⟨log.entries⟩ else .ok log.entries

end Log

end Lisplet

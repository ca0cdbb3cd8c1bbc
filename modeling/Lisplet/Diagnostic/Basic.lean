import Lisplet.Span

/-!
# Diagnostics

A diagnostic tells the author of a program about one finding: how severe it is,
which catalogued finding it is, where it was made, and what to do about it.
-/

namespace Lisplet

/-- How severe a finding is, from advice to a defect of the compiler. -/
inductive Severity where
  | info
  | error
  | fatal
  | internalError
deriving DecidableEq, Repr

namespace Severity

/-- All severities, mildest first. -/
def all : List Severity :=
  [info, error, fatal, internalError]

/-- The word a severity is shown as. -/
def name : Severity → String
  | info => "info"
  | error => "error"
  | fatal => "fatal"
  | internalError => "internal error"

/-- The severity shown as the given word. -/
def ofName? (word : String) : Option Severity :=
  all.find? fun severity => severity.name == word

/-- Whether a severity is mere advice. -/
def isInfo (severity : Severity) : Bool :=
  severity == info

/-- Whether a program with such a finding is rejected. -/
def isError (severity : Severity) : Bool :=
  !severity.isInfo

/-- Everything but advice is an error. -/
theorem isError_iff {severity : Severity} : severity.isError = true ↔ severity ≠ .info := by
  simp [isError, isInfo]

/-- Whether such a finding ends the work on a program. -/
def isFatal (severity : Severity) : Bool :=
  severity == fatal || severity == internalError

end Severity

/-- The part of the work on a program that made a finding. -/
inductive Phase where
  | padding
  | scanning
  | balancing
  | parsing
  | desugaring
  | lowering
deriving DecidableEq, Repr

namespace Phase

/-- All phases, in the order in which they run. -/
def all : List Phase :=
  [padding, scanning, balancing, parsing, desugaring, lowering]

/-- The word a phase is shown as. -/
def name : Phase → String
  | padding => "preproc"
  | scanning => "tok"
  | balancing => "balance"
  | parsing => "parse"
  | desugaring => "desugar"
  | lowering => "lower"

/-- The phase shown as the given word. -/
def ofName? (word : String) : Option Phase :=
  all.find? fun phase => phase.name == word

end Phase

/-- The catalogue of findings. -/
inductive Code where
  | unterminatedString
  | unrecognizedToken
  | integerOutOfRange
  | unbalancedParens
  | unexpectedTopLevel
  | incompleteInput
  | unexpectedToken
  | malformedVariable
  | malformedFunction
  | missingOperands
  | ignoredOperands
  | malformedPrototype
  | unboundName
  | unknownFunction
  | argumentMismatch
  | stringValue
  | listValue
  | nestedFunction
  | argumentWithoutValue
  | redefinition
  | reservedName
  | unwritableOutput
  | foreignName
  | builderFailure
deriving DecidableEq, Repr

namespace Code

/-- All catalogued findings, in the order of their numbers. -/
def all : List Code :=
  [unterminatedString, unrecognizedToken, integerOutOfRange, unbalancedParens, unexpectedTopLevel,
    incompleteInput, unexpectedToken, malformedVariable, malformedFunction, missingOperands,
    ignoredOperands, malformedPrototype, unboundName, unknownFunction, argumentMismatch,
    stringValue, listValue, nestedFunction, argumentWithoutValue, redefinition, reservedName,
    unwritableOutput, foreignName, builderFailure]

/-- The number a finding is catalogued under. -/
def name : Code → String
  | unterminatedString => "E001"
  | unrecognizedToken => "E002"
  | integerOutOfRange => "E003"
  | unbalancedParens => "E100"
  | unexpectedTopLevel => "E101"
  | incompleteInput => "E102"
  | unexpectedToken => "E103"
  | malformedVariable => "E200"
  | malformedFunction => "E201"
  | missingOperands => "E202"
  | ignoredOperands => "E203"
  | malformedPrototype => "E204"
  | unboundName => "E300"
  | unknownFunction => "E301"
  | argumentMismatch => "E302"
  | stringValue => "E303"
  | listValue => "E304"
  | nestedFunction => "E305"
  | argumentWithoutValue => "E306"
  | redefinition => "E307"
  | reservedName => "E308"
  | unwritableOutput => "E309"
  | foreignName => "E310"
  | builderFailure => "E900"

/-- The finding catalogued under the given number. -/
def ofName? (word : String) : Option Code :=
  all.find? fun code => code.name == word

/-- The phase that makes a catalogued finding. -/
def phase : Code → Phase
  | unterminatedString | unrecognizedToken | integerOutOfRange => .scanning
  | unbalancedParens => .balancing
  | unexpectedTopLevel | incompleteInput | unexpectedToken => .parsing
  | malformedVariable | malformedFunction | missingOperands | ignoredOperands
  | malformedPrototype => .desugaring
  | unboundName | unknownFunction | argumentMismatch | stringValue | listValue | nestedFunction
  | argumentWithoutValue | redefinition | reservedName | unwritableOutput | foreignName
  | builderFailure => .lowering

end Code

/-- A remark on a place in the source. The primary labels of a diagnostic mark
the finding itself, the others what it relates to. -/
structure Label where
  span : Span
  message : String
  isPrimary : Bool
deriving DecidableEq, Repr

namespace Label

/-- A label that marks the finding itself. -/
def primary (span : Span) (message : String) : Label :=
  ⟨span, message, true⟩

/-- A label that marks what the finding relates to. -/
def secondary (span : Span) (message : String) : Label :=
  ⟨span, message, false⟩

end Label

/-- One finding about a program. -/
structure Diagnostic where
  severity : Severity
  message : String
  code : Option Code := none
  /-- The phase, where it does not follow from the code. -/
  explicitPhase : Option Phase := none
  labels : List Label := []
  help : Option String := none
deriving DecidableEq, Repr

namespace Diagnostic

/-- The phase that made the finding, if it is known. -/
def phase (diagnostic : Diagnostic) : Option Phase :=
  diagnostic.explicitPhase.or (diagnostic.code.map Code.phase)

/-- The finding in one line: severity, number and message. -/
def headline (diagnostic : Diagnostic) : String :=
  match diagnostic.code with
  | some code => s!"{diagnostic.severity.name}[{code.name}]: {diagnostic.message}"
  | none => s!"{diagnostic.severity.name}: {diagnostic.message}"

end Diagnostic

end Lisplet

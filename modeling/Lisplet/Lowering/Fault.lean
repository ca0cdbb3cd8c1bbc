import Lisplet.Diagnostic.Basic
import Lisplet.Target.Builder

/-!
# Findings of lowering

What is wrong with a program whose tree is well formed. Lowering goes on after
each of these findings, so that it reports as many as it can.
-/

namespace Lisplet

/-- Why a part of a program has no code. -/
inductive LoweringFault where
  | unboundName (name : String) (span : Span)
  | foreignName (name owner : String) (span : Span)
  | unknownFunction (callee : Located String)
  | argumentMismatch (callee : String) (got expected : Nat) (span : Span)
  | stringValue (span : Span)
  | listValue (span : Span)
  | nestedFunction (name : String) (span : Span)
  | argumentWithoutValue (position : Nat) (argument : Span) (callee : Located String)
  | redefinition (name : Located String) (first : Span)
  | reservedName (name : Located String)
deriving DecidableEq, Repr

/-- The catalogue entry of a finding. -/
def LoweringFault.code : LoweringFault → Code
  | unboundName _ _ => .unboundName
  | foreignName _ _ _ => .foreignName
  | unknownFunction _ => .unknownFunction
  | argumentMismatch _ _ _ _ => .argumentMismatch
  | stringValue _ => .stringValue
  | listValue _ => .listValue
  | nestedFunction _ _ => .nestedFunction
  | argumentWithoutValue _ _ _ => .argumentWithoutValue
  | redefinition _ _ => .redefinition
  | reservedName _ => .reservedName

/-- The message for a finding. -/
def LoweringFault.message : LoweringFault → String
  | unboundName name _ => s!"could not find named value '{name}'"
  | foreignName name owner _ =>
    s!"named value '{name}' was computed inside function '{owner}' and cannot be used here"
  | unknownFunction callee => s!"could not find function '{callee.value}' at time of reference"
  | argumentMismatch callee got expected _ =>
    s!"argument mismatch for '{callee}'. got {got} arguments, expected {expected}."
  | stringValue _ => "string literal cannot be used as a value"
  | listValue _ => "list has no meaning here"
  | nestedFunction name _ => s!"function '{name}' must be defined at top level"
  | argumentWithoutValue position _ callee =>
    s!"failed to generate argument {position} of call to '{callee.value}'"
  | redefinition name _ => s!"redefinition of function '{name.value}'"
  | reservedName name => s!"function name '{name.value}' is reserved for the entry point"

/-- The places a finding is about. -/
def LoweringFault.labels : LoweringFault → List Label
  | unboundName _ span => [.primary span "not bound here"]
  | foreignName _ _ span => [.primary span "used outside its function"]
  | unknownFunction callee => [.primary callee.span "not defined in this module"]
  | argumentMismatch _ got _ span => [.primary span s!"called with {got} arguments"]
  | stringValue span => [.primary span "only numbers have values"]
  | listValue span => [.primary span "not a call or special form"]
  | nestedFunction _ span => [.primary span "nested function definition"]
  | argumentWithoutValue _ argument callee =>
    [.primary argument "this argument has no value", .secondary callee.span "in this call"]
  | redefinition name first =>
    [.primary name.span "defined again here", .secondary first "first defined here"]
  | reservedName name => [.primary name.span "reserved name"]

/-- What can be done about a finding. -/
def LoweringFault.help? : LoweringFault → Option String
  | unboundName name _ =>
    some s!"bind it with `(defvar {name} ...)` before use, or add it to the prototype"
  | foreignName name _ _ =>
    some s!"pass the value as an argument, or bind '{name}' to a constant"
  | unknownFunction callee => some s!"define it with `(defun ({callee.value} ...) ...)`"
  | argumentMismatch _ _ _ _ => none
  | stringValue _ => none
  | listValue _ => some "a list must start with the name of a function or special form"
  | nestedFunction _ _ => some "move the definition out of the enclosing form"
  | argumentWithoutValue _ _ _ => none
  | redefinition _ _ => some "rename one of the functions"
  | reservedName _ => some "choose a different function name"

/-- The diagnostic for a finding. -/
def LoweringFault.diagnostic (fault : LoweringFault) : Diagnostic where
  severity := .error
  message := fault.message
  code := some fault.code
  labels := fault.labels
  help := fault.help?

/-- A refusal of the builder while the code for a part of a program is made, and the findings
until then, oldest first. -/
structure BuilderFailure where
  error : BuilderError
  span : Span
  faults : List LoweringFault
deriving DecidableEq, Repr

/-- The diagnostic for a refusal of the builder. -/
def BuilderFailure.diagnostic (failure : BuilderFailure) : Diagnostic where
  severity := .internalError
  message := s!"instruction builder failed: {failure.error.message}"
  code := some .builderFailure
  labels := [.primary failure.span "while generating this expression"]

end Lisplet

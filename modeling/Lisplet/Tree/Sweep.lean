import Lisplet.Diagnostic.Basic
import Lisplet.Tree.Basic

/-!
# Sweeps

A list whose first item is an identifier stands for something: arithmetic, the
definition of a variable or a function, or a call. A sweep replaces all such
lists of a module, from the outside in.

Arithmetic takes two operands. Further ones are ignored, with a note, and are
not looked at. The first malformed list that a sweep meets ends it with a
`DesugarFault`; the notes made before remain.
-/

namespace Lisplet

/-- Operands beyond the second of an arithmetic list, which are ignored. -/
structure IgnoredOperands where
  head : String
  span : Span
deriving DecidableEq, Repr

/-- The diagnostic for ignored operands. -/
def IgnoredOperands.diagnostic (note : IgnoredOperands) : Diagnostic where
  severity := .info
  message := s!"`{note.head}` takes exactly 2 operands; extra operands are ignored"
  code := some .ignoredOperands
  labels := [.primary note.span "ignored"]
  help := some s!"nest the operation, e.g. `({note.head} a ({note.head} b c))`"

/-- Why a list is malformed. -/
inductive DesugarFault where
  | missingOperands (head : String) (count : Nat) (span : Span)
  | variableArguments (count : Nat) (span : Span)
  | variableName (found : String) (span : Span)
  | functionArguments (count : Nat) (span : Span)
  | prototypeNotList (found : String) (span : Span)
  | prototypeItem (found : String) (item prototype : Span)
  | prototypeEmpty (span : Span)
deriving DecidableEq, Repr

/-- The diagnostic for a malformed list. -/
def DesugarFault.diagnostic : DesugarFault → Diagnostic
  | missingOperands head count span => {
      severity := .fatal
      message := s!"`{head}` expects 2 operands, got {count}"
      code := some .missingOperands
      labels := [.primary span "missing operands"]
      help := some s!"write it as `({head} lhs rhs)`" }
  | variableArguments count span => {
      severity := .fatal
      message := s!"defvar expects a name and an initializer, got {count} arguments"
      code := some .malformedVariable
      labels := [.primary span "malformed variable definition"]
      help := some "write it as `(defvar name value)`" }
  | variableName found span => {
      severity := .fatal
      message := "defvar called with non-id as first parameter"
      code := some .malformedVariable
      labels := [.primary span s!"found {found}"]
      help := some "the variable name must be an identifier" }
  | functionArguments count span => {
      severity := .fatal
      message := s!"defun expects a prototype and a body, got {count} arguments"
      code := some .malformedFunction
      labels := [.primary span "malformed function definition"]
      help := some "write it as `(defun (name params...) body)`" }
  | prototypeNotList found span => {
      severity := .fatal
      message := "function prototype must be a list"
      code := some .malformedPrototype
      labels := [.primary span s!"found {found}"]
      help := some "write the prototype as `(name params...)`" }
  | prototypeItem found item prototype => {
      severity := .fatal
      message := "prototype sexpr must have all ID element types"
      code := some .malformedPrototype
      labels := [.primary item s!"found {found}", .secondary prototype "in this prototype"] }
  | prototypeEmpty span => {
      severity := .fatal
      message := "function prototype is empty"
      code := some .malformedPrototype
      labels := [.primary span "expected a function name"]
      help := some "write the prototype as `(name params...)`" }

/-- The result of a sweep over some nodes: the notes it made, the number of
lists it replaced, and what it arrived at. -/
structure Sweep (α : Type) where
  notes : List IgnoredOperands
  replacements : Nat
  result : Except DesugarFault α

namespace Sweep

/-- A sweep that leaves everything as it is. -/
def unchanged {α : Type} (value : α) : Sweep α :=
  ⟨[], 0, .ok value⟩

/-- A sweep that meets a malformed list. -/
def fault {α : Type} (cause : DesugarFault) : Sweep α :=
  ⟨[], 0, .error cause⟩

/-- Sweep on with the result of a sweep, unless that has met a malformed list. -/
def andThen {α β : Type} (first : Sweep α) (next : α → Sweep β) : Sweep β :=
  match first.result with
  | .error cause => ⟨first.notes, first.replacements, .error cause⟩
  | .ok value =>
    let second := next value
    ⟨first.notes ++ second.notes, first.replacements + second.replacements, second.result⟩

instance : Monad Sweep where
  pure := unchanged
  bind := andThen

/-- Make a note. -/
def note (ignored : IgnoredOperands) : Sweep Unit :=
  ⟨[ignored], 0, .ok ()⟩

/-- Count the replacement of a list. -/
def replacement : Sweep Unit :=
  ⟨[], 1, .ok ()⟩

end Sweep

/-- The names that a prototype list is made of. -/
def prototypeNames (prototype : Span) : List Expr → Except DesugarFault (List (Located String))
  | [] => .ok []
  | item :: rest =>
    match item.locatedName? with
    | none => .error (.prototypeItem item.describe item.span prototype)
    | some name =>
      match prototypeNames prototype rest with
      | .error cause => .error cause
      | .ok names => .ok (name :: names)

/-- The prototype that a node stands for. -/
def Prototype.ofExpr : Expr → Except DesugarFault Prototype
  | .list span items =>
    match prototypeNames span items with
    | .error cause => .error cause
    | .ok [] => .error (.prototypeEmpty span)
    | .ok (name :: params) => .ok ⟨name, params, span⟩
  | other => .error (.prototypeNotList other.describe other.span)

/-- The note on the operands beyond the second, if there are any. -/
def noteIgnored (head : String) : List Expr → Sweep Unit
  | [] => .unchanged ()
  | first :: others =>
    .note ⟨head, others.foldl (fun span operand => span.union operand.span) first.span⟩

/-- What the head of a list announces. -/
inductive Head where
  | arithmetic (operator : Operator)
  | variableDef
  | functionDef
  | call
deriving DecidableEq, Repr

/-- What a list with the given identifier as its first item stands for. -/
def Head.ofName (name : String) : Head :=
  match Operator.ofWord? name with
  | some operator => .arithmetic operator
  | none =>
    if name = "defvar" then .variableDef
    else if name = "defun" then .functionDef
    else .call

namespace Expr

mutual

/-- Sweep over a node and what is below it. -/
def sweep : Expr → Sweep Expr
  | identifier span name => pure (identifier span name)
  | number span value => pure (number span value)
  | text span body => pure (text span body)
  | list span [] => pure (list span [])
  | list span (first :: operands) =>
    match first.locatedName? with
    | none => do
      let first ← sweep first
      let operands ← sweepAll operands
      pure (list span (first :: operands))
    | some head =>
      match Head.ofName head.value with
      | .arithmetic operator => sweepArithmetic span operator head.value operands
      | .variableDef => sweepVariableDef span operands
      | .functionDef => sweepFunctionDef span operands
      | .call => do
        Sweep.replacement
        let arguments ← sweepAll operands
        pure (call span head arguments)
  | arithmetic span operator left right => do
    let left ← sweep left
    let right ← sweep right
    pure (arithmetic span operator left right)
  | variableDef span name initializer => do
    let initializer ← sweep initializer
    pure (variableDef span name initializer)
  | functionDef span prototype body => do
    let body ← sweep body
    pure (functionDef span prototype body)
  | call span callee arguments => do
    let arguments ← sweepAll arguments
    pure (call span callee arguments)

/-- Replace a list with the given operands by arithmetic. -/
def sweepArithmetic (span : Span) (operator : Operator) (head : String) : List Expr → Sweep Expr
  | left :: right :: ignored => do
    noteIgnored head ignored
    Sweep.replacement
    let left ← sweep left
    let right ← sweep right
    pure (arithmetic span operator left right)
  | operands => .fault (.missingOperands head operands.length span)

/-- Replace a list with the given operands by the definition of a variable. -/
def sweepVariableDef (span : Span) : List Expr → Sweep Expr
  | [nameItem, initializer] =>
    match nameItem.locatedName? with
    | none => .fault (.variableName nameItem.describe nameItem.span)
    | some name => do
      Sweep.replacement
      let initializer ← sweep initializer
      pure (variableDef span name initializer)
  | operands => .fault (.variableArguments operands.length span)

/-- Replace a list with the given operands by the definition of a function. -/
def sweepFunctionDef (span : Span) : List Expr → Sweep Expr
  | [prototypeItem, body] =>
    match Prototype.ofExpr prototypeItem with
    | .error cause => .fault cause
    | .ok prototype => do
      Sweep.replacement
      let body ← sweep body
      pure (functionDef span prototype body)
  | operands => .fault (.functionArguments operands.length span)

/-- Sweep over some nodes, one after another. -/
def sweepAll : List Expr → Sweep (List Expr)
  | [] => pure []
  | first :: others => do
    let first ← sweep first
    let others ← sweepAll others
    pure (first :: others)

end

end Expr

/-- Sweep over the forms of a module. -/
def Module.sweep (module : Module) : Sweep Module := do
  let forms ← Expr.sweepAll module.forms
  pure ⟨forms⟩

end Lisplet

import Lisplet.Lowering.Fault
import Lisplet.Lowering.Scopes
import Lisplet.Lowering.TempNames
import Lisplet.Tree.Basic

/-!
# Lowering

A desugared module becomes target code. All functions are declared first, so
that they can call each other whatever their order; then each gets its body, and
at last the remaining forms make up the entry function. A node either has a
value or a finding is recorded that says why it has none.
-/

namespace Lisplet

/-- The operation that an operator is lowered to. -/
def Operator.opcode : Operator → Opcode
  | sum => .fadd
  | mul => .fmul

/-- The state of lowering: the code made so far, what names stand for, the names
of results, and the findings, oldest first. -/
structure Generator where
  builder : Builder
  scopes : Scopes := {}
  temps : TempNames := {}
  faults : List LoweringFault := []

namespace Generator

/-- Record a finding. -/
def record (generator : Generator) (fault : LoweringFault) : Generator :=
  { generator with faults := generator.faults ++ [fault] }

/-- Record why a node has no value. -/
def refuse {α : Type} (generator : Generator) (fault : LoweringFault) :
    Except BuilderFailure (Option α × Generator) :=
  .ok (none, generator.record fault)

/-- The value of an identifier. -/
def lowerName (generator : Generator) (name : String) (span : Span) :
    Except BuilderFailure (Option Value × Generator) :=
  match generator.scopes.resolve name with
  | .value value => .ok (some value, generator)
  | .unbound => generator.refuse (.unboundName name span)
  | .foreign owner => generator.refuse (.foreignName name owner span)

/-- Have the builder do some work for a part of a program. -/
def build {α : Type} (generator : Generator) (span : Span) (work : Building α) :
    Except BuilderFailure (α × Generator) :=
  match generator.builder.carryOut work with
  | (.error error, _) => .error ⟨error, span, generator.faults⟩
  | (.ok value, builder) => .ok (value, { generator with builder })

/-- Add arithmetic on two values. -/
def emitArithmetic (generator : Generator) (span : Span) (operator : Operator)
    (left right : Value) : Except BuilderFailure (Option Value × Generator) := do
  let (dest, temps) := generator.temps.next operator.name
  let (value, generator) ← { generator with temps }.build span
    (Builder.buildArithmetic operator.opcode left right dest)
  .ok (some value, generator)

/-- Add a call. -/
def emitCall (generator : Generator) (span : Span) (callee : String) (arguments : List Value) :
    Except BuilderFailure (Option Value × Generator) := do
  let (dest, temps) := generator.temps.next "call"
  let (value, generator) ← { generator with temps }.build span
    (Builder.buildCall callee arguments dest)
  .ok (some value, generator)

/-- Add a return. -/
def emitReturn (generator : Generator) (span : Span) (value : Value) :
    Except BuilderFailure Generator := do
  let ((), generator) ← generator.build span (Builder.buildReturn value)
  .ok generator

/-- Bind a global and take its value. -/
def bindGlobal (generator : Generator) (name : String) (value : Value) :
    Option Value × Generator :=
  let scopes := generator.scopes.bindGlobal name value
  (scopes.global? name, { generator with scopes })

end Generator

namespace Expr

mutual

/-- Lower a node to code that computes its value. -/
def lower : Expr → Generator → Except BuilderFailure (Option Value × Generator)
  | number _ value, generator => .ok (some (.constant (Float.ofInt value.toInt)), generator)
  | identifier span name, generator => generator.lowerName name span
  | text span _, generator => generator.refuse (.stringValue span)
  | list span _, generator => generator.refuse (.listValue span)
  | functionDef span prototype _, generator =>
    generator.refuse (.nestedFunction prototype.name.value span)
  | arithmetic span operator left right, generator => do
    let (left, generator) ← lower left generator
    let (right, generator) ← lower right generator
    match left, right with
    | some left, some right => generator.emitArithmetic span operator left right
    | _, _ => .ok (none, generator)
  | variableDef _ name initializer, generator => do
    let (value, generator) ← lower initializer generator
    match value with
    | some value => .ok (generator.bindGlobal name.value value)
    | none => .ok (none, generator)
  | call span callee arguments, generator =>
    match generator.builder.target.function? callee.value with
    | none => generator.refuse (.unknownFunction callee)
    | some function =>
      if function.arity ≠ arguments.length then
        generator.refuse
          (.argumentMismatch callee.value arguments.length function.arity span)
      else do
        let (values, generator) ← lowerArguments callee 1 arguments generator
        match values with
        | some values => generator.emitCall span callee.value values
        | none => .ok (none, generator)

/-- Lower arguments up to the first that has no value. The first of them has the
given position. -/
def lowerArguments (callee : Located String) (position : Nat) :
    List Expr → Generator → Except BuilderFailure (Option (List Value) × Generator)
  | [], generator => .ok (some [], generator)
  | first :: others, generator => do
    let (value, generator) ← lower first generator
    match value with
    | none => generator.refuse (.argumentWithoutValue position first.span callee)
    | some value =>
      let (values, generator) ← lowerArguments callee (position + 1) others generator
      .ok (values.map (value :: ·), generator)

end

/-- The prototype and the body of a node that defines a function. -/
def functionDef? : Expr → Option (Prototype × Expr)
  | functionDef _ prototype body => some (prototype, body)
  | _ => none

end Expr

namespace Generator

/-- The label of the first block of every function. -/
def entryLabel : String := "entry"

/-- What a function returns that computes nothing. -/
def noValue : Value := .constant 0.0

/-- Declare a function. -/
def declare (generator : Generator) (prototype : Prototype) : Generator :=
  let (_, builder) := generator.builder.declareFunction prototype.name.value
    (prototype.params.map Located.value)
  { generator with builder }

/-- Turn to a function, whose parameters are those of its declaration. -/
def enter (generator : Generator) (name : String) : Generator :=
  let params := (generator.builder.currentFunction?.map Function.params).getD []
  { generator with scopes := generator.scopes.enterFunction name params }

/-- Turn away from the function at hand. -/
def leave (generator : Generator) : Generator :=
  { generator with
    scopes := generator.scopes.leaveFunction
    builder := generator.builder.clearInsertPoint }

/-- Give a declared function its body. -/
def defineFunction (generator : Generator) (prototype : Prototype) (body : Expr) :
    Except BuilderFailure Generator := do
  let declared := generator.declare prototype
  let ((), opened) ← declared.build prototype.span
    (Builder.appendBlock prototype.name.value entryLabel)
  let (value, lowered) ← body.lower (opened.enter prototype.name.value)
  let returned ← lowered.emitReturn body.span (value.getD noValue)
  .ok returned.leave

/-- Give functions their bodies. A function whose name is among the defined ones
is recorded as a redefinition. -/
def defineFunctions (defined : List (Located String)) :
    List (Prototype × Expr) → Generator → Except BuilderFailure Generator
  | [], generator => .ok generator
  | (prototype, body) :: rest, generator =>
    match defined.find? fun earlier => earlier.value == prototype.name.value with
    | some first =>
      defineFunctions defined rest (generator.record (.redefinition prototype.name first.span))
    | none => do
      let generator ← generator.defineFunction prototype body
      defineFunctions (prototype.name :: defined) rest generator

/-- Lower the forms that define no function: the value of the last that has one,
or else `last`. -/
def lowerForms (last : Option Value) :
    List Expr → Generator → Except BuilderFailure (Option Value × Generator)
  | [], generator => .ok (last, generator)
  | form :: rest, generator =>
    match form.functionDef? with
    | some _ => lowerForms last rest generator
    | none => do
      let (value, generator) ← form.lower generator
      lowerForms (value.or last) rest generator

/-- Make the entry function of the forms that define no function. -/
def defineEntry (generator : Generator) (name : String) (forms : List Expr) :
    Except BuilderFailure Generator := do
  let created := { generator with builder := generator.builder.createEntry name entryLabel }
  let entered := { created with scopes := created.scopes.enterFunction name [] }
  let (value, lowered) ← lowerForms none forms entered
  let span := (forms.getLast?.map Expr.span).getD (.point 0)
  let returned ← lowered.emitReturn span (value.getD noValue)
  .ok { returned with builder := returned.builder.clearInsertPoint }

end Generator

/-- The names that the generated module bears. -/
structure TargetNames where
  module : String := "lisp compiler"
  entry : String := "main"
deriving DecidableEq, Repr

namespace Module

/-- The functions that a module defines, in source order. -/
def functionDefs (module : Module) : List (Prototype × Expr) :=
  module.forms.filterMap Expr.functionDef?

/-- Lower a module. The name of the entry function is reserved: definitions of it
are recorded and left out. -/
def lower (module : Module) (names : TargetNames) : Except BuilderFailure Generator := do
  let (reserved, functions) := module.functionDefs.partition fun definition =>
    definition.1.name.value == names.entry
  let start : Generator := {
    builder := .new names.module
    faults := reserved.map fun definition => .reservedName definition.1.name }
  let declared := functions.foldl (fun generator definition => generator.declare definition.1) start
  let defined ← Generator.defineFunctions [] functions declared
  defined.defineEntry names.entry module.forms

end Module

end Lisplet

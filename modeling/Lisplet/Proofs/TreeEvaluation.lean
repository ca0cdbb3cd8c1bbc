import Lisplet.Lowering.Generator
import Lisplet.Target.Interpreter

/-!
# Evaluating trees

The meaning of a program, given by its tree alone. A call has an activation of its
own, which starts with the arguments of the call and with the constants that the
functions before the called one leave behind. Variables that are defined on the
way live in the activation and end with it. Nothing here knows of target code: no
operands, no results, no owners of globals.
-/

namespace Lisplet

/-- The state of one call: its arguments by the names of the parameters, and the
globals as it sees them. -/
structure Activation where
  arguments : List (String × Float)
  globals : Bindings Float

namespace Activation

/-- The argument for a parameter, the last one if parameters share the name. -/
def argument? (activation : Activation) (name : String) : Option Float :=
  activation.arguments.reverse.lookup name

/-- The number that a name stands for. Parameters come before globals. -/
def lookup? (activation : Activation) (name : String) : Option Float :=
  (activation.argument? name).or (activation.globals.get? name)

/-- Bind a global. -/
def bindGlobal (activation : Activation) (name : String) (number : Float) : Activation :=
  { activation with globals := activation.globals.bind name number }

@[simp] theorem argument?_bindGlobal (activation : Activation) (name other : String)
    (number : Float) : (activation.bindGlobal name number).argument? other =
      activation.argument? other :=
  rfl

/-- A name that is no parameter stands for the latest number it was bound to. -/
theorem lookup?_bindGlobal_self {activation : Activation} {name : String}
    (noArgument : activation.argument? name = none) (number : Float) :
    (activation.bindGlobal name number).lookup? name = some number := by
  rw [lookup?, argument?_bindGlobal, noArgument]
  exact Bindings.get?_bind_self _ _ _

/-- A parameter stands for its argument, however a global of its name is bound. -/
theorem lookup?_bindGlobal_of_argument {activation : Activation} {name : String}
    (isParam : activation.argument? name ≠ none) (number : Float) :
    (activation.bindGlobal name number).lookup? name = activation.lookup? name := by
  obtain ⟨argument, found⟩ := Option.ne_none_iff_exists'.1 isParam
  rw [lookup?, lookup?, argument?_bindGlobal, found, Option.some_or, Option.some_or]

theorem lookup?_bindGlobal_of_ne (activation : Activation) {name other : String}
    (different : other ≠ name) (number : Float) :
    (activation.bindGlobal name number).lookup? other = activation.lookup? other := by
  rw [lookup?, lookup?, argument?_bindGlobal, bindGlobal, Bindings.get?_bind_of_ne _ _ different]

end Activation

/-- The number that an operator makes of two numbers. -/
def Operator.combine : Operator → Float → Float → Float
  | sum, left, right => left + right
  | mul, left, right => left * right

namespace Expr

mutual

/-- Evaluate a node from left to right. Calls are made by `invoke`. Texts, lists and
definitions of functions are no expressions. -/
def evaluate (invoke : String → List Float → Except EvalError Float) :
    Expr → Activation → Except EvalError (Float × Activation)
  | number _ value, activation => .ok (Float.ofInt value.toInt, activation)
  | identifier _ name, activation =>
    match activation.lookup? name with
    | some value => .ok (value, activation)
    | none => .error (.unknownValue name)
  | arithmetic _ operator left right, activation => do
    let (leftValue, activation) ← evaluate invoke left activation
    let (rightValue, activation) ← evaluate invoke right activation
    .ok (operator.combine leftValue rightValue, activation)
  | variableDef _ name initializer, activation => do
    let (value, activation) ← evaluate invoke initializer activation
    .ok (value, activation.bindGlobal name.value value)
  | call _ callee arguments, activation => do
    let (values, activation) ← evaluateArguments invoke arguments activation
    let value ← invoke callee.value values
    .ok (value, activation)
  | text _ body, _ => .error (.unknownValue body)
  | list span items, _ => .error (.unknownValue (list span items).describe)
  | functionDef _ prototype _, _ => .error (.unknownValue prototype.name.value)

/-- Evaluate arguments from left to right. -/
def evaluateArguments (invoke : String → List Float → Except EvalError Float) :
    List Expr → Activation → Except EvalError (List Float × Activation)
  | [], activation => .ok ([], activation)
  | argument :: others, activation => do
    let (value, activation) ← evaluate invoke argument activation
    let (values, activation) ← evaluateArguments invoke others activation
    .ok (value :: values, activation)

end

mutual

/-- The constant that a node of a function with the given parameters stands for, if
it is one, and the constants once its variables are defined. A literal is a
constant, and so is a global that is bound to one and the definition of a variable
by one. Any other definition of a variable takes its name out of the constants. -/
def constantAfter (params : List String) : Expr → Bindings Float → Option Float × Bindings Float
  | number _ value, constants => (some (Float.ofInt value.toInt), constants)
  | identifier _ name, constants =>
    (if name ∈ params then none else constants.get? name, constants)
  | arithmetic _ _ left right, constants =>
    (none, (constantAfter params right (constantAfter params left constants).2).2)
  | variableDef _ name initializer, constants =>
    match constantAfter params initializer constants with
    | (some value, constants) => (some value, constants.bind name.value value)
    | (none, constants) => (none, constants.erase name.value)
  | call _ _ arguments, constants => (none, constantsAfter params arguments constants)
  | text _ _, constants => (none, constants)
  | list _ _, constants => (none, constants)
  | functionDef _ _ _, constants => (none, constants)

/-- The constants once the variables in arguments are defined. -/
def constantsAfter (params : List String) : List Expr → Bindings Float → Bindings Float
  | [], constants => constants
  | argument :: others, constants =>
    constantsAfter params others (constantAfter params argument constants).2

end

end Expr

/-- A function as calls see it, with the constants that its activations start
with. -/
structure Procedure where
  name : String
  params : List String
  body : Expr
  constants : Bindings Float

namespace Procedure

/-- The procedure of a definition that comes after the given constants. -/
def ofDefinition (definition : Prototype × Expr) (constants : Bindings Float) : Procedure where
  name := definition.1.name.value
  params := definition.1.params.map Located.value
  body := definition.2
  constants := constants

/-- The constants that a procedure leaves to those after it. -/
def constantsAfter (procedure : Procedure) : Bindings Float :=
  (procedure.body.constantAfter procedure.params procedure.constants).2

/-- The value of a procedure on arguments. Calls are made by `invoke`. -/
def run (invoke : String → List Float → Except EvalError Float) (procedure : Procedure)
    (arguments : List Float) : Except EvalError Float :=
  let start : Activation := ⟨procedure.params.zip arguments, procedure.constants⟩
  (procedure.body.evaluate invoke start).map Prod.fst

/-- Call a procedure by its name, if the call is at the given depth. -/
def callAt (procedures : List Procedure) (limit depth : Nat) (name : String)
    (arguments : List Float) : Except EvalError Float :=
  match procedures.find? fun procedure => procedure.name == name with
  | none => .error (.unknownFunction name)
  | some procedure =>
    if procedure.params.length ≠ arguments.length then
      .error (.arityMismatch name procedure.params.length arguments.length)
    else if limit < depth then
      .error (.callDepthExceeded limit)
    else
      procedure.run (callAt procedures limit (depth + 1)) arguments
termination_by limit + 1 - depth

/-- A call with the right number of arguments runs the procedure, unless it is too
deep. -/
theorem callAt_of_find? {procedures : List Procedure} {name : String} {procedure : Procedure}
    {arguments : List Float}
    (found : (procedures.find? fun procedure => procedure.name == name) = some procedure)
    (length : procedure.params.length = arguments.length) (limit depth : Nat) :
    callAt procedures limit depth name arguments =
      if limit < depth then .error (.callDepthExceeded limit)
      else procedure.run (callAt procedures limit (depth + 1)) arguments := by
  rw [callAt, found]
  simp [length]

end Procedure

/-- The procedures of definitions, and the constants after all of them. -/
def proceduresFrom (constants : Bindings Float) :
    List (Prototype × Expr) → List Procedure × Bindings Float
  | [] => ([], constants)
  | definition :: rest =>
    let procedure := Procedure.ofDefinition definition constants
    let others := proceduresFrom procedure.constantsAfter rest
    (procedure :: others.1, others.2)

/-- Evaluate forms in order: the value of the last of them, or else `last`. -/
def evaluateForms (invoke : String → List Float → Except EvalError Float) (last : Float) :
    List Expr → Activation → Except EvalError Float
  | [], _ => .ok last
  | form :: rest, activation => do
    let (number, activation) ← form.evaluate invoke activation
    evaluateForms invoke number rest activation

namespace Module

/-- The procedures of a module, and the constants after all of them. -/
def procedures (module : Module) : List Procedure × Bindings Float :=
  proceduresFrom .empty module.functionDefs

/-- The value of a module: that of the last form that defines no function. The forms
are evaluated at depth one. -/
def evaluate (module : Module) (limit : Nat) : Except EvalError Float :=
  if limit < 1 then
    .error (.callDepthExceeded limit)
  else
    evaluateForms (Procedure.callAt module.procedures.1 limit 2) 0.0
      (module.forms.filter fun form => form.functionDef?.isNone) ⟨[], module.procedures.2⟩

end Module

end Lisplet

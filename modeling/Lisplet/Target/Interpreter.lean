import Lisplet.Bindings
import Lisplet.Target.Basic

/-!
# Running target code

Target code is run by calls. Each call has a frame of its own: the arguments and
the results computed so far. Calls may nest up to a limit, counted from the
first call, so every run ends.
-/

namespace Lisplet

/-- Why a run has no result. -/
inductive EvalError where
  | noEntry
  | unknownFunction (name : String)
  | undefinedFunction (name : String)
  | arityMismatch (callee : String) (expected got : Nat)
  | unknownValue (name : String)
  | paramOutOfRange (function : String) (index : Nat)
  | missingReturn (function : String)
  | callDepthExceeded (limit : Nat)
deriving DecidableEq, Repr

/-- The message for a run without a result. -/
def EvalError.message : EvalError → String
  | noEntry => "module has no entry function"
  | unknownFunction name => s!"function `{name}` is not defined in the module"
  | undefinedFunction name => s!"function `{name}` is declared but has no body"
  | arityMismatch callee expected got =>
    s!"call to `{callee}` passes {got} arguments, expected {expected}"
  | unknownValue name => s!"value `%{name}` is not defined in the current function"
  | paramOutOfRange function index =>
    s!"parameter {index} is out of range in function `{function}`"
  | missingReturn function => s!"function `{function}` ends without returning"
  | callDepthExceeded limit => s!"maximum call depth of {limit} exceeded"

/-- The state of one call. -/
structure Frame where
  function : String
  arguments : List Float
  temps : Bindings Float := .empty

namespace Frame

/-- The number that an operand stands for. -/
def read (frame : Frame) : Value → Except EvalError Float
  | .constant value => .ok value
  | .param index _ =>
    match frame.arguments[index]? with
    | some value => .ok value
    | none => .error (.paramOutOfRange frame.function index)
  | .temp name =>
    match frame.temps.get? name with
    | some value => .ok value
    | none => .error (.unknownValue name)

/-- The numbers that operands stand for, read from left to right. -/
def readAll (frame : Frame) : List Value → Except EvalError (List Float)
  | [] => .ok []
  | first :: others => do
    let value ← frame.read first
    let values ← frame.readAll others
    pure (value :: values)

/-- Keep a result under a name. -/
def set (frame : Frame) (name : String) (value : Float) : Frame :=
  { frame with temps := frame.temps.bind name value }

/-- Run instructions up to the first return. Calls are made by `call`. -/
def run (call : String → List Float → Except EvalError Float) (frame : Frame) :
    List Instruction → Except EvalError Float
  | [] => .error (.missingReturn frame.function)
  | .arithmetic opcode dest left right :: rest => do
    let left ← frame.read left
    let right ← frame.read right
    (frame.set dest (opcode.apply left right)).run call rest
  | .call dest callee arguments :: rest => do
    let arguments ← frame.readAll arguments
    let result ← call callee arguments
    (frame.set dest result).run call rest
  | .ret value :: _ => frame.read value

end Frame

/-- All instructions of a function, block after block. -/
def Function.code (function : Function) : List Instruction :=
  function.blocks.flatMap Block.instructions

namespace Target

/-- Run a function on arguments, if the calls it makes are made by `call`. -/
def runBody (call : String → List Float → Except EvalError Float) (function : Function)
    (arguments : List Float) : Except EvalError Float :=
  if function.isDeclaration then
    .error (.undefinedFunction function.name)
  else
    Frame.run call { function := function.name, arguments } function.code

/-- Find a function and check the number of its arguments, then run it by `run`. -/
def invokeWith (target : Target) (run : Function → List Float → Except EvalError Float)
    (name : String) (arguments : List Float) : Except EvalError Float :=
  match target.resolve? name with
  | none => .error (.unknownFunction name)
  | some function =>
    if function.arity = arguments.length then
      run function arguments
    else
      .error (.arityMismatch name function.arity arguments.length)

/-- Run a function on arguments when `remaining` more calls may nest, out of a
limit that is named in the error. -/
def execute (target : Target) (limit : Nat) : Nat → Function → List Float → Except EvalError Float
  | 0, _, _ => .error (.callDepthExceeded limit)
  | remaining + 1, function, arguments =>
    runBody (target.invokeWith (target.execute limit remaining)) function arguments

/-- Run the entry function. -/
def runEntry (target : Target) (limit : Nat) : Except EvalError Float :=
  match target.entry with
  | none => .error .noEntry
  | some entry => target.execute limit limit entry []

/-- Call a function by its name. -/
def call (target : Target) (limit : Nat) (name : String) (arguments : List Float) :
    Except EvalError Float :=
  target.invokeWith (target.execute limit limit) name arguments

end Target

end Lisplet

import Lisplet.Target.Basic

/-!
# Building target code

A builder holds a module under construction and the place where instructions go
next: the last block of one of its functions. Work on a builder can be refused. It
is done step by step and leaves the builder as it is at the step that is refused.
-/

namespace Lisplet

/-- The function whose last block takes the next instruction. -/
inductive InsertPoint where
  | function (name : String)
  | entry
deriving DecidableEq, Repr

/-- Why a builder refuses an operation. -/
inductive BuilderError where
  | noInsertPoint
  | unknownFunction (name : String)
  | blockTerminated (label : String)
deriving DecidableEq, Repr

/-- The message for a refused operation. -/
def BuilderError.message : BuilderError → String
  | noInsertPoint => "no insertion point is set"
  | unknownFunction name => s!"function `{name}` is not declared in the module"
  | blockTerminated label => s!"block `{label}` is already terminated"

/-- A module under construction. -/
structure Builder where
  target : Target
  insertPoint : Option InsertPoint := none
deriving DecidableEq, Repr

namespace Builder

/-- Start a new module. -/
def new (name : String) : Builder :=
  ⟨{ name }, none⟩

/-- Declare a function, unless one of that name is there already: the function of the name, and
the builder afterwards. -/
def declareFunction (builder : Builder) (name : String) (params : List String) :
    Function × Builder :=
  let (declared, target) := builder.target.declare name params
  (declared, { builder with target })

/-- Make the entry function, with one block, and go there. -/
def createEntry (builder : Builder) (name label : String) : Builder :=
  { target := { builder.target with entry := some ⟨name, [], [⟨label, []⟩]⟩ }
    insertPoint := some .entry }

/-- Leave the function under construction. -/
def clearInsertPoint (builder : Builder) : Builder :=
  { builder with insertPoint := none }

/-- The function under construction. -/
def currentFunction? (builder : Builder) : Option Function :=
  match builder.insertPoint with
  | none => none
  | some (.function name) => builder.target.function? name
  | some .entry => builder.target.entry

/-- Change the function at an insertion point. -/
def modifyAt (builder : Builder) (point : InsertPoint) (change : Function → Function) : Builder :=
  match point with
  | .function name => { builder with target := builder.target.modifyFunction name change }
  | .entry =>
    { builder with target := { builder.target with entry := builder.target.entry.map change } }

/-- Why there is no function at an insertion point. -/
def missingFunction : InsertPoint → BuilderError
  | .function name => .unknownFunction name
  | .entry => .noInsertPoint

end Builder

/-- Work on a builder, which can be refused. -/
abbrev Building := ExceptT BuilderError (StateM Builder)

namespace Builder

/-- The outcome of some work on a builder, and the builder that it leaves. -/
def carryOut {α : Type} (builder : Builder) (work : Building α) :
    Except BuilderError α × Builder :=
  Id.run ((ExceptT.run work).run builder)

/-- A value that work cannot go on without. -/
def required {α : Type} (error : BuilderError) : Option α → Building α
  | none => throw error
  | some value => pure value

/-- Add a block to a declared function and go there. -/
def appendBlock (function label : String) : Building Unit := do
  let builder ← get
  let _ ← required (.unknownFunction function) (builder.target.function? function)
  modify fun builder =>
    builder.modifyAt (.function function) fun found => found.appendBlock ⟨label, []⟩
  modify fun builder => { builder with insertPoint := some (.function function) }

/-- Add an instruction at the insertion point. -/
def push (instruction : Instruction) : Building Unit := do
  let builder ← get
  let point ← required .noInsertPoint builder.insertPoint
  let function ← required (missingFunction point) builder.currentFunction?
  let block ← required .noInsertPoint function.blocks.getLast?
  if block.isTerminated then
    throw (.blockTerminated block.label)
  modify fun builder =>
    builder.modifyAt point fun found => found.modifyLastBlock fun last => last.push instruction

/-- Add an instruction that computes a value, which is named by its result. -/
def pushValue (dest : String) (instruction : Instruction) : Building Value := do
  push instruction
  pure (.temp dest)

/-- Add arithmetic on two operands. -/
def buildArithmetic (opcode : Opcode) (left right : Value) (dest : String) : Building Value :=
  pushValue dest (.arithmetic opcode dest left right)

/-- Add a call. -/
def buildCall (callee : String) (arguments : List Value) (dest : String) : Building Value :=
  pushValue dest (.call dest callee arguments)

/-- Add a return, which ends the block. -/
def buildReturn (value : Value) : Building Unit :=
  push (.ret value)

end Builder

end Lisplet

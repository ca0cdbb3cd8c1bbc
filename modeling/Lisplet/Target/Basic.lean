/-!
# Target code

Programs are lowered to straight-line code on double precision numbers: modules
of functions, functions of blocks, blocks of instructions. A function without
blocks is a mere declaration. The entry function stands apart from the
functions that a program defines.
-/

namespace Lisplet

/-- An operand of an instruction. -/
inductive Value where
  | constant (value : Float)
  | param (index : Nat) (name : String)
  | temp (name : String)
deriving DecidableEq, Repr

namespace Value

/-- Whether a value is a constant. -/
def isConstant : Value → Bool
  | constant _ => true
  | _ => false

end Value

/-- The operation of an arithmetic instruction. -/
inductive Opcode where
  | fadd
  | fmul
deriving DecidableEq, Repr

namespace Opcode

/-- The name of an operation. -/
def mnemonic : Opcode → String
  | fadd => "fadd"
  | fmul => "fmul"

/-- The result of an operation. -/
def apply : Opcode → Float → Float → Float
  | fadd, left, right => left + right
  | fmul, left, right => left * right

end Opcode

/-- One step of a function. -/
inductive Instruction where
  | arithmetic (opcode : Opcode) (dest : String) (left right : Value)
  | call (dest callee : String) (arguments : List Value)
  | ret (value : Value)
deriving DecidableEq, Repr

namespace Instruction

/-- The name of the operation. -/
def mnemonic : Instruction → String
  | arithmetic opcode _ _ _ => opcode.mnemonic
  | call _ _ _ => "call"
  | ret _ => "ret"

/-- The name that the result is given. -/
def dest? : Instruction → Option String
  | arithmetic _ dest _ _ => some dest
  | call dest _ _ => some dest
  | ret _ => none

/-- The function that is called. -/
def callee? : Instruction → Option String
  | call _ callee _ => some callee
  | _ => none

/-- The operands, in order. -/
def operands : Instruction → List Value
  | arithmetic _ _ left right => [left, right]
  | call _ _ arguments => arguments
  | ret value => [value]

/-- Whether the instruction ends its block. -/
def isTerminator : Instruction → Bool
  | ret _ => true
  | _ => false

end Instruction

/-- A labelled sequence of instructions. -/
structure Block where
  label : String
  instructions : List Instruction := []
deriving DecidableEq, Repr

namespace Block

/-- Whether the last instruction ends the block. -/
def isTerminated (block : Block) : Bool :=
  match block.instructions.getLast? with
  | some instruction => instruction.isTerminator
  | none => false

/-- Add an instruction at the end. -/
def push (block : Block) (instruction : Instruction) : Block :=
  { block with instructions := block.instructions ++ [instruction] }

end Block

/-- A function of target code. -/
structure Function where
  name : String
  params : List String
  blocks : List Block := []
deriving DecidableEq, Repr

namespace Function

/-- The number of parameters. -/
def arity (function : Function) : Nat :=
  function.params.length

/-- Whether the function has no body. -/
def isDeclaration (function : Function) : Bool :=
  function.blocks.isEmpty

/-- The parameter at a position, as an operand. -/
def param? (function : Function) (index : Nat) : Option Value :=
  function.params[index]?.map (Value.param index)

/-- Add a block at the end. -/
def appendBlock (function : Function) (block : Block) : Function :=
  { function with blocks := function.blocks ++ [block] }

/-- Change the last block, if there is one. -/
def modifyLastBlock (function : Function) (change : Block → Block) : Function :=
  match function.blocks.getLast? with
  | none => function
  | some last => { function with blocks := function.blocks.dropLast ++ [change last] }

end Function

/-- A module of target code: the functions that the program defines, in the order
of their declarations, and the entry function. -/
structure Target where
  name : String
  functions : List Function := []
  entry : Option Function := none
deriving DecidableEq, Repr

namespace Target

/-- The function that the program defines under a name. -/
def function? (target : Target) (name : String) : Option Function :=
  target.functions.find? fun function => function.name == name

/-- The function of a name, defined by the program or the entry function. -/
def resolve? (target : Target) (name : String) : Option Function :=
  (target.function? name).or (target.entry.filter fun entry => entry.name == name)

/-- Declare a function, unless one of that name is there already: the function of the name, and
the module afterwards. -/
def declare (target : Target) (name : String) (params : List String) : Function × Target :=
  match target.function? name with
  | some declared => (declared, target)
  | none =>
    let declared : Function := ⟨name, params, []⟩
    (declared, { target with functions := target.functions ++ [declared] })

/-- Change the function of a name among those the program defines. -/
def modifyFunction (target : Target) (name : String) (change : Function → Function) : Target :=
  { target with
    functions := target.functions.map fun function =>
      if function.name == name then change function else function }

end Target

end Lisplet

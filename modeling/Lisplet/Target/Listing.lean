import Lisplet.Decimal.Layout
import Lisplet.Target.Basic

/-!
# Listings

The text of target code. Every operand has the type `double`; parameters and
results are marked by a percent sign, functions by an at sign.
-/

namespace Lisplet

/-- Texts with a comma and a blank between them. -/
def commaSeparated (texts : List String) : String :=
  String.intercalate ", " texts

/-- The text of an operand. -/
def Value.text : Value → String
  | constant value => NumberLayout.listing.format value
  | param _ name => "%" ++ name
  | temp name => "%" ++ name

/-- The text of an instruction. -/
def Instruction.text : Instruction → String
  | arithmetic opcode dest left right =>
    s!"%{dest} = {opcode.mnemonic} double {left.text}, {right.text}"
  | call dest callee arguments =>
    let operands := commaSeparated (arguments.map fun argument => "double " ++ argument.text)
    s!"%{dest} = call double @{callee}({operands})"
  | ret value => s!"ret double {value.text}"

/-- The lines of a block: its label, then its instructions. -/
def Block.listing (block : Block) : String :=
  block.label ++ ":\n"
    ++ String.join (block.instructions.map fun instruction => "  " ++ instruction.text ++ "\n")

namespace Function

/-- The name and the parameters of a function. -/
def header (function : Function) : String :=
  let params := commaSeparated (function.params.map fun param => "double %" ++ param)
  s!"double @{function.name}({params})"

/-- The lines of a function. -/
def listing (function : Function) : String :=
  if function.isDeclaration then
    "declare " ++ function.header ++ "\n"
  else
    "define " ++ function.header ++ " \x7b\n"
      ++ String.join (function.blocks.map Block.listing) ++ "\x7d\n"

end Function

/-- The lines of a module: its name, then its functions, the entry function last. -/
def Target.listing (target : Target) : String :=
  s!"; ModuleID = '{target.name}'\n"
    ++ String.join ((target.functions ++ target.entry.toList).map fun function =>
      "\n" ++ function.listing)

end Lisplet

import Lisplet.Text.Numeral
import Lisplet.Tree.Basic

/-!
# Outlines of trees

A tree is shown one node a line, each line indented by its depth and ended by
the offset at which the node starts. A walk lists the same nodes with their
depths.
-/

namespace Lisplet

/-- One line of an outline: two blanks for each level of depth, then what the
node is and where it starts. -/
def outlineLine (depth : Nat) (content : String) (span : Span) : String :=
  Text.replicate (2 * depth) ' ' ++ content ++ " @" ++ Nat.repr span.start ++ "\n"

/-- A prototype in one line. -/
def Prototype.signature (prototype : Prototype) : String :=
  let params := String.intercalate ", " (prototype.params.map Located.value)
  s!"Prototype {prototype.name.value}({params})"

namespace Expr

mutual

/-- The lines that show a node at the given depth. -/
def linesAt (depth : Nat) : Expr → List String
  | identifier span name => [outlineLine depth s!"Identifier {name}" span]
  | number span value => [outlineLine depth s!"NumberLiteral {Text.integer value.toInt}" span]
  | text span body => [outlineLine depth s!"StringLiteral \"{body}\"" span]
  | list span items => outlineLine depth "SExpression" span :: linesAllAt (depth + 1) items
  | arithmetic span operator left right =>
    outlineLine depth s!"BinaryOp {operator.name}" span
      :: (linesAt (depth + 1) left ++ linesAt (depth + 1) right)
  | variableDef span name initializer =>
    outlineLine depth s!"VarDef {name.value}" span :: linesAt (depth + 1) initializer
  | functionDef span prototype body =>
    outlineLine depth "FuncDef" span
      :: outlineLine (depth + 1) prototype.signature prototype.span :: linesAt (depth + 1) body
  | call span callee arguments =>
    outlineLine depth s!"Call {callee.value}" span :: linesAllAt (depth + 1) arguments

/-- The lines that show some nodes, one after another. -/
def linesAllAt (depth : Nat) : List Expr → List String
  | [] => []
  | first :: others => linesAt depth first ++ linesAllAt depth others

end

/-- The outline of a tree. -/
def outline (expr : Expr) : String :=
  String.join (expr.linesAt 0)

mutual

/-- The nodes of a tree in preorder, each with its depth. -/
def walkAt (depth : Nat) : Expr → List (Nat × Expr)
  | list span items => (depth, list span items) :: walkAllAt (depth + 1) items
  | arithmetic span operator left right =>
    (depth, arithmetic span operator left right)
      :: (walkAt (depth + 1) left ++ walkAt (depth + 1) right)
  | variableDef span name initializer =>
    (depth, variableDef span name initializer) :: walkAt (depth + 1) initializer
  | functionDef span prototype body =>
    (depth, functionDef span prototype body) :: walkAt (depth + 1) body
  | call span callee arguments =>
    (depth, call span callee arguments) :: walkAllAt (depth + 1) arguments
  | atom => [(depth, atom)]

/-- The nodes of some trees in preorder, each with its depth. -/
def walkAllAt (depth : Nat) : List Expr → List (Nat × Expr)
  | [] => []
  | first :: others => walkAt depth first ++ walkAllAt depth others

end

end Expr

namespace Module

/-- The outline of a module: the number of its forms, then each of them. -/
def outline (module : Module) : String :=
  s!"Module ({module.forms.length} forms)\n" ++ String.join (Expr.linesAllAt 1 module.forms)

/-- The nodes of a module in preorder, each with its depth. -/
def walk (module : Module) : List (Nat × Expr) :=
  Expr.walkAllAt 0 module.forms

end Module

end Lisplet

import Lisplet.Operator
import Lisplet.Span

/-!
# Trees

A program is a module: a sequence of forms. As read, a form is made of atoms and
lists. Desugaring replaces the lists whose head names something by nodes for
arithmetic, definitions and calls, so that both stages share one type of tree.
-/

namespace Lisplet

/-- The name and the parameters of a function, as written in its definition. -/
structure Prototype where
  name : Located String
  params : List (Located String)
  span : Span
deriving DecidableEq, Repr

/-- A node of the tree of a program. -/
inductive Expr where
  | identifier (span : Span) (name : String)
  | number (span : Span) (value : Int64)
  | text (span : Span) (body : String)
  | list (span : Span) (items : List Expr)
  | arithmetic (span : Span) (operator : Operator) (left right : Expr)
  | variableDef (span : Span) (name : Located String) (initializer : Expr)
  | functionDef (span : Span) (prototype : Prototype) (body : Expr)
  | call (span : Span) (callee : Located String) (arguments : List Expr)
deriving Repr

namespace Expr

/-- The place a node was read from. -/
def span : Expr → Span
  | identifier span _ => span
  | number span _ => span
  | text span _ => span
  | list span _ => span
  | arithmetic span _ _ _ => span
  | variableDef span _ _ => span
  | functionDef span _ _ => span
  | call span _ _ => span

/-- What a node is called in messages. -/
def describe : Expr → String
  | identifier _ _ => "identifier"
  | number _ _ => "number literal"
  | text _ _ => "string literal"
  | list _ _ => "list"
  | arithmetic _ _ _ _ => "arithmetic expression"
  | variableDef _ _ _ => "variable definition"
  | functionDef _ _ _ => "function definition"
  | call _ _ _ => "call"

/-- Whether a node is a list as read. -/
def isList : Expr → Bool
  | list _ _ => true
  | _ => false

/-- The name of a node that is an identifier. -/
def identifierName? : Expr → Option String
  | identifier _ name => some name
  | _ => none

/-- An identifier with the place it was read from. -/
def locatedName? : Expr → Option (Located String)
  | identifier span name => some ⟨name, span⟩
  | _ => none

/-- The nodes directly below a node, in source order. -/
def children : Expr → List Expr
  | identifier _ _ => []
  | number _ _ => []
  | text _ _ => []
  | list _ items => items
  | arithmetic _ _ left right => [left, right]
  | variableDef _ _ initializer => [initializer]
  | functionDef _ _ body => [body]
  | call _ _ arguments => arguments

end Expr

/-- The forms of a program, in source order. -/
structure Module where
  forms : List Expr
deriving Repr

end Lisplet

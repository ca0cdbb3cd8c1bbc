/-!
# Arithmetic operators

The two operators of the language and the words for them in a source.
-/

namespace Lisplet

/-- An arithmetic operator. -/
inductive Operator where
  | sum
  | mul
deriving DecidableEq, Repr

namespace Operator

/-- The name of an operator. -/
def name : Operator → String
  | sum => "sum"
  | mul => "mul"

/-- The sign of an operator, which a program may write in place of its name. -/
def sign : Operator → String
  | sum => "+"
  | mul => "*"

/-- The operator written as the given word. -/
def ofWord? (word : String) : Option Operator :=
  if word = sum.name ∨ word = sum.sign then some sum
  else if word = mul.name ∨ word = mul.sign then some mul
  else none

end Operator

end Lisplet

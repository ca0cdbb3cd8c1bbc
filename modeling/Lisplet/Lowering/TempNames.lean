import Lisplet.Text.Numeral

/-!
# Names of results

Results are named after the operation that computes them and numbered through
the whole module, with at least two digits.
-/

namespace Lisplet

/-- The number of the next result. -/
structure TempNames where
  counter : Nat := 0
deriving DecidableEq, Repr

namespace TempNames

/-- The name of the result with the given number. -/
def nameOf (stem : String) (number : Nat) : String :=
  stem ++ Text.zeroPadded 2 number

/-- The next name with the given stem, and the state after it is taken. -/
def next (temps : TempNames) (stem : String) : String × TempNames :=
  (nameOf stem temps.counter, ⟨temps.counter + 1⟩)

end TempNames

end Lisplet

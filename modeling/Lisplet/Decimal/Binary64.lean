/-!
# Double precision numbers as exact fractions

A finite double is a sign and a magnitude `significand * 2 ^ exponent`. Its text
and its exit status are computed from this exact form, so that neither depends
on the rounding of some other operation.
-/

namespace Lisplet

/-- The exact value of a finite double, up to its sign: `significand` times two
to the power `exponent`. -/
structure Dyadic where
  significand : Nat
  exponent : Int
deriving DecidableEq, Repr

/-- What a double stands for. -/
inductive Binary64 where
  | nan
  | infinite (negative : Bool)
  | finite (negative : Bool) (magnitude : Dyadic)
deriving DecidableEq, Repr

namespace Binary64

/-- The number of bits of the significand that are stored. -/
def fractionBits : Nat := 52

/-- The exponent of the smallest doubles. -/
def leastExponent : Int := -1074

/-- The double with the given bits: a sign bit, eleven exponent bits and the
stored bits of the significand. -/
def ofBits (bits : Nat) : Binary64 :=
  let negative := bits / Nat.pow 2 63 % 2 == 1
  let field := bits / Nat.pow 2 fractionBits % Nat.pow 2 11
  let fraction := bits % Nat.pow 2 fractionBits
  if field = Nat.pow 2 11 - 1 then
    if fraction = 0 then infinite negative else nan
  else if field = 0 then
    finite negative ⟨fraction, leastExponent⟩
  else
    finite negative ⟨Nat.pow 2 fractionBits + fraction, leastExponent + (field - 1 : Nat)⟩

/-- What a double stands for. -/
def ofFloat (value : Float) : Binary64 :=
  ofBits value.toBits.toNat

end Binary64

namespace Dyadic

/-- The value as a fraction of whole numbers. -/
def numerator (value : Dyadic) : Nat :=
  value.significand * Nat.pow 2 value.exponent.toNat

/-- The denominator of the value, a power of two. -/
def denominator (value : Dyadic) : Nat :=
  Nat.pow 2 (-value.exponent).toNat

/-- The whole part of the value. -/
def floor (value : Dyadic) : Nat :=
  value.numerator / value.denominator

end Dyadic

end Lisplet

import Lisplet.Decimal.Shortest
import Lisplet.Text.Numeral

/-!
# The text of doubles

A layout says where the decimal point of a number goes and when a number is
written with an exponent instead. Every layout writes the same digits, those of
the shortest decimal that stands for the number.
-/

namespace Lisplet

/-- How numbers are laid out. -/
structure NumberLayout where
  /-- Whether numbers of this scientific exponent are written with a point only. -/
  positional : Int → Bool
  /-- Whether whole numbers written with a point only end in `.0`. -/
  marksWhole : Bool

namespace Decimal

/-- The significant digits of a decimal, without zeros at the end. -/
def significantDigits (decimal : Decimal) : List Char :=
  ((Nat.repr decimal.digits).toList.reverse.dropWhile (· == '0')).reverse

/-- How many digits of a decimal stand before its point. -/
def pointPosition (decimal : Decimal) : Int :=
  digitCount decimal.digits + decimal.exponent

/-- Digits with a point after the given number of them, zeros filled in. -/
def withPoint (marksWhole : Bool) (digits : List Char) (position : Int) : String :=
  if position ≤ 0 then
    "0." ++ Text.replicate (-position).toNat '0' ++ String.ofList digits
  else if digits.length ≤ position.toNat then
    String.ofList digits ++ Text.replicate (position.toNat - digits.length) '0'
      ++ (if marksWhole then ".0" else "")
  else
    String.ofList (digits.take position.toNat) ++ "." ++ String.ofList (digits.drop position.toNat)

/-- Digits with a point after the first and the given exponent. -/
def withExponent (digits : List Char) (exponent : Int) : String :=
  let whole := String.ofList (digits.take 1)
  let fraction := String.ofList (digits.drop 1)
  (if fraction.isEmpty then whole else whole ++ "." ++ fraction) ++ "e" ++ Text.integer exponent

/-- The text of a positive decimal. -/
def layOut (layout : NumberLayout) (decimal : Decimal) : String :=
  let digits := decimal.significantDigits
  let position := decimal.pointPosition
  if layout.positional (position - 1) then
    withPoint layout.marksWhole digits position
  else
    withExponent digits (position - 1)

end Decimal

namespace NumberLayout

/-- Constants of a listing keep a fraction digit, and have an exponent from ten to
the sixteenth on and below one ten-thousandth. -/
def listing : NumberLayout where
  positional exponent := -4 ≤ exponent && exponent < 16
  marksWhole := true

/-- A printed result has neither an exponent nor a fraction that is zero. -/
def result : NumberLayout where
  positional _ := true
  marksWhole := false

/-- The text of the magnitude of a double. -/
def magnitude (layout : NumberLayout) (value : Dyadic) : String :=
  if value.significand = 0 then
    if layout.marksWhole then "0.0" else "0"
  else
    (Decimal.shortest value).layOut layout

/-- The text of a double. -/
def format (layout : NumberLayout) (value : Float) : String :=
  match Binary64.ofFloat value with
  | .nan => "NaN"
  | .infinite negative => if negative then "-inf" else "inf"
  | .finite negative value => (if negative then "-" else "") ++ layout.magnitude value

end NumberLayout

end Lisplet

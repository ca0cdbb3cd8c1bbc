/-!
# Decimal numerals

How whole numbers are written in messages and listings.
-/

namespace Lisplet.Text

/-- The decimal numeral of an integer, with a minus sign if it is negative. -/
def integer : Int → String
  | .ofNat magnitude => Nat.repr magnitude
  | .negSucc predecessor => "-" ++ Nat.repr (predecessor + 1)

/-- The given number of copies of a character. -/
def replicate (count : Nat) (char : Char) : String :=
  String.ofList (List.replicate count char)

/-- A numeral set flush right in a column of the given width. -/
def flushRight (width number : Nat) : String :=
  replicate (width - (Nat.repr number).length) ' ' ++ Nat.repr number

/-- A numeral with zeros in front up to the given width. -/
def zeroPadded (width number : Nat) : String :=
  replicate (width - (Nat.repr number).length) '0' ++ Nat.repr number

end Lisplet.Text

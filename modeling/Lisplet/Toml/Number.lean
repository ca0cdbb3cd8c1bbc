import Lisplet.Toml.Text

/-!
# Numbers of TOML

Integers in four bases, and numbers with a fraction or an exponent. Of the latter it
is only kept whether a binary64 number is near them, since no setting has such a
value.
-/

namespace Lisplet.Toml

/-- The number written by digits in the given base, with single underscores
between digits. -/
def digitsValue? (base : Nat) (chars : List Char) : Option Nat :=
  let step (state : Option (Nat × Bool)) (char : Char) : Option (Nat × Bool) := do
    let (value, afterDigit) ← state
    if char == '_' then
      if afterDigit then some (value, false) else none
    else
      let digit ← hexValue? char
      if digit < base then some (value * base + digit, true) else none
  match chars.foldl step (some (0, false)) with
  | some (value, true) => some value
  | _ => none

/-- The number written by decimal digits, of which the first is zero only if there
is no other. -/
def decimal? (digits : List Char) : Option Nat :=
  match digits with
  | ['0'] => some 0
  | '0' :: _ => none
  | digits => digitsValue? 10 digits

/-- The integer written by a word. Only decimal digits may have a sign. -/
def integer? (word : List Char) : Option Int :=
  match word with
  | '-' :: digits => (decimal? digits).map fun magnitude => -magnitude
  | '+' :: digits => (decimal? digits).map Int.ofNat
  | '0' :: 'x' :: digits => (digitsValue? 16 digits).map Int.ofNat
  | '0' :: 'o' :: digits => (digitsValue? 8 digits).map Int.ofNat
  | '0' :: 'b' :: digits => (digitsValue? 2 digits).map Int.ofNat
  | digits => (decimal? digits).map Int.ofNat

/-- The magnitude `significand * 10 ^ exponent`. -/
structure Magnitude where
  significand : Nat
  exponent : Int
deriving DecidableEq, Repr

namespace Magnitude

/-- The least number that no finite binary64 number is near: half a unit of the last
place above the greatest. -/
def limit : Nat := Nat.pow 2 1024 - Nat.pow 2 970

/-- Whether no finite binary64 number is near. The limit has 309 digits, so that
only numbers of as many digits need to be compared. -/
def overflows (magnitude : Magnitude) : Bool :=
  if magnitude.significand = 0 then
    false
  else
    let digits : Int := (Nat.toDigits 10 magnitude.significand).length + magnitude.exponent
    if digits < 309 then false
    else if 309 < digits then true
    else if 0 ≤ magnitude.exponent then
      decide (limit ≤ magnitude.significand * Nat.pow 10 magnitude.exponent.toNat)
    else
      decide (limit * Nat.pow 10 (-magnitude.exponent).toNat ≤ magnitude.significand)

end Magnitude

/-- A word without its sign. -/
def unsigned : List Char → List Char
  | '-' :: rest => rest
  | '+' :: rest => rest
  | rest => rest

/-- The exponent that a word ends with: none at all, or a letter, perhaps a sign, and
digits. -/
def exponent? : List Char → Option Int
  | [] => some 0
  | letter :: rest =>
    if letter == 'e' || letter == 'E' then
      match rest with
      | '-' :: digits => (digitsValue? 10 digits).map fun value => -value
      | '+' :: digits => (digitsValue? 10 digits).map Int.ofNat
      | digits => (digitsValue? 10 digits).map Int.ofNat
    else
      none

/-- The magnitude of the number with a fraction, an exponent or both that is written
by a word. -/
def magnitude? (word : List Char) : Option Magnitude := do
  let isDigit (char : Char) : Bool := char.isDigit || char == '_'
  let whole := (unsigned word).takeWhile isDigit
  let wholeValue ← decimal? whole
  match (unsigned word).drop whole.length with
  | [] => none
  | '.' :: rest => do
    let fraction := rest.takeWhile isDigit
    let fractionValue ← digitsValue? 10 fraction
    let exponent ← exponent? (rest.drop fraction.length)
    let places := (fraction.filter Char.isDigit).length
    some ⟨wholeValue * Nat.pow 10 places + fractionValue, exponent - places⟩
  | rest => do
    let exponent ← exponent? rest
    some ⟨wholeValue, exponent⟩

/-- Whether a word stands for infinity or for no number. -/
def isSpecial (word : List Char) : Bool :=
  unsigned word == ['i', 'n', 'f'] || unsigned word == ['n', 'a', 'n']

end Lisplet.Toml

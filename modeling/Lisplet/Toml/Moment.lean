import Lisplet.Toml.Reader

/-!
# Dates and times of TOML

A moment is a date of the calendar, a time of day, or a date and a time, which may
have an offset. Seconds may be left out, and a minute may have a leap second.
-/

namespace Lisplet.Toml

/-- The number written by exactly so many digits. -/
def fixedDigits (count : Nat) : Reader Nat := fun chars =>
  let digits := chars.take count
  if digits.length = count && digits.all Char.isDigit then
    some (digits.foldl (fun value char => 10 * value + (char.toNat - '0'.toNat)) 0,
      chars.drop count)
  else
    none

/-- Whether a year has a 29th of February. -/
def isLeapYear (year : Nat) : Bool :=
  year % 4 == 0 && (year % 100 != 0 || year % 400 == 0)

/-- The number of days in a month. There are none in a month that does not exist. -/
def daysIn (year month : Nat) : Nat :=
  match month with
  | 2 => if isLeapYear year then 29 else 28
  | 4 | 6 | 9 | 11 => 30
  | 1 | 3 | 5 | 7 | 8 | 10 | 12 => 31
  | _ => 0

/-- What follows a date. -/
def afterDate? (chars : List Char) : Option (List Char) := do
  let (year, rest) ← fixedDigits 4 chars
  let rest ← expect '-' rest
  let (month, rest) ← fixedDigits 2 rest
  let rest ← expect '-' rest
  let (day, rest) ← fixedDigits 2 rest
  if 1 ≤ day && day ≤ daysIn year month then some rest else none

/-- What follows an hour and a minute. -/
def afterMinute? (chars : List Char) : Option (List Char) := do
  let (hour, rest) ← fixedDigits 2 chars
  let rest ← expect ':' rest
  let (minute, rest) ← fixedDigits 2 rest
  if hour ≤ 23 && minute ≤ 59 then some rest else none

/-- What follows the fraction of a second, if there is one. -/
def afterFraction? : List Char → Option (List Char)
  | '.' :: rest =>
    match rest.takeWhile Char.isDigit with
    | [] => none
    | digits => some (rest.drop digits.length)
  | rest => some rest

/-- What follows a time of day. -/
def afterTime? (chars : List Char) : Option (List Char) := do
  let rest ← afterMinute? chars
  match rest with
  | ':' :: rest => do
    let (second, rest) ← fixedDigits 2 rest
    if second ≤ 60 then afterFraction? rest else none
  | rest => some rest

/-- What follows an offset, if there is one. -/
def afterOffset? : List Char → Option (List Char)
  | 'Z' :: rest => some rest
  | 'z' :: rest => some rest
  | '+' :: rest => afterMinute? rest
  | '-' :: rest => afterMinute? rest
  | rest => some rest

/-- Whether a word is a date. -/
def isDate (word : List Char) : Bool :=
  afterDate? word == some []

/-- Whether a word is a moment. -/
def isMoment (word : List Char) : Bool :=
  match afterDate? word with
  | none => afterTime? word == some []
  | some [] => true
  | some (separator :: rest) =>
    (separator == 'T' || separator == 't' || separator == ' ')
      && (afterTime? rest).bind afterOffset? == some []

end Lisplet.Toml

import Lisplet.Toml.Reader

/-!
# Strings of TOML

A string stands between single or double quotes, of which three allow it to go over
several lines. Only double quotes give a meaning to the backslash.
-/

namespace Lisplet.Toml

/-- The value of a hexadecimal digit. -/
def hexValue? (char : Char) : Option Nat :=
  if char.isDigit then some (char.toNat - '0'.toNat)
  else if 'a' ≤ char && char ≤ 'f' then some (char.toNat - 'a'.toNat + 10)
  else if 'A' ≤ char && char ≤ 'F' then some (char.toNat - 'A'.toNat + 10)
  else none

/-- The character with the given hexadecimal code. -/
def codePoint? (digits : List Char) : Option Char := do
  let code ← digits.foldlM (fun value char => (hexValue? char).map (16 * value + ·)) 0
  if code.isValidChar then some (Char.ofNat code) else none

/-- The character that an escape of the given number of digits stands for. -/
def escapedCode (count : Nat) : Reader Char := fun chars =>
  let digits := chars.take count
  if digits.length = count then (codePoint? digits).map fun char => (char, chars.drop count)
  else none

/-- The character that stands after a backslash. -/
def escape : Reader Char
  | 'b' :: rest => some ('\x08', rest)
  | 't' :: rest => some ('\t', rest)
  | 'n' :: rest => some ('\n', rest)
  | 'f' :: rest => some ('\x0c', rest)
  | 'r' :: rest => some ('\r', rest)
  | 'e' :: rest => some ('\x1b', rest)
  | '"' :: rest => some ('"', rest)
  | '\\' :: rest => some ('\\', rest)
  | 'x' :: rest => escapedCode 2 rest
  | 'u' :: rest => escapedCode 4 rest
  | 'U' :: rest => escapedCode 8 rest
  | _ => none

/-- The rest of a string after its opening double quote. The first argument bounds
the number of characters read. -/
def basicString : Nat → Reader (List Char)
  | 0, _ => none
  | _ + 1, [] => none
  | bound + 1, first :: rest =>
    if first == '"' then
      some ([], rest)
    else if first == '\\' then do
      let (char, rest) ← escape rest
      let (chars, rest) ← basicString bound rest
      some (char :: chars, rest)
    else if isControl first then
      none
    else do
      let (chars, rest) ← basicString bound rest
      some (first :: chars, rest)

/-- The rest of a string after its opening single quote. -/
def literalString : Reader (List Char)
  | [] => none
  | first :: rest =>
    if first == '\'' then
      some ([], rest)
    else if isControl first then
      none
    else do
      let (chars, rest) ← literalString rest
      some (first :: chars, rest)

/-- The end of a string over several lines: three quotes, after at most two that
belong to the string. -/
def closing? (quote : Char) : Reader (List Char) := fun chars =>
  let quotes := (chars.takeWhile fun char => char == quote).length
  if quotes < 3 then none
  else some (List.replicate (min quotes 5 - 3) quote, chars.drop (min quotes 5))

/-- What follows a line break that is escaped, with all blanks and line breaks after
it. -/
def afterEscapedBreak? (chars : List Char) : Option (List Char) := do
  let rest ← afterBreak? (skipBlanks chars)
  some (skipWhite (rest.length + 1) rest)
where
  /-- Skip blanks and line breaks. The first argument bounds the number of lines. -/
  skipWhite : Nat → List Char → List Char
    | 0, chars => chars
    | bound + 1, chars =>
      match afterBreak? (skipBlanks chars) with
      | some rest => skipWhite bound rest
      | none => skipBlanks chars

/-- The rest of a string over several lines after three single quotes. -/
def longLiteralString : Reader (List Char)
  | [] => none
  | first :: rest =>
    match closing? '\'' (first :: rest) with
    | some closed => some closed
    | none =>
      if isControl first && (afterBreak? (first :: rest)).isNone then
        none
      else do
        let (chars, rest) ← longLiteralString rest
        some (first :: chars, rest)

/-- The rest of a string over several lines after three double quotes. The first
argument bounds the number of characters read. -/
def longBasicString : Nat → Reader (List Char)
  | 0, _ => none
  | _ + 1, [] => none
  | bound + 1, first :: rest =>
    match closing? '"' (first :: rest) with
    | some closed => some closed
    | none =>
      if first == '\\' then
        match rest with
        | [] => none
        | next :: _ =>
          if next == ' ' || next == '\t' || next == '\r' || next == '\n' then do
            let rest ← afterEscapedBreak? rest
            longBasicString bound rest
          else do
            let (char, rest) ← escape rest
            let (chars, rest) ← longBasicString bound rest
            some (char :: chars, rest)
      else if isControl first && (afterBreak? (first :: rest)).isNone then
        none
      else do
        let (chars, rest) ← longBasicString bound rest
        some (first :: chars, rest)

/-- A string over several lines does not begin with the line break after its opening
quotes. -/
def dropBreak (chars : List Char) : List Char :=
  (afterBreak? chars).getD chars

/-- A string within a line. -/
def shortString : Reader (List Char)
  | '"' :: rest => basicString (rest.length + 1) rest
  | '\'' :: rest => literalString rest
  | _ => none

/-- A string of any kind. -/
def anyString : Reader (List Char)
  | '"' :: '"' :: '"' :: rest => longBasicString (rest.length + 1) (dropBreak rest)
  | '\'' :: '\'' :: '\'' :: rest => longLiteralString (dropBreak rest)
  | chars => shortString chars

end Lisplet.Toml

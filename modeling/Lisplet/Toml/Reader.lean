/-!
# Reading TOML

What the readers of all parts of a TOML file share: blanks, comments, the ends of
lines, and the characters that have no place anywhere.
-/

namespace Lisplet.Toml

/-- A reader takes something from the start of a text and leaves the rest. -/
abbrev Reader (α : Type) := List Char → Option (α × List Char)

/-- Whether a character may not stand in a comment or a string. -/
def isControl (char : Char) : Bool :=
  (char.toNat < 0x20 && char != '\t') || char.toNat == 0x7F

/-- Skip blanks and tabs. -/
def skipBlanks (chars : List Char) : List Char :=
  chars.dropWhile fun char => char == ' ' || char == '\t'

/-- Take the given character. -/
def expect (char : Char) : List Char → Option (List Char)
  | first :: rest => if first == char then some rest else none
  | [] => none

/-- What follows a line break. -/
def afterBreak? : List Char → Option (List Char)
  | '\n' :: rest => some rest
  | '\r' :: '\n' :: rest => some rest
  | _ => none

/-- Skip a comment, up to the end of the line. -/
def skipComment : List Char → List Char
  | '#' :: rest => rest.dropWhile fun char => !isControl char
  | chars => chars

/-- What follows the end of a line: blanks, a comment, and the line break unless
the text ends. -/
def endLine (chars : List Char) : Option (List Char) :=
  match skipComment (skipBlanks chars) with
  | [] => some []
  | rest => afterBreak? rest

/-- Skip blanks, comments and line breaks. The first argument bounds the number of
lines. -/
def skipLines : Nat → List Char → List Char
  | 0, chars => chars
  | bound + 1, chars =>
    let rest := skipComment (skipBlanks chars)
    match afterBreak? rest with
    | some rest => skipLines bound rest
    | none => rest

/-- Skip blanks, comments and all line breaks. -/
def skipSpace (chars : List Char) : List Char :=
  skipLines (chars.length + 1) chars

end Lisplet.Toml

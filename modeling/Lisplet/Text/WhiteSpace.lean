/-!
# White space characters

The characters with the Unicode property `White_Space`, as inclusive ranges of
code points. Only some of them separate tokens; all of them end an identifier.
-/

namespace Lisplet.Text

/-- The inclusive ranges of code points with the property `White_Space`. -/
def whiteSpaceRanges : List (Nat × Nat) :=
  [(0x09, 0x0D), (0x20, 0x20), (0x85, 0x85), (0xA0, 0xA0), (0x1680, 0x1680), (0x2000, 0x200A),
    (0x2028, 0x2029), (0x202F, 0x202F), (0x205F, 0x205F), (0x3000, 0x3000)]

/-- Whether a character has the property `White_Space`. -/
def isWhiteSpace (char : Char) : Bool :=
  whiteSpaceRanges.any fun range => range.1 ≤ char.toNat && char.toNat ≤ range.2

/-- Whether a character is an opening or closing paren. -/
def isParen (char : Char) : Bool :=
  char == '(' || char == ')'

/-- Whether a character separates tokens on one line. -/
def isBlank (char : Char) : Bool :=
  char == ' ' || char == '\t' || char == '\r'

/-- Whether a character is one of the ten ASCII digits. -/
def isDecimalDigit (char : Char) : Bool :=
  '0'.toNat ≤ char.toNat && char.toNat ≤ '9'.toNat

/-- Whether a character goes on with an identifier. -/
def isIdentifierChar (char : Char) : Bool :=
  !isWhiteSpace char && !isParen char

end Lisplet.Text

import Lisplet.Span
import Lisplet.Text.Numeral

/-!
# Tokens

The units a source is split into, the kinds they fall into, and how both are
shown.
-/

namespace Lisplet

/-- A unit of the source. The body of a string literal stands as it was read,
escapes included, between its quotes. -/
inductive Token where
  | openParen
  | closeParen
  | identifier (name : String)
  | number (value : Int64)
  | text (body : String)
  | endOfLine
  | endOfFile
deriving DecidableEq, Repr

/-- The kinds of tokens. -/
inductive TokenKind where
  | openParen
  | closeParen
  | identifier
  | number
  | text
  | endOfLine
  | endOfFile
deriving DecidableEq, Repr

/-- How a kind of token is named in messages. -/
def TokenKind.description : TokenKind → String
  | openParen => "'('"
  | closeParen => "')'"
  | identifier => "identifier"
  | number => "number literal"
  | text => "string literal"
  | endOfLine => "end of line"
  | endOfFile => "end of file"

namespace Token

/-- The kind of a token. -/
def kind : Token → TokenKind
  | openParen => .openParen
  | closeParen => .closeParen
  | identifier _ => .identifier
  | number _ => .number
  | text _ => .text
  | endOfLine => .endOfLine
  | endOfFile => .endOfFile

/-- How a token is listed. -/
def describe : Token → String
  | openParen => "LParen"
  | closeParen => "RParen"
  | identifier name => s!"Identifier {name}"
  | number value => s!"NumberLiteral {Text.integer value.toInt}"
  | text body => s!"StringLiteral \"{body}\""
  | endOfLine => "EndOfLine"
  | endOfFile => "EndOfFile"

end Token

/-- The line that lists a located token: where it starts, then what it is. -/
def Located.tokenLine (token : Located Token) : String :=
  Text.flushRight 5 token.span.start ++ "  " ++ token.value.describe

end Lisplet

import Lisplet.Span
import Lisplet.Text.WhiteSpace

/-!
# Padded text

Before a source is split into tokens, every paren gets a blank on either side.
A padded text keeps, for each of its characters, the source offset it stands
for, so that whatever is read from it can be located in the source. The blank
before a paren stands for the offset of the paren, the blank after it for the
offset that follows the paren.
-/

namespace Lisplet

/-- A character of a padded text and the source offset it stands for. -/
structure Cell where
  char : Char
  offset : Nat
deriving DecidableEq, Repr

namespace Cell

/-- The offset just past the source bytes a cell stands for. -/
def stop (cell : Cell) : Nat :=
  cell.offset + cell.char.utf8Size

/-- The source offsets of the bytes of a cell, in order. -/
def byteOffsets (cell : Cell) : List Nat :=
  (List.range cell.char.utf8Size).map (cell.offset + ·)

end Cell

/-- A text whose parens stand apart, with the size in bytes of its source. -/
structure PaddedText where
  cells : List Cell
  sourceSize : Nat
deriving DecidableEq, Repr

namespace PaddedText

/-- The cells for characters that start at the given source offset. -/
def cellsFrom : Nat → List Char → List Cell
  | _, [] => []
  | offset, char :: rest =>
    if Text.isParen char then
      ⟨' ', offset⟩ :: ⟨char, offset⟩ :: ⟨' ', offset + 1⟩ :: cellsFrom (offset + 1) rest
    else
      ⟨char, offset⟩ :: cellsFrom (offset + char.utf8Size) rest

/-- The padded form of a source text. -/
def ofSource (source : String) : PaddedText :=
  ⟨cellsFrom 0 source.toList, source.utf8ByteSize⟩

/-- The characters of a padded text. -/
def text (padded : PaddedText) : String :=
  String.ofList (padded.cells.map Cell.char)

/-- The source offset of every byte of a padded text, in order. -/
def byteOffsets (padded : PaddedText) : List Nat :=
  padded.cells.flatMap Cell.byteOffsets

/-- The source offset of one byte of a padded text; the end of the source for a
position past the last byte. -/
def sourceOffset (padded : PaddedText) (position : Nat) : Nat :=
  padded.byteOffsets.getD position padded.sourceSize

/-- The source span of the padded bytes from `first` up to `stop`. An empty or
reversed range gives the empty span at its first byte. -/
def sourceSpan (padded : PaddedText) (first stop : Nat) : Span :=
  if stop ≤ first then
    Span.point (padded.sourceOffset first)
  else
    Span.ofBounds (padded.sourceOffset first)
      (min (padded.sourceOffset (stop - 1) + 1) padded.sourceSize)

end PaddedText

/-- The padded form of a text, without its offsets. -/
def padText (source : String) : String :=
  (PaddedText.ofSource source).text

end Lisplet

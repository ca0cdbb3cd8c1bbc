import Lisplet.Diagnostic.Basic
import Lisplet.Text.Padded
import Lisplet.Token.Basic

/-!
# Scanning

A padded text is split into tokens from left to right. The first character of
the remaining text decides what comes next: a paren, a line feed, blanks, a
comment, a string, a number, or an identifier. Blanks and comments leave no
token. A comment takes its line feed with it. The first text that fits none of
these ends the scan with a `ScanFault`.
-/

namespace Lisplet

/-- Why a text cannot be split into tokens. -/
inductive ScanFault where
  | unterminatedString (span : Span)
  | unrecognizedToken (span : Span)
  | integerOutOfRange (span : Span)
deriving DecidableEq, Repr

/-- The diagnostic for a text that cannot be split into tokens. -/
def ScanFault.diagnostic : ScanFault → Diagnostic
  | unterminatedString span => {
      severity := .fatal
      message := "unterminated string literal"
      code := some .unterminatedString
      labels := [.primary span "string starts here"]
      help := some "add closing `\"`" }
  | unrecognizedToken span => {
      severity := .fatal
      message := "unrecognized token"
      code := some .unrecognizedToken
      labels := [.primary span "this character cannot start a token"]
      help := some "only spaces, tabs and line breaks separate tokens" }
  | integerOutOfRange span => {
      severity := .fatal
      message := "integer literal out of range"
      code := some .integerOutOfRange
      labels := [.primary span "does not fit in a 64-bit signed integer"] }

namespace Scan

/-- The source span from one cell up to the end of another, cut at the end of
the source. -/
def spanBetween (sourceSize : Nat) (first last : Cell) : Span :=
  Span.ofBounds first.offset (min last.stop sourceSize)

/-- The source span of a cell and the cells that follow it. -/
def spanOver (sourceSize : Nat) (first : Cell) (others : List Cell) : Span :=
  spanBetween sourceSize first (others.getLastD first)

/-- The characters of some cells as a text. -/
def textOf (cells : List Cell) : String :=
  String.ofList (cells.map Cell.char)

/-- Split cells after the longest run at their start whose characters satisfy
the predicate. -/
def spanWhile (accepts : Char → Bool) (cells : List Cell) : List Cell × List Cell :=
  (cells.takeWhile fun cell => accepts cell.char, cells.dropWhile fun cell => accepts cell.char)

/-- The cells of a string body and the cells that follow it. A backslash takes
the next character with it; a quote, or a backslash with nothing after it, ends
the body. -/
def stringBody : List Cell → List Cell × List Cell
  | [] => ([], [])
  | [cell] =>
    if cell.char == '"' || cell.char == '\\' then ([], [cell]) else ([cell], [])
  | cell :: next :: rest =>
    if cell.char == '"' then
      ([], cell :: next :: rest)
    else if cell.char == '\\' then
      let (body, after) := stringBody rest
      (cell :: next :: body, after)
    else
      let (body, after) := stringBody (next :: rest)
      (cell :: body, after)

/-- The value of a run of decimal digits, most significant first. -/
def decimalValue (digits : List Char) : Nat :=
  digits.foldl (fun value digit => 10 * value + (digit.toNat - '0'.toNat)) 0

/-- Magnitudes from here on do not fit in a 64-bit signed integer. -/
def integerBound : Nat :=
  Nat.pow 2 63

/-- What one step of a scan found: a token or nothing, and what is left. -/
structure Step where
  token : Option (Located Token)
  rest : List Cell

/-- Skip a comment, up to and including its line feed. -/
def skipComment (cells : List Cell) : List Cell :=
  (spanWhile (fun char => char != '\n') cells).2.drop 1

/-- Read a string whose opening quote is `first`. -/
def readString (sourceSize : Nat) (first : Cell) (others : List Cell) : Except ScanFault Step :=
  match stringBody others with
  | (body, closing :: rest) =>
    if closing.char == '"' then
      .ok ⟨some ⟨.text (textOf body), spanBetween sourceSize first closing⟩, rest⟩
    else
      .error (.unterminatedString (spanOver sourceSize first body))
  | (body, []) => .error (.unterminatedString (spanOver sourceSize first body))

/-- Read a number whose first digit is `first`. -/
def readNumber (sourceSize : Nat) (first : Cell) (others : List Cell) : Except ScanFault Step :=
  let (digits, rest) := spanWhile Text.isDecimalDigit others
  let span := spanOver sourceSize first digits
  let value := decimalValue (first.char :: digits.map Cell.char)
  if value < integerBound then
    .ok ⟨some ⟨.number (Int64.ofNat value), span⟩, rest⟩
  else
    .error (.integerOutOfRange span)

/-- Read an identifier whose first character is `first`. -/
def readIdentifier (sourceSize : Nat) (first : Cell) (others : List Cell) : Step :=
  let (following, rest) := spanWhile Text.isIdentifierChar others
  ⟨some ⟨.identifier (textOf (first :: following)), spanOver sourceSize first following⟩, rest⟩

/-- One step of a scan, decided by the first cell. -/
def step (sourceSize : Nat) (first : Cell) (others : List Cell) : Except ScanFault Step :=
  let here := spanBetween sourceSize first first
  if first.char == '(' then
    .ok ⟨some ⟨.openParen, here⟩, others⟩
  else if first.char == ')' then
    .ok ⟨some ⟨.closeParen, here⟩, others⟩
  else if first.char == '\n' then
    .ok ⟨some ⟨.endOfLine, here⟩, others⟩
  else if Text.isBlank first.char then
    .ok ⟨none, (spanWhile Text.isBlank others).2⟩
  else if first.char == ';' then
    .ok ⟨none, skipComment others⟩
  else if first.char == '"' then
    readString sourceSize first others
  else if Text.isDecimalDigit first.char then
    readNumber sourceSize first others
  else if Text.isWhiteSpace first.char then
    .error (.unrecognizedToken here)
  else
    .ok (readIdentifier sourceSize first others)

/-- What follows a run is no longer than the whole. -/
theorem length_spanWhile_le (accepts : Char → Bool) (cells : List Cell) :
    (spanWhile accepts cells).2.length ≤ cells.length :=
  (List.dropWhile_sublist _).length_le

/-- What follows a string body is no longer than the whole. -/
theorem length_stringBody_le (cells : List Cell) :
    (stringBody cells).2.length ≤ cells.length := by
  fun_induction stringBody cells <;> simp_all <;> omega

/-- What follows a comment is no longer than the comment with what follows it. -/
theorem length_skipComment_le (cells : List Cell) :
    (skipComment cells).length ≤ cells.length :=
  Nat.le_trans (List.drop_sublist 1 _).length_le (length_spanWhile_le _ cells)

/-- A string that was read leaves no more cells than follow its first quote. -/
theorem length_rest_le_of_readString {sourceSize : Nat} {first : Cell} {others : List Cell}
    {found : Step} (read : readString sourceSize first others = .ok found) :
    found.rest.length ≤ others.length := by
  have bodyBound := length_stringBody_le others
  unfold readString at read
  split at read
  next body closing rest split_eq =>
    rw [split_eq] at bodyBound
    split at read
    · cases read
      exact Nat.le_of_succ_le bodyBound
    · cases read
  next => cases read

/-- A number that was read leaves no more cells than follow its first digit. -/
theorem length_rest_le_of_readNumber {sourceSize : Nat} {first : Cell} {others : List Cell}
    {found : Step} (read : readNumber sourceSize first others = .ok found) :
    found.rest.length ≤ others.length := by
  unfold readNumber at read
  dsimp only at read
  split at read
  · cases read
    exact length_spanWhile_le _ others
  · cases read

/-- Every step leaves no more cells than follow the first one. -/
theorem length_rest_le_of_step {sourceSize : Nat} {first : Cell} {others : List Cell} {found : Step}
    (stepped : step sourceSize first others = .ok found) :
    found.rest.length ≤ others.length := by
  unfold step at stepped
  dsimp only at stepped
  split at stepped
  · cases stepped
    exact Nat.le_refl _
  split at stepped
  · cases stepped
    exact Nat.le_refl _
  split at stepped
  · cases stepped
    exact Nat.le_refl _
  split at stepped
  · cases stepped
    exact length_spanWhile_le _ others
  split at stepped
  · cases stepped
    exact length_skipComment_le others
  split at stepped
  · exact length_rest_le_of_readString stepped
  split at stepped
  · exact length_rest_le_of_readNumber stepped
  split at stepped
  · cases stepped
  · cases stepped
    exact length_spanWhile_le _ others

/-- The tokens of some cells, with the end of file as the last. -/
def tokens (sourceSize : Nat) : List Cell → Except ScanFault (List (Located Token))
  | [] => .ok [⟨.endOfFile, Span.point sourceSize⟩]
  | first :: others =>
    match stepped : step sourceSize first others with
    | .error fault => .error fault
    | .ok found =>
      have _shorter := length_rest_le_of_step stepped
      match tokens sourceSize found.rest with
      | .error fault => .error fault
      | .ok following => .ok (found.token.toList ++ following)
termination_by cells => cells.length

end Scan

/-- Split a padded text into tokens. -/
def PaddedText.tokens (padded : PaddedText) : Except ScanFault (List (Located Token)) :=
  Scan.tokens padded.sourceSize padded.cells

end Lisplet

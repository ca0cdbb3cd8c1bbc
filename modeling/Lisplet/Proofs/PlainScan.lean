import Lisplet.Token.Scan

/-!
# Scanning without padding

A scan of the source as it stands, with no blanks around parens and no map of
offsets: each step takes some characters off the front of the source, and the
offset moves on by their bytes. This is what a scan of the padded text is measured
by.
-/

namespace Lisplet

namespace PlainScan

/-- Why a source cannot be scanned, and where the trouble starts. -/
structure Fault where
  code : Code
  start : Nat
deriving DecidableEq, Repr

/-- What one step of a scan found: a token or nothing, the characters that it took
and those that are left. -/
structure Step where
  token : Option Token
  taken : List Char
  rest : List Char

/-- The number of bytes of some characters. -/
def byteSize : List Char → Nat
  | [] => 0
  | char :: rest => char.utf8Size + byteSize rest

@[simp] theorem byteSize_nil : byteSize [] = 0 :=
  rfl

@[simp] theorem byteSize_cons (char : Char) (rest : List Char) :
    byteSize (char :: rest) = char.utf8Size + byteSize rest :=
  rfl

@[simp] theorem byteSize_append (chars others : List Char) :
    byteSize (chars ++ others) = byteSize chars + byteSize others := by
  induction chars with
  | nil => simp
  | cons char rest inductionHypothesis => simp [inductionHypothesis, Nat.add_assoc]

/-- The bytes of a text are those of its characters. -/
theorem byteSize_toList (source : String) : byteSize source.toList = source.utf8ByteSize := by
  have ofList : ∀ chars, byteSize chars = (String.ofList chars).utf8ByteSize := by
    intro chars
    induction chars with
    | nil => rfl
    | cons char rest inductionHypothesis => simp [inductionHypothesis, String.ofList_cons]
  rw [ofList, String.ofList_toList]

/-- The body of a string up to the next quote that is not escaped, and what follows
the quote. -/
def stringBody? : List Char → Option (List Char × List Char)
  | [] => none
  | char :: others =>
    if char = '"' then
      some ([], others)
    else if char = '\\' then
      match others with
      | [] => none
      | escaped :: others =>
        (stringBody? others).map fun found => (char :: escaped :: found.1, found.2)
    else
      (stringBody? others).map fun found => (char :: found.1, found.2)

/-- Take the longest run of characters that satisfy the predicate, after the first
one. -/
def takeRun (accepts : Char → Bool) (first : Char) (others : List Char)
    (token : List Char → Option Token) : Step :=
  let run := first :: others.takeWhile accepts
  ⟨token run, run, others.dropWhile accepts⟩

/-- Read a string whose opening quote is `first`. -/
def readString (first : Char) (others : List Char) : Except Code Step :=
  match stringBody? others with
  | some (body, rest) => .ok ⟨some (.text (String.ofList body)), first :: (body ++ ['"']), rest⟩
  | none => .error .unterminatedString

/-- Read a number whose first digit is `first`. Numbers have 63 bits. -/
def readNumber (first : Char) (others : List Char) : Except Code Step :=
  let value := Nat.ofDigitChars 10 (first :: others.takeWhile Text.isDecimalDigit) 0
  if value < Nat.pow 2 63 then
    .ok (takeRun Text.isDecimalDigit first others fun _ => some (.number (Int64.ofNat value)))
  else
    .error .integerOutOfRange

/-- One step of a scan, decided by the first character. -/
def step (first : Char) (others : List Char) : Except Code Step :=
  if first = '(' then
    .ok ⟨some .openParen, [first], others⟩
  else if first = ')' then
    .ok ⟨some .closeParen, [first], others⟩
  else if first = '\n' then
    .ok ⟨some .endOfLine, [first], others⟩
  else if Text.isBlank first then
    .ok (takeRun Text.isBlank first others fun _ => none)
  else if first = ';' then
    let comment := others.takeWhile fun char => char != '\n'
    let ending := others.dropWhile fun char => char != '\n'
    .ok ⟨none, first :: (comment ++ ending.take 1), ending.drop 1⟩
  else if first = '"' then
    readString first others
  else if Text.isDecimalDigit first then
    readNumber first others
  else if Text.isWhiteSpace first then
    .error .unrecognizedToken
  else
    .ok (takeRun Text.isIdentifierChar first others fun run =>
      some (.identifier (String.ofList run)))

/-- A body, its closing quote and what follows them make up the whole. -/
theorem stringBody?_eq_some {chars body rest : List Char}
    (found : stringBody? chars = some (body, rest)) : body ++ '"' :: rest = chars := by
  fun_induction stringBody? chars generalizing body rest with
  | case1 => cases found
  | case2 others =>
    cases found
    rfl
  | case3 => cases found
  | case4 escaped others _ inductionHypothesis =>
    obtain ⟨inner, isInner, same⟩ := Option.map_eq_some_iff.1 found
    cases same
    rw [← inductionHypothesis isInner]
    rfl
  | case5 char others _ _ inductionHypothesis =>
    obtain ⟨inner, isInner, same⟩ := Option.map_eq_some_iff.1 found
    cases same
    rw [← inductionHypothesis isInner]
    rfl

/-- A step takes characters off the front, the first of them at least. -/
theorem split_of_step {first : Char} {others : List Char} {found : Step}
    (stepped : step first others = .ok found) :
    ∃ more, found.taken = first :: more ∧ more ++ found.rest = others := by
  rw [step] at stepped
  split at stepped
  · cases stepped
    exact ⟨[], rfl, rfl⟩
  split at stepped
  · cases stepped
    exact ⟨[], rfl, rfl⟩
  split at stepped
  · cases stepped
    exact ⟨[], rfl, rfl⟩
  split at stepped
  · cases stepped
    exact ⟨_, rfl, List.takeWhile_append_dropWhile⟩
  split at stepped
  · cases stepped
    refine ⟨_, rfl, ?_⟩
    dsimp only
    rw [List.append_assoc, List.take_append_drop, List.takeWhile_append_dropWhile]
  split at stepped
  · rw [readString] at stepped
    split at stepped
    · rename_i body rest isBody
      cases stepped
      exact ⟨body ++ ['"'], rfl, by simpa using stringBody?_eq_some isBody⟩
    · cases stepped
  split at stepped
  · rw [readNumber] at stepped
    split at stepped
    · cases stepped
      exact ⟨_, rfl, List.takeWhile_append_dropWhile⟩
    · cases stepped
  split at stepped
  · cases stepped
  · cases stepped
    exact ⟨_, rfl, List.takeWhile_append_dropWhile⟩

/-- No step finds the end of file. -/
theorem token_ne_endOfFile_of_step {first : Char} {others : List Char} {found : Step}
    (stepped : step first others = .ok found) : found.token ≠ some .endOfFile := by
  simp only [step, readString, readNumber, takeRun] at stepped
  grind

theorem length_rest_le_of_step {first : Char} {others : List Char} {found : Step}
    (stepped : step first others = .ok found) : found.rest.length ≤ others.length := by
  obtain ⟨more, -, whole⟩ := split_of_step stepped
  rw [← whole, List.length_append]
  omega

/-- The tokens of characters that start at an offset, with the end of file as the
last. A token covers the characters that its step took. -/
def tokens (offset : Nat) : List Char → Except Fault (List (Located Token))
  | [] => .ok [⟨.endOfFile, .point offset⟩]
  | first :: others =>
    match stepped : step first others with
    | .error code => .error ⟨code, offset⟩
    | .ok found =>
      have _shorter := length_rest_le_of_step stepped
      let stop := offset + byteSize found.taken
      match tokens stop found.rest with
      | .error fault => .error fault
      | .ok following =>
        .ok (found.token.toList.map (fun token => ⟨token, .ofBounds offset stop⟩) ++ following)
termination_by chars => chars.length

end PlainScan

end Lisplet

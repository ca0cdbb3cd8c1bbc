import Lisplet.Proofs.PlainScan
import Mathlib.Data.List.TakeWhile

/-!
# Padding does not change a scan

Padding a source and scanning the padded text comes to scanning the source as it
stands: the same tokens at the same places, save that the body of a string is
padded, and the same fault at the same place if the source cannot be scanned. The
blanks around a paren end a run or are skipped; inside of strings and comments they
are taken along with the paren.
-/

namespace Lisplet

theorem Text.isParen_iff {char : Char} : Text.isParen char ↔ char = '(' ∨ char = ')' := by
  rw [Text.isParen, Bool.or_eq_true, beq_iff_eq, beq_iff_eq]

theorem Text.isBlank_iff {char : Char} :
    Text.isBlank char ↔ char = ' ' ∨ char = '\t' ∨ char = '\r' := by
  simp [Text.isBlank, or_assoc]

namespace PaddedText

open PlainScan (byteSize)

@[simp] theorem cellsFrom_nil (offset : Nat) : cellsFrom offset [] = [] :=
  rfl

/-- A paren becomes three cells, itself between two blanks. -/
theorem cellsFrom_of_isParen {char : Char} (isParen : Text.isParen char) (offset : Nat)
    (rest : List Char) :
    cellsFrom offset (char :: rest) =
      ⟨' ', offset⟩ :: ⟨char, offset⟩ :: ⟨' ', offset + 1⟩ :: cellsFrom (offset + 1) rest := by
  rw [cellsFrom, if_pos isParen]

/-- Any other character becomes one cell. -/
theorem cellsFrom_of_not_isParen {char : Char} (notParen : ¬ Text.isParen char) (offset : Nat)
    (rest : List Char) :
    cellsFrom offset (char :: rest) =
      ⟨char, offset⟩ :: cellsFrom (offset + char.utf8Size) rest := by
  rw [cellsFrom, if_neg notParen]

/-- A paren is one byte long. -/
theorem utf8Size_of_isParen {char : Char} (isParen : Text.isParen char) : char.utf8Size = 1 := by
  rcases Text.isParen_iff.1 isParen with rfl | rfl <;> rfl

/-- The characters of cells do not depend on where they start. -/
theorem map_char_cellsFrom (offset other : Nat) (chars : List Char) :
    (cellsFrom offset chars).map Cell.char = (cellsFrom other chars).map Cell.char := by
  induction chars generalizing offset other with
  | nil => rfl
  | cons char rest inductionHypothesis =>
    by_cases isParen : Text.isParen char
    · simp [cellsFrom_of_isParen isParen, inductionHypothesis (offset + 1) (other + 1)]
    · simp [cellsFrom_of_not_isParen isParen,
        inductionHypothesis (offset + char.utf8Size) (other + char.utf8Size)]

/-- The text of cells is the padded form of their characters. -/
theorem textOf_cellsFrom (offset : Nat) (chars : List Char) :
    Scan.textOf (cellsFrom offset chars) = padText (String.ofList chars) := by
  rw [Scan.textOf, map_char_cellsFrom offset 0, padText, PaddedText.text, ofSource,
    String.toList_ofList]

/-- Without parens, padding adds nothing. -/
theorem map_char_of_noParen {chars : List Char} (noParen : ∀ char ∈ chars, ¬ Text.isParen char)
    (offset : Nat) : (cellsFrom offset chars).map Cell.char = chars := by
  induction chars generalizing offset with
  | nil => rfl
  | cons char rest inductionHypothesis =>
    have restNoParen := fun other member => noParen other (List.mem_cons_of_mem _ member)
    rw [cellsFrom_of_not_isParen (noParen char List.mem_cons_self), List.map_cons,
      inductionHypothesis restNoParen]

/-- Without parens, the last cell stops where the characters do. -/
theorem stop_getLastD {chars : List Char} (noParen : ∀ char ∈ chars, ¬ Text.isParen char)
    {first : Cell} {offset : Nat} (start : first.stop = offset) :
    ((cellsFrom offset chars).getLastD first).stop = offset + byteSize chars := by
  induction chars generalizing first offset with
  | nil => exact start
  | cons char rest inductionHypothesis =>
    have restNoParen := fun other member => noParen other (List.mem_cons_of_mem _ member)
    have here : (⟨char, offset⟩ : Cell).stop = offset + char.utf8Size := rfl
    rw [cellsFrom_of_not_isParen (noParen char List.mem_cons_self), List.getLastD_cons,
      inductionHypothesis restNoParen here, PlainScan.byteSize_cons, Nat.add_assoc]

/-- A run that stops at blanks and parens stops at the same place with padding. -/
theorem spanWhile_cellsFrom {accepts : Char → Bool} (noBlank : accepts ' ' = false)
    (noParen : ∀ char, Text.isParen char → accepts char = false) (offset : Nat)
    (chars : List Char) :
    Scan.spanWhile accepts (cellsFrom offset chars) =
      (cellsFrom offset (chars.takeWhile accepts),
        cellsFrom (offset + byteSize (chars.takeWhile accepts)) (chars.dropWhile accepts)) := by
  induction chars generalizing offset with
  | nil => rfl
  | cons char rest inductionHypothesis =>
    by_cases isParen : Text.isParen char
    · simp [Scan.spanWhile, cellsFrom_of_isParen isParen, noBlank, noParen char isParen]
    · have following := inductionHypothesis (offset + char.utf8Size)
      rw [Scan.spanWhile, Prod.mk.injEq] at following
      cases accepted : accepts char with
      | false =>
        simp [Scan.spanWhile, cellsFrom_of_not_isParen isParen, accepted]
      | true =>
        simp [Scan.spanWhile, cellsFrom_of_not_isParen isParen, accepted, following,
          Nat.add_assoc]

/-- A comment ends at the same line feed with padding. -/
theorem skipComment_cellsFrom (offset : Nat) (chars : List Char) :
    let comment := chars.takeWhile fun char => char != '\n'
    let ending := chars.dropWhile fun char => char != '\n'
    Scan.skipComment (cellsFrom offset chars) =
      cellsFrom (offset + byteSize (comment ++ ending.take 1)) (ending.drop 1) := by
  induction chars generalizing offset with
  | nil => rfl
  | cons char rest inductionHypothesis =>
    simp only [Scan.skipComment, Scan.spanWhile] at inductionHypothesis ⊢
    by_cases isParen : Text.isParen char
    · have notLineFeed : char ≠ '\n' := by
        rintro rfl
        cases isParen
      simp [cellsFrom_of_isParen isParen, notLineFeed, inductionHypothesis,
        utf8Size_of_isParen isParen, Nat.add_assoc]
    · by_cases lineFeed : char = '\n'
      · subst lineFeed
        simp [cellsFrom_of_not_isParen isParen]
      · simp [cellsFrom_of_not_isParen isParen, lineFeed, inductionHypothesis, Nat.add_assoc]

end PaddedText

namespace Scan

/-- A quote ends the body of a string. -/
theorem stringBody_of_quote {cell : Cell} (isQuote : cell.char = '"') (cells : List Cell) :
    stringBody (cell :: cells) = ([], cell :: cells) := by
  cases cells <;> simp [stringBody, isQuote]

/-- A backslash takes the next character into the body with it. -/
theorem stringBody_of_backslash {cell : Cell} (isBackslash : cell.char = '\\') (next : Cell)
    (cells : List Cell) :
    stringBody (cell :: next :: cells) =
      (cell :: next :: (stringBody cells).1, (stringBody cells).2) := by
  simp [stringBody, isBackslash]

/-- Any other character belongs to the body. -/
theorem stringBody_of_other {cell : Cell} (notQuote : cell.char ≠ '"')
    (notBackslash : cell.char ≠ '\\') (cells : List Cell) :
    stringBody (cell :: cells) = (cell :: (stringBody cells).1, (stringBody cells).2) := by
  cases cells <;> simp [stringBody, notQuote, notBackslash]

end Scan

namespace PaddedText

open PlainScan (byteSize stringBody? stringBody?_eq_some)

/-- A character that is neither a quote nor a backslash adds its cells to the body. -/
theorem stringBody_cellsFrom_of_other {char : Char} (notQuote : char ≠ '"')
    (notBackslash : char ≠ '\\') (offset : Nat) (rest : List Char) :
    let others := Scan.stringBody (cellsFrom (offset + char.utf8Size) rest)
    Scan.stringBody (cellsFrom offset (char :: rest)) =
      (cellsFrom offset [char] ++ others.1, others.2) := by
  intro others
  by_cases isParen : Text.isParen char
  · simp [cellsFrom_of_isParen isParen, Scan.stringBody_of_other, notQuote, notBackslash, others,
      utf8Size_of_isParen isParen]
  · simp [cellsFrom_of_not_isParen isParen, Scan.stringBody_of_other, notQuote, notBackslash,
      others]

/-- An escape that takes a blank in place of a paren leaves the paren to be taken
next, so that it goes as far as without padding. -/
theorem stringBody_cellsFrom_of_escape (escaped : Char) (offset : Nat) (rest : List Char) :
    let others := Scan.stringBody (cellsFrom (offset + byteSize ['\\', escaped]) rest)
    Scan.stringBody (cellsFrom offset ('\\' :: escaped :: rest)) =
      (cellsFrom offset ['\\', escaped] ++ others.1, others.2) := by
  intro others
  have notParen : ¬ Text.isParen '\\' := by decide
  by_cases isParen : Text.isParen escaped
  · have notQuote : escaped ≠ '"' := by
      rintro rfl
      cases isParen
    have notBackslash : escaped ≠ '\\' := by
      rintro rfl
      cases isParen
    simp [cellsFrom_of_not_isParen notParen, cellsFrom_of_isParen isParen,
      Scan.stringBody_of_backslash, Scan.stringBody_of_other, notQuote, notBackslash, others,
      utf8Size_of_isParen isParen, Nat.add_assoc]
  · simp [cellsFrom_of_not_isParen notParen, cellsFrom_of_not_isParen isParen,
      Scan.stringBody_of_backslash, others, Nat.add_assoc]

/-- Cells of characters are those of the first and then those of the others. -/
theorem cellsFrom_append (offset : Nat) (chars others : List Char) :
    cellsFrom offset (chars ++ others) =
      cellsFrom offset chars ++ cellsFrom (offset + byteSize chars) others := by
  induction chars generalizing offset with
  | nil => rfl
  | cons char rest inductionHypothesis =>
    by_cases isParen : Text.isParen char
    · simp [cellsFrom_of_isParen isParen, inductionHypothesis, utf8Size_of_isParen isParen,
        Nat.add_assoc]
    · simp [cellsFrom_of_not_isParen isParen, inductionHypothesis, Nat.add_assoc]

/-- A string that is closed has its padded body up to the same quote. -/
theorem stringBody_cellsFrom_of_some {chars body rest : List Char}
    (found : stringBody? chars = some (body, rest)) (offset : Nat) :
    Scan.stringBody (cellsFrom offset chars) =
      (cellsFrom offset body,
        ⟨'"', offset + byteSize body⟩ :: cellsFrom (offset + byteSize body + 1) rest) := by
  fun_induction stringBody? chars generalizing body rest offset with
  | case1 => cases found
  | case2 others =>
    cases found
    have notParen : ¬ Text.isParen '"' := by decide
    rw [cellsFrom_of_not_isParen notParen, Scan.stringBody_of_quote rfl]
    rfl
  | case3 => cases found
  | case4 escaped others _ inductionHypothesis =>
    obtain ⟨inner, isInner, same⟩ := Option.map_eq_some_iff.1 found
    cases same
    have body : '\\' :: escaped :: inner.1 = ['\\', escaped] ++ inner.1 := rfl
    rw [stringBody_cellsFrom_of_escape, inductionHypothesis isInner, body, cellsFrom_append,
      PlainScan.byteSize_append, Nat.add_assoc]
  | case5 char others notQuote notBackslash inductionHypothesis =>
    obtain ⟨inner, isInner, same⟩ := Option.map_eq_some_iff.1 found
    cases same
    have body : char :: inner.1 = [char] ++ inner.1 := rfl
    rw [stringBody_cellsFrom_of_other notQuote notBackslash, inductionHypothesis isInner, body,
      cellsFrom_append, PlainScan.byteSize_append, Nat.add_assoc]
    rfl

/-- A string that is not closed takes all characters with padding, too, save a backslash
that has nothing after it. -/
theorem stringBody_cellsFrom_of_unclosed {chars : List Char} (unclosed : stringBody? chars = none)
    (offset : Nat) :
    ∃ body rest, chars = body ++ rest ∧ (rest = [] ∨ rest = ['\\']) ∧
      Scan.stringBody (cellsFrom offset chars) =
        (cellsFrom offset body, cellsFrom (offset + byteSize body) rest) := by
  fun_induction stringBody? chars generalizing offset with
  | case1 => exact ⟨[], [], rfl, .inl rfl, rfl⟩
  | case2 others => cases unclosed
  | case3 =>
    have notParen : ¬ Text.isParen '\\' := by decide
    refine ⟨[], ['\\'], rfl, .inr rfl, ?_⟩
    simp [cellsFrom_of_not_isParen notParen, Scan.stringBody]
  | case4 escaped others _ inductionHypothesis =>
    obtain ⟨body, rest, split, ending, inner⟩ := inductionHypothesis
      (Option.map_eq_none_iff.1 unclosed) (offset + byteSize ['\\', escaped])
    refine ⟨['\\', escaped] ++ body, rest, by simp [split], ending, ?_⟩
    rw [stringBody_cellsFrom_of_escape, inner, cellsFrom_append, PlainScan.byteSize_append,
      Nat.add_assoc]
  | case5 char others notQuote notBackslash inductionHypothesis =>
    obtain ⟨body, rest, split, ending, inner⟩ := inductionHypothesis
      (Option.map_eq_none_iff.1 unclosed) (offset + char.utf8Size)
    refine ⟨[char] ++ body, rest, by simp [split], ending, ?_⟩
    rw [stringBody_cellsFrom_of_other notQuote notBackslash, inner, cellsFrom_append,
      PlainScan.byteSize_append, Nat.add_assoc]
    rfl

/-- A string that is not closed is not closed with padding either. -/
theorem stringBody_cellsFrom_of_none {chars : List Char} (unclosed : stringBody? chars = none)
    (offset : Nat) :
    ∀ closing ∈ (Scan.stringBody (cellsFrom offset chars)).2.head?, closing.char ≠ '"' := by
  obtain ⟨body, rest, -, ending, taken⟩ := stringBody_cellsFrom_of_unclosed unclosed offset
  have notParen : ¬ Text.isParen '\\' := by decide
  rw [taken]
  rcases ending with rfl | rfl
  · simp
  · simp [cellsFrom_of_not_isParen notParen]

end PaddedText

namespace Scan

variable {sourceSize : Nat} {first : Cell} {others : List Cell}

/-- What a step finds stands in front of the tokens of what it leaves. -/
theorem tokens_of_step {found : Step} (stepped : step sourceSize first others = .ok found) :
    tokens sourceSize (first :: others) =
      (tokens sourceSize found.rest).map fun following => found.token.toList ++ following := by
  rw [tokens]
  split
  · rename_i fault refused
    cases stepped.symm.trans refused
  · rename_i other accepted
    cases stepped.symm.trans accepted
    dsimp only
    cases tokens sourceSize found.rest <;> rfl

/-- A step that fails ends the scan. -/
theorem tokens_of_fault {fault : ScanFault}
    (stepped : step sourceSize first others = .error fault) :
    tokens sourceSize (first :: others) = .error fault := by
  rw [tokens]
  split
  · rename_i other refused
    cases stepped.symm.trans refused
    rfl
  · rename_i found accepted
    cases stepped.symm.trans accepted

/-- A blank is skipped with all that follow it. -/
theorem step_of_isBlank (isBlank : Text.isBlank first.char) :
    step sourceSize first others = .ok ⟨none, (spanWhile Text.isBlank others).2⟩ := by
  rcases Text.isBlank_iff.1 isBlank with same | same | same <;> simp [step, same, Text.isBlank]

/-- Blanks at the start of a text do not matter. -/
theorem tokens_dropWhile_isBlank (cells : List Cell) :
    tokens sourceSize (cells.dropWhile fun cell => Text.isBlank cell.char) =
      tokens sourceSize cells := by
  cases cells with
  | nil => rfl
  | cons cell rest =>
    rw [List.dropWhile_cons]
    split
    · rename_i isBlank
      rw [tokens_of_step (step_of_isBlank isBlank), spanWhile]
      cases tokens sourceSize (rest.dropWhile fun cell => Text.isBlank cell.char) <;> rfl
    · rfl

/-- A blank can be skipped by itself. -/
theorem tokens_of_isBlank (isBlank : Text.isBlank first.char) :
    tokens sourceSize (first :: others) = tokens sourceSize others := by
  rw [← tokens_dropWhile_isBlank, List.dropWhile_cons, if_pos isBlank, tokens_dropWhile_isBlank]

end Scan

/-- A token whose text, if it is a string, is padded. -/
def Token.padded : Token → Token
  | .text body => .text (padText body)
  | token => token

namespace PlainScan

open PaddedText

variable {sourceSize offset : Nat} {first : Char} {others : List Char}

/-- Whether a step on a padded text does what a step on the source does: it finds the
same at the same place and leaves the same to scan, or it has the same fault. -/
def StepAgrees (sourceSize offset : Nat) : Except Code Step → Except ScanFault Scan.Step → Prop
  | .ok plain, .ok padded =>
    padded.token = plain.token.map (fun token =>
      ⟨token.padded, .ofBounds offset (offset + byteSize plain.taken)⟩) ∧
    Scan.tokens sourceSize padded.rest =
      Scan.tokens sourceSize (cellsFrom (offset + byteSize plain.taken) plain.rest)
  | .error code, .error fault =>
    fault.diagnostic.code = some code ∧
      fault.diagnostic.labels.map (fun label => label.span.start) = [offset]
  | _, _ => False

/-- Whether the end of file stands at the given offset and is the last of some
tokens and no other. -/
def EndsAt (offset : Nat) (tokens : List (Located Token)) : Prop :=
  ∃ front, tokens = front ++ [⟨.endOfFile, .point offset⟩] ∧
    ∀ token ∈ front, token.value ≠ .endOfFile

/-- Whether a scan of a padded text does what a scan of the source does: it finds the
same tokens, save that strings are padded, or it has the same fault. -/
def Agrees (sourceSize : Nat) :
    Except Fault (List (Located Token)) → Except ScanFault (List (Located Token)) → Prop
  | .ok plain, .ok padded =>
    EndsAt sourceSize plain ∧ padded = plain.map fun token => ⟨token.value.padded, token.span⟩
  | .error expected, .error fault =>
    fault.diagnostic.code = some expected.code ∧
      fault.diagnostic.labels.map (fun label => label.span.start) = [expected.start]
  | _, _ => False

/-- The span over a run is that of its characters. -/
theorem spanOver_run {run : List Char} (noParen : ∀ char ∈ run, ¬ Text.isParen char)
    (within : offset + byteSize (first :: run) ≤ sourceSize) :
    Scan.spanOver sourceSize ⟨first, offset⟩ (cellsFrom (offset + first.utf8Size) run) =
      .ofBounds offset (offset + byteSize (first :: run)) := by
  have here : (⟨first, offset⟩ : Cell).stop = offset + first.utf8Size := rfl
  rw [Scan.spanOver, Scan.spanBetween, stop_getLastD noParen here, Nat.add_assoc,
    ← byteSize_cons, Nat.min_eq_left within]

/-- The span of one character. -/
theorem spanBetween_self (within : offset + byteSize [first] ≤ sourceSize) :
    Scan.spanBetween sourceSize ⟨first, offset⟩ ⟨first, offset⟩ =
      .ofBounds offset (offset + byteSize [first]) :=
  spanOver_run (by simp) within

/-- No paren is in a run that stops at parens. -/
theorem noParen_takeWhile {accepts : Char → Bool}
    (noParen : ∀ char, Text.isParen char → accepts char = false) (chars : List Char) :
    ∀ char ∈ chars.takeWhile accepts, ¬ Text.isParen char := by
  intro char member isParen
  have accepted := List.mem_takeWhile_imp member
  rw [noParen char isParen] at accepted
  cases accepted

/-- The cells after that of a character: for a paren they start with a blank. -/
def following (offset : Nat) (first : Char) (others : List Char) : List Cell :=
  if Text.isParen first then
    ⟨' ', offset + 1⟩ :: cellsFrom (offset + 1) others
  else
    cellsFrom (offset + first.utf8Size) others

/-- The blank before a paren can be left out. -/
theorem tokens_cellsFrom_cons :
    Scan.tokens sourceSize (cellsFrom offset (first :: others)) =
      Scan.tokens sourceSize (⟨first, offset⟩ :: following offset first others) := by
  rw [following]
  split
  · rename_i isParen
    rw [cellsFrom_of_isParen isParen, Scan.tokens_of_isBlank rfl]
  · rename_i notParen
    rw [cellsFrom_of_not_isParen notParen]

/-- No paren is a digit. -/
theorem noParen_isDecimalDigit {char : Char} (isParen : Text.isParen char) :
    Text.isDecimalDigit char = false := by
  rcases Text.isParen_iff.1 isParen with rfl | rfl <;> rfl

/-- No paren can stand in an identifier. -/
theorem noParen_isIdentifierChar {char : Char} (isParen : Text.isParen char) :
    Text.isIdentifierChar char = false := by
  simp [Text.isIdentifierChar, isParen]

/-- What a run takes stays inside of the source. -/
theorem byteSize_run_le {accepts : Char → Bool}
    (within : offset + byteSize (first :: others) ≤ sourceSize) :
    offset + byteSize (first :: others.takeWhile accepts) ≤ sourceSize := by
  have whole : byteSize others =
      byteSize (others.takeWhile accepts) + byteSize (others.dropWhile accepts) := by
    rw [← byteSize_append, List.takeWhile_append_dropWhile]
  simp only [byteSize_cons] at within ⊢
  omega

/-- The span of a string reaches from its opening to its closing quote. -/
theorem spanBetween_quotes {quote : Char} {body : List Char}
    (within : offset + byteSize (quote :: (body ++ ['"'])) ≤ sourceSize) :
    Scan.spanBetween sourceSize ⟨quote, offset⟩ ⟨'"', offset + quote.utf8Size + byteSize body⟩ =
      .ofBounds offset (offset + byteSize (quote :: (body ++ ['"']))) := by
  have stop : (⟨'"', offset + quote.utf8Size + byteSize body⟩ : Cell).stop =
      offset + byteSize (quote :: (body ++ ['"'])) := by
    simp only [Cell.stop, byteSize_cons, byteSize_append, byteSize_nil]
    omega
  rw [Scan.spanBetween, stop, Nat.min_eq_left within]

/-- Strings are read alike with padding and without. -/
theorem stepAgrees_string {quote : Char}
    (within : offset + byteSize (quote :: others) ≤ sourceSize) :
    StepAgrees sourceSize offset (readString quote others)
      (Scan.readString sourceSize ⟨quote, offset⟩
        (cellsFrom (offset + quote.utf8Size) others)) := by
  rw [readString, Scan.readString]
  cases found : stringBody? others with
  | some split =>
    obtain ⟨body, rest⟩ := split
    have taken : byteSize (quote :: others) =
        byteSize (quote :: (body ++ ['"'])) + byteSize rest := by
      rw [← stringBody?_eq_some found, ← byteSize_append]
      simp
    have stop : offset + quote.utf8Size + byteSize body + 1 =
        offset + byteSize (quote :: (body ++ ['"'])) := by
      have oneByte : '"'.utf8Size = 1 := rfl
      simp only [byteSize_cons, byteSize_append, byteSize_nil, oneByte]
      omega
    rw [stringBody_cellsFrom_of_some found]
    simp only [beq_self_eq_true, if_true]
    rw [textOf_cellsFrom, spanBetween_quotes (by omega), stop]
    exact ⟨rfl, rfl⟩
  | none =>
    have unclosed := stringBody_cellsFrom_of_none found (offset + quote.utf8Size)
    cases read : Scan.stringBody (cellsFrom (offset + quote.utf8Size) others) with
    | mk body after =>
      cases after with
      | nil => exact ⟨rfl, rfl⟩
      | cons closing rest =>
        rw [read] at unclosed
        have notQuote : closing.char ≠ '"' := unclosed closing rfl
        simp only [beq_iff_eq, notQuote, if_false]
        exact ⟨rfl, rfl⟩

/-- The scanner adds up digits as numerals are read. -/
theorem decimalValue_eq (digits : List Char) :
    Scan.decimalValue digits = Nat.ofDigitChars 10 digits 0 :=
  rfl

/-- The scanner accepts numbers of 63 bits. -/
theorem integerBound_eq : Scan.integerBound = Nat.pow 2 63 :=
  rfl

/-- Numbers are read alike with padding and without. -/
theorem stepAgrees_number (within : offset + byteSize (first :: others) ≤ sourceSize) :
    StepAgrees sourceSize offset (readNumber first others)
      (Scan.readNumber sourceSize ⟨first, offset⟩
        (cellsFrom (offset + first.utf8Size) others)) := by
  have digits := noParen_takeWhile (fun _ => noParen_isDecimalDigit) others
  have span := spanOver_run digits (byteSize_run_le within)
  rw [readNumber, Scan.readNumber, spanWhile_cellsFrom rfl fun _ => noParen_isDecimalDigit]
  dsimp only
  rw [map_char_of_noParen digits, span, decimalValue_eq, integerBound_eq]
  split
  · exact ⟨rfl, by rw [Nat.add_assoc]; rfl⟩
  · exact ⟨rfl, rfl⟩

/-- Identifiers are read alike with padding and without. -/
theorem stepAgrees_identifier (within : offset + byteSize (first :: others) ≤ sourceSize) :
    StepAgrees sourceSize offset
      (.ok (takeRun Text.isIdentifierChar first others fun run =>
        some (.identifier (String.ofList run))))
      (.ok (Scan.readIdentifier sourceSize ⟨first, offset⟩
        (cellsFrom (offset + first.utf8Size) others))) := by
  have run := noParen_takeWhile (fun _ => noParen_isIdentifierChar) others
  have span := spanOver_run run (byteSize_run_le within)
  rw [Scan.readIdentifier, spanWhile_cellsFrom rfl fun _ => noParen_isIdentifierChar]
  dsimp only
  rw [Scan.textOf, List.map_cons, map_char_of_noParen run, span]
  exact ⟨rfl, by rw [Nat.add_assoc]; rfl⟩

/-- Blanks are skipped one by one or all at once. -/
theorem tokens_cellsFrom_dropWhile_isBlank (chars : List Char) :
    Scan.tokens sourceSize (cellsFrom offset chars) =
      Scan.tokens sourceSize (cellsFrom (offset + byteSize (chars.takeWhile Text.isBlank))
        (chars.dropWhile Text.isBlank)) := by
  induction chars generalizing offset with
  | nil => rfl
  | cons char rest inductionHypothesis =>
    rw [List.takeWhile_cons, List.dropWhile_cons]
    by_cases isBlank : Text.isBlank char
    · have notParen : ¬ Text.isParen char := by
        intro isParen
        rcases Text.isParen_iff.1 isParen with rfl | rfl <;> cases isBlank
      rw [if_pos isBlank, if_pos isBlank, cellsFrom_of_not_isParen notParen,
        Scan.tokens_of_isBlank isBlank, inductionHypothesis, byteSize_cons, Nat.add_assoc]
    · rw [if_neg isBlank, if_neg isBlank]
      rfl

/-- Every step on a padded text agrees with the step on the source. -/
theorem stepAgrees (within : offset + byteSize (first :: others) ≤ sourceSize) :
    StepAgrees sourceSize offset (step first others)
      (Scan.step sourceSize ⟨first, offset⟩ (following offset first others)) := by
  have inside : offset + byteSize [first] ≤ sourceSize := by
    simp only [byteSize_cons, byteSize_nil] at within ⊢
    omega
  have hereSpan := spanBetween_self inside
  by_cases isOpen : first = '('
  · subst isOpen
    exact ⟨congrArg (fun span => some (Located.mk Token.openParen span)) hereSpan,
      Scan.tokens_of_isBlank rfl⟩
  by_cases isClose : first = ')'
  · subst isClose
    exact ⟨congrArg (fun span => some (Located.mk Token.closeParen span)) hereSpan,
      Scan.tokens_of_isBlank rfl⟩
  have notParen : ¬ Text.isParen first := by simp [Text.isParen, isOpen, isClose]
  rw [step, Scan.step, following, if_neg notParen, if_neg isOpen, if_neg isClose]
  simp only [beq_iff_eq, if_neg isOpen, if_neg isClose]
  by_cases isLineFeed : first = '\n'
  · rw [if_pos isLineFeed, if_pos isLineFeed, hereSpan]
    exact ⟨rfl, rfl⟩
  rw [if_neg isLineFeed, if_neg isLineFeed]
  by_cases isBlank : Text.isBlank first
  · rw [if_pos isBlank, if_pos isBlank]
    refine ⟨rfl, ?_⟩
    have blanks : Scan.tokens sourceSize
        (Scan.spanWhile Text.isBlank (cellsFrom (offset + first.utf8Size) others)).2 = _ :=
      Scan.tokens_dropWhile_isBlank _
    rw [blanks, tokens_cellsFrom_dropWhile_isBlank, Nat.add_assoc]
    rfl
  rw [if_neg isBlank, if_neg isBlank]
  by_cases isComment : first = ';'
  · rw [if_pos isComment, if_pos isComment]
    refine ⟨rfl, ?_⟩
    dsimp only
    rw [skipComment_cellsFrom, byteSize_cons, Nat.add_assoc]
  rw [if_neg isComment, if_neg isComment]
  by_cases isQuote : first = '"'
  · rw [if_pos isQuote, if_pos isQuote]
    exact stepAgrees_string within
  rw [if_neg isQuote, if_neg isQuote]
  by_cases isDigit : Text.isDecimalDigit first
  · rw [if_pos isDigit, if_pos isDigit]
    exact stepAgrees_number within
  rw [if_neg isDigit, if_neg isDigit]
  by_cases isWhiteSpace : Text.isWhiteSpace first
  · rw [if_pos isWhiteSpace, if_pos isWhiteSpace]
    exact ⟨rfl, rfl⟩
  · rw [if_neg isWhiteSpace, if_neg isWhiteSpace]
    exact stepAgrees_identifier within

/-- A scan of the padded text goes on with a step and the padded form of what the step
leaves. -/
theorem tokens_cellsFrom_of_step {found : Step} (stepped : step first others = .ok found)
    (within : offset + byteSize (first :: others) ≤ sourceSize) :
    let stop := offset + byteSize found.taken
    Scan.tokens sourceSize (cellsFrom offset (first :: others)) =
      (Scan.tokens sourceSize (cellsFrom stop found.rest)).map fun rest =>
        (found.token.map fun token => ⟨token.padded, .ofBounds offset stop⟩).toList ++ rest := by
  have agrees := stepAgrees within
  rw [stepped] at agrees
  rw [tokens_cellsFrom_cons]
  cases padded : Scan.step sourceSize ⟨first, offset⟩ (following offset first others) with
  | error fault =>
    rw [padded] at agrees
    exact agrees.elim
  | ok paddedFound =>
    rw [padded] at agrees
    rw [Scan.tokens_of_step padded, agrees.1, agrees.2]

/-- A scan of the padded text stops with a step that has a fault. -/
theorem tokens_cellsFrom_of_fault {code : Code} (stepped : step first others = .error code)
    (within : offset + byteSize (first :: others) ≤ sourceSize) :
    Agrees sourceSize (.error ⟨code, offset⟩)
      (Scan.tokens sourceSize (cellsFrom offset (first :: others))) := by
  have agrees := stepAgrees within
  rw [stepped] at agrees
  rw [tokens_cellsFrom_cons]
  cases padded : Scan.step sourceSize ⟨first, offset⟩ (following offset first others) with
  | ok found =>
    rw [padded] at agrees
    exact agrees.elim
  | error fault =>
    rw [padded] at agrees
    rw [Scan.tokens_of_fault padded]
    exact agrees

/-- What a step takes and what it leaves make up the rest of the source. -/
theorem byteSize_rest_of_step {found : Step} (stepped : step first others = .ok found)
    (whole : offset + byteSize (first :: others) = sourceSize) :
    offset + byteSize found.taken + byteSize found.rest = sourceSize := by
  obtain ⟨more, taken, split⟩ := split_of_step stepped
  rw [← whole, taken, ← split, byteSize_cons, byteSize_cons, byteSize_append]
  omega

/-- A token before the end of file leaves the end where it is. -/
theorem EndsAt.append {front tokens : List (Located Token)} (ends : EndsAt sourceSize tokens)
    (noEnd : ∀ token ∈ front, token.value ≠ .endOfFile) :
    EndsAt sourceSize (front ++ tokens) := by
  obtain ⟨middle, rfl, middleNoEnd⟩ := ends
  refine ⟨front ++ middle, (List.append_assoc _ _ _).symm, ?_⟩
  intro token member
  rcases List.mem_append.1 member with early | late
  · exact noEnd token early
  · exact middleNoEnd token late

/-- Scanning the padded form of what is left of a source agrees with scanning it as it
stands. -/
theorem agrees_tokens (chars : List Char) (whole : offset + byteSize chars = sourceSize) :
    Agrees sourceSize (tokens offset chars) (Scan.tokens sourceSize (cellsFrom offset chars)) := by
  fun_induction tokens offset chars with
  | case1 offset =>
    rw [byteSize_nil, Nat.add_zero] at whole
    subst whole
    rw [cellsFrom_nil, Scan.tokens]
    exact ⟨⟨[], rfl, by simp⟩, rfl⟩
  | case2 offset first others code stepped =>
    exact tokens_cellsFrom_of_fault stepped (Nat.le_of_eq whole)
  | case3 offset first others found stepped _ stop fault failed inductionHypothesis =>
    have rest := inductionHypothesis (byteSize_rest_of_step stepped whole)
    rw [failed] at rest
    rw [tokens_cellsFrom_of_step stepped (Nat.le_of_eq whole)]
    cases padded : Scan.tokens sourceSize (cellsFrom stop found.rest) with
    | ok tokens =>
      rw [padded] at rest
      exact rest.elim
    | error paddedFault =>
      rw [padded] at rest
      exact rest
  | case4 offset first others found stepped _ stop following scanned inductionHypothesis =>
    have rest := inductionHypothesis (byteSize_rest_of_step stepped whole)
    rw [scanned] at rest
    rw [tokens_cellsFrom_of_step stepped (Nat.le_of_eq whole)]
    cases padded : Scan.tokens sourceSize (cellsFrom stop found.rest) with
    | error fault =>
      rw [padded] at rest
      exact rest.elim
    | ok tokens =>
      rw [padded] at rest
      obtain ⟨ends, rfl⟩ := rest
      refine ⟨ends.append ?_, ?_⟩
      · intro token member
        obtain ⟨own, isOwn, rfl⟩ := List.mem_map.1 member
        intro isEnd
        exact token_ne_endOfFile_of_step stepped (isEnd ▸ Option.mem_toList.1 isOwn)
      · cases found.token <;> rfl

end PlainScan

/-- Scanning a source after padding it agrees with scanning it as it stands. Both find
the same tokens at the same places, with one end of file at the end of the source, but
the body of each string is padded; or both have a fault of the same code that starts
at the same place. -/
theorem PaddedText.agrees_tokens_ofSource (source : String) :
    PlainScan.Agrees source.utf8ByteSize (PlainScan.tokens 0 source.toList)
      (PaddedText.ofSource source).tokens := by
  have whole : 0 + PlainScan.byteSize source.toList = source.utf8ByteSize := by
    rw [Nat.zero_add, PlainScan.byteSize_toList]
  exact PlainScan.agrees_tokens source.toList whole

end Lisplet

import Lisplet.Proofs.PaddedScan

/-!
# Writing tokens down

A token is written the way a program would write it, and tokens are written with a space
between any two of them. A scan of what is written finds the same tokens again. The tokens
that can be written are those that a scan can find, save that a paren inside of a string is
padded before it is scanned.
-/

namespace Lisplet

/-- The body of a string is made of escapes, a backslash with any character after it, and of
characters other than quotes and backslashes. -/
inductive IsStringBody : List Char → Prop where
  | empty : IsStringBody []
  | escape (escaped : Char) {rest : List Char} (body : IsStringBody rest) :
      IsStringBody ('\\' :: escaped :: rest)
  | plain {char : Char} {rest : List Char} (notQuote : char ≠ '"') (notBackslash : char ≠ '\\')
      (body : IsStringBody rest) : IsStringBody (char :: rest)

/-- The name of an identifier goes on up to white space or a paren, and does not begin like
a number, a string or a comment. -/
structure IsName (name : List Char) : Prop where
  nonempty : name ≠ []
  unbroken : ∀ char ∈ name, Text.isWhiteSpace char = false ∧ Text.isParen char = false
  start : ∀ first ∈ name.head?, Text.isDecimalDigit first = false ∧ first ≠ '"' ∧ first ≠ ';'

namespace Token

/-- Whether a program can write a token down. -/
def Spellable : Token → Prop
  | openParen => True
  | closeParen => True
  | identifier name => IsName name.toList
  | number value => 0 ≤ value.toInt
  | text body => IsStringBody body.toList
  | endOfLine => True
  | endOfFile => False

/-- Whether no paren is inside of a string. -/
def ParenFree : Token → Prop
  | text body => ∀ char ∈ body.toList, ¬ Text.isParen char
  | _ => True

/-- How a program writes a token down. -/
def spelling : Token → String
  | openParen => "("
  | closeParen => ")"
  | identifier name => name
  | number value => Text.integer value.toInt
  | text body => "\"" ++ body ++ "\""
  | endOfLine => "\n"
  | endOfFile => ""

/-- Tokens written down one after another, with a space between any two. -/
def written (tokens : List Token) : String :=
  " ".intercalate (tokens.map spelling)

end Token

/-- A source is scanned to the given tokens and the end of file. -/
def ScansTo (source : String) (tokens : List Token) : Prop :=
  ∃ located, (PaddedText.ofSource source).tokens = .ok located ∧
    located.map Located.value = tokens ++ [.endOfFile]

namespace PlainScan

variable {first : Char} {others : List Char}

/-- Characters are scanned to the given tokens and the end of file, wherever they stand. -/
def CharsScanTo (chars : List Char) (tokens : List Token) : Prop :=
  ∀ offset, ∃ located, PlainScan.tokens offset chars = .ok located ∧
    located.map Located.value = tokens ++ [.endOfFile]

theorem charsScanTo_nil : CharsScanTo [] [] := by
  intro offset
  exact ⟨_, by rw [PlainScan.tokens], rfl⟩

/-- A scan goes on with a step and what the step leaves. -/
theorem charsScanTo_of_step {found : Step} {tokens : List Token}
    (stepped : step first others = .ok found) (rest : CharsScanTo found.rest tokens) :
    CharsScanTo (first :: others) (found.token.toList ++ tokens) := by
  intro offset
  obtain ⟨located, scanned, values⟩ := rest (offset + byteSize found.taken)
  rw [PlainScan.tokens]
  split
  next code failed => cases stepped.symm.trans failed
  next other succeeded =>
    cases stepped.symm.trans succeeded
    dsimp only
    rw [scanned]
    refine ⟨_, rfl, ?_⟩
    rw [List.map_append, values, List.append_assoc]
    cases found.token <;> rfl

/-- What follows a token that is written down: nothing, or a space. -/
def Apart (rest : List Char) : Prop :=
  ∀ next ∈ rest.head?, next = ' '

/-- Tokens that are written down, each behind a space. -/
def spaced (tokens : List Token) : List Char :=
  tokens.flatMap fun token => ' ' :: token.spelling.toList

theorem apart_spaced (tokens : List Token) : Apart (spaced tokens) := by
  intro next isNext
  cases tokens with
  | nil => cases isNext
  | cons token others =>
    cases isNext
    rfl

theorem toList_written_cons (token : Token) (others : List Token) :
    (Token.written (token :: others)).toList = token.spelling.toList ++ spaced others := by
  induction others generalizing token with
  | nil => simp [Token.written, spaced]
  | cons next rest inductionHypothesis =>
    have following := inductionHypothesis next
    simp only [Token.written, List.map_cons] at following ⊢
    rw [String.intercalate_cons_cons, String.toList_append, following]
    simp [spaced]

/-- A run that is followed by a space is taken as it stands. -/
theorem takeRun_append {accepts : Char → Bool} (noBlank : accepts ' ' = false)
    {run rest : List Char} (accepted : ∀ char ∈ run, accepts char) (apart : Apart rest)
    (first : Char) (token : List Char → Option Token) :
    takeRun accepts first (run ++ rest) token = ⟨token (first :: run), first :: run, rest⟩ := by
  have stops : rest.takeWhile accepts = [] ∧ rest.dropWhile accepts = rest := by
    cases rest with
    | nil => exact ⟨rfl, rfl⟩
    | cons next following =>
      obtain rfl := apart next rfl
      simp [noBlank]
  rw [takeRun, List.takeWhile_append_of_pos accepted, List.dropWhile_append_of_pos accepted,
    stops.1, stops.2, List.append_nil]

theorem step_of_isDecimalDigit (isDigit : Text.isDecimalDigit first) :
    step first others = readNumber first others := by
  have different : first ≠ '(' ∧ first ≠ ')' ∧ first ≠ '\n' ∧ first ≠ ';' ∧ first ≠ '"' := by
    refine ⟨?_, ?_, ?_, ?_, ?_⟩ <;> rintro rfl <;> cases isDigit
  have notBlank : ¬ Text.isBlank first := by
    intro isBlank
    rcases Text.isBlank_iff.1 isBlank with rfl | rfl | rfl <;> cases isDigit
  simp [step, different, notBlank, isDigit]

theorem step_of_isBlank (isBlank : Text.isBlank first) :
    step first others = .ok (takeRun Text.isBlank first others fun _ => none) := by
  rcases Text.isBlank_iff.1 isBlank with rfl | rfl | rfl <;> rfl

theorem isWhiteSpace_of_isBlank (isBlank : Text.isBlank first) : Text.isWhiteSpace first := by
  rcases Text.isBlank_iff.1 isBlank with rfl | rfl | rfl <;> rfl

/-- The name of an identifier is taken whole. -/
theorem step_of_isName {rest : List Char} (isName : IsName (first :: others))
    (apart : Apart rest) :
    step first (others ++ rest) =
      .ok ⟨some (.identifier (String.ofList (first :: others))), first :: others, rest⟩ := by
  obtain ⟨notWhiteSpace, notParen⟩ := isName.unbroken first List.mem_cons_self
  obtain ⟨notDigit, notQuote, notComment⟩ := isName.start first rfl
  have notBlank : ¬ Text.isBlank first := by
    intro isBlank
    cases notWhiteSpace.symm.trans (isWhiteSpace_of_isBlank isBlank)
  have different : first ≠ '(' ∧ first ≠ ')' ∧ first ≠ '\n' := by
    refine ⟨?_, ?_, ?_⟩
    · rintro rfl
      cases notParen
    · rintro rfl
      cases notParen
    · rintro rfl
      cases notWhiteSpace
  have following : ∀ char ∈ others, Text.isIdentifierChar char := by
    intro char member
    obtain ⟨charNotWhiteSpace, charNotParen⟩ :=
      isName.unbroken char (List.mem_cons_of_mem first member)
    simp [Text.isIdentifierChar, charNotWhiteSpace, charNotParen]
  rw [← takeRun_append rfl following apart first fun run => some (.identifier (String.ofList run))]
  simp [step, different, notBlank, notComment, notQuote, notDigit, notWhiteSpace]

/-- The numeral of a number is taken whole, and denotes the number. -/
theorem step_of_numeral {value : Int64} (nonnegative : 0 ≤ value.toInt) {rest : List Char}
    (numeral : (Text.integer value.toInt).toList = first :: others) (apart : Apart rest) :
    step first (others ++ rest) = .ok ⟨some (.number value), first :: others, rest⟩ := by
  obtain ⟨magnitude, same⟩ := Int.eq_ofNat_of_zero_le nonnegative
  have digits : Nat.toDigits 10 magnitude = first :: others := by
    rw [← numeral, same, ← Nat.toList_repr]
    rfl
  have areDigits : ∀ char ∈ first :: others, Text.isDecimalDigit char := by
    intro char member
    rw [← digits] at member
    exact Nat.isDigit_of_mem_toDigits (by decide) (by decide) member
  have small : magnitude < Nat.pow 2 63 := by
    have bounded := value.toInt_lt
    rw [same] at bounded
    exact Int.ofNat_lt.1 bounded
  have denoted : Nat.ofDigitChars 10 (first :: others) 0 = magnitude := by
    rw [← digits]
    exact Nat.ofDigitChars_toDigits (by decide) (by decide)
  have sameValue : Int64.ofNat magnitude = value := by
    apply Int64.toInt_inj.1
    rw [Int64.toInt_ofNat_of_lt small, same]
  have taken := takeRun_append rfl
    (fun char member => areDigits char (List.mem_cons_of_mem first member)) apart first
    fun _ => some (.number value)
  have run : (others ++ rest).takeWhile Text.isDecimalDigit = others :=
    (List.cons.inj (congrArg Step.taken taken)).2
  rw [step_of_isDecimalDigit (areDigits first List.mem_cons_self), readNumber, run, denoted,
    if_pos small, sameValue, taken]

/-- The body of a string is taken up to the quote that closes it. -/
theorem stringBody?_of_isStringBody {body : List Char} (isBody : IsStringBody body)
    (rest : List Char) : stringBody? (body ++ '"' :: rest) = some (body, rest) := by
  induction isBody with
  | empty =>
    rw [List.nil_append, stringBody?.eq_def]
    rfl
  | escape escaped _ inductionHypothesis => simp [stringBody?, inductionHypothesis]
  | plain notQuote notBackslash _ inductionHypothesis =>
    rw [List.cons_append, stringBody?.eq_def]
    simp [notQuote, notBackslash, inductionHypothesis]

/-- A token that is written down is taken whole. -/
theorem step_spelling {token : Token} (spellable : token.Spellable) :
    ∃ first others, token.spelling.toList = first :: others ∧
      ∀ rest, Apart rest →
        step first (others ++ rest) = .ok ⟨some token, first :: others, rest⟩ := by
  cases token with
  | openParen => exact ⟨'(', [], rfl, fun _ _ => rfl⟩
  | closeParen => exact ⟨')', [], rfl, fun _ _ => rfl⟩
  | endOfLine => exact ⟨'\n', [], rfl, fun _ _ => rfl⟩
  | endOfFile => exact spellable.elim
  | identifier name =>
    have isName : IsName name.toList := spellable
    cases chars : name.toList with
    | nil => exact absurd chars isName.nonempty
    | cons first others =>
      rw [chars] at isName
      refine ⟨first, others, chars, fun rest apart => ?_⟩
      rw [step_of_isName isName apart, ← chars, String.ofList_toList]
  | number value =>
    have nonnegative : 0 ≤ value.toInt := spellable
    cases numeral : (Text.integer value.toInt).toList with
    | nil =>
      obtain ⟨magnitude, same⟩ := Int.eq_ofNat_of_zero_le nonnegative
      rw [same] at numeral
      exact absurd (Nat.toList_repr.symm.trans numeral) Nat.toDigits_ne_nil
    | cons first others =>
      exact ⟨first, others, numeral, fun _ apart => step_of_numeral nonnegative numeral apart⟩
  | text body =>
    refine ⟨'"', body.toList ++ ['"'], by simp [Token.spelling], fun rest _ => ?_⟩
    have found := stringBody?_of_isStringBody spellable rest
    have stepped : step '"' (body.toList ++ '"' :: rest) =
        readString '"' (body.toList ++ '"' :: rest) := rfl
    rw [List.append_assoc, List.singleton_append, stepped, readString, found]
    dsimp only
    rw [String.ofList_toList]

/-- A scan finds a token that is written down, and goes on behind it. -/
theorem charsScanTo_spelling {token : Token} (spellable : token.Spellable) {rest : List Char}
    (apart : Apart rest) {tokens : List Token} (scanned : CharsScanTo rest tokens) :
    CharsScanTo (token.spelling.toList ++ rest) (token :: tokens) := by
  obtain ⟨first, others, spelled, taken⟩ := step_spelling spellable
  rw [spelled]
  exact charsScanTo_of_step (taken rest apart) scanned

/-- A space in front of a token that is written down makes no difference. -/
theorem charsScanTo_space {token : Token} (spellable : token.Spellable) {rest : List Char}
    (apart : Apart rest) {tokens : List Token} (scanned : CharsScanTo rest tokens) :
    CharsScanTo (' ' :: (token.spelling.toList ++ rest)) (token :: tokens) := by
  have behind := charsScanTo_spelling spellable apart scanned
  obtain ⟨first, others, spelled, taken⟩ := step_spelling spellable
  rw [spelled, List.cons_append] at behind ⊢
  have notBlank : ¬ Text.isBlank first := by
    intro isBlank
    cases (step_of_isBlank isBlank).symm.trans (taken rest apart)
  have kept : (first :: (others ++ rest)).dropWhile Text.isBlank = first :: (others ++ rest) :=
    List.dropWhile_cons_of_neg notBlank
  refine charsScanTo_of_step (step_of_isBlank rfl) ?_
  rwa [takeRun, kept]

/-- A scan finds the tokens that are written down, each behind a space. -/
theorem charsScanTo_spaced {tokens : List Token} (spellable : ∀ token ∈ tokens, token.Spellable) :
    CharsScanTo (spaced tokens) tokens := by
  induction tokens with
  | nil => exact charsScanTo_nil
  | cons token others inductionHypothesis =>
    obtain ⟨tokenSpellable, othersSpellable⟩ := List.forall_mem_cons.1 spellable
    exact charsScanTo_space tokenSpellable (apart_spaced others)
      (inductionHypothesis othersSpellable)

/-- A scan finds the tokens that are written down. -/
theorem charsScanTo_written {tokens : List Token} (spellable : ∀ token ∈ tokens, token.Spellable) :
    CharsScanTo (Token.written tokens).toList tokens := by
  cases tokens with
  | nil => exact charsScanTo_nil
  | cons token others =>
    obtain ⟨tokenSpellable, othersSpellable⟩ := List.forall_mem_cons.1 spellable
    rw [toList_written_cons]
    exact charsScanTo_spelling tokenSpellable (apart_spaced others)
      (charsScanTo_spaced othersSpellable)

end PlainScan

/-- Padding changes nothing in a token without parens. -/
theorem Token.padded_of_parenFree {token : Token} (parenFree : token.ParenFree) :
    token.padded = token := by
  cases token with
  | text body =>
    rw [Token.padded, padText, PaddedText.text, PaddedText.ofSource,
      PaddedText.map_char_of_noParen parenFree, String.ofList_toList]
  | openParen | closeParen | identifier | number | endOfLine | endOfFile => rfl

/-- Where the source is scanned without fault, so is the padded text. -/
theorem PlainScan.Agrees.eq_ok {sourceSize : Nat} {plain : List (Located Token)}
    {padded : Except ScanFault (List (Located Token))}
    (agrees : Agrees sourceSize (.ok plain) padded) :
    padded = .ok (plain.map fun token => ⟨token.value.padded, token.span⟩) := by
  cases padded with
  | error fault => exact agrees.elim
  | ok located => exact congrArg Except.ok agrees.2

/-- Tokens that are written down are found again. -/
theorem scansTo_written {tokens : List Token} (spellable : ∀ token ∈ tokens, token.Spellable)
    (parenFree : ∀ token ∈ tokens, token.ParenFree) : ScansTo (Token.written tokens) tokens := by
  have whole : 0 + PlainScan.byteSize (Token.written tokens).toList =
      (Token.written tokens).utf8ByteSize := by
    rw [Nat.zero_add, PlainScan.byteSize_toList]
  obtain ⟨plain, scanned, values⟩ := PlainScan.charsScanTo_written spellable 0
  have agrees := PlainScan.agrees_tokens (Token.written tokens).toList whole
  rw [scanned] at agrees
  refine ⟨_, agrees.eq_ok, ?_⟩
  have unchanged : ∀ token ∈ tokens ++ [.endOfFile], token.padded = id token := by
    intro token member
    rcases List.mem_append.1 member with written | atEnd
    · exact Token.padded_of_parenFree (parenFree token written)
    · cases List.mem_singleton.1 atEnd
      rfl
  calc (plain.map fun token => (⟨token.value.padded, token.span⟩ : Located Token)).map Located.value
      = (plain.map Located.value).map Token.padded := by
        rw [List.map_map, List.map_map]
        rfl
    _ = tokens ++ [.endOfFile] := by
        rw [values, List.map_congr_left unchanged, List.map_id]

namespace Scan

variable {sourceSize : Nat} {first : Cell} {others : List Cell} {found : Step}

/-- What is read as the body of a string is one. -/
theorem isStringBody_stringBody (cells : List Cell) :
    IsStringBody ((stringBody cells).1.map Cell.char) := by
  fun_induction stringBody cells with
  | case1 => exact .empty
  | case2 => exact .empty
  | case3 cell notEnd =>
    simp only [Bool.or_eq_true, beq_iff_eq, not_or] at notEnd
    exact .plain notEnd.1 notEnd.2 .empty
  | case4 => exact .empty
  | case5 cell next rest notQuote isBackslash body after split_eq inductionHypothesis =>
    rw [split_eq] at inductionHypothesis
    rw [List.map_cons, List.map_cons, beq_iff_eq.1 isBackslash]
    exact .escape next.char inductionHypothesis
  | case6 cell next rest notQuote notBackslash body after split_eq inductionHypothesis =>
    rw [split_eq] at inductionHypothesis
    exact .plain (by simpa using notQuote) (by simpa using notBackslash) inductionHypothesis

theorem toList_textOf (cells : List Cell) : (textOf cells).toList = cells.map Cell.char :=
  String.toList_ofList

/-- A string that was read can be written down. -/
theorem spellable_of_readString (read : readString sourceSize first others = .ok found) :
    ∀ located ∈ found.token, located.value.Spellable := by
  have isBody := isStringBody_stringBody others
  unfold readString at read
  split at read
  next body closing rest split_eq =>
    rw [split_eq] at isBody
    split at read
    · cases read
      rintro _ ⟨⟩
      rw [Token.Spellable, toList_textOf]
      exact isBody
    · cases read
  next => cases read

/-- A number that was read can be written down. -/
theorem spellable_of_readNumber (read : readNumber sourceSize first others = .ok found) :
    ∀ located ∈ found.token, located.value.Spellable := by
  unfold readNumber at read
  dsimp only at read
  split at read
  next small =>
    cases read
    rintro _ ⟨⟩
    rw [Token.Spellable, Int64.toInt_ofNat_of_lt small]
    exact Int.natCast_nonneg _
  next => cases read

/-- An identifier that was read can be written down. -/
theorem spellable_readIdentifier
    (unbroken : Text.isWhiteSpace first.char = false ∧ Text.isParen first.char = false)
    (start : Text.isDecimalDigit first.char = false ∧ first.char ≠ '"' ∧ first.char ≠ ';') :
    ∀ located ∈ (readIdentifier sourceSize first others).token, located.value.Spellable := by
  rintro _ ⟨⟩
  rw [Token.Spellable, toList_textOf]
  constructor
  · exact List.cons_ne_nil _ _
  · refine List.forall_mem_cons.2 ⟨unbroken, ?_⟩
    intro char member
    obtain ⟨cell, isFollowing, rfl⟩ := List.mem_map.1 member
    have accepted := List.mem_takeWhile_imp isFollowing
    simpa [Text.isIdentifierChar] using accepted
  · rintro _ ⟨⟩
    exact start

/-- Whatever a step finds can be written down. -/
theorem spellable_of_step (stepped : step sourceSize first others = .ok found) :
    ∀ located ∈ found.token, located.value.Spellable := by
  unfold step at stepped
  dsimp only at stepped
  split at stepped
  · cases stepped
    rintro _ ⟨⟩
    trivial
  split at stepped
  · cases stepped
    rintro _ ⟨⟩
    trivial
  split at stepped
  · cases stepped
    rintro _ ⟨⟩
    trivial
  split at stepped
  · cases stepped
    rintro _ ⟨⟩
  split at stepped
  · cases stepped
    rintro _ ⟨⟩
  split at stepped
  · exact spellable_of_readString stepped
  split at stepped
  · exact spellable_of_readNumber stepped
  split at stepped
  · cases stepped
  next notOpen notClose _ _ notComment notQuote notDigit notWhiteSpace =>
    cases stepped
    refine spellable_readIdentifier ⟨by simpa using notWhiteSpace, ?_⟩
      ⟨by simpa using notDigit, by simpa using notQuote, by simpa using notComment⟩
    simp [Text.isParen, notOpen, notClose]

/-- A scan finds tokens that can be written down, and then the end of file. -/
theorem spellable_of_tokens {cells : List Cell} {located : List (Located Token)}
    (scanned : tokens sourceSize cells = .ok located) :
    ∃ found, located.map Located.value = found ++ [.endOfFile] ∧
      ∀ token ∈ found, token.Spellable := by
  fun_induction tokens sourceSize cells generalizing located with
  | case1 =>
    cases scanned
    exact ⟨[], rfl, nofun⟩
  | case2 => cases scanned
  | case3 => cases scanned
  | case4 first others found stepped _ following scannedRest inductionHypothesis =>
    cases scanned
    obtain ⟨rest, values, restSpellable⟩ := inductionHypothesis scannedRest
    refine ⟨found.token.toList.map Located.value ++ rest, ?_, ?_⟩
    · rw [List.map_append, values, List.append_assoc]
    · refine List.forall_mem_append.2 ⟨?_, restSpellable⟩
      intro token member
      obtain ⟨own, isOwn, rfl⟩ := List.mem_map.1 member
      exact spellable_of_step stepped own (Option.mem_toList.1 isOwn)

end Scan

/-- Tokens that can be written down, without parens in strings, are found again by a scan of
what is written. Conversely, whatever a scan finds before the end of file can be written down,
parens in strings apart; so if there are none, a scan of what is written finds the same. -/
theorem written_tokens_roundTrip :
    (∀ tokens : List Token, (∀ token ∈ tokens, token.Spellable ∧ token.ParenFree) →
      ScansTo (Token.written tokens) tokens) ∧
    ∀ (source : String) (located : List (Located Token)),
      (PaddedText.ofSource source).tokens = .ok located →
      ∃ tokens, located.map Located.value = tokens ++ [.endOfFile] ∧
        (∀ token ∈ tokens, token.Spellable) ∧
        ((∀ token ∈ tokens, token.ParenFree) → ScansTo (Token.written tokens) tokens) := by
  constructor
  · intro tokens writable
    exact scansTo_written (fun token member => (writable token member).1)
      fun token member => (writable token member).2
  · intro source located scanned
    obtain ⟨tokens, values, spellable⟩ := Scan.spellable_of_tokens scanned
    exact ⟨tokens, values, spellable, scansTo_written spellable⟩

/-- Quotes, comment signs, escapes and line feeds are no separators inside of a token. -/
theorem written_tokens_roundTrip_of_awkward_tokens :
    let tokens : List Token := [.openParen, .identifier "a;\"1", .number 9223372036854775807,
      .text "\\\";\\\\\n", .endOfLine, .closeParen]
    Token.written tokens = "( a;\"1 9223372036854775807 \"\\\";\\\\\n\" \n )" ∧
      ScansTo (Token.written tokens) tokens ∧
      ∃ located, (PaddedText.ofSource (Token.written tokens)).tokens = .ok located ∧
        ∃ found, located.map Located.value = found ++ [.endOfFile] ∧
          ∀ token ∈ found, token.Spellable := by
  intro tokens
  have isName : IsName "a;\"1".toList := by
    constructor <;>
      simp [Text.isWhiteSpace, Text.whiteSpaceRanges, Text.isParen, Text.isDecimalDigit]
  have isBody : IsStringBody "\\\";\\\\\n".toList :=
    .escape '"' (.plain (by decide) (by decide)
      (.escape '\\' (.plain (by decide) (by decide) .empty)))
  have noParen : ∀ char ∈ "\\\";\\\\\n".toList, ¬ Text.isParen char := by
    simp [Text.isParen]
  have nonnegative : 0 ≤ (9223372036854775807 : Int64).toInt := by decide
  have writable : ∀ token ∈ tokens, token.Spellable ∧ token.ParenFree := by
    simp only [tokens, List.forall_mem_cons]
    exact ⟨⟨trivial, trivial⟩, ⟨isName, trivial⟩, ⟨nonnegative, trivial⟩, ⟨isBody, noParen⟩,
      ⟨trivial, trivial⟩, ⟨trivial, trivial⟩, List.forall_mem_nil _⟩
  obtain ⟨forth, back⟩ := written_tokens_roundTrip
  obtain ⟨located, scanned, same⟩ := forth tokens writable
  obtain ⟨found, values, spellable, -⟩ := back (Token.written tokens) located scanned
  exact ⟨by decide, ⟨located, scanned, same⟩, located, scanned, found, values, spellable⟩

end Lisplet

import Lisplet.Proofs.TokenSpelling

/-!
# Tokens cover their source

The tokens that a scan finds and the gaps between them make up the source. A gap holds nothing
but blanks and comments, and each token stands on the characters that it was read from, its
lexeme. This is shown of what is left of a source at any point of a scan, as a relation between
characters and tokens that every step of the scan goes on with; where tokens and gaps stand in the
source is then read off the relation.
-/

namespace Lisplet

open PlainScan (byteSize byteSize_append byteSize_toList)

/-- Whether a span of a source holds the given text. -/
def Span.Holds (span : Span) (source text : String) : Prop :=
  ∃ before after, source = before ++ text ++ after ∧
    span.start = before.utf8ByteSize ∧ span.stop = (before ++ text).utf8ByteSize

/-- Whether a span starts after another and does not overlap it. -/
def Span.Before (earlier later : Span) : Prop :=
  earlier.start < later.start ∧ earlier.stop ≤ later.start

/-- What may stand between tokens: spaces, tabs, carriage returns, and comments up to and with
their line feed. At the end of the source the last comment may do without. -/
inductive IsGap (atEnd : Prop) : List Char → Prop where
  | nothing : IsGap atEnd []
  | blank {char : Char} {rest : List Char} (isBlank : char = ' ' ∨ char = '\t' ∨ char = '\r')
      (gap : IsGap atEnd rest) : IsGap atEnd (char :: rest)
  | comment {body rest : List Char} (oneLine : '\n' ∉ body) (gap : IsGap atEnd rest) :
      IsGap atEnd (';' :: (body ++ '\n' :: rest))
  | lastComment {body : List Char} (oneLine : '\n' ∉ body) (ends : atEnd) :
      IsGap atEnd (';' :: body)

/-- The characters that a token can be read from. -/
inductive Token.Lexeme : Token → List Char → Prop where
  | openParen : Lexeme .openParen ['(']
  | closeParen : Lexeme .closeParen [')']
  | endOfLine : Lexeme .endOfLine ['\n']
  | identifier (name : String) : Lexeme (.identifier name) name.toList
  | number {value : Int64} {digits : List Char} (nonempty : digits ≠ [])
      (areDigits : ∀ char ∈ digits, char.isDigit)
      (inRange : Nat.ofDigitChars 10 digits 0 ≤ Nat.pow 2 63 - 1)
      (denotes : value.toInt = Nat.ofDigitChars 10 digits 0) : Lexeme (.number value) digits
  | text {body : String} (isBody : IsStringBody body.toList) :
      Lexeme (.text (padText body)) ('"' :: (body.toList ++ ['"']))
  | endOfFile : Lexeme .endOfFile []

/-- The spans between tokens, the first of which goes from the given offset to the first token. -/
def gapsFrom (offset : Nat) : List (Located Token) → List Span
  | [] => []
  | token :: others => .ofBounds offset token.span.start :: gapsFrom token.span.stop others

/-- What it means for tokens to cover a source. -/
structure CoversSource (source : String) (tokens : List (Located Token)) : Prop where
  /-- Every token starts after the one before it and does not overlap it. -/
  inOrder : tokens.Pairwise fun earlier later => earlier.span.Before later.span
  /-- Every token stands on a lexeme of its own. -/
  lexemes : ∀ token ∈ tokens, ∃ text : String,
    token.span.Holds source text ∧ token.value.Lexeme text.toList
  /-- There is nothing to be read before, between and after the tokens. -/
  gaps : ∀ gap ∈ gapsFrom 0 tokens, ∃ text : String,
    gap.Holds source text ∧ IsGap (gap.stop = source.utf8ByteSize) text.toList
  /-- The end of file stands at the end of the source and is the last token and no other. -/
  ends : PlainScan.EndsAt source.utf8ByteSize tokens

namespace IsGap

variable {atEnd : Prop} {gap rest : List Char}

/-- Where fewer comments may be left open, fewer gaps are gaps. -/
theorem imp {atOther : Prop} (isGap : IsGap atEnd gap) (moves : atEnd → atOther) :
    IsGap atOther gap := by
  induction isGap with
  | nothing => exact .nothing
  | blank isBlank _ inductionHypothesis => exact .blank isBlank inductionHypothesis
  | comment oneLine _ inductionHypothesis => exact .comment oneLine inductionHypothesis
  | lastComment oneLine ends => exact .lastComment oneLine (moves ends)

/-- A gap without an open comment goes on with another. -/
theorem append (isGap : IsGap False gap) (isRest : IsGap atEnd rest) :
    IsGap atEnd (gap ++ rest) := by
  induction isGap with
  | nothing => exact isRest
  | blank isBlank _ inductionHypothesis => exact .blank isBlank inductionHypothesis
  | @comment body others oneLine _ inductionHypothesis =>
    have whole : ';' :: (body ++ '\n' :: others) ++ rest =
        ';' :: (body ++ '\n' :: (others ++ rest)) := by
      simp
    rw [whole]
    exact .comment oneLine inductionHypothesis
  | lastComment _ ends => exact ends.elim

theorem of_isBlank (areBlank : ∀ char ∈ gap, Text.isBlank char) : IsGap atEnd gap := by
  induction gap with
  | nil => exact .nothing
  | cons char others inductionHypothesis =>
    obtain ⟨isBlank, othersBlank⟩ := List.forall_mem_cons.1 areBlank
    exact .blank (Text.isBlank_iff.1 isBlank) (inductionHypothesis othersBlank)

end IsGap

namespace PlainScan

variable {first : Char} {others : List Char} {found : Step}

theorem isStringBody_of_stringBody? {chars body rest : List Char}
    (isString : stringBody? chars = some (body, rest)) : IsStringBody body := by
  fun_induction stringBody? chars generalizing body rest with
  | case1 => cases isString
  | case2 others =>
    cases isString
    exact .empty
  | case3 => cases isString
  | case4 escaped others _ inductionHypothesis =>
    obtain ⟨inner, isInner, same⟩ := Option.map_eq_some_iff.1 isString
    cases same
    exact .escape escaped (inductionHypothesis isInner)
  | case5 char others notQuote notBackslash inductionHypothesis =>
    obtain ⟨inner, isInner, same⟩ := Option.map_eq_some_iff.1 isString
    cases same
    exact .plain notQuote notBackslash (inductionHypothesis isInner)

/-- Whether a step takes the lexeme of the token that it finds, or a gap if it finds none. -/
def Step.Reads (found : Step) : Prop :=
  match found.token with
  | some token => token.padded.Lexeme found.taken
  | none => IsGap (found.rest = []) found.taken

theorem reads_of_readString (read : readString '"' others = .ok found) : found.Reads := by
  rw [readString] at read
  split at read
  next body rest isString =>
    cases read
    have isBody : IsStringBody (String.ofList body).toList := by
      rw [String.toList_ofList]
      exact isStringBody_of_stringBody? isString
    have lexeme := Token.Lexeme.text isBody
    rwa [String.toList_ofList] at lexeme
  next => cases read

theorem reads_of_readNumber (isDigit : Text.isDecimalDigit first)
    (read : readNumber first others = .ok found) : found.Reads := by
  rw [readNumber] at read
  split at read
  next small =>
    cases read
    refine .number (List.cons_ne_nil _ _) ?_ (Nat.le_sub_one_of_lt small)
      (Int64.toInt_ofNat_of_lt small)
    refine List.forall_mem_cons.2 ⟨isDigit, fun char member => ?_⟩
    exact List.mem_takeWhile_imp member
  next => cases read

/-- A comment is a gap, and where it has no line feed, nothing follows it. -/
theorem isGap_comment (chars : List Char) :
    let comment := chars.takeWhile fun char => char != '\n'
    let ending := chars.dropWhile fun char => char != '\n'
    IsGap (ending.drop 1 = []) (';' :: (comment ++ ending.take 1)) := by
  intro comment ending
  have oneLine : '\n' ∉ comment := by
    intro member
    have accepted := List.mem_takeWhile_imp member
    simp at accepted
  have stops : ∀ char ∈ ending.head?, char = '\n' := by
    intro char isFirst
    have refused := List.head?_dropWhile_not (fun char => char != '\n') chars
    rw [isFirst] at refused
    simpa using refused
  cases isEnding : ending with
  | nil =>
    rw [List.take_nil, List.append_nil]
    exact .lastComment oneLine rfl
  | cons lineFeed rest =>
    rw [stops lineFeed (by rw [isEnding]; rfl)]
    exact .comment oneLine .nothing

/-- Every step takes a lexeme or a gap. -/
theorem reads_of_step (stepped : step first others = .ok found) : found.Reads := by
  rw [step] at stepped
  split at stepped
  next isOpen =>
    cases stepped
    rw [isOpen]
    exact .openParen
  split at stepped
  next isClose =>
    cases stepped
    rw [isClose]
    exact .closeParen
  split at stepped
  next isLineFeed =>
    cases stepped
    rw [isLineFeed]
    exact .endOfLine
  split at stepped
  next isBlank =>
    cases stepped
    exact .of_isBlank (List.forall_mem_cons.2
      ⟨isBlank, fun char member => List.mem_takeWhile_imp member⟩)
  split at stepped
  next isComment =>
    cases stepped
    rw [isComment]
    exact isGap_comment others
  split at stepped
  next isQuote =>
    rw [isQuote] at stepped
    exact reads_of_readString stepped
  split at stepped
  next isDigit => exact reads_of_readNumber isDigit stepped
  split at stepped
  · cases stepped
  · cases stepped
    have lexeme := Token.Lexeme.identifier
      (String.ofList (first :: others.takeWhile Text.isIdentifierChar))
    rwa [String.toList_ofList] at lexeme

/-- Whether characters that start at an offset are made up of gaps and of the lexemes of the given
tokens, each at its place. -/
inductive Tiles : Nat → List Char → List (Located Token) → Prop where
  | ending {offset : Nat} {gap : List Char} (isGap : IsGap True gap) :
      Tiles offset gap [⟨.endOfFile, .point (offset + byteSize gap)⟩]
  | token {offset start stop : Nat} {gap lexeme rest : List Char} {token : Token}
      {others : List (Located Token)} (isGap : IsGap False gap) (isLexeme : token.Lexeme lexeme)
      (nonempty : lexeme ≠ []) (isStart : start = offset + byteSize gap)
      (isStop : stop = start + byteSize lexeme) (following : Tiles stop rest others) :
      Tiles offset (gap ++ (lexeme ++ rest)) (⟨token, .ofBounds start stop⟩ :: others)

/-- A gap in front of what is tiled is part of the first gap. -/
theorem Tiles.skip {offset : Nat} {gap rest : List Char} {tokens : List (Located Token)}
    (isGap : IsGap (rest = []) gap) (tiles : Tiles (offset + byteSize gap) rest tokens) :
    Tiles offset (gap ++ rest) tokens := by
  cases tiles with
  | ending isRest =>
    rw [Nat.add_assoc, ← byteSize_append]
    refine .ending ?_
    -- A comment without a line feed takes all that is left, so it stays the last.
    by_cases isLast : rest = []
    · rw [isLast, List.append_nil]
      exact isGap.imp fun _ => trivial
    · exact (isGap.imp isLast).append isRest
  | @token _ start stop inner lexeme after token others isInner isLexeme nonempty isStart isStop
      following =>
    have notLast : inner ++ (lexeme ++ after) ≠ [] := by simp [nonempty]
    rw [← List.append_assoc]
    refine .token ((isGap.imp notLast).append isInner) isLexeme nonempty ?_ isStop following
    rw [isStart, byteSize_append, Nat.add_assoc]

/-- The tokens that a scan of some characters finds tile them. -/
theorem tiles_tokens {offset : Nat} {chars : List Char} {plain : List (Located Token)}
    (scanned : tokens offset chars = .ok plain) :
    Tiles offset chars (plain.map fun token => ⟨token.value.padded, token.span⟩) := by
  fun_induction tokens offset chars generalizing plain with
  | case1 offset =>
    cases scanned
    exact .ending .nothing
  | case2 => cases scanned
  | case3 => cases scanned
  | case4 offset first others found stepped _ stop following isFollowing =>
    rename_i inductionHypothesis
    cases scanned
    obtain ⟨more, taken, split⟩ := split_of_step stepped
    have whole : first :: others = found.taken ++ found.rest := by
      rw [taken, ← split, List.cons_append]
    have nonempty : found.taken ≠ [] := by
      rw [taken]
      exact List.cons_ne_nil _ _
    have rest := inductionHypothesis isFollowing
    have reads := reads_of_step stepped
    rw [whole]
    rw [Step.Reads] at reads
    cases isToken : found.token with
    | none =>
      rw [isToken] at reads
      exact .skip reads rest
    | some token =>
      rw [isToken] at reads
      exact .token .nothing reads nonempty (Nat.add_zero _).symm rfl rest

end PlainScan

/-- Characters of a source stand in the span that the bytes up to them and up to their end
tell. -/
theorem Span.holds_of_split {source : String} {span : Span} {before chars after : List Char}
    (split : source.toList = before ++ (chars ++ after)) (isStart : span.start = byteSize before)
    (isStop : span.stop = byteSize before + byteSize chars) :
    span.Holds source (String.ofList chars) := by
  have size : ∀ chars, (String.ofList chars).utf8ByteSize = byteSize chars := by
    intro chars
    rw [← byteSize_toList, String.toList_ofList]
  refine ⟨String.ofList before, String.ofList after, ?_, ?_, ?_⟩
  · rw [← String.ofList_append, ← String.ofList_append, List.append_assoc, ← split,
      String.ofList_toList]
  · rw [isStart, size]
  · rw [isStop, ← String.ofList_append, size, byteSize_append]

namespace PlainScan.Tiles

variable {source : String} {offset : Nat} {before chars : List Char}
  {tokens : List (Located Token)}

/-- No token starts before the characters that are tiled. -/
theorem le_start (tiles : Tiles offset chars tokens) :
    ∀ token ∈ tokens, offset ≤ token.span.start := by
  induction tiles with
  | ending _ => exact List.forall_mem_singleton.2 (Nat.le_add_right _ _)
  | @token offset start stop gap lexeme rest token others _ _ _ isStart isStop _
      inductionHypothesis =>
    have starts : offset ≤ start := by omega
    refine List.forall_mem_cons.2 ⟨starts, fun later isLater => ?_⟩
    have follows := inductionHypothesis later isLater
    omega

theorem inOrder (tiles : Tiles offset chars tokens) :
    tokens.Pairwise fun earlier later => earlier.span.Before later.span := by
  induction tiles with
  | ending _ => exact List.pairwise_singleton _ _
  | @token offset start stop gap lexeme rest token others _ _ nonempty isStart isStop following
      inductionHypothesis =>
    refine List.pairwise_cons.2 ⟨fun later isLater => ?_, inductionHypothesis⟩
    have follows := following.le_start later isLater
    have positive : 0 < byteSize lexeme := by
      cases lexeme with
      | nil => exact absurd rfl nonempty
      | cons char more => exact Nat.lt_add_right _ char.utf8Size_pos
    have stops : (Span.ofBounds start stop).stop = stop := Nat.max_eq_right (by omega)
    rw [Span.Before, stops]
    exact ⟨Nat.lt_of_lt_of_le (by omega : start < stop) follows, follows⟩

/-- Only the last token is the end of file, and it stands at the end. -/
theorem ends (tiles : Tiles offset chars tokens) : EndsAt (offset + byteSize chars) tokens := by
  induction tiles with
  | ending _ => exact ⟨[], rfl, List.forall_mem_nil _⟩
  | @token offset start stop gap lexeme rest token others _ isLexeme nonempty isStart isStop _
      inductionHypothesis =>
    have whole : stop + byteSize rest = offset + byteSize (gap ++ (lexeme ++ rest)) := by
      rw [byteSize_append, byteSize_append]
      omega
    rw [← whole]
    have noEnd : ∀ located ∈ [(⟨token, .ofBounds start stop⟩ : Located Token)],
        located.value ≠ .endOfFile := by
      refine List.forall_mem_singleton.2 ?_
      rintro rfl
      cases isLexeme
      exact nonempty rfl
    exact inductionHypothesis.append noEnd

/-- Every token stands on its lexeme. -/
theorem lexemes (tiles : Tiles offset chars tokens) (isOffset : offset = byteSize before)
    (split : source.toList = before ++ chars) :
    ∀ token ∈ tokens, ∃ text : String,
      token.span.Holds source text ∧ token.value.Lexeme text.toList := by
  induction tiles generalizing before with
  | @ending offset gap _ =>
    have atEnd : source.toList = (before ++ gap) ++ ([] ++ []) := by simpa using split
    have place : offset + byteSize gap = byteSize (before ++ gap) := by
      rw [isOffset, byteSize_append]
    exact List.forall_mem_singleton.2 ⟨_, Span.holds_of_split atEnd place place, .endOfFile⟩
  | @token offset start stop gap lexeme rest token others _ isLexeme nonempty isStart isStop _
      inductionHypothesis =>
    have here : source.toList = (before ++ gap) ++ (lexeme ++ rest) := by simpa using split
    have behind : source.toList = (before ++ gap ++ lexeme) ++ rest := by simpa using split
    have startsAt : start = byteSize (before ++ gap) := by
      rw [isStart, isOffset, byteSize_append]
    have stopsAt : stop = byteSize (before ++ gap ++ lexeme) := by
      rw [isStop, startsAt, ← byteSize_append]
    refine List.forall_mem_cons.2 ⟨⟨String.ofList lexeme, ?_, ?_⟩, ?_⟩
    · refine Span.holds_of_split here startsAt ?_
      rw [← byteSize_append, ← stopsAt]
      exact Nat.max_eq_right (by omega)
    · rwa [String.toList_ofList]
    · exact inductionHypothesis stopsAt behind

/-- Between tokens there is nothing to be read. -/
theorem gaps (tiles : Tiles offset chars tokens) (isOffset : offset = byteSize before)
    (split : source.toList = before ++ chars) :
    ∀ gap ∈ gapsFrom offset tokens, ∃ text : String,
      gap.Holds source text ∧ IsGap (gap.stop = source.utf8ByteSize) text.toList := by
  induction tiles generalizing before with
  | @ending offset gap isGap =>
    have here : source.toList = before ++ (gap ++ []) := by simpa using split
    have stops : (Span.ofBounds offset (offset + byteSize gap)).stop = offset + byteSize gap :=
      Nat.max_eq_right (Nat.le_add_right _ _)
    have whole : offset + byteSize gap = source.utf8ByteSize := by
      rw [← byteSize_toList, split, byteSize_append, isOffset]
    refine List.forall_mem_singleton.2 ⟨String.ofList gap, ?_, ?_⟩
    · exact Span.holds_of_split here isOffset (stops.trans (by rw [isOffset]))
    · rw [String.toList_ofList]
      exact isGap.imp fun _ => stops.trans whole
  | @token offset start stop gap lexeme rest token others isGap _ _ isStart isStop _
      inductionHypothesis =>
    have behind : source.toList = (before ++ gap ++ lexeme) ++ rest := by simpa using split
    have startsAt : (Span.ofBounds offset start).stop = byteSize before + byteSize gap := by
      rw [← isOffset, ← isStart]
      exact Nat.max_eq_right (by omega)
    have stopsAt : stop = byteSize (before ++ gap ++ lexeme) := by
      rw [isStop, isStart, isOffset, byteSize_append, byteSize_append]
    have stops : (Span.ofBounds start stop).stop = stop := Nat.max_eq_right (by omega)
    rw [gapsFrom, stops]
    refine List.forall_mem_cons.2 ⟨⟨String.ofList gap, ?_, ?_⟩, ?_⟩
    · exact Span.holds_of_split split isOffset startsAt
    · rw [String.toList_ofList]
      exact isGap.imp False.elim
    · exact inductionHypothesis stopsAt behind

end PlainScan.Tiles

namespace PaddedText

variable {source : String} {tokens : List (Located Token)}

/-- The tokens of a source tile it. -/
theorem tiles_tokens (scanned : (ofSource source).tokens = .ok tokens) :
    PlainScan.Tiles 0 source.toList tokens := by
  have whole : 0 + byteSize source.toList = source.utf8ByteSize := by
    rw [Nat.zero_add, byteSize_toList]
  have agrees := PlainScan.agrees_tokens source.toList whole
  have scannedCells : Scan.tokens source.utf8ByteSize (cellsFrom 0 source.toList) = .ok tokens :=
    scanned
  rw [scannedCells] at agrees
  cases plain : PlainScan.tokens 0 source.toList with
  | error fault =>
    rw [plain] at agrees
    exact agrees.elim
  | ok found =>
    rw [plain] at agrees
    rw [agrees.2]
    exact PlainScan.tiles_tokens plain

/-- If a source can be scanned, its tokens cover it: they follow each other without overlap, each
stands on its lexeme, and around them there is nothing but blanks and comments. -/
theorem tokens_cover_source (scanned : (ofSource source).tokens = .ok tokens) :
    CoversSource source tokens := by
  have tiles := tiles_tokens scanned
  have split : source.toList = [] ++ source.toList := rfl
  refine ⟨tiles.inOrder, tiles.lexemes rfl split, tiles.gaps rfl split, ?_⟩
  have ends := tiles.ends
  rwa [Nat.zero_add, byteSize_toList] at ends

/-- A comment with a paren in it, a string with a paren and an escape, a number with leading zeros
right before an identifier that is not ASCII, and a comment that nothing follows. -/
def awkwardSource : String :=
  "; (é\n(\"(\\\"é\" 007λ)\t; )"

def awkwardTokens : List (Located Token) :=
  [⟨.openParen, .ofBounds 6 7⟩, ⟨.text " ( \\\"é", .ofBounds 7 14⟩, ⟨.number 7, .ofBounds 15 18⟩,
    ⟨.identifier "λ", .ofBounds 18 20⟩, ⟨.closeParen, .ofBounds 20 21⟩, ⟨.endOfFile, .point 25⟩]

theorem tokens_cover_awkwardSource :
    (ofSource awkwardSource).tokens = .ok awkwardTokens ∧
      CoversSource awkwardSource awkwardTokens := by
  have scanned : (ofSource awkwardSource).tokens = .ok awkwardTokens := by decide +kernel
  exact ⟨scanned, tokens_cover_source scanned⟩

end PaddedText

end Lisplet

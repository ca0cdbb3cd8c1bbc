import Lisplet.Proofs.PaddedScan
import Mathlib.Data.List.Basic
import Mathlib.Data.List.GetD

/-!
# A padded text keeps track of its source

Every byte of a padded text has a source offset. Which of the bytes are padding can be told
from the text alone: those right before and right after a paren. Without them the text is the
source again, and the offsets of the bytes that are left count the bytes of the source one by
one. So the source span of any range of a padded text covers whatever the range took from the
source. The span of every token is that of a range of the padded text.
-/

namespace Lisplet

namespace Text

/-- The bytes of a text. -/
def bytes (text : String) : List UInt8 :=
  text.toByteArray.data.toList

/-- Whether a byte is that of a paren. -/
def isParenByte (byte : UInt8) : Bool :=
  byte == '('.toUInt8 || byte == ')'.toUInt8

/-- Whether a paren stands at a position. -/
def hasParen (bytes : List UInt8) (position : Nat) : Bool :=
  bytes[position]?.any isParenByte

/-- Whether a paren stands right after or right before a position. -/
def isBesideParen (bytes : List UInt8) (position : Nat) : Bool :=
  hasParen bytes (position + 1) || position != 0 && hasParen bytes (position - 1)

/-- A paren with one blank of its own on either side: the blank after it is not the one before
another paren. -/
structure IsPaddedParen (bytes : List UInt8) (position : Nat) : Prop where
  notFirst : 0 < position
  before : bytes[position - 1]? = some ' '.toUInt8
  after : bytes[position + 1]? = some ' '.toUInt8
  apart : hasParen bytes (position + 2) = false

/-- The bytes of a text are those of its characters one after another. -/
theorem bytes_ofList (chars : List Char) :
    bytes (String.ofList chars) = chars.flatMap String.utf8EncodeChar := by
  simp [bytes, List.utf8Encode]

theorem length_bytes (text : String) : (bytes text).length = text.utf8ByteSize :=
  rfl

/-- A byte that is marked as one of several is no character of its own. -/
theorem toNat_ofNat_mod_add {width mark : Nat} (positive : 0 < width) (fits : width + mark ≤ 256)
    (isHigh : 128 ≤ mark) (value : Nat) : 128 ≤ (UInt8.ofNat (value % width + mark)).toNat := by
  have small := Nat.mod_lt value positive
  rw [UInt8.toNat_ofNat', Nat.mod_eq_of_lt (by omega)]
  omega

/-- A character is written as one byte of its own, or as bytes that are no characters. -/
theorem utf8EncodeChar_cases (char : Char) :
    (char.toNat < 128 ∧ String.utf8EncodeChar char = [UInt8.ofNat char.toNat]) ∨
      ∀ byte ∈ String.utf8EncodeChar char, 128 ≤ byte.toNat := by
  rw [String.utf8EncodeChar]
  split
  next isSmall => exact .inl ⟨Nat.lt_succ_of_le isSmall, rfl⟩
  next =>
    -- Two, three or four bytes: the first of them and the others are all marked as high.
    right
    split
    on_goal 2 => split
    all_goals simp (disch := decide) only [List.mem_cons, forall_eq_or_imp, toNat_ofNat_mod_add,
      true_and, List.not_mem_nil, false_implies, implies_true]

/-- The only characters with the byte of a paren are the parens. -/
theorem isParenByte_eq_false_of_mem {char : Char} (notParen : ¬ isParen char) :
    ∀ byte ∈ String.utf8EncodeChar char, isParenByte byte = false := by
  intro byte member
  rw [isParenByte, Bool.or_eq_false_iff, beq_eq_false_iff_ne, beq_eq_false_iff_ne]
  rcases utf8EncodeChar_cases char with ⟨small, single⟩ | several
  · rw [single, List.mem_singleton] at member
    have same : byte.toNat = char.toNat := by
      rw [member, UInt8.toNat_ofNat', Nat.mod_eq_of_lt (Nat.lt_trans small (by decide))]
    constructor
    · rintro rfl
      exact notParen (isParen_iff.2 (.inl (Char.toNat_inj.1 same.symm)))
    · rintro rfl
      exact notParen (isParen_iff.2 (.inr (Char.toNat_inj.1 same.symm)))
  · have high := several byte member
    constructor
    · rintro rfl
      exact absurd high (by decide)
    · rintro rfl
      exact absurd high (by decide)

/-- No paren stands among bytes that are no parens. -/
theorem hasParen_eq_false_of_forall {bytes : List UInt8}
    (none : ∀ byte ∈ bytes, isParenByte byte = false) (position : Nat) :
    hasParen bytes position = false := by
  rw [hasParen, Option.any_eq_false]
  intro byte found
  simp [none byte (List.mem_of_getElem? found)]

section Append

variable {front rest : List UInt8}

/-- What stands in front has the same neighbours without what follows it, unless that begins
with a paren. -/
theorem isBesideParen_append_left {position : Nat} (inFront : position < front.length)
    (apart : hasParen rest 0 = false) :
    isBesideParen (front ++ rest) position = isBesideParen front position := by
  have before : hasParen (front ++ rest) (position - 1) = hasParen front (position - 1) := by
    rw [hasParen, List.getElem?_append_left (by omega), hasParen]
  have after : hasParen (front ++ rest) (position + 1) = hasParen front (position + 1) := by
    by_cases inside : position + 1 < front.length
    · rw [hasParen, List.getElem?_append_left inside, hasParen]
    · have last : position + 1 - front.length = 0 := by omega
      rw [hasParen, List.getElem?_append_right (by omega), last, ← hasParen, apart, hasParen,
        List.getElem?_eq_none (by omega)]
      rfl
  rw [isBesideParen, before, after, isBesideParen]

/-- What follows has the same neighbours without what stands in front of it, unless that ends
with a paren. -/
theorem isBesideParen_append_right (rest : List UInt8) (position : Nat)
    (apart : hasParen front (front.length - 1) = false) :
    isBesideParen (front ++ rest) (front.length + position) = isBesideParen rest position := by
  have after : hasParen (front ++ rest) (front.length + position + 1) =
      hasParen rest (position + 1) := by
    rw [hasParen, List.getElem?_append_right (by omega), hasParen, Nat.add_assoc,
      Nat.add_sub_cancel_left]
  rw [isBesideParen, after, isBesideParen]
  congr 1
  cases position with
  | zero =>
    cases front with
    | nil => rfl
    | cons first others =>
      have before :
          hasParen (first :: others ++ rest) ((first :: others).length + 0 - 1) = false := by
        rw [hasParen, List.getElem?_append_left (by simp), ← hasParen]
        exact apart
      rw [before]
      rfl
  | succ position =>
    have before : hasParen (front ++ rest) (front.length + (position + 1) - 1) =
        hasParen rest position := by
      rw [hasParen, List.getElem?_append_right (by omega), hasParen]
      congr 2
      omega
    rw [before]
    simp

/-- A padded paren is padded, whatever stands in front. -/
theorem IsPaddedParen.append {position : Nat} (padded : IsPaddedParen rest position)
    (front : List UInt8) : IsPaddedParen (front ++ rest) (front.length + position) := by
  obtain ⟨notFirst, before, after, apart⟩ := padded
  refine ⟨by omega, ?_, ?_, ?_⟩
  · rw [List.getElem?_append_right (by omega), Nat.add_sub_assoc notFirst, Nat.add_sub_cancel_left,
      before]
  · rw [List.getElem?_append_right (by omega), Nat.add_assoc, Nat.add_sub_cancel_left, after]
  · rw [hasParen, List.getElem?_append_right (by omega), Nat.add_assoc, Nat.add_sub_cancel_left]
    exact apart

end Append

end Text

/-- A byte of a padded text, the source offset that it stands for, and whether it is
padding. -/
structure Origin where
  byte : UInt8
  offset : Nat
  isAdded : Bool

namespace PaddedText

open PlainScan (byteSize)

/-- The origins of the bytes that a character at a source offset is padded to. -/
def originsOf (offset : Nat) (char : Char) : List Origin :=
  if Text.isParen char then
    [⟨' '.toUInt8, offset, true⟩, ⟨char.toUInt8, offset, false⟩, ⟨' '.toUInt8, offset + 1, true⟩]
  else
    ((String.utf8EncodeChar char).zipIdx offset).map fun placed => ⟨placed.1, placed.2, false⟩

/-- The origins of the bytes that characters from a source offset on are padded to. -/
def originsFrom : Nat → List Char → List Origin
  | _, [] => []
  | offset, char :: rest => originsOf offset char ++ originsFrom (offset + char.utf8Size) rest

section Char

variable {offset : Nat} {char : Char}

/-- A paren is padded to three bytes, of which only the middle one is its own. -/
theorem originsOf_of_isParen (isParen : Text.isParen char) :
    originsOf offset char =
      [⟨' '.toUInt8, offset, true⟩, ⟨char.toUInt8, offset, false⟩,
        ⟨' '.toUInt8, offset + 1, true⟩] := by
  rw [originsOf, if_pos isParen]

/-- Any other character keeps its own bytes and no more. -/
theorem originsOf_of_not_isParen (notParen : ¬ Text.isParen char) :
    originsOf offset char =
      ((String.utf8EncodeChar char).zipIdx offset).map fun placed =>
        ⟨placed.1, placed.2, false⟩ := by
  rw [originsOf, if_neg notParen]

/-- A paren is written as one byte. -/
theorem utf8EncodeChar_of_isParen (isParen : Text.isParen char) :
    String.utf8EncodeChar char = [char.toUInt8] := by
  rcases Text.isParen_iff.1 isParen with rfl | rfl <;> rfl

/-- A character other than a paren has the bytes it is written as. -/
theorem map_byte_originsOf_of_not_isParen (notParen : ¬ Text.isParen char) :
    (originsOf offset char).map Origin.byte = String.utf8EncodeChar char := by
  rw [originsOf_of_not_isParen notParen, List.map_map]
  exact List.zipIdx_map_fst offset _

/-- The bytes that a character is padded to. -/
theorem map_byte_originsOf (offset : Nat) (char : Char) :
    (originsOf offset char).map Origin.byte =
      ((cellsFrom offset [char]).map Cell.char).flatMap String.utf8EncodeChar := by
  by_cases isParen : Text.isParen char
  · rw [originsOf_of_isParen isParen, cellsFrom_of_isParen isParen]
    simp only [cellsFrom_nil, List.map_cons, List.map_nil, List.flatMap_cons, List.flatMap_nil,
      utf8EncodeChar_of_isParen isParen]
    rfl
  · rw [map_byte_originsOf_of_not_isParen isParen, cellsFrom_of_not_isParen isParen]
    simp

/-- The source offsets of the bytes that a character is padded to. -/
theorem map_offset_originsOf (offset : Nat) (char : Char) :
    (originsOf offset char).map Origin.offset =
      (cellsFrom offset [char]).flatMap Cell.byteOffsets := by
  by_cases isParen : Text.isParen char
  · rcases Text.isParen_iff.1 isParen with rfl | rfl <;> rfl
  · have offsets := List.zipIdx_map_snd offset (String.utf8EncodeChar char)
    rw [String.length_utf8EncodeChar, List.range'_eq_map_range] at offsets
    rw [originsOf_of_not_isParen isParen, cellsFrom_of_not_isParen isParen, List.map_map,
      cellsFrom_nil, List.flatMap_singleton]
    exact offsets

/-- Without padding, a character has its own bytes, at the offsets from its own on. -/
theorem kept_originsOf (offset : Nat) (char : Char) :
    ((originsOf offset char).filter fun origin => !origin.isAdded).map
        (fun origin => (origin.byte, origin.offset)) =
      (String.utf8EncodeChar char).zipIdx offset := by
  by_cases isParen : Text.isParen char
  · rw [originsOf_of_isParen isParen, utf8EncodeChar_of_isParen isParen]
    rfl
  · rw [originsOf_of_not_isParen isParen]
    simp [List.filter_map, Function.comp_def]

/-- No paren stands at the start or at the end of what a character is padded to. -/
theorem hasParen_ends_originsOf (offset : Nat) (char : Char) :
    let bytes := (originsOf offset char).map Origin.byte
    Text.hasParen bytes 0 = false ∧ Text.hasParen bytes (bytes.length - 1) = false := by
  by_cases isParen : Text.isParen char
  · rw [originsOf_of_isParen isParen]
    exact ⟨rfl, rfl⟩
  · have none := Text.hasParen_eq_false_of_forall (Text.isParenByte_eq_false_of_mem isParen)
    rw [map_byte_originsOf_of_not_isParen isParen]
    exact ⟨none _, none _⟩

/-- The only paren in what a character is padded to is the character itself, in the middle. -/
theorem eq_one_of_hasParen_originsOf {position : Nat}
    (isHere : Text.hasParen ((originsOf offset char).map Origin.byte) position) :
    Text.isParen char ∧ position = 1 := by
  by_cases isParen : Text.isParen char
  · rw [originsOf_of_isParen isParen] at isHere
    match position with
    | 0 | 2 | _ + 3 => cases isHere
    | 1 => exact ⟨isParen, rfl⟩
  · have none := Text.hasParen_eq_false_of_forall (Text.isParenByte_eq_false_of_mem isParen)
    rw [map_byte_originsOf_of_not_isParen isParen, none] at isHere
    cases isHere

/-- In what a character is padded to, padding is what stands beside a paren. -/
theorem isBesideParen_originsOf {position : Nat} {origin : Origin}
    (found : (originsOf offset char)[position]? = some origin) :
    Text.isBesideParen ((originsOf offset char).map Origin.byte) position = origin.isAdded := by
  by_cases isParen : Text.isParen char
  · rw [originsOf_of_isParen isParen] at found ⊢
    rcases Text.isParen_iff.1 isParen with rfl | rfl <;>
      match position, found with
      | 0, rfl | 1, rfl | 2, rfl => rfl
  · have none := Text.hasParen_eq_false_of_forall (Text.isParenByte_eq_false_of_mem isParen)
    have notAdded : origin.isAdded = false := by
      rw [originsOf_of_not_isParen isParen] at found
      obtain ⟨placed, -, rfl⟩ := List.mem_map.1 (List.mem_of_getElem? found)
      rfl
    rw [map_byte_originsOf_of_not_isParen isParen, Text.isBesideParen, none, none, notAdded]
    simp

/-- The offsets of what a character is padded to go from its start to its end. -/
theorem bounds_of_mem_originsOf {origin : Origin} (member : origin ∈ originsOf offset char) :
    offset ≤ origin.offset ∧ origin.offset ≤ offset + char.utf8Size := by
  by_cases isParen : Text.isParen char
  · have size := utf8Size_of_isParen isParen
    simp only [originsOf_of_isParen isParen, List.mem_cons, List.not_mem_nil, or_false] at member
    rcases member with rfl | rfl | rfl <;> dsimp only <;> omega
  · rw [originsOf_of_not_isParen isParen] at member
    obtain ⟨⟨byte, place⟩, isPlaced, rfl⟩ := List.mem_map.1 member
    have bounds := List.mem_zipIdx isPlaced
    rw [String.length_utf8EncodeChar] at bounds
    exact ⟨bounds.1, Nat.le_of_lt bounds.2.1⟩

/-- The offsets of what a character is padded to never decrease. -/
theorem pairwise_originsOf (offset : Nat) (char : Char) :
    (originsOf offset char).Pairwise fun earlier later => earlier.offset ≤ later.offset := by
  by_cases isParen : Text.isParen char
  · rw [originsOf_of_isParen isParen]
    simp
  · rw [originsOf_of_not_isParen isParen, List.pairwise_map]
    have increasing := List.pairwise_lt_range' (s := offset) (n := char.utf8Size)
    rw [← String.length_utf8EncodeChar, ← List.zipIdx_map_snd, List.pairwise_map] at increasing
    exact increasing.imp fun less => Nat.le_of_lt less

end Char

/-- Characters are padded one by one. -/
theorem cellsFrom_cons (offset : Nat) (char : Char) (rest : List Char) :
    cellsFrom offset (char :: rest) =
      cellsFrom offset [char] ++ cellsFrom (offset + char.utf8Size) rest :=
  cellsFrom_append offset [char] rest

/-- Origins are those of the bytes of the padded text. -/
theorem map_byte_originsFrom (offset : Nat) (chars : List Char) :
    (originsFrom offset chars).map Origin.byte =
      ((cellsFrom offset chars).map Cell.char).flatMap String.utf8EncodeChar := by
  induction chars generalizing offset with
  | nil => rfl
  | cons char rest inductionHypothesis =>
    rw [originsFrom, List.map_append, map_byte_originsOf, inductionHypothesis,
      cellsFrom_cons offset char rest, List.map_append, List.flatMap_append]

/-- Origins have the offsets that the padded text keeps. -/
theorem map_offset_originsFrom (offset : Nat) (chars : List Char) :
    (originsFrom offset chars).map Origin.offset =
      (cellsFrom offset chars).flatMap Cell.byteOffsets := by
  induction chars generalizing offset with
  | nil => rfl
  | cons char rest inductionHypothesis =>
    rw [originsFrom, List.map_append, map_offset_originsOf, inductionHypothesis,
      cellsFrom_cons offset char rest, List.flatMap_append]

/-- Without padding, characters have their own bytes, at consecutive offsets. -/
theorem kept_originsFrom (offset : Nat) (chars : List Char) :
    ((originsFrom offset chars).filter fun origin => !origin.isAdded).map
        (fun origin => (origin.byte, origin.offset)) =
      (chars.flatMap String.utf8EncodeChar).zipIdx offset := by
  induction chars generalizing offset with
  | nil => rfl
  | cons char rest inductionHypothesis =>
    rw [originsFrom, List.filter_append, List.map_append, kept_originsOf, inductionHypothesis,
      List.flatMap_cons, List.zipIdx_append, String.length_utf8EncodeChar]

/-- No padded text begins with a paren. -/
theorem hasParen_start_originsFrom (offset : Nat) (chars : List Char) :
    Text.hasParen ((originsFrom offset chars).map Origin.byte) 0 = false := by
  cases chars with
  | nil => rfl
  | cons char rest =>
    have nonempty : originsOf offset char ≠ [] := by
      rw [originsOf]
      split <;> simp
    have starts := (hasParen_ends_originsOf offset char).1
    rw [originsFrom, List.map_append, Text.hasParen,
      List.getElem?_append_left (by simpa [List.length_pos_iff] using nonempty)]
    exact starts

/-- In a padded text, padding is what stands beside a paren. -/
theorem isBesideParen_originsFrom (offset : Nat) (chars : List Char) {position : Nat}
    {origin : Origin} (found : (originsFrom offset chars)[position]? = some origin) :
    Text.isBesideParen ((originsFrom offset chars).map Origin.byte) position = origin.isAdded := by
  induction chars generalizing offset position with
  | nil => cases found
  | cons char rest inductionHypothesis =>
    rw [originsFrom] at found ⊢
    rw [List.map_append]
    by_cases inFront : position < (originsOf offset char).length
    · rw [List.getElem?_append_left inFront] at found
      rw [Text.isBesideParen_append_left (by simpa using inFront)
        (hasParen_start_originsFrom _ rest)]
      exact isBesideParen_originsOf found
    · obtain ⟨behind, rfl⟩ := Nat.exists_eq_add_of_le (Nat.le_of_not_lt inFront)
      rw [List.getElem?_append_right (Nat.le_add_right _ _), Nat.add_sub_cancel_left] at found
      have sameNeighbours := Text.isBesideParen_append_right
        ((originsFrom (offset + char.utf8Size) rest).map Origin.byte) behind
        (hasParen_ends_originsOf offset char).2
      rw [List.length_map] at sameNeighbours
      rw [sameNeighbours]
      exact inductionHypothesis _ found

/-- A paren is padded in what it is padded to, whatever follows. -/
theorem isPaddedParen_of_isParen {offset : Nat} {char : Char} (isParen : Text.isParen char)
    {rest : List UInt8} (apart : Text.hasParen rest 0 = false) :
    Text.IsPaddedParen ((originsOf offset char).map Origin.byte ++ rest) 1 := by
  rw [originsOf_of_isParen isParen]
  exact ⟨Nat.one_pos, rfl, rfl, apart⟩

/-- In a padded text all parens are padded. -/
theorem isPaddedParen_originsFrom (offset : Nat) (chars : List Char) {position : Nat}
    (isHere : Text.hasParen ((originsFrom offset chars).map Origin.byte) position) :
    Text.IsPaddedParen ((originsFrom offset chars).map Origin.byte) position := by
  induction chars generalizing offset position with
  | nil => cases isHere
  | cons char rest inductionHypothesis =>
    have apart := hasParen_start_originsFrom (offset + char.utf8Size) rest
    rw [originsFrom, List.map_append] at isHere ⊢
    by_cases inFront : position < ((originsOf offset char).map Origin.byte).length
    · rw [Text.hasParen, List.getElem?_append_left inFront] at isHere
      obtain ⟨isParen, rfl⟩ := eq_one_of_hasParen_originsOf isHere
      exact isPaddedParen_of_isParen isParen apart
    · obtain ⟨behind, rfl⟩ := Nat.exists_eq_add_of_le (Nat.le_of_not_lt inFront)
      rw [Text.hasParen, List.getElem?_append_right (Nat.le_add_right _ _),
        Nat.add_sub_cancel_left] at isHere
      exact (inductionHypothesis _ isHere).append _

/-- Offsets go from the start of the characters to their end. -/
theorem bounds_of_mem_originsFrom {offset : Nat} {chars : List Char} {origin : Origin}
    (member : origin ∈ originsFrom offset chars) :
    offset ≤ origin.offset ∧ origin.offset ≤ offset + byteSize chars := by
  induction chars generalizing offset with
  | nil => cases member
  | cons char rest inductionHypothesis =>
    rw [PlainScan.byteSize_cons]
    rcases List.mem_append.1 member with here | later
    · have bounds := bounds_of_mem_originsOf here
      omega
    · have bounds := inductionHypothesis later
      omega

/-- Offsets never decrease. -/
theorem pairwise_originsFrom (offset : Nat) (chars : List Char) :
    (originsFrom offset chars).Pairwise fun earlier later => earlier.offset ≤ later.offset := by
  induction chars generalizing offset with
  | nil => exact .nil
  | cons char rest inductionHypothesis =>
    refine List.pairwise_append.2 ⟨pairwise_originsOf offset char, inductionHypothesis _, ?_⟩
    intro earlier isEarlier later isLater
    exact Nat.le_trans (bounds_of_mem_originsOf isEarlier).2 (bounds_of_mem_originsFrom isLater).1

/-- What is read off the positions that are accepted is read off the items there. -/
theorem filterMap_filter_range {α β : Type} (accepts : α → Bool) (view : α → β)
    (items : List α) :
    ((List.range items.length).filter fun position => items[position]?.any accepts).filterMap
        (fun position => items[position]?.map view) =
      (items.filter accepts).map view := by
  induction items with
  | nil => rfl
  | cons first others inductionHypothesis =>
    have later : ((List.range others.length).filter fun position =>
        (first :: others)[position + 1]?.any accepts).filterMap
          (fun position => (first :: others)[position + 1]?.map view) =
        (others.filter accepts).map view := inductionHypothesis
    rw [List.length_cons, List.range_succ_eq_map, List.filter_cons, List.filter_map,
      List.filter_cons]
    cases accepted : accepts first with
    | true => simpa [accepted, List.filterMap_map, Function.comp_def] using later
    | false => simpa [accepted, List.filterMap_map, Function.comp_def] using later

/-- The bytes of a padded text. -/
def bytes (padded : PaddedText) : List UInt8 :=
  Text.bytes padded.text

/-- The positions of the bytes that are no padding, in order: those that stand beside no
paren. -/
def keptPositions (padded : PaddedText) : List Nat :=
  (List.range padded.bytes.length).filter fun position =>
    !Text.isBesideParen padded.bytes position

/-- What it means for a padded text to keep track of a source. -/
structure Tracks (padded : PaddedText) (source : String) : Prop where
  /-- Every byte has an offset. -/
  onePerByte : padded.byteOffsets.length = padded.text.utf8ByteSize
  /-- Offsets never decrease and never exceed the end of the source. -/
  ordered : padded.byteOffsets.Pairwise (· ≤ ·)
  within : ∀ offset ∈ padded.byteOffsets, offset ≤ source.utf8ByteSize
  /-- Every paren has one blank of its own on either side. -/
  parens : ∀ position, Text.hasParen padded.bytes position →
    Text.IsPaddedParen padded.bytes position
  /-- Without these blanks the text is the source. -/
  keptBytes : padded.keptPositions.filterMap (fun position => padded.bytes[position]?) =
    Text.bytes source
  /-- The bytes that are left have the offsets of the source, each of them once and in order,
  and each is the byte that the source has there. -/
  keptOffsets : padded.keptPositions.map padded.sourceOffset = List.range source.utf8ByteSize
  sameByte : ∀ position ∈ padded.keptPositions,
    padded.bytes[position]? = (Text.bytes source)[padded.sourceOffset position]?
  /-- The span of a range lies in the source, be the range empty, reversed or past the end, and
  it covers the bytes of the range that are no padding. -/
  spanWithin : ∀ first stop, (padded.sourceSpan first stop).stop ≤ source.utf8ByteSize
  spanCovers : ∀ first stop, ∀ position ∈ padded.keptPositions, first ≤ position →
    position < stop →
      (padded.sourceSpan first stop).start ≤ padded.sourceOffset position ∧
        padded.sourceOffset position < (padded.sourceSpan first stop).stop

section Source

variable (source : String)

/-- The origins of the bytes that a source is padded to. -/
def origins : List Origin :=
  originsFrom 0 source.toList

/-- The bytes of a padded source are those of its origins. -/
theorem bytes_ofSource : (ofSource source).bytes = (origins source).map Origin.byte := by
  rw [bytes, text, Text.bytes_ofList, origins, map_byte_originsFrom]
  rfl

/-- The offsets of a padded source are those of its origins. -/
theorem byteOffsets_ofSource :
    (ofSource source).byteOffsets = (origins source).map Origin.offset := by
  rw [byteOffsets, origins, map_offset_originsFrom]
  rfl

theorem length_bytes_ofSource : (ofSource source).bytes.length = (origins source).length := by
  rw [bytes_ofSource, List.length_map]

/-- The bytes of a source are those of its characters. -/
theorem bytes_source : Text.bytes source = source.toList.flatMap String.utf8EncodeChar := by
  rw [← Text.bytes_ofList, String.ofList_toList]

/-- The kept positions are those of the origins that are no padding. -/
theorem keptPositions_ofSource :
    (ofSource source).keptPositions = (List.range (origins source).length).filter fun position =>
      (origins source)[position]?.any fun origin => !origin.isAdded := by
  rw [keptPositions, length_bytes_ofSource]
  refine List.filter_congr fun position inside => ?_
  have found := List.getElem?_eq_getElem (List.mem_range.1 inside)
  rw [bytes_ofSource, origins, isBesideParen_originsFrom 0 source.toList found, ← origins, found]
  rfl

/-- What is read off the origins at the kept positions is read off the origins that are no
padding. -/
theorem filterMap_keptPositions {α : Type} (view : Origin → α) :
    (ofSource source).keptPositions.filterMap
        (fun position => (origins source)[position]?.map view) =
      ((origins source).filter fun origin => !origin.isAdded).map view := by
  rw [keptPositions_ofSource, filterMap_filter_range]

/-- The bytes that are no padding are the bytes of the source. -/
theorem map_byte_kept :
    ((origins source).filter fun origin => !origin.isAdded).map Origin.byte =
      Text.bytes source := by
  have bytes := congrArg (List.map Prod.fst) (kept_originsFrom 0 source.toList)
  rw [List.map_map, List.zipIdx_map_fst, ← bytes_source] at bytes
  exact bytes

/-- The offsets of the bytes that are no padding count the bytes of the source. -/
theorem map_offset_kept :
    ((origins source).filter fun origin => !origin.isAdded).map Origin.offset =
      List.range source.utf8ByteSize := by
  have offsets := congrArg (List.map Prod.snd) (kept_originsFrom 0 source.toList)
  rw [List.map_map, List.zipIdx_map_snd, ← bytes_source, Text.length_bytes,
    ← List.range_eq_range'] at offsets
  exact offsets

/-- What stands at a kept position is a byte of the source at its own offset. -/
theorem exists_of_mem_keptPositions {position : Nat}
    (kept : position ∈ (ofSource source).keptPositions) :
    ∃ origin, (origins source)[position]? = some origin ∧
      (origin.byte, origin.offset) ∈ (Text.bytes source).zipIdx := by
  rw [keptPositions_ofSource, List.mem_filter] at kept
  obtain ⟨origin, found, notAdded⟩ := (Option.any_eq_true _ _).1 kept.2
  refine ⟨origin, found, ?_⟩
  rw [bytes_source, ← kept_originsFrom]
  exact List.mem_map_of_mem (List.mem_filter.2 ⟨List.mem_of_getElem? found, notAdded⟩)

/-- The offset of a position is that of the origin there. -/
theorem sourceOffset_of_origin {position : Nat} {origin : Origin}
    (found : (origins source)[position]? = some origin) :
    (ofSource source).sourceOffset position = origin.offset := by
  rw [sourceOffset, byteOffsets_ofSource, List.getD_eq_getElem?_getD, List.getElem?_map, found]
  rfl

/-- No offset exceeds the end of the source. -/
theorem le_of_mem_byteOffsets {offset : Nat} (member : offset ∈ (ofSource source).byteOffsets) :
    offset ≤ source.utf8ByteSize := by
  rw [byteOffsets_ofSource] at member
  obtain ⟨origin, isOrigin, rfl⟩ := List.mem_map.1 member
  have bounds := bounds_of_mem_originsFrom isOrigin
  rw [PlainScan.byteSize_toList, Nat.zero_add] at bounds
  exact bounds.2

/-- Positions past the end stand for the end of the source. -/
theorem sourceOffset_of_past {position : Nat}
    (past : (ofSource source).byteOffsets.length ≤ position) :
    (ofSource source).sourceOffset position = source.utf8ByteSize := by
  rw [sourceOffset, List.getD_eq_default _ _ past]
  rfl

/-- No position stands for an offset past the end of the source. -/
theorem sourceOffset_le (position : Nat) :
    (ofSource source).sourceOffset position ≤ source.utf8ByteSize := by
  by_cases inside : position < (ofSource source).byteOffsets.length
  · rw [sourceOffset, List.getD_eq_getElem _ _ inside]
    exact le_of_mem_byteOffsets source (List.getElem_mem inside)
  · exact Nat.le_of_eq (sourceOffset_of_past source (Nat.le_of_not_lt inside))

/-- Later positions have later offsets or the same, also past the end. -/
theorem sourceOffset_mono {earlier later : Nat} (inOrder : earlier ≤ later) :
    (ofSource source).sourceOffset earlier ≤ (ofSource source).sourceOffset later := by
  by_cases inside : later < (ofSource source).byteOffsets.length
  · have ordered : (ofSource source).byteOffsets.Pairwise (· ≤ ·) := by
      rw [byteOffsets_ofSource, List.pairwise_map]
      exact pairwise_originsFrom 0 source.toList
    rcases Nat.eq_or_lt_of_le inOrder with rfl | before
    · exact Nat.le_refl _
    · rw [sourceOffset, sourceOffset, List.getD_eq_getElem _ _ inside,
        List.getD_eq_getElem _ _ (Nat.lt_trans before inside)]
      exact List.pairwise_iff_getElem.1 ordered earlier later _ inside before
  · rw [sourceOffset_of_past source (Nat.le_of_not_lt inside)]
    exact sourceOffset_le source earlier

/-- The span of a range lies in the source. -/
theorem stop_sourceSpan_le (first stop : Nat) :
    ((ofSource source).sourceSpan first stop).stop ≤ source.utf8ByteSize := by
  have firstWithin := sourceOffset_le source first
  rw [sourceSpan]
  split
  · exact firstWithin
  · exact Nat.max_le.2 ⟨firstWithin, Nat.min_le_right _ _⟩

/-- The span of a range covers what stands in the range and in the source. -/
theorem sourceSpan_covers {first stop position : Nat} (notBefore : first ≤ position)
    (before : position < stop)
    (inSource : (ofSource source).sourceOffset position < source.utf8ByteSize) :
    ((ofSource source).sourceSpan first stop).start ≤ (ofSource source).sourceOffset position ∧
      (ofSource source).sourceOffset position < ((ofSource source).sourceSpan first stop).stop := by
  have starts := sourceOffset_mono source notBefore
  have stops := sourceOffset_mono source (Nat.le_sub_one_of_lt before)
  rw [sourceSpan, if_neg (by omega)]
  refine ⟨starts, Nat.lt_of_lt_of_le (Nat.lt_min.2 ⟨?_, inSource⟩) (Nat.le_max_right _ _)⟩
  exact Nat.lt_succ_of_le stops

/-- Padding a source keeps track of every byte: each byte of the padded text has an offset, the
blanks around parens can be told from the text and leave the source once they are taken away,
byte by byte at its own offsets, and every range has a span that covers what the range took from
the source. -/
theorem ofSource_tracks_every_byte : (ofSource source).Tracks source where
  onePerByte := by
    rw [byteOffsets_ofSource, List.length_map, ← length_bytes_ofSource]
    rfl
  ordered := by
    rw [byteOffsets_ofSource, List.pairwise_map]
    exact pairwise_originsFrom 0 source.toList
  within := fun offset => le_of_mem_byteOffsets source
  parens := by
    intro position isParen
    rw [bytes_ofSource] at isParen ⊢
    exact isPaddedParen_originsFrom 0 source.toList isParen
  keptBytes := by
    simp only [bytes_ofSource, List.getElem?_map]
    exact (filterMap_keptPositions source Origin.byte).trans (map_byte_kept source)
  keptOffsets := by
    have offsets : (ofSource source).keptPositions.map (ofSource source).sourceOffset =
        (ofSource source).keptPositions.filterMap fun position =>
          (origins source)[position]?.map Origin.offset := by
      rw [← List.filterMap_eq_map]
      refine List.filterMap_congr fun position kept => ?_
      obtain ⟨origin, found, -⟩ := exists_of_mem_keptPositions source kept
      rw [found, Function.comp_apply, sourceOffset_of_origin source found]
      rfl
    rw [offsets]
    exact (filterMap_keptPositions source Origin.offset).trans (map_offset_kept source)
  sameByte := by
    intro position kept
    obtain ⟨origin, found, inSource⟩ := exists_of_mem_keptPositions source kept
    rw [sourceOffset_of_origin source found, bytes_ofSource, List.getElem?_map, found]
    exact (List.mem_zipIdx_iff_getElem?.1 inSource).symm
  spanWithin := stop_sourceSpan_le source
  spanCovers := by
    intro first stop position kept notBefore before
    obtain ⟨origin, found, inSource⟩ := exists_of_mem_keptPositions source kept
    apply sourceSpan_covers source notBefore before
    rw [sourceOffset_of_origin source found]
    exact (List.getElem?_eq_some_iff.1 (List.mem_zipIdx_iff_getElem?.1 inSource)).1

end Source

end PaddedText

/-! ### The spans of tokens -/

namespace Scan

variable {sourceSize : Nat} {first : Cell} {others : List Cell} {found : Step}

/-- A string body and what follows it make up the whole. -/
theorem stringBody_append (cells : List Cell) :
    (stringBody cells).1 ++ (stringBody cells).2 = cells := by
  fun_induction stringBody cells <;> simp_all

/-- A run and what follows it make up the whole. -/
theorem spanWhile_append (accepts : Char → Bool) (cells : List Cell) :
    (spanWhile accepts cells).1 ++ (spanWhile accepts cells).2 = cells :=
  List.takeWhile_append_dropWhile

/-- The span over some cells reaches from the first to the last. -/
theorem spanOver_concat (sourceSize : Nat) (first last : Cell) (between : List Cell) :
    spanOver sourceSize first (between ++ [last]) = spanBetween sourceSize first last := by
  rw [spanOver, List.getLastD_concat]

/-- A step takes cells off the front, the first of them at least, and gives its token the span
over them. -/
theorem exists_span_of_step (stepped : step sourceSize first others = .ok found) :
    ∃ more, more ++ found.rest = others ∧
      ∀ token ∈ found.token, token.span = spanOver sourceSize first more := by
  unfold step at stepped
  dsimp only at stepped
  split at stepped
  · cases stepped
    exact ⟨[], rfl, by simp [spanOver]⟩
  split at stepped
  · cases stepped
    exact ⟨[], rfl, by simp [spanOver]⟩
  split at stepped
  · cases stepped
    exact ⟨[], rfl, by simp [spanOver]⟩
  split at stepped
  · cases stepped
    exact ⟨_, spanWhile_append Text.isBlank others, by simp⟩
  split at stepped
  · cases stepped
    let comment := spanWhile (fun char => char != '\n') others
    refine ⟨comment.1 ++ comment.2.take 1, ?_, by simp⟩
    rw [List.append_assoc]
    exact (congrArg _ (List.take_append_drop 1 comment.2)).trans (spanWhile_append _ others)
  split at stepped
  · have whole := stringBody_append others
    unfold readString at stepped
    split at stepped
    next body closing rest read =>
      rw [read] at whole
      split at stepped
      · cases stepped
        refine ⟨body ++ [closing], by simpa using whole, ?_⟩
        rintro _ ⟨⟩
        exact (spanOver_concat sourceSize first closing body).symm
      · cases stepped
    next => cases stepped
  split at stepped
  · unfold readNumber at stepped
    dsimp only at stepped
    split at stepped
    · cases stepped
      refine ⟨_, spanWhile_append Text.isDecimalDigit others, ?_⟩
      rintro _ ⟨⟩
      rfl
    · cases stepped
  split at stepped
  · cases stepped
  · cases stepped
    refine ⟨_, spanWhile_append Text.isIdentifierChar others, ?_⟩
    rintro _ ⟨⟩
    rfl

end Scan

namespace PaddedText

open PlainScan (byteSize)

variable {padded : PaddedText} {before after : List Cell}

/-- Cells have as many offsets as their characters have bytes. -/
theorem length_flatMap_byteOffsets (cells : List Cell) :
    (cells.flatMap Cell.byteOffsets).length = byteSize (cells.map Cell.char) := by
  induction cells with
  | nil => rfl
  | cons cell rest inductionHypothesis =>
    rw [List.flatMap_cons, List.length_append, inductionHypothesis, Cell.byteOffsets,
      List.length_map, List.length_range]
    rfl

/-- The bytes of a cell have the offsets from its own on. -/
theorem sourceOffset_of_cell {cell : Cell} {index : Nat}
    (split : padded.cells = before ++ cell :: after) (inside : index < cell.char.utf8Size) :
    padded.sourceOffset (byteSize (before.map Cell.char) + index) = cell.offset + index := by
  have size := length_flatMap_byteOffsets before
  rw [sourceOffset, byteOffsets, split, List.flatMap_append, List.flatMap_cons,
    List.getD_eq_getElem?_getD, List.getElem?_append_right (by omega), size,
    Nat.add_sub_cancel_left, List.getElem?_append_left (by simpa [Cell.byteOffsets] using inside)]
  simp [Cell.byteOffsets, inside]

/-- Bytes past the last cell stand for the end of the source. -/
theorem sourceOffset_of_end (padded : PaddedText) :
    padded.sourceOffset (byteSize (padded.cells.map Cell.char)) = padded.sourceSize := by
  rw [sourceOffset, byteOffsets, List.getD_eq_default]
  exact Nat.le_of_eq (length_flatMap_byteOffsets padded.cells)

/-- The source span of a range of cells is the span over them. -/
theorem sourceSpan_eq_spanOver {first : Cell} {others : List Cell}
    (split : padded.cells = before ++ (first :: others) ++ after) :
    padded.sourceSpan (byteSize (before.map Cell.char))
        (byteSize ((before ++ first :: others).map Cell.char)) =
      Scan.spanOver padded.sourceSize first others := by
  let last := others.getLastD first
  obtain ⟨front, whole⟩ : ∃ front, first :: others = front ++ [last] := by
    rcases List.eq_nil_or_concat others with rfl | ⟨between, final, rfl⟩
    · exact ⟨[], rfl⟩
    · exact ⟨first :: between, by simp [last]⟩
  have firstSplit : padded.cells = before ++ first :: (others ++ after) := by
    rw [split, List.append_assoc, List.cons_append]
  have lastSplit : padded.cells = (before ++ front) ++ last :: after := by
    rw [split, whole]
    simp
  have lastSize : 0 < last.char.utf8Size := last.char.utf8Size_pos
  have starts : padded.sourceOffset (byteSize (before.map Cell.char)) = first.offset :=
    sourceOffset_of_cell firstSplit first.char.utf8Size_pos
  have size : byteSize ((before ++ first :: others).map Cell.char) =
      byteSize ((before ++ front).map Cell.char) + last.char.utf8Size := by
    rw [whole, ← List.append_assoc, List.map_append, PlainScan.byteSize_append]
    rfl
  have stops : padded.sourceOffset (byteSize ((before ++ first :: others).map Cell.char) - 1) + 1 =
      last.stop := by
    rw [size, Nat.add_sub_assoc lastSize, sourceOffset_of_cell lastSplit (by omega), Cell.stop]
    omega
  have notEmpty : ¬ byteSize ((before ++ first :: others).map Cell.char) ≤
      byteSize (before.map Cell.char) := by
    rw [List.map_append, PlainScan.byteSize_append, List.map_cons, PlainScan.byteSize_cons]
    have firstSize := first.char.utf8Size_pos
    omega
  rw [sourceSpan, if_neg notEmpty, starts, stops]
  rfl

/-- Every token that a scan of some cells of a padded text finds has the source span of a range
of the text. -/
theorem exists_sourceSpan_of_tokens {cells : List Cell} {tokens : List (Located Token)}
    (split : padded.cells = before ++ cells)
    (scanned : Scan.tokens padded.sourceSize cells = .ok tokens) :
    ∀ token ∈ tokens, ∃ start stop, start ≤ stop ∧ stop ≤ byteSize (padded.cells.map Cell.char) ∧
      token.span = padded.sourceSpan start stop := by
  fun_induction Scan.tokens padded.sourceSize cells generalizing before tokens with
  | case1 =>
    cases scanned
    intro token member
    rw [List.mem_singleton.1 member]
    refine ⟨_, _, Nat.le_refl _, Nat.le_refl _, ?_⟩
    rw [sourceSpan, if_pos (Nat.le_refl _), sourceOffset_of_end]
  | case2 => cases scanned
  | case3 => cases scanned
  | case4 first others found stepped _ following scannedRest inductionHypothesis =>
    cases scanned
    obtain ⟨more, whole, spans⟩ := Scan.exists_span_of_step stepped
    have restSplit : padded.cells = (before ++ first :: more) ++ found.rest := by
      rw [split, List.append_assoc, List.cons_append, whole]
    intro token member
    rcases List.mem_append.1 member with isFound | isLater
    · rw [spans token (Option.mem_toList.1 isFound), ← sourceSpan_eq_spanOver restSplit, restSplit]
      refine ⟨_, _, ?_, ?_, rfl⟩
      · simp
      · simp
    · exact inductionHypothesis restSplit scannedRest token isLater

/-- The source span of every token of a padded text is that of a range of the text. -/
theorem exists_sourceSpan_of_mem_tokens {tokens : List (Located Token)}
    (scanned : padded.tokens = .ok tokens) {token : Located Token} (member : token ∈ tokens) :
    ∃ start stop, start ≤ stop ∧ stop ≤ padded.text.utf8ByteSize ∧
      token.span = padded.sourceSpan start stop := by
  rw [text, ← PlainScan.byteSize_toList, String.toList_ofList]
  exact exists_sourceSpan_of_tokens (List.nil_append padded.cells).symm scanned token member

end PaddedText

end Lisplet

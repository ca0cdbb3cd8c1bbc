import Lisplet.Proofs.PaddedScan

/-!
# Scanning marks slices of the source

A slice is a span inside of the source that starts and stops between two characters.
Whatever a scan finds covers some characters of the source as they stand, so its span is
a slice. The one case to look at is a string that is never closed: its last cell may be a
blank that stands for no character of its own.
-/

namespace Lisplet

/-- A span that covers a part of a text: it does not reach past the end, and no character
is cut in two. -/
structure Span.IsSliceOf (span : Span) (source : String) : Prop where
  ordered : span.start ≤ span.stop
  within : span.stop ≤ source.utf8ByteSize
  startsBetween : String.Pos.Raw.IsValid source ⟨span.start⟩
  stopsBetween : String.Pos.Raw.IsValid source ⟨span.stop⟩

namespace Span

open PlainScan (byteSize byteSize_toList)

variable {source : String}

/-- Between two characters of a text is where some of its characters end. -/
theorem isValid_byteSize {front rest : List Char} (split : source.toList = front ++ rest) :
    String.Pos.Raw.IsValid source ⟨byteSize front⟩ := by
  apply String.Pos.Raw.isValid_iff_exists_append.2
  refine ⟨String.ofList front, String.ofList rest, ?_, ?_⟩
  · rw [← String.ofList_append, ← split, String.ofList_toList]
  · have size := byteSize_toList (String.ofList front)
    rw [String.toList_ofList] at size
    rw [size]
    rfl

theorem isValid_min {left right : Nat} (isLeft : String.Pos.Raw.IsValid source ⟨left⟩)
    (isRight : String.Pos.Raw.IsValid source ⟨right⟩) :
    String.Pos.Raw.IsValid source ⟨min left right⟩ := by
  rcases Nat.le_total left right with before | after
  · rwa [Nat.min_eq_left before]
  · rwa [Nat.min_eq_right after]

theorem isValid_max {left right : Nat} (isLeft : String.Pos.Raw.IsValid source ⟨left⟩)
    (isRight : String.Pos.Raw.IsValid source ⟨right⟩) :
    String.Pos.Raw.IsValid source ⟨max left right⟩ := by
  rcases Nat.le_total left right with before | after
  · rwa [Nat.max_eq_right before]
  · rwa [Nat.max_eq_left after]

/-- A span from one place between characters to another is a slice. -/
theorem isSliceOf_of_isValid {span : Span}
    (start : String.Pos.Raw.IsValid source ⟨span.start⟩)
    (stop : String.Pos.Raw.IsValid source ⟨span.stop⟩) : span.IsSliceOf source :=
  ⟨span.ordered, stop.le_rawEndPos, start, stop⟩

/-- The span from one place between characters to another is a slice, also if they are reversed. -/
theorem isSliceOf_ofBounds {start stop : Nat} (isStart : String.Pos.Raw.IsValid source ⟨start⟩)
    (isStop : String.Pos.Raw.IsValid source ⟨stop⟩) : (ofBounds start stop).IsSliceOf source :=
  isSliceOf_of_isValid isStart (isValid_max isStart isStop)

/-- The smallest span that covers two slices is a slice. -/
theorem IsSliceOf.union {left right : Span} (isLeft : left.IsSliceOf source)
    (isRight : right.IsSliceOf source) : (left.union right).IsSliceOf source :=
  isSliceOf_of_isValid (isValid_min isLeft.startsBetween isRight.startsBetween)
    (isValid_max isLeft.stopsBetween isRight.stopsBetween)

/-- Characters that are taken end between two characters. -/
theorem isValid_taken {front taken rest : List Char}
    (split : source.toList = front ++ (taken ++ rest)) :
    String.Pos.Raw.IsValid source ⟨byteSize front + byteSize taken⟩ := by
  rw [← PlainScan.byteSize_append]
  exact isValid_byteSize (split.trans (List.append_assoc _ _ _).symm)

/-- The span of some characters of a text is a slice. -/
theorem isSliceOf_taken {front taken rest : List Char}
    (split : source.toList = front ++ (taken ++ rest)) :
    (ofBounds (byteSize front) (byteSize front + byteSize taken)).IsSliceOf source :=
  isSliceOf_ofBounds (isValid_byteSize split) (isValid_taken split)

/-- The end of a text is an empty slice. -/
theorem isSliceOf_end : (point source.utf8ByteSize).IsSliceOf source :=
  isSliceOf_of_isValid String.Pos.Raw.isValid_rawEndPos String.Pos.Raw.isValid_rawEndPos

end Span

namespace PaddedText

open PlainScan (byteSize stringBody?)

/-- The last cell stops where the characters do, or one byte later if it is the blank
after a paren. -/
theorem stop_getLastD_cases (chars : List Char) {first : Cell} {offset : Nat}
    (start : first.stop = offset ∨ first.stop = offset + 1) :
    ((cellsFrom offset chars).getLastD first).stop = offset + byteSize chars ∨
      ((cellsFrom offset chars).getLastD first).stop = offset + byteSize chars + 1 := by
  induction chars generalizing first offset with
  | nil => exact start
  | cons char rest inductionHypothesis =>
    rw [PlainScan.byteSize_cons, ← Nat.add_assoc]
    by_cases isParen : Text.isParen char
    · have blank : (⟨' ', offset + 1⟩ : Cell).stop = offset + 1 + 1 := rfl
      rw [cellsFrom_of_isParen isParen, utf8Size_of_isParen isParen]
      simp only [List.getLastD_cons]
      exact inductionHypothesis (.inr blank)
    · have here : (⟨char, offset⟩ : Cell).stop = offset + char.utf8Size := rfl
      rw [cellsFrom_of_not_isParen isParen, List.getLastD_cons]
      exact inductionHypothesis (.inl here)

end PaddedText

/-- What a scan marks has a property: the spans of all tokens, or the labels of the fault. -/
def Scan.Marks (holds : Span → Prop) : Except ScanFault (List (Located Token)) → Prop
  | .ok tokens => ∀ token ∈ tokens, holds token.span
  | .error fault => ∀ label ∈ fault.diagnostic.labels, holds label.span

namespace PlainScan

open PaddedText Lisplet.Span

variable {source : String} {front others : List Char} {first : Char}

/-- The bytes up to some characters, those of the characters and those after them are the
bytes of the source. -/
theorem byteSize_split {taken rest : List Char}
    (split : source.toList = front ++ (taken ++ rest)) :
    byteSize front + byteSize taken + byteSize rest = source.utf8ByteSize := by
  rw [← byteSize_toList, split, byteSize_append, byteSize_append, Nat.add_assoc]

/-- The span of a string that is never closed is a slice. It ends with the source, or before
a backslash that has nothing after it. -/
theorem isSliceOf_unclosed (split : source.toList = front ++ first :: others)
    (unclosed : stringBody? others = none) :
    (Scan.spanOver source.utf8ByteSize ⟨first, byteSize front⟩
      (Scan.stringBody (cellsFrom (byteSize front + first.utf8Size) others)).1).IsSliceOf
        source := by
  obtain ⟨body, rest, rfl, ending, taken⟩ :=
    stringBody_cellsFrom_of_unclosed unclosed (byteSize front + first.utf8Size)
  have bodySplit : source.toList = front ++ ((first :: body) ++ rest) := by
    rw [split, List.cons_append]
  have whole := byteSize_split bodySplit
  have firstStops : (⟨first, byteSize front⟩ : Cell).stop = byteSize front + first.utf8Size := rfl
  have lastStops := stop_getLastD_cases body (.inl firstStops)
  rw [taken, Scan.spanOver, Scan.spanBetween]
  apply isSliceOf_ofBounds (isValid_byteSize split)
  generalize ((cellsFrom _ body).getLastD _).stop = last at lastStops ⊢
  have oneByte : byteSize ['\\'] = 1 := rfl
  have stops : min last source.utf8ByteSize = byteSize front + byteSize (first :: body) ∨
      min last source.utf8ByteSize = source.utf8ByteSize := by
    rw [byteSize_cons] at whole ⊢
    rcases ending with rfl | rfl
    · rw [byteSize_nil] at whole
      omega
    · rw [oneByte] at whole
      omega
  rcases stops with atBody | atEnd
  · rw [atBody]
    exact isValid_taken bodySplit
  · rw [atEnd]
    exact String.Pos.Raw.isValid_rawEndPos

/-- A string that is never closed is marked by a slice. -/
theorem isSliceOf_of_readString_error (split : source.toList = front ++ first :: others)
    {fault : ScanFault}
    (failed : Scan.readString source.utf8ByteSize ⟨first, byteSize front⟩
      (cellsFrom (byteSize front + first.utf8Size) others) = .error fault) :
    ∀ label ∈ fault.diagnostic.labels, label.span.IsSliceOf source := by
  rw [Scan.readString] at failed
  cases found : stringBody? others with
  | some parts =>
    rw [stringBody_cellsFrom_of_some found] at failed
    simp at failed
  | none =>
    have isSlice := isSliceOf_unclosed split found
    split at failed
    · rename_i body closing rest taken
      split at failed
      · cases failed
      · cases failed
        rw [taken] at isSlice
        exact List.forall_mem_singleton.2 isSlice
    · rename_i body taken
      cases failed
      rw [taken] at isSlice
      exact List.forall_mem_singleton.2 isSlice

/-- A number that is out of range is marked by a slice. -/
theorem isSliceOf_of_readNumber_error (split : source.toList = front ++ first :: others)
    {fault : ScanFault}
    (failed : Scan.readNumber source.utf8ByteSize ⟨first, byteSize front⟩
      (cellsFrom (byteSize front + first.utf8Size) others) = .error fault) :
    ∀ label ∈ fault.diagnostic.labels, label.span.IsSliceOf source := by
  have digits := noParen_takeWhile (fun _ => noParen_isDecimalDigit) others
  have runSplit : source.toList = front ++ ((first :: others.takeWhile Text.isDecimalDigit) ++
      others.dropWhile Text.isDecimalDigit) := by
    rw [split, List.cons_append, List.takeWhile_append_dropWhile]
  have within := Nat.le.intro (byteSize_split runSplit)
  rw [Scan.readNumber, spanWhile_cellsFrom rfl fun _ => noParen_isDecimalDigit] at failed
  dsimp only at failed
  rw [spanOver_run digits within] at failed
  split at failed
  · cases failed
  · cases failed
    exact List.forall_mem_singleton.2 (isSliceOf_taken runSplit)

/-- The labels of the fault that a step has mark slices of the source. -/
theorem isSliceOf_of_step_error (split : source.toList = front ++ first :: others)
    {fault : ScanFault}
    (failed : Scan.step source.utf8ByteSize ⟨first, byteSize front⟩
      (following (byteSize front) first others) = .error fault) :
    ∀ label ∈ fault.diagnostic.labels, label.span.IsSliceOf source := by
  rw [Scan.step] at failed
  dsimp only at failed
  split at failed
  · cases failed
  rename_i notOpening
  split at failed
  · cases failed
  rename_i notClosing
  have notParen : ¬ Text.isParen first := by
    simpa [Text.isParen] using And.intro notOpening notClosing
  rw [following, if_neg notParen] at failed
  split at failed
  · cases failed
  split at failed
  · cases failed
  split at failed
  · cases failed
  split at failed
  · exact isSliceOf_of_readString_error split failed
  split at failed
  · exact isSliceOf_of_readNumber_error split failed
  split at failed
  · have hereSplit : source.toList = front ++ ([first] ++ others) := split
    rw [spanBetween_self (Nat.le.intro (byteSize_split hereSplit))] at failed
    cases failed
    exact List.forall_mem_singleton.2 (isSliceOf_taken hereSplit)
  · cases failed

/-- What a scan of the rest of a source marks are slices of the source. -/
theorem marks_tokens (chars : List Char) {front : List Char}
    (split : source.toList = front ++ chars) :
    Scan.Marks (Span.IsSliceOf · source)
      (Scan.tokens source.utf8ByteSize (cellsFrom (byteSize front) chars)) := by
  match chars with
  | [] =>
    rw [cellsFrom_nil, Scan.tokens]
    exact List.forall_mem_singleton.2 isSliceOf_end
  | first :: others =>
    have within : byteSize front + byteSize (first :: others) ≤ source.utf8ByteSize := by
      rw [← byteSize_toList, split, byteSize_append]
    cases stepped : step first others with
    | error code =>
      rw [tokens_cellsFrom_cons]
      cases padded : Scan.step source.utf8ByteSize ⟨first, byteSize front⟩
          (following (byteSize front) first others) with
      | error fault =>
        rw [Scan.tokens_of_fault padded]
        exact isSliceOf_of_step_error split padded
      | ok found =>
        have agrees := stepAgrees within
        rw [stepped, padded] at agrees
        exact agrees.elim
    | ok found =>
      obtain ⟨more, taken, whole⟩ := split_of_step stepped
      have foundSplit : source.toList = front ++ (found.taken ++ found.rest) := by
        rw [split, taken, List.cons_append, whole]
      have shorter := length_rest_le_of_step stepped
      have rest := marks_tokens found.rest (foundSplit.trans (List.append_assoc _ _ _).symm)
      rw [byteSize_append] at rest
      rw [tokens_cellsFrom_of_step stepped within]
      cases scanned : Scan.tokens source.utf8ByteSize
          (cellsFrom (byteSize front + byteSize found.taken) found.rest) with
      | error fault =>
        rw [scanned] at rest
        exact rest
      | ok following =>
        rw [scanned] at rest
        intro token member
        rcases List.mem_append.1 member with own | later
        · obtain ⟨kind, -, rfl⟩ := Option.map_eq_some_iff.1 (Option.mem_toList.1 own)
          exact isSliceOf_taken foundSplit
        · exact rest token later
termination_by chars.length

end PlainScan

/-- What a scan of a source marks are slices of it. -/
theorem PaddedText.marks_tokens_ofSource (source : String) :
    Scan.Marks (Span.IsSliceOf · source) (PaddedText.ofSource source).tokens :=
  PlainScan.marks_tokens source.toList (List.nil_append _).symm

end Lisplet

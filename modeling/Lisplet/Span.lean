/-!
# Spans of a source text

A span is a range of byte offsets of the UTF-8 text a program was read from.
Every token, tree node and diagnostic label carries one, and all of them refer
to the text as it was written, never to an intermediate form of it.
-/

namespace Lisplet

/-- A range of byte offsets that starts no later than it stops. -/
structure Span where
  start : Nat
  stop : Nat
  ordered : start ≤ stop
deriving DecidableEq, Repr

namespace Span

/-- The span between two offsets; a stop before the start is raised to it. -/
def ofBounds (start stop : Nat) : Span :=
  ⟨start, max start stop, Nat.le_max_left start stop⟩

/-- The empty span at one offset. -/
def point (offset : Nat) : Span :=
  ⟨offset, offset, Nat.le_refl offset⟩

instance : Inhabited Span := ⟨Span.point 0⟩

/-- The number of bytes covered. -/
def length (span : Span) : Nat :=
  span.stop - span.start

/-- Whether no byte is covered. -/
def isEmpty (span : Span) : Bool :=
  span.start == span.stop

/-- The smallest span that covers both. -/
def union (left right : Span) : Span :=
  ⟨min left.start right.start, max left.stop right.stop,
    Nat.le_trans (Nat.min_le_left left.start right.start)
      (Nat.le_trans left.ordered (Nat.le_max_left left.stop right.stop))⟩

end Span

/-- A value together with the place it was read from. -/
structure Located (α : Type) where
  value : α
  span : Span
deriving DecidableEq, Repr

namespace Located

/-- Whether two located values agree as values, wherever they were read. -/
def sameValue {α : Type} [BEq α] (left right : Located α) : Bool :=
  left.value == right.value

end Located

end Lisplet

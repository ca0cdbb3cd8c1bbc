import Lisplet.FrontEnd
import Lisplet.Proofs.Enclosures
import Lisplet.Proofs.Nesting
import Lisplet.Proofs.TokenCover

/-!
# Trees nest in their source

The nodes of a tree stand in the source as they stand in the tree. A node that was read as a list
reaches from an opening paren to the closing paren that matches it, what belongs to the node stands
between these parens, and siblings follow each other without overlap. For the tree as read this
comes from the order of the tokens that the tree spells. The desugared tree has the enclosures of
the tree as read, so it nests in the same way.
-/

namespace Lisplet

/-- Whether a span lies in another. -/
def Span.Contains (outer inner : Span) : Prop :=
  outer.start ≤ inner.start ∧ inner.stop ≤ outer.stop

/-- Whether a span reaches from an opening paren of the source to the closing paren that matches
it: the tokens between the two close all the lists they open, and no others. -/
structure Span.Parenthesized (source : String) (tokens : List (Located Token)) (span : Span) :
    Prop where
  slice : ∃ middle : String, span.Holds source ("(" ++ middle ++ ")")
  matched : ∃ before opening inside closing after,
    tokens = before ++ opening :: (inside ++ closing :: after) ∧
      opening.value = .openParen ∧ closing.value = .closeParen ∧ Balanced inside ∧
      span.start = opening.span.start ∧ span.stop = closing.span.stop

/-- Whether an enclosure nests in a source: it goes from paren to paren and contains its parts,
which follow each other without overlap. -/
structure Enclosure.Nests (source : String) (tokens : List (Located Token))
    (enclosure : Enclosure) : Prop where
  parenthesized : enclosure.span.Parenthesized source tokens
  contains : ∀ part ∈ enclosure.parts, enclosure.span.Contains part
  inOrder : enclosure.parts.Pairwise Span.Before

/-- Whether a module nests in a source with the given tokens. -/
structure Module.Nests (source : String) (tokens : List (Located Token)) (module : Module) :
    Prop where
  /-- The forms follow each other without overlap. -/
  formsInOrder : (module.forms.map Expr.span).Pairwise Span.Before
  /-- Every enclosure nests, at any depth. -/
  enclosures : ∀ form ∈ module.forms, form.Enclosed (Enclosure.Nests source tokens)
  /-- A node contains whatever stands below it, nodes and names. -/
  contains : ∀ form ∈ module.forms, ∀ node, Expr.Within node form →
    node.Placed node.span.Contains

namespace Span

theorem Contains.refl (span : Span) : span.Contains span :=
  ⟨Nat.le_refl _, Nat.le_refl _⟩

theorem Contains.trans {outer middle inner : Span} (isMiddle : outer.Contains middle)
    (isInner : middle.Contains inner) : outer.Contains inner :=
  ⟨Nat.le_trans isMiddle.1 isInner.1, Nat.le_trans isInner.2 isMiddle.2⟩

/-- The union of a span and a later one reaches from the start of the first to the stop of the
second. -/
theorem union_of_before {left right : Span} (before : left.Before right) :
    (left.union right).start = left.start ∧ (left.union right).stop = right.stop := by
  have ordered := right.ordered
  obtain ⟨starts, stops⟩ := before
  exact ⟨Nat.min_eq_left (by omega), Nat.max_eq_right (by omega)⟩

/-- Of two parts of a text, the one that is no longer is the beginning of the other. -/
theorem exists_append_of_size_le {front behind longer rest : List Char}
    (same : front ++ behind = longer ++ rest)
    (noLonger : PlainScan.byteSize front ≤ PlainScan.byteSize longer) :
    ∃ middle, longer = front ++ middle := by
  rcases List.append_eq_append_iff.1 same with ⟨middle, split, -⟩ | ⟨excess, split, -⟩
  · exact ⟨middle, split⟩
  · cases excess with
    | nil => exact ⟨[], by simpa using split.symm⟩
    | cons char others =>
      have positive := char.utf8Size_pos
      rw [split, PlainScan.byteSize_append, PlainScan.byteSize_cons] at noLonger
      omega

/-- From one part of a source to a later one there is what both hold and what is between. -/
theorem Holds.union {source first last : String} {left right : Span}
    (holdsFirst : left.Holds source first) (holdsLast : right.Holds source last)
    (before : left.Before right) :
    ∃ middle : String, (left.union right).Holds source (first ++ middle ++ last) := by
  obtain ⟨front, behind, split, isStart, isStop⟩ := holdsFirst
  obtain ⟨longer, rest, longerSplit, laterStart, laterStop⟩ := holdsLast
  obtain ⟨unionStart, unionStop⟩ := union_of_before before
  have same : (front ++ first).toList ++ behind.toList =
      longer.toList ++ (last ++ rest).toList := by
    rw [← String.toList_append, ← String.toList_append, ← split, longerSplit, String.append_assoc]
  have noLonger : PlainScan.byteSize (front ++ first).toList ≤
      PlainScan.byteSize longer.toList := by
    rw [PlainScan.byteSize_toList, PlainScan.byteSize_toList, ← isStop, ← laterStart]
    exact before.2
  obtain ⟨middle, isLonger⟩ := exists_append_of_size_le same noLonger
  have isFront : longer = front ++ first ++ String.ofList middle := by
    rw [← String.toList_inj, isLonger, String.toList_append (t := String.ofList middle),
      String.toList_ofList]
  refine ⟨String.ofList middle, front, rest, ?_, ?_, ?_⟩
  · rw [longerSplit, isFront]
    simp only [String.append_assoc]
  · rw [unionStart, isStart]
  · rw [unionStop, laterStop, isFront]
    simp only [String.append_assoc]

end Span

/-- Leaving out parts of an enclosure that nests leaves one that nests. -/
theorem Enclosure.thinningClosed_nests (source : String) (tokens : List (Located Token)) :
    Enclosure.ThinningClosed (Enclosure.Nests source tokens) :=
  fun _ _ _ isSublist nests => ⟨nests.parenthesized,
    fun part member => nests.contains part (isSublist.subset member),
    nests.inOrder.sublist isSublist⟩

/-- Whether an enclosure contains its parts. -/
def Enclosure.Surrounds (enclosure : Enclosure) : Prop :=
  ∀ part ∈ enclosure.parts, enclosure.span.Contains part

namespace Expr

open Enclosure (Surrounds)

mutual

/-- If enclosures contain their parts, a node contains whatever stands below it. -/
theorem placed_contains : (expr : Expr) → expr.Enclosed Surrounds → expr.Placed expr.span.Contains
  | identifier span _, _ => placed_identifier.2 (.refl span)
  | number span _, _ => placed_number.2 (.refl span)
  | text span _, _ => placed_text.2 (.refl span)
  | list span items, enclosed => by
    obtain ⟨here, itemsEnclosed⟩ := enclosed_list.1 enclosed
    refine placed_list.2 ⟨.refl span, ?_⟩
    exact placedAll_contains items itemsEnclosed fun item member =>
      here _ (List.mem_map_of_mem member)
  | arithmetic span _ left right, enclosed => by
    obtain ⟨here, leftEnclosed, rightEnclosed⟩ := enclosed_arithmetic.1 enclosed
    refine placed_arithmetic.2 ⟨.refl span, fun place isPlace => ?_, fun place isPlace => ?_⟩
    · exact (here _ (by simp)).trans (placed_contains left leftEnclosed place isPlace)
    · exact (here _ (by simp)).trans (placed_contains right rightEnclosed place isPlace)
  | variableDef span name initializer, enclosed => by
    obtain ⟨here, initializerEnclosed⟩ := enclosed_variableDef.1 enclosed
    refine placed_variableDef.2 ⟨.refl span, here _ (by simp), fun place isPlace => ?_⟩
    exact (here _ (by simp)).trans (placed_contains initializer initializerEnclosed place isPlace)
  | functionDef span prototype body, enclosed => by
    obtain ⟨⟨here, prototypeHere⟩, bodyEnclosed⟩ := enclosed_functionDef.1 enclosed
    have prototypeInside : span.Contains prototype.span := here _ (by simp)
    refine placed_functionDef.2 ⟨.refl span, List.forall_mem_cons.2 ⟨prototypeInside, ?_⟩, ?_⟩
    · exact fun place isPlace => prototypeInside.trans (prototypeHere place isPlace)
    · exact fun place isPlace =>
        (here _ (by simp)).trans (placed_contains body bodyEnclosed place isPlace)
  | call span callee arguments, enclosed => by
    obtain ⟨here, argumentsEnclosed⟩ := enclosed_call.1 enclosed
    refine placed_call.2 ⟨.refl span, here _ (by simp), ?_⟩
    exact placedAll_contains arguments argumentsEnclosed fun argument member =>
      here _ (List.mem_cons_of_mem _ (List.mem_map_of_mem member))

/-- If a span contains some nodes, it contains whatever stands below them. -/
theorem placedAll_contains {span : Span} : (exprs : List Expr) →
    (∀ expr ∈ exprs, expr.Enclosed Surrounds) → (∀ expr ∈ exprs, span.Contains expr.span) →
      ∀ expr ∈ exprs, expr.Placed span.Contains
  | [], _, _ => List.forall_mem_nil _
  | first :: others, enclosed, inside => by
    obtain ⟨firstEnclosed, othersEnclosed⟩ := List.forall_mem_cons.1 enclosed
    obtain ⟨firstInside, othersInside⟩ := List.forall_mem_cons.1 inside
    refine List.forall_mem_cons.2 ⟨?_, placedAll_contains others othersEnclosed othersInside⟩
    exact fun place isPlace => firstInside.trans (placed_contains first firstEnclosed place isPlace)

end

end Expr

/-- A module nests if its forms are in order and all its enclosures nest. -/
theorem Module.nests_of_enclosed {source : String} {tokens : List (Located Token)} {module : Module}
    (inOrder : (module.forms.map Expr.span).Pairwise Span.Before)
    (enclosed : ∀ form ∈ module.forms, form.Enclosed (Enclosure.Nests source tokens)) :
    module.Nests source tokens where
  formsInOrder := inOrder
  enclosures := enclosed
  contains := by
    intro form isForm node within
    apply Expr.placed_contains
    exact (Expr.Enclosed.within within (enclosed form isForm)).mono fun _ nests => nests.contains

section Reading

variable {source : String} {tokens own : List (Located Token)}

/-- A tree starts where one of the tokens that it spells starts, and stops where one stops. -/
theorem Spells.ends {expr : Expr} (spelled : Spells expr own)
    (inOrder : own.Pairwise fun earlier later => earlier.span.Before later.span) :
    ∃ first ∈ own, ∃ last ∈ own,
      expr.span.start = first.span.start ∧ expr.span.stop = last.span.stop := by
  cases spelled with
  | identifier | number | text =>
    exact ⟨_, List.mem_cons_self, _, List.mem_cons_self, rfl, rfl⟩
  | @list opening closing items inner isOpening inside isClosing =>
    have isLast : closing ∈ inner ++ [closing] := List.mem_append_right _ List.mem_cons_self
    have before := (List.pairwise_cons.1 inOrder).1 closing isLast
    exact ⟨opening, List.mem_cons_self, closing, List.mem_cons_of_mem _ isLast,
      Span.union_of_before before⟩

/-- Each tree starts with one of the tokens that spell the trees and stops with one. -/
theorem SpellsAll.ends {exprs : List Expr} (spelled : SpellsAll exprs own)
    (inOrder : own.Pairwise fun earlier later => earlier.span.Before later.span) :
    ∀ expr ∈ exprs, ∃ first ∈ own, ∃ last ∈ own,
      expr.span.start = first.span.start ∧ expr.span.stop = last.span.stop := by
  induction exprs generalizing own with
  | nil => exact List.forall_mem_nil _
  | cons head others inductionHypothesis =>
    cases spelled with
    | @cons _ _ front rest headSpelled following =>
      obtain ⟨frontInOrder, restInOrder, -⟩ := List.pairwise_append.1 inOrder
      refine List.forall_mem_cons.2 ⟨?_, fun expr member => ?_⟩
      · obtain ⟨first, isFirst, last, isLast, ends⟩ := headSpelled.ends frontInOrder
        exact ⟨first, List.mem_append_left _ isFirst, last, List.mem_append_left _ isLast, ends⟩
      · obtain ⟨first, isFirst, last, isLast, ends⟩ :=
          inductionHypothesis following restInOrder expr member
        exact ⟨first, List.mem_append_right _ isFirst, last, List.mem_append_right _ isLast, ends⟩

/-- Trees follow each other as the tokens that they spell. -/
theorem SpellsAll.inOrder {exprs : List Expr} (spelled : SpellsAll exprs own)
    (inOrder : own.Pairwise fun earlier later => earlier.span.Before later.span) :
    (exprs.map Expr.span).Pairwise Span.Before := by
  induction exprs generalizing own with
  | nil => exact .nil
  | cons head others inductionHypothesis =>
    cases spelled with
    | @cons _ _ front rest headSpelled following =>
      obtain ⟨frontInOrder, restInOrder, across⟩ := List.pairwise_append.1 inOrder
      refine List.pairwise_cons.2 ⟨?_, inductionHypothesis following restInOrder⟩
      intro place isPlace
      obtain ⟨later, isLater, rfl⟩ := List.mem_map.1 isPlace
      obtain ⟨first, isFirst, last, isLast, starts, stops⟩ := headSpelled.ends frontInOrder
      obtain ⟨laterFirst, isLaterFirst, -, -, laterStarts, -⟩ :=
        following.ends restInOrder later isLater
      rw [Span.Before, starts, stops, laterStarts]
      exact ⟨(across first isFirst laterFirst isLaterFirst).1,
        (across last isLast laterFirst isLaterFirst).2⟩

/-- Two tokens of a program stand among all tokens, with nothing but line breaks added to what is
between them. -/
theorem exists_split_of_content {inner : List (Located Token)} {opening closing : Located Token}
    (isPart : opening :: (inner ++ [closing]) <:+: content tokens) :
    ∃ front inside rest, tokens = front ++ opening :: (inside ++ closing :: rest) ∧
      withoutLines inside = inner := by
  obtain ⟨before, after, split⟩ := isPart
  have regrouped : withoutLines (beforeEnd tokens) =
      before ++ opening :: (inner ++ closing :: after) := by
    simpa [content] using split.symm
  obtain ⟨front, behind, isProgram, -, kept⟩ := List.filter_eq_append_iff.1 regrouped
  obtain ⟨skipped, others, rfl, -, -, kept⟩ := List.filter_eq_cons_iff.1 kept
  obtain ⟨inside, rest, rfl, isInner, kept⟩ := List.filter_eq_append_iff.1 kept
  obtain ⟨lines, last, rfl, onlyLines, -, -⟩ := List.filter_eq_cons_iff.1 kept
  -- Line breaks right before the closing token belong to what is between the two.
  have whole : tokens = beforeEnd tokens ++ _ := List.takeWhile_append_dropWhile.symm
  refine ⟨front ++ skipped, inside ++ lines,
    last ++ tokens.dropWhile fun token => token.value ≠ .endOfFile, ?_, ?_⟩
  · rw [isProgram] at whole
    simpa only [List.append_assoc, List.cons_append] using whole
  · have noneLeft : withoutLines lines = [] := List.filter_eq_nil_iff.2 onlyLines
    rw [withoutLines_append, noneLeft, List.append_nil]
    exact isInner

/-- The tokens that matter stand in the order of all tokens. -/
theorem content_sublist (tokens : List (Located Token)) : (content tokens).Sublist tokens :=
  List.filter_sublist.trans (List.takeWhile_sublist _)

/-- The tokens that matter stand one behind the other in the source. -/
theorem inOrder_content (tiles : PlainScan.Tiles 0 source.toList tokens) :
    (content tokens).Pairwise fun earlier later => earlier.span.Before later.span :=
  tiles.inOrder.sublist (content_sublist tokens)

/-- A token that can be read from one text only stands where the source has this text. -/
theorem holds_of_lexeme (tiles : PlainScan.Tiles 0 source.toList tokens) {token : Located Token}
    {spelling : String} (member : token ∈ tokens)
    (isOnly : ∀ chars, token.value.Lexeme chars → chars = spelling.toList) :
    token.span.Holds source spelling := by
  have split : source.toList = [] ++ source.toList := rfl
  obtain ⟨text, holds, lexeme⟩ := tiles.lexemes rfl split token member
  rwa [String.toList_inj.1 (isOnly _ lexeme)] at holds

/-- An opening paren stands where its token says. -/
theorem holds_openParen (tiles : PlainScan.Tiles 0 source.toList tokens)
    {opening : Located Token} (member : opening ∈ tokens)
    (isOpening : opening.value = .openParen) : opening.span.Holds source "(" := by
  refine holds_of_lexeme tiles member ?_
  rw [isOpening]
  rintro _ ⟨⟩
  rfl

/-- A closing paren stands where its token says. -/
theorem holds_closeParen (tiles : PlainScan.Tiles 0 source.toList tokens)
    {closing : Located Token} (member : closing ∈ tokens)
    (isClosing : closing.value = .closeParen) : closing.span.Holds source ")" := by
  refine holds_of_lexeme tiles member ?_
  rw [isClosing]
  rintro _ ⟨⟩
  rfl

/-- A list as read reaches from its opening paren to the closing paren that matches it. -/
theorem parenthesized_list (tiles : PlainScan.Tiles 0 source.toList tokens) {items : List Expr}
    {inner : List (Located Token)} {opening closing : Located Token}
    (isPart : opening :: (inner ++ [closing]) <:+: content tokens)
    (isOpening : opening.value = .openParen) (inside : SpellsAll items inner)
    (isClosing : closing.value = .closeParen) :
    (opening.span.union closing.span).Parenthesized source tokens := by
  obtain ⟨front, between, rest, rfl, isInner⟩ := exists_split_of_content isPart
  have inOrder := (List.pairwise_append.1 tiles.inOrder).2.1
  have isBefore := (List.pairwise_cons.1 inOrder).1 closing (by simp)
  obtain ⟨starts, stops⟩ := Span.union_of_before isBefore
  have balanced : Balanced between := by
    apply balanced_of_withoutLines
    rw [isInner]
    exact inside.isItems.balanced
  constructor
  · exact (holds_openParen tiles (by simp) isOpening).union
      (holds_closeParen tiles (by simp) isClosing) isBefore
  · exact ⟨front, opening, between, closing, rest, rfl, isOpening, isClosing, balanced, starts,
      stops⟩

/-- A list as read nests around its items. -/
theorem nests_list (tiles : PlainScan.Tiles 0 source.toList tokens) {items : List Expr}
    {inner : List (Located Token)} {opening closing : Located Token}
    (isPart : opening :: (inner ++ [closing]) <:+: content tokens)
    (isOpening : opening.value = .openParen) (inside : SpellsAll items inner)
    (isClosing : closing.value = .closeParen) :
    Enclosure.Nests source tokens ⟨opening.span.union closing.span, items.map Expr.span⟩ := by
  have own := (inOrder_content tiles).sublist isPart.sublist
  obtain ⟨afterOpening, inList⟩ := List.pairwise_cons.1 own
  obtain ⟨innerInOrder, -, beforeClosing⟩ := List.pairwise_append.1 inList
  obtain ⟨starts, stops⟩ := Span.union_of_before (afterOpening closing (by simp))
  refine ⟨parenthesized_list tiles isPart isOpening inside isClosing, ?_,
    inside.inOrder innerInOrder⟩
  intro part isPart
  obtain ⟨item, isItem, rfl⟩ := List.mem_map.1 isPart
  obtain ⟨first, isFirst, last, isLast, itemStarts, itemStops⟩ :=
    inside.ends innerInOrder item isItem
  have opensBefore := (afterOpening first (List.mem_append_left _ isFirst)).1
  have closesAfter := (beforeClosing last isLast closing (by simp)).2
  have ordered := closing.span.ordered
  constructor
  · rw [starts, itemStarts]
    omega
  · rw [stops, itemStops]
    omega

mutual

/-- Every enclosure in a tree as read nests. -/
theorem Spells.enclosed (tiles : PlainScan.Tiles 0 source.toList tokens) {expr : Expr}
    {own : List (Located Token)} (spelled : Spells expr own) (isPart : own <:+: content tokens) :
    expr.Enclosed (Enclosure.Nests source tokens) :=
  match spelled with
  | .identifier .. => Expr.enclosed_of_atom rfl rfl
  | .number .. => Expr.enclosed_of_atom rfl rfl
  | .text .. => Expr.enclosed_of_atom rfl rfl
  | .list isOpening inside isClosing =>
    Expr.enclosed_list.2 ⟨nests_list tiles isPart isOpening inside isClosing,
      inside.enclosed tiles (List.IsInfix.trans ⟨[_], [_], rfl⟩ isPart)⟩
termination_by structural spelled

/-- Trees that are spelled one after another nest in the source. -/
theorem SpellsAll.enclosed (tiles : PlainScan.Tiles 0 source.toList tokens) {exprs : List Expr}
    {own : List (Located Token)} (spelled : SpellsAll exprs own)
    (isPart : own <:+: content tokens) :
    ∀ expr ∈ exprs, expr.Enclosed (Enclosure.Nests source tokens) :=
  match spelled with
  | .none => List.forall_mem_nil _
  | .cons first following => List.forall_mem_cons.2
      ⟨first.enclosed tiles ((List.prefix_append _ _).isInfix.trans isPart),
        following.enclosed tiles ((List.suffix_append _ _).isInfix.trans isPart)⟩
termination_by structural spelled

end

/-- A module as read nests in its source. -/
theorem Module.nests_of_ofTokens (tiles : PlainScan.Tiles 0 source.toList tokens)
    {module : Module} (read : Module.ofTokens tokens = .ok module) :
    module.Nests source tokens := by
  obtain ⟨spelled, -⟩ := Module.spellsAll_of_ofTokens read
  exact Module.nests_of_enclosed (spelled.inOrder (inOrder_content tiles))
    (spelled.enclosed tiles List.infix_rfl)

end Reading

/-- Desugaring a module that nests leads to a module that nests. -/
theorem Module.Nests.desugar {source : String} {tokens : List (Located Token)}
    {module desugared : Module} (nests : module.Nests source tokens)
    (arrived : module.desugar.result = .ok desugared) : desugared.Nests source tokens := by
  have kept := Module.enclosedAll_of_desugar (Enclosure.thinningClosed_nests source tokens)
    nests.enclosures arrived
  refine Module.nests_of_enclosed ?_ kept.enclosed
  rw [kept.places]
  exact nests.formsInOrder

/-- A source stands for a module if its tokens are balanced and can be read as a tree, and the tree
can be desugared. -/
theorem Module.result_ofSource_eq_ok_iff {source : String} {desugared : Module} :
    (Module.ofSource source).result = .ok desugared ↔
      ∃ tokens depth parsed, (PaddedText.ofSource source).tokens = .ok tokens ∧
        balance tokens = .ok depth ∧ Module.ofTokens tokens = .ok parsed ∧
        parsed.desugar.result = .ok desugared := by
  constructor
  · intro analysed
    rw [Module.ofSource] at analysed
    split at analysed
    · cases analysed
    next tokens scanned =>
      split at analysed
      · cases analysed
      next depth balanced =>
        split at analysed
        · cases analysed
        next parsed read =>
          refine ⟨tokens, depth, parsed, scanned, balanced, read, ?_⟩
          dsimp only at analysed
          cases arrived : parsed.desugar.result with
          | error cause =>
            rw [arrived] at analysed
            cases analysed
          | ok module =>
            rw [arrived] at analysed
            cases analysed
            rfl
  · rintro ⟨tokens, depth, parsed, scanned, balanced, read, arrived⟩
    simp [Module.ofSource, scanned, balanced, read, arrived, Except.mapError]

/-- If a source stands for a module, its tree nests in it, as read and as desugared: all that
belongs to a node stands in its span, one after another without overlap, every node that was read
as a list goes from an opening paren to the paren that matches it, and the forms follow each other
without overlap. -/
theorem Module.trees_nest_in_source {source : String} {desugared : Module}
    (analysed : (Module.ofSource source).result = .ok desugared) :
    ∃ tokens parsed, (PaddedText.ofSource source).tokens = .ok tokens ∧
      Module.ofTokens tokens = .ok parsed ∧ parsed.desugar.result = .ok desugared ∧
      parsed.Nests source tokens ∧ desugared.Nests source tokens := by
  obtain ⟨tokens, -, parsed, scanned, -, read, arrived⟩ :=
    Module.result_ofSource_eq_ok_iff.1 analysed
  have nests := Module.nests_of_ofTokens (PaddedText.tiles_tokens scanned) read
  exact ⟨tokens, parsed, scanned, read, arrived, nests, nests.desugar arrived⟩

/-- Two forms on two lines: the definition of a function, and a list that begins with a list. -/
def nestedSource : String :=
  "(defun (f é)\n(g é)) ((h))"

def nestedTokens : List (Located Token) :=
  [⟨.openParen, .ofBounds 0 1⟩, ⟨.identifier "defun", .ofBounds 1 6⟩, ⟨.openParen, .ofBounds 7 8⟩,
    ⟨.identifier "f", .ofBounds 8 9⟩, ⟨.identifier "é", .ofBounds 10 12⟩,
    ⟨.closeParen, .ofBounds 12 13⟩, ⟨.endOfLine, .ofBounds 13 14⟩, ⟨.openParen, .ofBounds 14 15⟩,
    ⟨.identifier "g", .ofBounds 15 16⟩, ⟨.identifier "é", .ofBounds 17 19⟩,
    ⟨.closeParen, .ofBounds 19 20⟩, ⟨.closeParen, .ofBounds 20 21⟩, ⟨.openParen, .ofBounds 22 23⟩,
    ⟨.openParen, .ofBounds 23 24⟩, ⟨.identifier "h", .ofBounds 24 25⟩,
    ⟨.closeParen, .ofBounds 25 26⟩, ⟨.closeParen, .ofBounds 26 27⟩, ⟨.endOfFile, .point 27⟩]

def nestedTree : Module :=
  ⟨[.list (.ofBounds 0 21) [.identifier (.ofBounds 1 6) "defun",
      .list (.ofBounds 7 13)
        [.identifier (.ofBounds 8 9) "f", .identifier (.ofBounds 10 12) "é"],
      .list (.ofBounds 14 20)
        [.identifier (.ofBounds 15 16) "g", .identifier (.ofBounds 17 19) "é"]],
    .list (.ofBounds 22 27) [.list (.ofBounds 23 26) [.identifier (.ofBounds 24 25) "h"]]]⟩

def nestedModule : Module :=
  ⟨[.functionDef (.ofBounds 0 21)
      ⟨⟨"f", .ofBounds 8 9⟩, [⟨"é", .ofBounds 10 12⟩], .ofBounds 7 13⟩
      (.call (.ofBounds 14 20) ⟨"g", .ofBounds 15 16⟩ [.identifier (.ofBounds 17 19) "é"]),
    .list (.ofBounds 22 27) [.call (.ofBounds 23 26) ⟨"h", .ofBounds 24 25⟩ []]]⟩

theorem Module.trees_nest_in_nestedSource :
    (Module.ofSource nestedSource).result = .ok nestedModule ∧
      nestedTree.Nests nestedSource nestedTokens ∧
      nestedModule.Nests nestedSource nestedTokens := by
  have scanned : (PaddedText.ofSource nestedSource).tokens = .ok nestedTokens := by decide +kernel
  have balanced : balance nestedTokens = .ok 0 := rfl
  have read : Module.ofTokens nestedTokens = .ok nestedTree :=
    (Module.ofTokens_eq_ok_iff _ _).2 rfl
  have arrived : nestedTree.desugar.result = .ok nestedModule := by
    rw [Module.desugar_eq_sweep]
    rfl
  have analysed : (Module.ofSource nestedSource).result = .ok nestedModule :=
    Module.result_ofSource_eq_ok_iff.2 ⟨_, _, _, scanned, balanced, read, arrived⟩
  obtain ⟨tokens, parsed, isTokens, isParsed, -, nests⟩ := Module.trees_nest_in_source analysed
  cases scanned.symm.trans isTokens
  cases read.symm.trans isParsed
  exact ⟨analysed, nests⟩

end Lisplet

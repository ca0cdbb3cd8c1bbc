import Lisplet.Proofs.OpenLists

/-!
# Spelling

Trees as read stand for tokens, and tokens that are a sequence of lists stand for one
forest. Reading tokens as a module finds this forest, and fails if there is none. Line
breaks and whatever follows the first end of file are left out of account.
-/

namespace Lisplet

mutual

/-- A list of the grammar: an opening paren, items, and a closing paren. -/
inductive IsList : List (Located Token) → Prop where
  | parens {opening closing : Located Token} {inner : List (Located Token)}
      (isOpening : opening.value = .openParen) (items : IsItems inner)
      (isClosing : closing.value = .closeParen) : IsList (opening :: (inner ++ [closing]))

/-- Any number of identifiers, literals and lists. -/
inductive IsItems : List (Located Token) → Prop where
  | none : IsItems []
  | atom {token : Located Token} {rest : List (Located Token)} (isAtom : token.value.isAtom)
      (others : IsItems rest) : IsItems (token :: rest)
  | list {front rest : List (Located Token)} (first : IsList front) (others : IsItems rest) :
      IsItems (front ++ rest)

end

/-- Any number of lists. -/
inductive IsForest : List (Located Token) → Prop where
  | none : IsForest []
  | list {front rest : List (Located Token)} (first : IsList front) (others : IsForest rest) :
      IsForest (front ++ rest)

mutual

/-- The tokens that a tree as read stands for. An atom has the place of its token, a list
the places of its two parens and all between them. -/
inductive Spells : Expr → List (Located Token) → Prop where
  | identifier (span : Span) (name : String) :
      Spells (.identifier span name) [⟨.identifier name, span⟩]
  | number (span : Span) (value : Int64) : Spells (.number span value) [⟨.number value, span⟩]
  | text (span : Span) (body : String) : Spells (.text span body) [⟨.text body, span⟩]
  | list {opening closing : Located Token} {items : List Expr} {inner : List (Located Token)}
      (isOpening : opening.value = .openParen) (inside : SpellsAll items inner)
      (isClosing : closing.value = .closeParen) :
      Spells (.list (opening.span.union closing.span) items) (opening :: (inner ++ [closing]))

/-- The tokens that a forest stands for. -/
inductive SpellsAll : List Expr → List (Located Token) → Prop where
  | none : SpellsAll [] []
  | cons {first : Expr} {others : List Expr} {front rest : List (Located Token)}
      (spelled : Spells first front) (following : SpellsAll others rest) :
      SpellsAll (first :: others) (front ++ rest)

end

/-- Tokens without the line breaks among them. -/
def withoutLines (tokens : List (Located Token)) : List (Located Token) :=
  tokens.filter fun token => token.value ≠ .endOfLine

/-- The tokens that make up a program: those before the first end of file, without line
breaks. -/
def content (tokens : List (Located Token)) : List (Located Token) :=
  withoutLines (beforeEnd tokens)

section WithoutLines

variable {token : Located Token}

@[simp] theorem withoutLines_nil : withoutLines [] = [] :=
  rfl

@[simp] theorem withoutLines_append (front rest : List (Located Token)) :
    withoutLines (front ++ rest) = withoutLines front ++ withoutLines rest :=
  List.filter_append ..

theorem withoutLines_cons_of_line (isLine : token.value = .endOfLine)
    (rest : List (Located Token)) : withoutLines (token :: rest) = withoutLines rest := by
  simp [withoutLines, isLine]

theorem withoutLines_cons_of_not_line (notLine : token.value ≠ .endOfLine)
    (rest : List (Located Token)) :
    withoutLines (token :: rest) = token :: withoutLines rest := by
  simp [withoutLines, notLine]

end WithoutLines

section Spelled

variable {exprs : List Expr} {tokens : List (Located Token)}

theorem spells_of_ofAtom? {token : Located Token} {atom : Expr}
    (isAtom : Expr.ofAtom? token = some atom) : Spells atom [token] := by
  obtain ⟨value, span⟩ := token
  cases value <;> cases isAtom
  · exact .identifier ..
  · exact .number ..
  · exact .text ..

theorem SpellsAll.concat {expr : Expr} {more : List (Located Token)}
    (all : SpellsAll exprs tokens) (spelled : Spells expr more) :
    SpellsAll (exprs ++ [expr]) (tokens ++ more) := by
  induction exprs generalizing tokens with
  | nil =>
    cases all
    rw [List.nil_append, List.nil_append, ← List.append_nil more]
    exact .cons spelled .none
  | cons first others inductionHypothesis =>
    cases all with
    | cons firstSpelled following =>
      rw [List.cons_append, List.append_assoc]
      exact .cons firstSpelled (inductionHypothesis following)

mutual

/-- A tree spells an item of the grammar. -/
theorem Spells.isItems_append {expr : Expr} {tokens rest : List (Located Token)}
    (spelled : Spells expr tokens) (others : IsItems rest) : IsItems (tokens ++ rest) :=
  match spelled with
  | .identifier .. => .atom rfl others
  | .number .. => .atom rfl others
  | .text .. => .atom rfl others
  | .list isOpening inside isClosing => .list (.parens isOpening inside.isItems isClosing) others
termination_by structural spelled

/-- A forest spells items of the grammar. -/
theorem SpellsAll.isItems {exprs : List Expr} {tokens : List (Located Token)}
    (spelled : SpellsAll exprs tokens) : IsItems tokens :=
  match spelled with
  | .none => .none
  | .cons first following => first.isItems_append following.isItems
termination_by structural spelled

end

/-- A list as read spells a list of the grammar. -/
theorem Spells.isList {expr : Expr} (spelled : Spells expr tokens) (isList : expr.isList) :
    IsList tokens := by
  cases spelled with
  | identifier | number | text => cases isList
  | list isOpening inside isClosing => exact .parens isOpening inside.isItems isClosing

/-- A forest of lists spells a forest of the grammar. -/
theorem SpellsAll.isForest (spelled : SpellsAll exprs tokens)
    (lists : ∀ expr ∈ exprs, expr.isList) : IsForest tokens := by
  induction exprs generalizing tokens with
  | nil =>
    cases spelled
    exact .none
  | cons first others inductionHypothesis =>
    cases spelled with
    | cons firstSpelled following =>
      have firstList := firstSpelled.isList (lists first List.mem_cons_self)
      have othersLists := fun other member => lists other (List.mem_cons_of_mem _ member)
      exact .list firstList (inductionHypothesis following othersLists)

mutual

/-- A list of the grammar is spelled by a list. -/
theorem IsList.exists_spells {tokens : List (Located Token)} (isList : IsList tokens) :
    ∃ expr : Expr, expr.isList ∧ Spells expr tokens :=
  match isList with
  | .parens isOpening items isClosing =>
    let ⟨exprs, spelled⟩ := items.exists_spellsAll
    ⟨.list _ exprs, rfl, .list isOpening spelled isClosing⟩

/-- Items of the grammar are spelled by a forest. -/
theorem IsItems.exists_spellsAll {tokens : List (Located Token)} (isItems : IsItems tokens) :
    ∃ exprs, SpellsAll exprs tokens :=
  match isItems with
  | .none => ⟨[], .none⟩
  | .atom isAtom others =>
    let ⟨exprs, spelled⟩ := others.exists_spellsAll
    let ⟨atom, found⟩ := Option.isSome_iff_exists.1 ((Expr.isSome_ofAtom? _).trans isAtom)
    ⟨atom :: exprs, .cons (spells_of_ofAtom? found) spelled⟩
  | .list first others =>
    let ⟨expr, _, firstSpelled⟩ := first.exists_spells
    let ⟨exprs, spelled⟩ := others.exists_spellsAll
    ⟨expr :: exprs, .cons firstSpelled spelled⟩

end

/-- A forest of the grammar is spelled by a forest of lists. -/
theorem IsForest.exists_spellsAll (isForest : IsForest tokens) :
    ∃ exprs : List Expr, (∀ expr ∈ exprs, expr.isList) ∧ SpellsAll exprs tokens := by
  induction isForest with
  | none => exact ⟨[], by simp, .none⟩
  | list first _ inductionHypothesis =>
    obtain ⟨expr, isList, firstSpelled⟩ := first.exists_spells
    obtain ⟨exprs, lists, spelled⟩ := inductionHypothesis
    exact ⟨expr :: exprs, List.forall_mem_cons.2 ⟨isList, lists⟩, .cons firstSpelled spelled⟩

end Spelled

namespace Reading

/-- Line breaks can be left out. -/
theorem readAll_withoutLines (reading : Reading) (tokens : List (Located Token)) :
    reading.readAll (withoutLines tokens) = reading.readAll tokens := by
  induction tokens generalizing reading with
  | nil => rfl
  | cons token rest inductionHypothesis =>
    by_cases isLine : token.value = .endOfLine
    · rw [withoutLines_cons_of_line isLine, readAll_cons, step_of_endOfLine isLine,
        Option.bind_some, inductionHypothesis]
    · rw [withoutLines_cons_of_not_line isLine, readAll_cons, readAll_cons]
      exact congrArg _ (funext inductionHypothesis)

/-- Reading parens adds a list of what is read between them. -/
theorem readAll_parens {opening closing : Located Token} {items : List Expr}
    {inner : List (Located Token)} {reading : Reading} (isOpening : opening.value = .openParen)
    (inside : readAll ⟨⟨opening.span, []⟩ :: reading.stack, reading.forms⟩ inner =
      some ⟨⟨opening.span, items.reverse ++ []⟩ :: reading.stack, reading.forms⟩)
    (isClosing : closing.value = .closeParen) :
    reading.readAll (opening :: (inner ++ [closing])) =
      some (reading.add (.list (opening.span.union closing.span) items)) := by
  rw [readAll_cons, step_of_openParen isOpening, Option.bind_some, readAll_concat inside,
    step_of_closeParen isClosing, List.append_nil, List.reverse_reverse]

mutual

/-- Reading the tokens that a tree stands for adds it to the innermost open list. -/
theorem readAll_of_spells {expr : Expr} {tokens : List (Located Token)} {inner : OpenList}
    {outer : List OpenList} {forms : List Expr} (spelled : Spells expr tokens) :
    readAll ⟨inner :: outer, forms⟩ tokens = some (add ⟨inner :: outer, forms⟩ expr) :=
  match spelled with
  | .identifier .. => rfl
  | .number .. => rfl
  | .text .. => rfl
  | .list isOpening inside isClosing =>
    readAll_parens isOpening (readAll_of_spellsAll inside) isClosing
termination_by structural spelled

/-- Reading the tokens that a forest stands for adds it to the innermost open list. -/
theorem readAll_of_spellsAll {exprs items : List Expr} {tokens : List (Located Token)}
    {opening : Span} {outer : List OpenList} {forms : List Expr}
    (spelled : SpellsAll exprs tokens) :
    readAll ⟨⟨opening, items⟩ :: outer, forms⟩ tokens =
      some ⟨⟨opening, exprs.reverse ++ items⟩ :: outer, forms⟩ :=
  match spelled with
  | .none => rfl
  | .cons first following => by
    rw [readAll_append, readAll_of_spells first, Option.bind_some, add_of_inside,
      readAll_of_spellsAll following, List.reverse_cons, List.append_assoc, List.singleton_append]
termination_by structural spelled

end

/-- The tokens that a reading has been made of: first those of the forms, then, for each
open list, its opening paren and those of its items. -/
inductive Covers : Reading → List (Located Token) → Prop where
  | outside {forms : List Expr} {tokens : List (Located Token)}
      (spelled : SpellsAll forms.reverse (withoutLines tokens))
      (lists : ∀ form ∈ forms, form.isList) : Covers ⟨[], forms⟩ tokens
  | inside {opening : Located Token} {items forms : List Expr} {outer : List OpenList}
      {before within : List (Located Token)} (around : Covers ⟨outer, forms⟩ before)
      (isOpening : opening.value = .openParen)
      (spelled : SpellsAll items.reverse (withoutLines within)) :
      Covers ⟨⟨opening.span, items⟩ :: outer, forms⟩ (before ++ opening :: within)

/-- A line break adds nothing. -/
theorem Covers.line {reading : Reading} {tokens : List (Located Token)} {token : Located Token}
    (covers : Covers reading tokens) (isLine : token.value = .endOfLine) :
    Covers reading (tokens ++ [token]) := by
  have same : ∀ others, withoutLines (others ++ [token]) = withoutLines others := by
    intro others
    rw [withoutLines_append, withoutLines_cons_of_line isLine, withoutLines_nil, List.append_nil]
  cases covers with
  | outside spelled lists =>
    rw [← same] at spelled
    exact .outside spelled lists
  | inside around isOpening spelled =>
    rw [List.append_assoc, List.cons_append]
    rw [← same] at spelled
    exact .inside around isOpening spelled

/-- The tokens that a tree stands for add the tree. -/
theorem Covers.add {reading : Reading} {tokens more : List (Located Token)} {expr : Expr}
    (covers : Covers reading tokens) (spelled : Spells expr (withoutLines more))
    (isList : reading.stack = [] → expr.isList) :
    Covers (reading.add expr) (tokens ++ more) := by
  cases covers with
  | outside formsSpelled lists =>
    refine .outside ?_ (List.forall_mem_cons.2 ⟨isList rfl, lists⟩)
    rw [List.reverse_cons, withoutLines_append]
    exact formsSpelled.concat spelled
  | inside around isOpening itemsSpelled =>
    rw [List.append_assoc, List.cons_append]
    refine .inside around isOpening ?_
    rw [List.reverse_cons, withoutLines_append]
    exact itemsSpelled.concat spelled

/-- Every token that is read is covered afterwards. -/
theorem Covers.step {reading next : Reading} {tokens : List (Located Token)}
    {token : Located Token} (covers : Covers reading tokens)
    (stepped : reading.step token = some next) : Covers next (tokens ++ [token]) := by
  obtain ⟨stack, forms⟩ := reading
  rcases step_cases stepped with ⟨isLine, rfl⟩ | ⟨isOpening, rfl⟩ |
    ⟨isClosing, inner, outer, rfl, rfl⟩ | ⟨atom, isAtom, inList, rfl⟩
  · exact covers.line isLine
  · exact .inside covers isOpening .none
  · cases covers with
    | @inside opening items _ _ before within around isOpening spelled =>
      rw [List.append_assoc]
      refine around.add ?_ fun _ => rfl
      have kept : withoutLines (opening :: (within ++ [token])) =
          opening :: (withoutLines within ++ [token]) := by
        rw [withoutLines_cons_of_not_line (by simp [isOpening]), withoutLines_append,
          withoutLines_cons_of_not_line (by simp [isClosing]), withoutLines_nil]
      rw [List.cons_append, kept]
      exact .list isOpening spelled isClosing
  · refine covers.add ?_ fun outside => absurd outside inList
    have notLine : token.value ≠ .endOfLine := by
      intro isLine
      simp [Expr.ofAtom?, isLine] at isAtom
    rw [withoutLines_cons_of_not_line notLine]
    exact spells_of_ofAtom? isAtom

/-- Whatever has been read covers the tokens that were read. -/
theorem covers_of_readAll {tokens : List (Located Token)} {final : Reading}
    (arrived : readAll {} tokens = some final) : Covers final tokens :=
  readAll_induction (fun tokens reading => Covers reading tokens) (.outside .none (by simp))
    (fun _ _ _ _ covers stepped => covers.step stepped) arrived

/-- Reading a forest of lists leaves no list open. -/
theorem readAll_of_forest {exprs : List Expr} {tokens : List (Located Token)}
    (spelled : SpellsAll exprs tokens) (lists : ∀ expr ∈ exprs, expr.isList)
    (forms : List Expr) : readAll ⟨[], forms⟩ tokens = some ⟨[], exprs.reverse ++ forms⟩ := by
  induction exprs generalizing tokens forms with
  | nil =>
    cases spelled
    rfl
  | cons first others inductionHypothesis =>
    have firstIsList := lists first List.mem_cons_self
    have othersLists := fun other member => lists other (List.mem_cons_of_mem _ member)
    cases spelled with
    | cons firstSpelled following =>
      cases firstSpelled with
      | identifier | number | text => cases firstIsList
      | list isOpening inside isClosing =>
        rw [readAll_append, readAll_parens isOpening (readAll_of_spellsAll inside) isClosing,
          Option.bind_some, add_of_outside, inductionHypothesis following othersLists]
        simp

end Reading

/-- Tokens stand for one forest only. -/
theorem SpellsAll.unique {left right : List Expr} {tokens : List (Located Token)}
    (leftSpelled : SpellsAll left tokens) (rightSpelled : SpellsAll right tokens) :
    left = right := by
  have insideList : ∀ {exprs}, SpellsAll exprs tokens →
      Reading.readAll ⟨[⟨.point 0, []⟩], []⟩ tokens =
        some ⟨[⟨.point 0, exprs.reverse ++ []⟩], []⟩ := Reading.readAll_of_spellsAll
  have sameItems := (insideList leftSpelled).symm.trans (insideList rightSpelled)
  simpa using sameItems

/-- A module is read exactly if all tokens before the end can be read and leave no list
open. -/
theorem Module.ofTokens_eq_ok_iff (tokens : List (Located Token)) (module : Module) :
    Module.ofTokens tokens = .ok module ↔
      Reading.readAll {} (beforeEnd tokens) = some ⟨[], module.forms.reverse⟩ := by
  rw [Module.ofTokens_eq_conclude]
  rcases Reading.readAll_cases {} (beforeEnd tokens) with ⟨⟨stack, forms⟩, arrived⟩ |
    ⟨before, token, after, reached, split, arrived, refused⟩
  · have concluded := Reading.conclude_append_of_readAll arrived
      (endIn (Parse.endOf tokens) tokens) []
    rw [List.append_nil, Reading.conclude_nil] at concluded
    rw [concluded, arrived]
    obtain ⟨moduleForms⟩ := module
    cases stack with
    | nil => simp [Reading.finish, List.reverse_eq_iff]
    | cons inner outer => simp [Reading.finish]
  · rw [split, Reading.conclude_append_of_readAll arrived,
      Reading.conclude_cons_of_refused refused, Reading.readAll_append, arrived, Option.bind_some,
      Reading.readAll_cons, refused]
    simp

/-- What is read spells the content of the tokens, as a forest of lists. -/
theorem Module.spellsAll_of_ofTokens {tokens : List (Located Token)} {module : Module}
    (read : Module.ofTokens tokens = .ok module) :
    SpellsAll module.forms (content tokens) ∧ ∀ form ∈ module.forms, form.isList := by
  have covers := Reading.covers_of_readAll ((Module.ofTokens_eq_ok_iff tokens module).1 read)
  cases covers with
  | outside spelled lists =>
    rw [List.reverse_reverse] at spelled
    exact ⟨spelled, fun form member => lists form (List.mem_reverse.2 member)⟩

/-- A forest of lists that spells the content of the tokens is read. -/
theorem Module.ofTokens_of_spellsAll {tokens : List (Located Token)} {forms : List Expr}
    (spelled : SpellsAll forms (content tokens)) (lists : ∀ form ∈ forms, form.isList) :
    Module.ofTokens tokens = .ok ⟨forms⟩ := by
  rw [Module.ofTokens_eq_ok_iff, ← Reading.readAll_withoutLines]
  have arrived := Reading.readAll_of_forest spelled lists []
  rwa [List.append_nil] at arrived

/-- What stands before the first end of file, and its place, decide how reading ends. -/
theorem Module.ofTokens_append_endOfFile (before after : List (Located Token)) (fileEnd : Span) :
    Module.ofTokens (before ++ ⟨.endOfFile, fileEnd⟩ :: after) =
      Module.ofTokens (before ++ [⟨.endOfFile, fileEnd⟩]) := by
  have sameBefore : beforeEnd (before ++ ⟨.endOfFile, fileEnd⟩ :: after) =
      beforeEnd (before ++ [⟨.endOfFile, fileEnd⟩]) := by
    simp [beforeEnd, List.takeWhile_append]
  have sameEnd : ∀ outside other, endIn outside (before ++ ⟨.endOfFile, fileEnd⟩ :: after) =
      endIn other (before ++ [⟨.endOfFile, fileEnd⟩]) := by
    intro outside other
    simp only [endIn, List.find?_append]
    cases before.find? fun token => decide (token.value = .endOfFile) <;> simp
  rw [Module.ofTokens_eq_conclude, Module.ofTokens_eq_conclude, sameBefore, sameEnd]

/-- Tokens can be read as a module exactly if their content is a sequence of lists of the
grammar. The forms of the module are then the only forest that spells it. What follows an
end of file makes no difference. -/
theorem Module.ofTokens_reads_spelled_forest (tokens : List (Located Token)) :
    ((∃ module, Module.ofTokens tokens = .ok module) ↔ IsForest (content tokens)) ∧
    (∀ module, Module.ofTokens tokens = .ok module →
      ∀ forms, SpellsAll forms (content tokens) ↔ forms = module.forms) ∧
    (∀ before fileEnd after others, tokens = before ++ ⟨.endOfFile, fileEnd⟩ :: after →
      Module.ofTokens tokens = Module.ofTokens (before ++ ⟨.endOfFile, fileEnd⟩ :: others)) := by
  refine ⟨⟨?_, ?_⟩, ?_, ?_⟩
  · rintro ⟨module, read⟩
    obtain ⟨spelled, lists⟩ := Module.spellsAll_of_ofTokens read
    exact spelled.isForest lists
  · intro isForest
    obtain ⟨forms, lists, spelled⟩ := isForest.exists_spellsAll
    exact ⟨⟨forms⟩, Module.ofTokens_of_spellsAll spelled lists⟩
  · intro module read forms
    obtain ⟨moduleSpelled, -⟩ := Module.spellsAll_of_ofTokens read
    constructor
    · intro spelled
      exact spelled.unique moduleSpelled
    · rintro rfl
      exact moduleSpelled
  · rintro before fileEnd after others rfl
    rw [Module.ofTokens_append_endOfFile before after,
      Module.ofTokens_append_endOfFile before others]

end Lisplet

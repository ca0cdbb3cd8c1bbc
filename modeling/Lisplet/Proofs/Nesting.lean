import Lisplet.Proofs.Spelling
import Lisplet.Token.Balance
import Mathlib.Data.List.Induction
import Mathlib.Data.List.Infix

/-!
# Nesting

How deep a token stands is the number of parens opened before it less those closed
before it. Checking the balance and reading the tokens agree on it: the check finds the
first paren that closes nothing, and where there is none, reading finds the first atom
outside of all lists, or else the innermost list that is left open.
-/

namespace Lisplet

/-- A diagnostic is of the catalogued kind and marks the given place. -/
def Diagnostic.Marks (diagnostic : Diagnostic) (code : Code) (span : Span) : Prop :=
  diagnostic.code = some code ∧ (diagnostic.labels.filter Label.isPrimary).map Label.span = [span]

/-- The number of opening parens. -/
def opens (tokens : List (Located Token)) : Nat :=
  tokens.countP fun token => token.value = .openParen

/-- The number of closing parens. -/
def closes (tokens : List (Located Token)) : Nat :=
  tokens.countP fun token => token.value = .closeParen

/-- Tokens that close more lists than they open. -/
def Overclosed (tokens : List (Located Token)) : Prop :=
  opens tokens < closes tokens

/-- A closing paren is the last token of the shortest prefix that closes more lists than it
opens. -/
structure FirstOverclosing (tokens before : List (Located Token)) (closing : Located Token) :
    Prop where
  isPrefix : before ++ [closing] <+: tokens
  overclosed : Overclosed (before ++ [closing])
  shortest : ∀ front, front <+: before → ¬ Overclosed front

/-- An identifier or a literal stands outside of all lists, behind the given tokens. -/
structure TopLevelAtom (tokens before : List (Located Token)) (atom : Located Token) : Prop where
  isPrefix : before ++ [atom] <+: tokens
  isAtom : atom.value.isAtom
  outside : opens before = closes before

/-- The first identifier or literal outside of all lists. -/
structure FirstTopLevelAtom (tokens before : List (Located Token)) (atom : Located Token) : Prop
    extends TopLevelAtom tokens before atom where
  first : ∀ earlier other, ¬ TopLevelAtom before earlier other

/-- An opening paren that nothing closes: in what follows it, no prefix closes more lists
than it opens. -/
structure Unmatched (tokens before : List (Located Token)) (opening : Located Token)
    (after : List (Located Token)) : Prop where
  split : tokens = before ++ opening :: after
  isOpening : opening.value = .openParen
  unclosed : ∀ front, front <+: after → ¬ Overclosed front

/-- The last opening paren that nothing closes. -/
structure LastUnmatched (tokens before : List (Located Token)) (opening : Located Token)
    (after : List (Located Token)) : Prop extends Unmatched tokens before opening after where
  last : ∀ between later rest, ¬ Unmatched after between later rest

section Counts

variable {token : Located Token} {tokens : List (Located Token)}

@[simp] theorem opens_nil : opens [] = 0 :=
  rfl

@[simp] theorem closes_nil : closes [] = 0 :=
  rfl

@[simp] theorem opens_append (front rest : List (Located Token)) :
    opens (front ++ rest) = opens front + opens rest :=
  List.countP_append

@[simp] theorem closes_append (front rest : List (Located Token)) :
    closes (front ++ rest) = closes front + closes rest :=
  List.countP_append

/-- The first token opens what it opens by itself. -/
theorem opens_cons (token : Located Token) (rest : List (Located Token)) :
    opens (token :: rest) = opens [token] + opens rest :=
  opens_append [token] rest

/-- The first token closes what it closes by itself. -/
theorem closes_cons (token : Located Token) (rest : List (Located Token)) :
    closes (token :: rest) = closes [token] + closes rest :=
  closes_append [token] rest

/-- An opening paren opens one list. -/
theorem counts_of_openParen (isOpening : token.value = .openParen) :
    opens [token] = 1 ∧ closes [token] = 0 := by
  simp [opens, closes, isOpening]

/-- A closing paren closes one list. -/
theorem counts_of_closeParen (isClosing : token.value = .closeParen) :
    opens [token] = 0 ∧ closes [token] = 1 := by
  simp [opens, closes, isClosing]

/-- The end of a line opens and closes nothing. -/
theorem counts_of_endOfLine (isLine : token.value = .endOfLine) :
    opens [token] = 0 ∧ closes [token] = 0 := by
  simp [opens, closes, isLine]

/-- The end of the file opens and closes nothing. -/
theorem counts_of_endOfFile (isEnd : token.value = .endOfFile) :
    opens [token] = 0 ∧ closes [token] = 0 := by
  simp [opens, closes, isEnd]

/-- Atoms open and close nothing. -/
theorem counts_of_atom (isAtom : token.value.isAtom) :
    opens [token] = 0 ∧ closes [token] = 0 := by
  obtain ⟨value, span⟩ := token
  cases value <;> cases isAtom <;> exact ⟨rfl, rfl⟩

/-- A token that closes more than it opens is a closing paren. -/
theorem closeParen_of_counts (closesMore : opens [token] < closes [token]) :
    token.value = .closeParen := by
  obtain ⟨value, span⟩ := token
  cases value with
  | closeParen => rfl
  | openParen | identifier | number | text | endOfLine | endOfFile =>
    exact absurd closesMore (Nat.not_lt_zero _)

@[simp] theorem opens_withoutLines (tokens : List (Located Token)) :
    opens (withoutLines tokens) = opens tokens := by
  rw [opens, withoutLines, List.countP_filter]
  refine List.countP_congr fun token _ => ?_
  cases token.value <;> simp

@[simp] theorem closes_withoutLines (tokens : List (Located Token)) :
    closes (withoutLines tokens) = closes tokens := by
  rw [closes, withoutLines, List.countP_filter]
  refine List.countP_congr fun token _ => ?_
  cases token.value <;> simp

end Counts

/-- No prefix closes more lists than have been opened, `depth` of them before. -/
def StaysWithin (depth : Nat) (tokens : List (Located Token)) : Prop :=
  ∀ front, front <+: tokens → closes front ≤ depth + opens front

section StaysWithin

variable {depth : Nat} {token : Located Token} {tokens rest : List (Located Token)}

/-- If nothing is open at first, to stay within is never to close too many lists. -/
theorem staysWithin_zero_iff :
    StaysWithin 0 tokens ↔ ∀ front, front <+: tokens → ¬ Overclosed front := by
  simp [StaysWithin, Overclosed]

/-- Without tokens nothing is closed. -/
theorem staysWithin_nil (depth : Nat) : StaysWithin depth [] := by
  intro front isPrefix
  rw [List.prefix_nil.1 isPrefix]
  simp

/-- Tokens that stay within the depth that others leave stay within it behind them. -/
theorem StaysWithin.append {front : List (Located Token)} {inner : Nat}
    (frontStays : StaysWithin depth front) (restStays : StaysWithin inner rest)
    (depths : inner + closes front ≤ depth + opens front) :
    StaysWithin depth (front ++ rest) := by
  intro taken isPrefix
  rcases List.prefix_or_prefix_of_prefix isPrefix (List.prefix_append front rest) with
    within | ⟨more, rfl⟩
  · exact frontStays taken within
  · have moreStays := restStays more ((List.prefix_append_right_inj front).1 isPrefix)
    rw [opens_append, closes_append]
    omega

/-- What follows a token stays within the depth that the token leaves. -/
theorem StaysWithin.tail (stays : StaysWithin depth (token :: rest)) {inner : Nat}
    (depths : depth + opens [token] ≤ inner + closes [token]) : StaysWithin inner rest := by
  intro front isPrefix
  have bound := stays (token :: front) (List.prefix_cons_inj token |>.2 isPrefix)
  rw [← List.singleton_append, opens_append, closes_append] at bound
  omega

end StaysWithin

/-- One token changes the depth by what it opens and closes. -/
theorem ParenCount.add_of_within {count : ParenCount} {token : Located Token}
    (within : closes [token] ≤ count.depth + opens [token]) :
    count.add token = { count with depth := count.depth + opens [token] - closes [token] } := by
  obtain ⟨depth, firstUnmatched⟩ := count
  obtain ⟨value, span⟩ := token
  cases value with
  | closeParen =>
    cases depth with
    | zero => exact absurd within (Nat.not_succ_le_zero 0)
    | succ outer => rfl
  | openParen | identifier | number | text | endOfLine | endOfFile => rfl

/-- Tokens that never close too many lists change the depth by what they open and close. -/
theorem ParenCount.foldl_add_of_staysWithin {tokens : List (Located Token)} {count : ParenCount}
    (stays : StaysWithin count.depth tokens) :
    tokens.foldl add count =
      { count with depth := count.depth + opens tokens - closes tokens } := by
  induction tokens generalizing count with
  | nil => rfl
  | cons token others inductionHypothesis =>
    have within := stays [token] (List.prefix_append [token] others)
    have othersStay : StaysWithin (count.depth + opens [token] - closes [token]) others :=
      stays.tail (by omega)
    have depths : count.depth + opens (token :: others) - closes (token :: others) =
        count.depth + opens [token] - closes [token] + opens others - closes others := by
      rw [opens_cons, closes_cons]
      omega
    rw [List.foldl_cons, add_of_within within, inductionHypothesis othersStay, depths]

/-- The first closing paren that matches nothing is kept, whatever follows. -/
theorem ParenCount.firstUnmatched_foldl_add {closing : Span} (tokens : List (Located Token))
    {count : ParenCount} (found : count.firstUnmatched = some closing) :
    (tokens.foldl add count).firstUnmatched = some closing := by
  induction tokens generalizing count with
  | nil => exact found
  | cons token others inductionHypothesis =>
    apply inductionHypothesis
    unfold add
    split <;> simp [found]

/-- The balance of tokens that never close too many lists is the number of those left
open. -/
theorem balance_of_never_overclosed {tokens : List (Located Token)}
    (never : ∀ front, front <+: tokens → ¬ Overclosed front) :
    balance tokens = .ok (opens tokens - closes tokens) := by
  have stays : StaysWithin ({} : ParenCount).depth tokens := staysWithin_zero_iff.2 never
  rw [balance, ParenCount.foldl_add_of_staysWithin stays]
  exact congrArg Except.ok (by rw [Nat.zero_add])

/-- The check of the balance fails at the first paren that closes nothing. -/
theorem balance_of_firstOverclosing {tokens before : List (Located Token)}
    {closing : Located Token} (first : FirstOverclosing tokens before closing) :
    balance tokens = .error ⟨closing.span⟩ := by
  obtain ⟨⟨after, rfl⟩, overclosed, shortest⟩ := first
  have beforeWithin := shortest before (List.prefix_refl before)
  rw [Overclosed, opens_append, closes_append] at overclosed
  rw [Overclosed] at beforeWithin
  have isClosing : closing.value = .closeParen := closeParen_of_counts (by omega)
  obtain ⟨opensNone, closesOne⟩ := counts_of_closeParen isClosing
  have atZero : 0 + opens before - closes before = 0 := by omega
  have stays : StaysWithin ({} : ParenCount).depth before := staysWithin_zero_iff.2 shortest
  -- The parens before leave the depth at zero, so the next one matches nothing.
  have counted : (before ++ [closing]).foldl ParenCount.add {} =
      { depth := 0, firstUnmatched := some closing.span } := by
    rw [List.foldl_append, ParenCount.foldl_add_of_staysWithin stays, atZero]
    obtain ⟨value, span⟩ := closing
    cases isClosing
    rfl
  rw [balance, List.foldl_append, counted, ParenCount.firstUnmatched_foldl_add after rfl]

/-- Among the prefixes that close more lists than they open there is a shortest one. -/
theorem exists_firstOverclosing {tokens : List (Located Token)}
    (overclosing : ∃ front, front <+: tokens ∧ Overclosed front) :
    ∃ before closing, FirstOverclosing tokens before closing := by
  induction tokens using List.reverseRecOn with
  | nil =>
    obtain ⟨front, isPrefix, overclosed⟩ := overclosing
    rw [List.prefix_nil.1 isPrefix] at overclosed
    exact absurd overclosed (Nat.lt_irrefl 0)
  | append_singleton earlier last inductionHypothesis =>
    by_cases before : ∃ front, front <+: earlier ∧ Overclosed front
    · obtain ⟨before, closing, isPrefix, overclosed, shortest⟩ := inductionHypothesis before
      exact ⟨before, closing, isPrefix.trans (List.prefix_append _ _), overclosed, shortest⟩
    · obtain ⟨front, isPrefix, overclosed⟩ := overclosing
      rcases List.prefix_concat_iff.1 isPrefix with rfl | within
      · refine ⟨earlier, last, List.prefix_refl _, overclosed, ?_⟩
        intro front isPrefix frontOverclosed
        exact before ⟨front, isPrefix, frontOverclosed⟩
      · exact absurd ⟨front, within, overclosed⟩ before

/-- Tokens nested to a depth: they leave that many lists open, never close too many, and
hold no atoms outside of all lists. -/
structure Nested (tokens : List (Located Token)) (depth : Nat) : Prop where
  leftOpen : opens tokens = closes tokens + depth
  never : ∀ front, front <+: tokens → ¬ Overclosed front
  noAtom : ∀ before atom, ¬ TopLevelAtom tokens before atom

/-- A token that opens or closes a list, or is no atom outside of all lists, changes the
depth. -/
theorem Nested.concat {tokens : List (Located Token)} {depth next : Nat} {token : Located Token}
    (nested : Nested tokens depth) (depths : depth + opens [token] = closes [token] + next)
    (inside : token.value.isAtom → 0 < depth) : Nested (tokens ++ [token]) next where
  leftOpen := by
    have leftOpen := nested.leftOpen
    rw [opens_append, closes_append]
    omega
  never := by
    intro front isPrefix overclosed
    rcases List.prefix_concat_iff.1 isPrefix with rfl | within
    · have leftOpen := nested.leftOpen
      rw [Overclosed, opens_append, closes_append] at overclosed
      omega
    · exact nested.never front within overclosed
  noAtom := by
    rintro before atom ⟨isPrefix, isAtom, outside⟩
    rcases List.prefix_concat_iff.1 isPrefix with same | within
    · obtain ⟨rfl, rfl⟩ := List.append_singleton_inj.1 same
      have leftOpen := nested.leftOpen
      have positive := inside isAtom
      omega
    · exact nested.noAtom before atom ⟨within, isAtom, outside⟩

namespace Reading

@[simp] theorem length_stack_add (reading : Reading) (expr : Expr) :
    (reading.add expr).stack.length = reading.stack.length := by
  obtain ⟨stack, forms⟩ := reading
  cases stack <;> rfl

/-- Tokens that were read are nested to the number of open lists. -/
theorem nested_of_readAll {tokens : List (Located Token)} {final : Reading}
    (arrived : readAll {} tokens = some final) : Nested tokens final.stack.length := by
  refine readAll_induction (fun tokens reading => Nested tokens reading.stack.length) ?_ ?_ arrived
  · refine ⟨rfl, ?_, ?_⟩
    · intro front isPrefix overclosed
      rw [List.prefix_nil.1 isPrefix] at overclosed
      exact Nat.lt_irrefl 0 overclosed
    · rintro before atom ⟨isPrefix, -, -⟩
      simpa using List.prefix_nil.1 isPrefix
  · intro consumed reading token next nested stepped
    rcases step_cases stepped with ⟨isLine, rfl⟩ | ⟨isOpening, rfl⟩ |
      ⟨isClosing, inner, outer, inList, rfl⟩ | ⟨atom, isAtom, inList, rfl⟩
    · obtain ⟨opensNone, closesNone⟩ := counts_of_endOfLine isLine
      exact nested.concat (by omega) (by simp [isLine, Token.isAtom])
    · obtain ⟨opensOne, closesNone⟩ := counts_of_openParen isOpening
      refine nested.concat ?_ (by simp [isOpening, Token.isAtom])
      rw [List.length_cons]
      omega
    · obtain ⟨opensNone, closesOne⟩ := counts_of_closeParen isClosing
      refine nested.concat ?_ (by simp [isClosing, Token.isAtom])
      simp only [inList, length_stack_add, List.length_cons]
      omega
    · have tokenIsAtom : token.value.isAtom := by
        rw [← Expr.isSome_ofAtom?, isAtom, Option.isSome_some]
      obtain ⟨opensNone, closesNone⟩ := counts_of_atom tokenIsAtom
      refine nested.concat ?_ fun _ => List.length_pos_iff.2 inList
      rw [length_stack_add]
      omega

end Reading

/-- Tokens that close all the lists they open, and no others. -/
structure Balanced (tokens : List (Located Token)) : Prop where
  stays : StaysWithin 0 tokens
  even : opens tokens = closes tokens

/-- One token stays within if it closes no more than is open. -/
theorem staysWithin_singleton {depth : Nat} {token : Located Token}
    (within : closes [token] ≤ depth + opens [token]) : StaysWithin depth [token] := by
  intro front isPrefix
  rcases List.prefix_cons_iff.1 isPrefix with rfl | ⟨rest, rfl, restPrefix⟩
  · simp
  · rwa [List.prefix_nil.1 restPrefix]

section Balanced

variable {tokens rest : List (Located Token)}

/-- The empty list of tokens is balanced. -/
theorem balanced_nil : Balanced [] :=
  ⟨staysWithin_nil 0, rfl⟩

/-- A token that is no paren is balanced. -/
theorem balanced_singleton {token : Located Token}
    (counts : opens [token] = 0 ∧ closes [token] = 0) : Balanced [token] :=
  ⟨staysWithin_singleton (by omega), by omega⟩

/-- Balanced tokens one after the other are balanced. -/
theorem Balanced.append (front : Balanced tokens) (others : Balanced rest) :
    Balanced (tokens ++ rest) where
  stays := by
    have even := front.even
    exact front.stays.append others.stays (by omega)
  even := by
    rw [opens_append, closes_append, front.even, others.even]

/-- Balanced tokens between parens are balanced. -/
theorem Balanced.parens {opening closing : Located Token} (inside : Balanced tokens)
    (isOpening : opening.value = .openParen) (isClosing : closing.value = .closeParen) :
    Balanced (opening :: (tokens ++ [closing])) := by
  obtain ⟨opensOne, closesNone⟩ := counts_of_openParen isOpening
  obtain ⟨opensNone, closesOne⟩ := counts_of_closeParen isClosing
  have even := inside.even
  have insideStays : StaysWithin 1 tokens := by
    intro front isPrefix
    have stays := inside.stays front isPrefix
    omega
  constructor
  · have closingStays : StaysWithin 1 [closing] := staysWithin_singleton (by omega)
    have behind := insideStays.append closingStays (by omega)
    exact (staysWithin_singleton (by omega)).append behind (by omega)
  · rw [opens_cons, closes_cons, opens_append, closes_append]
    omega

mutual

/-- The tokens of a list are balanced. -/
theorem IsList.balanced {tokens : List (Located Token)} (isList : IsList tokens) :
    Balanced tokens :=
  match isList with
  | .parens isOpening items isClosing => items.balanced.parens isOpening isClosing
termination_by structural isList

/-- The items of a list close all the lists they open, and no others. -/
theorem IsItems.balanced {tokens : List (Located Token)} (isItems : IsItems tokens) :
    Balanced tokens :=
  match isItems with
  | .none => balanced_nil
  | .atom isAtom others => (balanced_singleton (counts_of_atom isAtom)).append others.balanced
  | .list first others => first.balanced.append others.balanced
termination_by structural isItems

end

/-- Line breaks do not matter for the balance. -/
theorem balanced_of_withoutLines (balanced : Balanced (withoutLines tokens)) : Balanced tokens where
  stays := by
    intro front isPrefix
    have stays := balanced.stays (withoutLines front) (isPrefix.filter _)
    rwa [opens_withoutLines, closes_withoutLines] at stays
  even := by
    have even := balanced.even
    rwa [opens_withoutLines, closes_withoutLines] at even

/-- An opening paren is the last one that nothing closes if all that follows it is
balanced. -/
theorem lastUnmatched_of_balanced {before after : List (Located Token)} {opening : Located Token}
    (isOpening : opening.value = .openParen) (balanced : Balanced after) :
    LastUnmatched (before ++ opening :: after) before opening after where
  split := rfl
  isOpening := isOpening
  unclosed := staysWithin_zero_iff.1 balanced.stays
  last := by
    rintro between later rest ⟨rfl, laterOpens, unclosed⟩
    have even := balanced.even
    have betweenWithin := balanced.stays between (List.prefix_append _ _)
    have restWithin := staysWithin_zero_iff.2 unclosed rest (List.prefix_refl rest)
    obtain ⟨opensOne, closesNone⟩ := counts_of_openParen laterOpens
    rw [opens_append, closes_append, opens_cons, closes_cons] at even
    omega

end Balanced

namespace Module

variable {body : List (Located Token)} (noEnd : ∀ token ∈ body, token.value ≠ .endOfFile)
  (fileEnd : Span)

include noEnd

/-- Tokens in front of the end of file are read one by one, and the reading is finished there. -/
theorem ofTokens_concat_endOfFile :
    Module.ofTokens (body ++ [⟨.endOfFile, fileEnd⟩]) = Reading.conclude {} fileEnd body := by
  have allBefore : beforeEnd (body ++ [⟨.endOfFile, fileEnd⟩]) = body := by
    rw [beforeEnd, List.takeWhile_append_of_pos (by simpa using noEnd)]
    simp
  have endFound : ∀ outside, endIn outside (body ++ [⟨.endOfFile, fileEnd⟩]) = fileEnd := by
    intro outside
    have notInBody : (body.find? fun token => token.value = .endOfFile) = none := by
      simpa using noEnd
    rw [endIn, List.find?_append, notInBody]
    simp
  rw [Module.ofTokens_eq_conclude, allBefore, endFound]

/-- How reading ends, by the nesting of the tokens: all lists are closed, or the last
unmatched paren is reported, or the first token that cannot stand outside of all lists. -/
theorem ofTokens_cases :
    (Nested body 0 ∧ ∃ module, Module.ofTokens (body ++ [⟨.endOfFile, fileEnd⟩]) = .ok module) ∨
    (∃ depth before opening after, Nested body (depth + 1) ∧
      LastUnmatched (body ++ [⟨.endOfFile, fileEnd⟩]) before opening after ∧
      Module.ofTokens (body ++ [⟨.endOfFile, fileEnd⟩]) =
        .error (.incompleteInput opening.span fileEnd)) ∨
    (∃ before token after, body = before ++ token :: after ∧ Nested before 0 ∧
      (token.value = .closeParen ∨ token.value.isAtom) ∧
      Module.ofTokens (body ++ [⟨.endOfFile, fileEnd⟩]) =
        .error (.unexpectedTopLevel token.value.kind token.span)) := by
  rw [ofTokens_concat_endOfFile noEnd]
  rcases Reading.readAll_cases {} body with ⟨⟨stack, forms⟩, arrived⟩ |
    ⟨before, token, after, ⟨stack, forms⟩, rfl, arrived, refused⟩
  · have nested := Reading.nested_of_readAll arrived
    have concluded := Reading.conclude_append_of_readAll arrived fileEnd []
    rw [List.append_nil, Reading.conclude_nil] at concluded
    rw [concluded]
    have covers := Reading.covers_of_readAll arrived
    cases covers with
    | outside => exact .inl ⟨nested, _, rfl⟩
    | @inside opening items _ outer before within around isOpening spelled =>
      have balanced := balanced_of_withoutLines spelled.isItems.balanced
      have endBalanced : Balanced [⟨.endOfFile, fileEnd⟩] :=
        balanced_singleton (counts_of_endOfFile rfl)
      refine .inr (.inl ⟨outer.length, before, opening, within ++ [⟨.endOfFile, fileEnd⟩], nested,
        ?_, rfl⟩)
      rw [List.append_assoc, List.cons_append]
      exact lastUnmatched_of_balanced isOpening (balanced.append endBalanced)
  · have notEnd := noEnd token (by simp)
    obtain ⟨outside, misplaced⟩ := Reading.step_eq_none_cases refused notEnd
    cases outside
    refine .inr (.inr ⟨before, token, after, rfl, Reading.nested_of_readAll arrived, misplaced, ?_⟩)
    rw [Reading.conclude_append_of_readAll arrived, Reading.conclude_cons_of_refused refused]

end Module

/-- The only end of file among some tokens is the last of them. -/
def EndsOnce (tokens : List (Located Token)) : Prop :=
  ∃ body fileEnd, tokens = body ++ [⟨.endOfFile, fileEnd⟩] ∧
    ∀ token ∈ body, token.value ≠ .endOfFile

/-- The end of file is no atom outside of all lists. -/
theorem not_topLevelAtom_concat {body : List (Located Token)} {depth : Nat}
    (nested : Nested body depth) (fileEnd : Span) :
    ¬ ∃ before atom, TopLevelAtom (body ++ [⟨.endOfFile, fileEnd⟩]) before atom := by
  rintro ⟨before, atom, isPrefix, isAtom, outside⟩
  rcases List.prefix_concat_iff.1 isPrefix with same | within
  · obtain ⟨-, rfl⟩ := List.append_singleton_inj.1 same
    cases isAtom
  · exact nested.noAtom before atom ⟨within, isAtom, outside⟩

/-- Checking the balance and then reading the tokens ends in one of four ways. If some
prefix closes more lists than it opens, the check fails at the end of the shortest one.
Otherwise it finds how many lists are left open, and reading fails at the first atom
outside of all lists, else at the last unmatched paren, and succeeds if there is neither.
No token is met where another was expected. -/
theorem balance_then_ofTokens_outcome (tokens : List (Located Token)) (ends : EndsOnce tokens) :
    ((∃ front, front <+: tokens ∧ Overclosed front) →
      ∃ before closing fault, FirstOverclosing tokens before closing ∧
        balance tokens = .error fault ∧
        fault.diagnostic.Marks .unbalancedParens closing.span) ∧
    ((∀ front, front <+: tokens → ¬ Overclosed front) →
      closes tokens ≤ opens tokens ∧ balance tokens = .ok (opens tokens - closes tokens) ∧
      ((∃ before atom, TopLevelAtom tokens before atom) →
        ∃ before atom fault, FirstTopLevelAtom tokens before atom ∧
          Module.ofTokens tokens = .error fault ∧
          fault.diagnostic.Marks .unexpectedTopLevel atom.span) ∧
      ((¬ ∃ before atom, TopLevelAtom tokens before atom) → 0 < opens tokens - closes tokens →
        ∃ before opening after fault, LastUnmatched tokens before opening after ∧
          Module.ofTokens tokens = .error fault ∧
          fault.diagnostic.Marks .incompleteInput opening.span) ∧
      ((¬ ∃ before atom, TopLevelAtom tokens before atom) → opens tokens - closes tokens = 0 →
        ∃ module, Module.ofTokens tokens = .ok module)) ∧
    ∀ fault, Module.ofTokens tokens = .error fault →
      fault.diagnostic.code ≠ some .unexpectedToken := by
  obtain ⟨body, fileEnd, rfl, noEnd⟩ := ends
  refine ⟨?_, ?_, ?_⟩
  · intro overclosing
    obtain ⟨before, closing, first⟩ := exists_firstOverclosing overclosing
    exact ⟨before, closing, _, first, balance_of_firstOverclosing first, rfl, rfl⟩
  · intro never
    have within := staysWithin_zero_iff.2 never _ (List.prefix_refl _)
    refine ⟨by omega, balance_of_never_overclosed never, ?_⟩
    have sameOpens : opens (body ++ [⟨.endOfFile, fileEnd⟩]) = opens body := opens_append ..
    have sameCloses : closes (body ++ [⟨.endOfFile, fileEnd⟩]) = closes body := closes_append ..
    rw [sameOpens, sameCloses]
    rcases Module.ofTokens_cases noEnd fileEnd with ⟨nested, module, read⟩ |
      ⟨depth, before, opening, after, nested, last, failed⟩ |
      ⟨before, token, after, rfl, nested, misplaced, failed⟩
    · have leftOpen := nested.leftOpen
      have noAtom := not_topLevelAtom_concat nested fileEnd
      exact ⟨fun atom => absurd atom noAtom, fun _ someOpen => by omega, fun _ _ => ⟨module, read⟩⟩
    · have leftOpen := nested.leftOpen
      have noAtom := not_topLevelAtom_concat nested fileEnd
      exact ⟨fun atom => absurd atom noAtom,
        fun _ _ => ⟨before, opening, after, _, last, failed, rfl, rfl⟩, fun _ noneOpen => by omega⟩
    · have isPrefix :
          before ++ [token] <+: before ++ token :: after ++ [⟨.endOfFile, fileEnd⟩] := by
        simp
      have leftOpen := nested.leftOpen
      have isAtom : token.value.isAtom := by
        refine misplaced.resolve_left fun isClosing => never _ isPrefix ?_
        obtain ⟨opensNone, closesOne⟩ := counts_of_closeParen isClosing
        rw [Overclosed, opens_append, closes_append]
        omega
      have found : TopLevelAtom _ before token := ⟨isPrefix, isAtom, leftOpen⟩
      exact ⟨fun _ => ⟨before, token, _, ⟨found, nested.noAtom⟩, failed, rfl, rfl⟩,
        fun noAtom => absurd ⟨before, token, found⟩ noAtom,
        fun noAtom => absurd ⟨before, token, found⟩ noAtom⟩
  · intro fault failed
    cases fault with
    | unexpectedToken expected found span =>
      exact absurd failed (Module.ofTokens_ne_unexpectedToken _ expected found span)
    | unexpectedTopLevel | incompleteInput => simp [ParseFault.diagnostic]

/-- An atom outside of all lists is reported even though a list is left open behind it. -/
theorem balance_then_ofTokens_outcome_of_stray_atom :
    let front : List (Located Token) := [⟨.openParen, .point 0⟩, ⟨.closeParen, .point 1⟩,
      ⟨.identifier "x", .point 2⟩, ⟨.openParen, .point 3⟩]
    let tokens := front ++ [⟨.endOfFile, .point 4⟩]
    EndsOnce tokens ∧ balance tokens = .ok 1 ∧
      ∃ before atom fault, FirstTopLevelAtom tokens before atom ∧
        Module.ofTokens tokens = .error fault ∧
        fault.diagnostic.Marks .unexpectedTopLevel atom.span := by
  intro front tokens
  have ends : EndsOnce tokens := ⟨front, .point 4, rfl, by decide⟩
  have never : ∀ front ∈ tokens.inits, opens front ≥ closes front := by decide
  have stray : TopLevelAtom tokens (front.take 2) ⟨.identifier "x", .point 2⟩ :=
    ⟨⟨_, rfl⟩, rfl, rfl⟩
  obtain ⟨-, outcome, -⟩ := balance_then_ofTokens_outcome tokens ends
  obtain ⟨-, counted, reported, -⟩ := outcome fun front isPrefix =>
    Nat.not_lt.2 (never front ((List.mem_inits front tokens).2 isPrefix))
  exact ⟨ends, counted, reported ⟨_, _, stray⟩⟩

end Lisplet

import Lisplet.Tree.Parse

/-!
# Open lists

What reading has come to after some tokens, whatever follows them: the lists that
are still open, each with its items so far, and the finished forms. Every token
changes this in one way or cannot stand where it does. Recursive descent keeps the
open lists in its calls: `Module.ofTokens_eq_conclude` says that it comes to reading
one token after another with the open lists at hand.
-/

namespace Lisplet

/-- Whether a token is an identifier or a literal. -/
def Token.isAtom : Token → Bool
  | identifier _ | number _ | text _ => true
  | openParen | closeParen | endOfLine | endOfFile => false

/-- The node that an identifier or a literal stands for. -/
def Expr.ofAtom? (token : Located Token) : Option Expr :=
  match token.value with
  | .identifier name => some (.identifier token.span name)
  | .number value => some (.number token.span value)
  | .text body => some (.text token.span body)
  | _ => none

/-- The tokens that make a tree of their own are the atoms. -/
theorem Expr.isSome_ofAtom? (token : Located Token) :
    (Expr.ofAtom? token).isSome = token.value.isAtom := by
  obtain ⟨value, span⟩ := token
  cases value <;> rfl

/-- A list that is still open: its opening paren and its items so far, the last
one first. -/
structure OpenList where
  opening : Span
  items : List Expr
deriving Repr

/-- What has been read: the open lists, innermost first, and the finished forms,
the last one first. -/
structure Reading where
  stack : List OpenList := []
  forms : List Expr := []
deriving Repr

namespace Reading

/-- Add a finished node to the innermost open list, or to the forms. -/
def add (reading : Reading) (expr : Expr) : Reading :=
  match reading.stack with
  | [] => ⟨[], expr :: reading.forms⟩
  | inner :: outer => ⟨⟨inner.opening, expr :: inner.items⟩ :: outer, reading.forms⟩

@[simp] theorem add_of_outside (forms : List Expr) (expr : Expr) :
    add ⟨[], forms⟩ expr = ⟨[], expr :: forms⟩ :=
  rfl

@[simp] theorem add_of_inside (inner : OpenList) (outer : List OpenList) (forms : List Expr)
    (expr : Expr) :
    add ⟨inner :: outer, forms⟩ expr =
      ⟨⟨inner.opening, expr :: inner.items⟩ :: outer, forms⟩ :=
  rfl

/-- Read one token, unless it cannot stand here. -/
def step (reading : Reading) (token : Located Token) : Option Reading :=
  match token.value, reading.stack with
  | .endOfLine, _ => some reading
  | .openParen, stack => some ⟨⟨token.span, []⟩ :: stack, reading.forms⟩
  | .closeParen, inner :: outer =>
    some (add ⟨outer, reading.forms⟩
      (.list (inner.opening.union token.span) inner.items.reverse))
  | _, _ :: _ => (Expr.ofAtom? token).map reading.add
  | _, [] => none

/-- Read some tokens, unless one of them cannot stand where it does. -/
def readAll (reading : Reading) (tokens : List (Located Token)) : Option Reading :=
  tokens.foldlM step reading

@[simp] theorem readAll_nil (reading : Reading) : reading.readAll [] = some reading :=
  rfl

@[simp] theorem readAll_cons (reading : Reading) (token : Located Token)
    (rest : List (Located Token)) :
    reading.readAll (token :: rest) = (reading.step token).bind fun next => next.readAll rest :=
  rfl

/-- Tokens can be read in two parts, the second from where the first has arrived. -/
theorem readAll_append (reading : Reading) (front rest : List (Located Token)) :
    reading.readAll (front ++ rest) =
      (reading.readAll front).bind fun next => next.readAll rest :=
  List.foldlM_append

/-- One more token is read by one more step. -/
theorem readAll_concat {reading middle : Reading} {front : List (Located Token)}
    (arrived : reading.readAll front = some middle) (token : Located Token) :
    reading.readAll (front ++ [token]) = middle.step token := by
  rw [readAll_append, arrived, Option.bind_some, readAll_cons]
  simp

section Step

variable {reading next : Reading} {token : Located Token}

/-- The end of a line is passed over. -/
theorem step_of_endOfLine (isLine : token.value = .endOfLine) :
    reading.step token = some reading := by
  rw [step, isLine]

/-- An opening paren opens a list. -/
theorem step_of_openParen (isOpening : token.value = .openParen) :
    reading.step token = some ⟨⟨token.span, []⟩ :: reading.stack, reading.forms⟩ := by
  rw [step, isOpening]

/-- A closing paren makes a tree of the innermost list and adds it to what is around it. -/
theorem step_of_closeParen (isClosing : token.value = .closeParen) (inner : OpenList)
    (outer : List OpenList) (forms : List Expr) :
    step ⟨inner :: outer, forms⟩ token =
      some (add ⟨outer, forms⟩
        (.list (inner.opening.union token.span) inner.items.reverse)) := by
  rw [step, isClosing]

/-- Inside of a list an atom is added to the list. -/
theorem step_of_atom {atom : Expr} (isAtom : Expr.ofAtom? token = some atom) (inner : OpenList)
    (outer : List OpenList) (forms : List Expr) :
    step ⟨inner :: outer, forms⟩ token = some (add ⟨inner :: outer, forms⟩ atom) := by
  obtain ⟨value, span⟩ := token
  cases value <;> cases isAtom <;> rfl

/-- The end of the file is never read as a part of a form. -/
theorem step_of_endOfFile (isEnd : token.value = .endOfFile) : reading.step token = none := by
  obtain ⟨stack, forms⟩ := reading
  obtain ⟨value, span⟩ := token
  cases isEnd
  cases stack <;> rfl

/-- All that a token can do: leave everything as it is, open a list, close the
innermost one, or add an atom to it. -/
theorem step_cases (stepped : reading.step token = some next) :
    (token.value = .endOfLine ∧ next = reading) ∨
    (token.value = .openParen ∧
      next = ⟨⟨token.span, []⟩ :: reading.stack, reading.forms⟩) ∨
    (token.value = .closeParen ∧ ∃ inner outer, reading.stack = inner :: outer ∧
      next = add ⟨outer, reading.forms⟩
        (.list (inner.opening.union token.span) inner.items.reverse)) ∨
    (∃ atom, Expr.ofAtom? token = some atom ∧ reading.stack ≠ [] ∧ next = reading.add atom) := by
  obtain ⟨stack, forms⟩ := reading
  obtain ⟨value, span⟩ := token
  cases value with
  | endOfLine =>
    cases stepped
    exact .inl ⟨rfl, rfl⟩
  | openParen =>
    cases stepped
    exact .inr (.inl ⟨rfl, rfl⟩)
  | closeParen =>
    cases stack with
    | nil => cases stepped
    | cons inner outer =>
      cases stepped
      exact .inr (.inr (.inl ⟨rfl, inner, outer, rfl, rfl⟩))
  | endOfFile => cases stack <;> cases stepped
  | identifier | number | text =>
    cases stack with
    | nil => cases stepped
    | cons inner outer =>
      cases stepped
      exact .inr (.inr (.inr ⟨_, rfl, List.cons_ne_nil _ _, rfl⟩))

/-- Apart from the end of file, only atoms and closing parens outside of all lists cannot
stand where they do. -/
theorem step_eq_none_cases (refused : reading.step token = none)
    (notEnd : token.value ≠ .endOfFile) :
    reading.stack = [] ∧ (token.value = .closeParen ∨ token.value.isAtom) := by
  obtain ⟨stack, forms⟩ := reading
  obtain ⟨value, span⟩ := token
  cases value with
  | openParen | endOfLine => cases refused
  | endOfFile => exact absurd rfl notEnd
  | closeParen | identifier | number | text =>
    cases stack with
    | nil => simp [Token.isAtom]
    | cons inner outer => cases refused

end Step

/-- What holds at the start and is kept by every token holds after all tokens. -/
theorem readAll_induction (invariant : List (Located Token) → Reading → Prop)
    (start : invariant [] {})
    (kept : ∀ consumed reading token next, invariant consumed reading →
      reading.step token = some next → invariant (consumed ++ [token]) next)
    {tokens : List (Located Token)} {final : Reading}
    (arrived : readAll {} tokens = some final) : invariant tokens final := by
  have carried : ∀ (rest consumed : List (Located Token)) (reading : Reading),
      invariant consumed reading → reading.readAll rest = some final →
      invariant (consumed ++ rest) final := by
    intro rest
    induction rest with
    | nil =>
      intro consumed reading holds arrived
      cases arrived
      rwa [List.append_nil]
    | cons token rest inductionHypothesis =>
      intro consumed reading holds arrived
      obtain ⟨next, stepped, arrived⟩ := Option.bind_eq_some_iff.1 arrived
      have keptNext := kept consumed reading token next holds stepped
      have holds := inductionHypothesis _ next keptNext arrived
      rwa [List.append_assoc] at holds
  exact carried tokens [] {} start arrived

/-- The module that was read, once the input ends at the given place. -/
def finish (reading : Reading) (inputEnd : Span) : Except ParseFault Module :=
  match reading.stack with
  | [] => .ok ⟨reading.forms.reverse⟩
  | inner :: _ => .error (.incompleteInput inner.opening inputEnd)

/-- Read tokens up to the end of the input, or up to one that cannot stand where it
does. -/
def conclude (reading : Reading) (inputEnd : Span) :
    List (Located Token) → Except ParseFault Module
  | [] => reading.finish inputEnd
  | token :: rest =>
    match reading.step token with
    | some next => next.conclude inputEnd rest
    | none => .error (.unexpectedTopLevel token.value.kind token.span)

section Conclude

variable {reading next : Reading} {token : Located Token}

@[simp] theorem conclude_nil (reading : Reading) (inputEnd : Span) :
    reading.conclude inputEnd [] = reading.finish inputEnd :=
  rfl

/-- What follows a token that is read is concluded from where reading it arrives. -/
theorem conclude_cons_of_step (stepped : reading.step token = some next) (inputEnd : Span)
    (rest : List (Located Token)) :
    reading.conclude inputEnd (token :: rest) = next.conclude inputEnd rest := by
  rw [conclude, stepped]

/-- A token that is refused stands where a form should begin. -/
theorem conclude_cons_of_refused (refused : reading.step token = none) (inputEnd : Span)
    (rest : List (Located Token)) :
    reading.conclude inputEnd (token :: rest) =
      .error (.unexpectedTopLevel token.value.kind token.span) := by
  rw [conclude, refused]

/-- Tokens that can be read leave the conclusion to those that follow. -/
theorem conclude_append_of_readAll {front : List (Located Token)}
    (arrived : reading.readAll front = some next) (inputEnd : Span)
    (rest : List (Located Token)) :
    reading.conclude inputEnd (front ++ rest) = next.conclude inputEnd rest := by
  induction front generalizing reading with
  | nil =>
    cases arrived
    rfl
  | cons first others inductionHypothesis =>
    obtain ⟨second, stepped, arrived⟩ := Option.bind_eq_some_iff.1 arrived
    rw [List.cons_append, conclude_cons_of_step stepped, inductionHypothesis arrived]

/-- Reading token by token never fails for want of a certain token. -/
theorem conclude_ne_unexpectedToken (reading : Reading) (inputEnd : Span)
    (tokens : List (Located Token)) (expected found : TokenKind) (span : Span) :
    reading.conclude inputEnd tokens ≠ .error (.unexpectedToken expected found span) := by
  induction tokens generalizing reading with
  | nil =>
    obtain ⟨stack, forms⟩ := reading
    cases stack <;> simp [finish]
  | cons token rest inductionHypothesis =>
    cases stepped : reading.step token with
    | some next =>
      rw [conclude_cons_of_step stepped]
      exact inductionHypothesis next
    | none => simp [conclude_cons_of_refused stepped]

/-- Either all tokens can be read, or there is a first one that cannot. -/
theorem readAll_cases (reading : Reading) (tokens : List (Located Token)) :
    (∃ final, reading.readAll tokens = some final) ∨
      ∃ before token after reached, tokens = before ++ token :: after ∧
        reading.readAll before = some reached ∧ reached.step token = none := by
  induction tokens generalizing reading with
  | nil => exact .inl ⟨reading, rfl⟩
  | cons first others inductionHypothesis =>
    cases stepped : reading.step first with
    | none => exact .inr ⟨[], first, others, reading, rfl, rfl, stepped⟩
    | some next =>
      rcases inductionHypothesis next with ⟨final, arrived⟩ | ⟨before, token, after, reached, split,
        arrived, refused⟩
      · exact .inl ⟨final, by rw [readAll_cons, stepped, Option.bind_some, arrived]⟩
      · refine .inr ⟨first :: before, token, after, reached, ?_, ?_, refused⟩
        · rw [split, List.cons_append]
        · rw [readAll_cons, stepped, Option.bind_some, arrived]

end Conclude

end Reading

/-- The tokens before the first end of file, or all of them if there is none. -/
def beforeEnd (tokens : List (Located Token)) : List (Located Token) :=
  tokens.takeWhile fun token => token.value ≠ .endOfFile

/-- The place of the first end of file, or else the given one. -/
def endIn (inputEnd : Span) (tokens : List (Located Token)) : Span :=
  match tokens.find? fun token => token.value = .endOfFile with
  | some token => token.span
  | none => inputEnd

section End

variable {token : Located Token} {inputEnd : Span} {rest : List (Located Token)}

/-- Nothing stands before an end of file that comes first. -/
theorem beforeEnd_of_end (isEnd : token.value = .endOfFile) : beforeEnd (token :: rest) = [] := by
  simp [beforeEnd, isEnd]

/-- Any other token that comes first stands before the end of file. -/
theorem beforeEnd_of_not_end (notEnd : token.value ≠ .endOfFile) :
    beforeEnd (token :: rest) = token :: beforeEnd rest := by
  simp [beforeEnd, notEnd]

/-- The input ends at the first end of file. -/
theorem endIn_of_end (isEnd : token.value = .endOfFile) :
    endIn inputEnd (token :: rest) = token.span := by
  simp [endIn, isEnd]

/-- Any other token that comes first does not matter for where the input ends. -/
theorem endIn_of_not_end (notEnd : token.value ≠ .endOfFile) :
    endIn inputEnd (token :: rest) = endIn inputEnd rest := by
  simp [endIn, notEnd]

end End

namespace Reading

/-- Read on up to the end of some tokens. -/
def concludeIn (reading : Reading) (inputEnd : Span) (tokens : List (Located Token)) :
    Except ParseFault Module :=
  reading.conclude (endIn inputEnd tokens) (beforeEnd tokens)

section ConcludeIn

variable {reading next : Reading} {token : Located Token} {inputEnd : Span}
  {rest : List (Located Token)}

/-- At the end of file the reading is finished there. -/
theorem concludeIn_of_end (isEnd : token.value = .endOfFile) :
    reading.concludeIn inputEnd (token :: rest) = reading.finish token.span := by
  rw [concludeIn, endIn_of_end isEnd, beforeEnd_of_end isEnd, conclude_nil]

/-- Reading goes on behind a token that is read, for it does not end the file. -/
theorem concludeIn_of_step (stepped : reading.step token = some next) :
    reading.concludeIn inputEnd (token :: rest) = next.concludeIn inputEnd rest := by
  have notEnd : token.value ≠ .endOfFile := by
    intro isEnd
    rw [step_of_endOfFile isEnd] at stepped
    cases stepped
  rw [concludeIn, endIn_of_not_end notEnd, beforeEnd_of_not_end notEnd,
    conclude_cons_of_step stepped, concludeIn]

/-- A token that is refused is an error unless it ends the file. -/
theorem concludeIn_of_refused (notEnd : token.value ≠ .endOfFile)
    (refused : reading.step token = none) :
    reading.concludeIn inputEnd (token :: rest) =
      .error (.unexpectedTopLevel token.value.kind token.span) := by
  rw [concludeIn, beforeEnd_of_not_end notEnd, conclude_cons_of_refused refused]

end ConcludeIn

end Reading

namespace Parse

open Reading

/-- A token of the expected kind is taken. -/
theorem expect_of_kind {token : Located Token} {kind : TokenKind} (isKind : token.value.kind = kind)
    (inputEnd : Span) (rest : List (Located Token)) :
    expect inputEnd kind (token :: rest) = .ok ⟨token, rest, Nat.lt_succ_self rest.length⟩ := by
  rw [expect, if_pos isKind]

/-- At an opening paren, a list is read by reading its items. -/
theorem readList_of_openParen {token : Located Token} (isOpening : token.value = .openParen)
    (inputEnd : Span) (rest : List (Located Token)) :
    readList inputEnd (token :: rest) =
      (readItems inputEnd token.span [] rest).map fun list =>
        (list.behind (Nat.lt_succ_self rest.length) : Parsed Expr (token :: rest)) := by
  rw [readList, expect_of_kind (by rw [isOpening]; rfl)]

/-- Go on with a list that was read off the front of some tokens. -/
def proceed (outside : Reading) (inputEnd : Span) {tokens : List (Located Token)}
    (result : Except ParseFault (Parsed Expr tokens)) : Except ParseFault Module :=
  match result with
  | .error fault => .error fault
  | .ok list => (outside.add list.value).concludeIn inputEnd list.rest

/-- Where a list was read off makes no difference for what follows it. -/
theorem proceed_behind (outside : Reading) (inputEnd : Span) {later tokens : List (Located Token)}
    (result : Except ParseFault (Parsed Expr later)) (fewer : later.length < tokens.length) :
    proceed outside inputEnd
        (result.map fun list => (list.behind fewer : Parsed Expr tokens)) =
      proceed outside inputEnd result := by
  cases result <;> rfl

/-- Reading on with the innermost list at hand comes to reading its items by descent
and going on with the list that they make. -/
theorem concludeIn_eq_proceed_readItems (inputEnd opening : Span) (items : List Expr)
    (outer : List OpenList) (forms : List Expr) (tokens : List (Located Token)) :
    concludeIn ⟨⟨opening, items⟩ :: outer, forms⟩ inputEnd tokens =
      proceed ⟨outer, forms⟩ inputEnd (readItems inputEnd opening items tokens) := by
  match tokens with
  | [] =>
    rw [readItems]
    rfl
  | token :: rest =>
    have fewer : rest.length < (token :: rest).length := Nat.lt_succ_self rest.length
    -- A token that leaves the list open is passed over.
    have onward : ∀ {longer : List Expr},
        step ⟨⟨opening, items⟩ :: outer, forms⟩ token = some ⟨⟨opening, longer⟩ :: outer, forms⟩ →
        concludeIn ⟨⟨opening, items⟩ :: outer, forms⟩ inputEnd (token :: rest) =
          proceed ⟨outer, forms⟩ inputEnd
            ((readItems inputEnd opening longer rest).map fun list =>
              (list.behind fewer : Parsed Expr (token :: rest))) := by
      intro longer stepped
      rw [concludeIn_of_step stepped, concludeIn_eq_proceed_readItems, proceed_behind]
    rw [readItems]
    cases kind : token.value with
    | closeParen =>
      rw [concludeIn_of_step (step_of_closeParen kind _ _ _)]
      rfl
    | openParen =>
      rw [concludeIn_of_step (step_of_openParen kind), concludeIn_eq_proceed_readItems,
        readList_of_openParen kind]
      cases read : readItems inputEnd token.span [] rest with
      | error fault => rfl
      | ok inner =>
        have shorter := inner.shorter
        have behind := concludeIn_eq_proceed_readItems inputEnd opening (inner.value :: items) outer
          forms inner.rest
        rw [proceed, add_of_inside, behind]
        exact (proceed_behind ..).symm
    | identifier name => exact onward (step_of_atom (by simp [Expr.ofAtom?, kind]) _ _ _)
    | number value => exact onward (step_of_atom (by simp [Expr.ofAtom?, kind]) _ _ _)
    | text body => exact onward (step_of_atom (by simp [Expr.ofAtom?, kind]) _ _ _)
    | endOfLine => exact onward (step_of_endOfLine kind)
    | endOfFile =>
      rw [concludeIn_of_end kind]
      rfl
termination_by tokens.length

/-- Outside of all lists, too, descent comes to reading one token after another. -/
theorem concludeIn_eq_readForms (inputEnd : Span) (forms : List Expr)
    (tokens : List (Located Token)) :
    concludeIn ⟨[], forms⟩ inputEnd tokens = readForms inputEnd forms tokens := by
  match tokens with
  | [] =>
    rw [readForms]
    rfl
  | token :: rest =>
    rw [readForms]
    cases kind : token.value with
    | openParen =>
      rw [concludeIn_of_step (step_of_openParen kind), concludeIn_eq_proceed_readItems,
        readList_of_openParen kind]
      cases read : readItems inputEnd token.span [] rest with
      | error fault => rfl
      | ok form =>
        have shorter := form.shorter
        exact concludeIn_eq_readForms inputEnd (form.value :: forms) form.rest
    | endOfLine =>
      rw [concludeIn_of_step (step_of_endOfLine kind), expect_of_kind (by rw [kind]; rfl)]
      exact concludeIn_eq_readForms inputEnd forms rest
    | endOfFile =>
      rw [concludeIn_of_end kind]
      rfl
    | closeParen | identifier | number | text =>
      rw [concludeIn_of_refused (by simp [kind]) (by simp [step, kind]), kind]
termination_by tokens.length

end Parse

/-- Reading tokens as a module by descent comes to reading one token after another with
the open lists at hand. -/
theorem Module.ofTokens_eq_conclude (tokens : List (Located Token)) :
    Module.ofTokens tokens =
      Reading.conclude {} (endIn (Parse.endOf tokens) tokens) (beforeEnd tokens) :=
  (Parse.concludeIn_eq_readForms (Parse.endOf tokens) [] tokens).symm

/-- No token is met where a certain other one must stand: every token has been looked at
before it is taken. -/
theorem Module.ofTokens_ne_unexpectedToken (tokens : List (Located Token))
    (expected found : TokenKind) (span : Span) :
    Module.ofTokens tokens ≠ .error (.unexpectedToken expected found span) := by
  rw [Module.ofTokens_eq_conclude]
  exact Reading.conclude_ne_unexpectedToken _ _ _ expected found span

end Lisplet

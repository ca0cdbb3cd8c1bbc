import Lisplet.Diagnostic.Basic
import Lisplet.Token.Basic
import Lisplet.Tree.Basic

/-!
# Reading tokens as trees

Tokens are read from left to right by recursive descent. Outside of all lists
only a list may start; inside, atoms and lists are collected until the closing
paren. A token that is only looked at stays in front of the tokens to be read.
Line breaks mean nothing, and the first end of file ends the program whatever
follows it.
-/

namespace Lisplet

/-- Why tokens are not a sequence of lists. -/
inductive ParseFault where
  | unexpectedTopLevel (kind : TokenKind) (span : Span)
  | incompleteInput (opening inputEnd : Span)
  | unexpectedToken (expected found : TokenKind) (span : Span)
deriving DecidableEq, Repr

/-- The diagnostic for tokens that are not a sequence of lists. -/
def ParseFault.diagnostic : ParseFault → Diagnostic
  | unexpectedTopLevel kind span => {
      severity := .fatal
      message := s!"unexpected {kind.description} at top level"
      code := some .unexpectedTopLevel
      labels := [.primary span "expected `(` to start a form"]
      help := some "top-level code must be written as lists, e.g. `(f 1)`" }
  | incompleteInput opening inputEnd => {
      severity := .fatal
      message := "incomplete input: list is never closed"
      code := some .incompleteInput
      labels := [.primary opening "list opened here", .secondary inputEnd "input ends here"]
      help := some "add the missing `)`" }
  | unexpectedToken expected found span => {
      severity := .fatal
      message := s!"expected token {expected.description}, got token {found.description}"
      code := some .unexpectedToken
      labels := [.primary span s!"expected {expected.description} here"] }

/-- Something read off the front of some tokens, and the tokens after it. -/
structure Parsed (α : Type) (tokens : List (Located Token)) where
  value : α
  rest : List (Located Token)
  shorter : rest.length < tokens.length

namespace Parsed

/-- The same, read off after other tokens. -/
def behind {α : Type} {later tokens : List (Located Token)} (parsed : Parsed α later)
    (fewer : later.length < tokens.length) : Parsed α tokens :=
  ⟨parsed.value, parsed.rest, Nat.lt_trans parsed.shorter fewer⟩

end Parsed

namespace Parse

/-- Take the next token, which must be of the given kind. The input ends at
`inputEnd`. -/
def expect (inputEnd : Span) (kind : TokenKind) :
    (tokens : List (Located Token)) → Except ParseFault (Parsed (Located Token) tokens)
  | [] => .error (.unexpectedToken kind .endOfFile inputEnd)
  | token :: rest =>
    if token.value.kind = kind then
      .ok ⟨token, rest, Nat.lt_succ_self rest.length⟩
    else
      .error (.unexpectedToken kind token.value.kind token.span)

mutual

/-- Read a list, from its opening paren on. -/
def readList (inputEnd : Span) (tokens : List (Located Token)) :
    Except ParseFault (Parsed Expr tokens) :=
  match expect inputEnd .openParen tokens with
  | .error fault => .error fault
  | .ok paren =>
    have _shorter := paren.shorter
    (readItems inputEnd paren.value.span [] paren.rest).map fun list => list.behind paren.shorter
termination_by (tokens.length, 0)

/-- Read on in a list, up to its closing paren. Its items so far are given with
the last one first. -/
def readItems (inputEnd opening : Span) (items : List Expr) :
    (tokens : List (Located Token)) → Except ParseFault (Parsed Expr tokens)
  | [] => .error (.incompleteInput opening inputEnd)
  | token :: rest =>
    have fewer : rest.length < (token :: rest).length := Nat.lt_succ_self rest.length
    match token.value with
    | .closeParen => .ok ⟨.list (opening.union token.span) items.reverse, rest, fewer⟩
    | .openParen =>
      match readList inputEnd (token :: rest) with
      | .error fault => .error fault
      | .ok inner =>
        have _shorter := inner.shorter
        (readItems inputEnd opening (inner.value :: items) inner.rest).map fun list =>
          list.behind inner.shorter
    | .identifier name =>
      (readItems inputEnd opening (.identifier token.span name :: items) rest).map fun list =>
        list.behind fewer
    | .number value =>
      (readItems inputEnd opening (.number token.span value :: items) rest).map fun list =>
        list.behind fewer
    | .text body =>
      (readItems inputEnd opening (.text token.span body :: items) rest).map fun list =>
        list.behind fewer
    | .endOfLine =>
      (readItems inputEnd opening items rest).map fun list => list.behind fewer
    | .endOfFile => .error (.incompleteInput opening token.span)
termination_by tokens => (tokens.length, 1)

end

/-- Read on outside of all lists. The forms so far are given with the last one
first. -/
def readForms (inputEnd : Span) (forms : List Expr) :
    List (Located Token) → Except ParseFault Module
  | [] => .ok ⟨forms.reverse⟩
  | token :: rest =>
    match token.value with
    | .openParen =>
      match readList inputEnd (token :: rest) with
      | .error fault => .error fault
      | .ok form => readForms inputEnd (form.value :: forms) form.rest
    | .endOfLine =>
      match expect inputEnd .endOfLine (token :: rest) with
      | .error fault => .error fault
      | .ok line => readForms inputEnd forms line.rest
    | .endOfFile => .ok ⟨forms.reverse⟩
    | other => .error (.unexpectedTopLevel other.kind token.span)
termination_by tokens => tokens.length
decreasing_by
  · exact form.shorter
  · exact line.shorter

/-- The place right after the last of some tokens. -/
def endOf (tokens : List (Located Token)) : Span :=
  match tokens.getLast? with
  | some last => .point last.span.stop
  | none => .point 0

end Parse

/-- Read tokens as a module. -/
def Module.ofTokens (tokens : List (Located Token)) : Except ParseFault Module :=
  Parse.readForms (Parse.endOf tokens) [] tokens

end Lisplet

import Lisplet.Diagnostic.Basic
import Lisplet.Token.Basic

/-!
# Balance of parens

Before tokens are read as lists, every closing paren must have an opening one
before it. Lists that are never closed are left to the reader of lists, which
knows where they were opened.
-/

namespace Lisplet

/-- A closing paren with no opening paren left to match it. -/
structure BalanceFault where
  closing : Span
deriving DecidableEq, Repr

/-- The diagnostic for a closing paren that matches nothing. -/
def BalanceFault.diagnostic (fault : BalanceFault) : Diagnostic where
  severity := .fatal
  message := "unbalanced parens"
  code := some .unbalancedParens
  labels := [.primary fault.closing "this `)` has no matching `(`"]
  help := some "remove the extra `)` or add the missing `(`"

/-- How many lists are open after some tokens, and the first closing paren among them
that matches nothing. -/
structure ParenCount where
  depth : Nat := 0
  firstUnmatched : Option Span := none
deriving DecidableEq, Repr

/-- Count one more token. A closing paren that matches nothing closes nothing. -/
def ParenCount.add (count : ParenCount) (token : Located Token) : ParenCount :=
  match token.value, count.depth with
  | .openParen, depth => { count with depth := depth + 1 }
  | .closeParen, outer + 1 => { count with depth := outer }
  | .closeParen, 0 =>
    { count with firstUnmatched := some (count.firstUnmatched.getD token.span) }
  | _, _ => count

/-- The number of lists that tokens open and never close. All tokens are counted before
a closing paren that matches nothing is reported. -/
def balance (tokens : List (Located Token)) : Except BalanceFault Nat :=
  let count := tokens.foldl ParenCount.add {}
  match count.firstUnmatched with
  | some closing => .error ⟨closing⟩
  | none => .ok count.depth

end Lisplet

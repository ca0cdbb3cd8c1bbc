import Lisplet.Token.Balance
import Lisplet.Token.Scan
import Lisplet.Tree.Desugar
import Lisplet.Tree.Parse

/-!
# From source to tree

The stages that turn a source text into a desugared module, in one go.
-/

namespace Lisplet

/-- The module that a source stands for, or the diagnostic that ends the work on
it, together with the advice given on the way. -/
structure Analysis where
  notes : List Diagnostic
  result : Except Diagnostic Module

/-- Read the module that a source stands for. -/
def Module.ofSource (source : String) : Analysis :=
  match (PaddedText.ofSource source).tokens with
  | .error fault => ⟨[], .error fault.diagnostic⟩
  | .ok tokens =>
    match balance tokens with
    | .error fault => ⟨[], .error fault.diagnostic⟩
    | .ok _ =>
      match Module.ofTokens tokens with
      | .error fault => ⟨[], .error fault.diagnostic⟩
      | .ok parsed =>
        let swept := parsed.desugar
        ⟨swept.notes.map IgnoredOperands.diagnostic, swept.result.mapError DesugarFault.diagnostic⟩

end Lisplet

import Lisplet.Bindings
import Lisplet.CommandLine.Arguments
import Lisplet.CommandLine.FileSystem
import Lisplet.CommandLine.Run
import Lisplet.Compilation
import Lisplet.Config.Basic
import Lisplet.Config.Loader
import Lisplet.Config.Setting
import Lisplet.Decimal.Binary64
import Lisplet.Decimal.Layout
import Lisplet.Decimal.Shortest
import Lisplet.Diagnostic.Basic
import Lisplet.Diagnostic.Log
import Lisplet.Failure
import Lisplet.FrontEnd
import Lisplet.Lowering.Fault
import Lisplet.Lowering.Generator
import Lisplet.Lowering.Scopes
import Lisplet.Lowering.TempNames
import Lisplet.Main
import Lisplet.Operator
import Lisplet.Proofs.BuilderWriting
import Lisplet.Proofs.Emission
import Lisplet.Proofs.ModuleLowering
import Lisplet.Proofs.ResultNames
import Lisplet.Proofs.ScopeLaws
import Lisplet.Report
import Lisplet.Span
import Lisplet.Target.Basic
import Lisplet.Target.Builder
import Lisplet.Target.Interpreter
import Lisplet.Target.Listing
import Lisplet.Text.Numeral
import Lisplet.Text.Padded
import Lisplet.Text.WhiteSpace
import Lisplet.Token.Balance
import Lisplet.Token.Basic
import Lisplet.Token.Scan
import Lisplet.Toml.Document
import Lisplet.Toml.Moment
import Lisplet.Toml.Number
import Lisplet.Toml.Reader
import Lisplet.Toml.Table
import Lisplet.Toml.Text
import Lisplet.Tree.Basic
import Lisplet.Tree.Desugar
import Lisplet.Tree.Outline
import Lisplet.Tree.Parse
import Lisplet.Tree.Sweep
import Lisplet.Proofs.WellFormed
import Lisplet.Proofs.CallDepth
import Lisplet.Proofs.CleanLowering
import Lisplet.Proofs.Simulation
import Lisplet.Proofs.Correctness
import Lisplet.Proofs.PaddedScan
import Lisplet.Proofs.OpenLists
import Lisplet.Proofs.Spelling
import Lisplet.Proofs.Nesting
import Lisplet.Proofs.LiveLists
import Lisplet.Proofs.Resugaring
import Lisplet.Proofs.TokenSpelling
import Lisplet.Proofs.CompilationOutcome
import Lisplet.Proofs.DiagnosticOrder
import Lisplet.Proofs.ReturnedValues
import Lisplet.Proofs.SourceSlices
import Lisplet.Proofs.TreeSpans
import Lisplet.Proofs.DiagnosticPlaces
import Lisplet.Proofs.Renumbering
import Lisplet.Proofs.DefinitionOrder
import Lisplet.Proofs.RunOutcome
import Lisplet.Proofs.ScopeHistory
import Lisplet.Proofs.BuilderRuns
import Lisplet.Proofs.EvaluationRules
import Lisplet.Proofs.RejectedDefinitions
import Lisplet.Proofs.ResultNumbers
import Lisplet.Proofs.SourceOffsets
import Lisplet.Proofs.TokenCover
import Lisplet.Proofs.Enclosures
import Lisplet.Proofs.TreeNesting
import Lisplet.Proofs.ExitStatus
import Lisplet.Proofs.OperandNames

import Lisplet.Config.Basic
import Lisplet.Failure
import Lisplet.FrontEnd
import Lisplet.Target.Listing

/-!
# Compilations

A compilation runs the stages on a source one after another until one of them
cannot go on, and keeps what they made.
-/

namespace Lisplet

/-- How far to go and what to keep. -/
structure CompileOptions where
  /-- Stop before target code is made. -/
  syntaxOnly : Bool := false
  /-- Keep what the stages before desugaring made. -/
  keepStages : Bool := false
deriving DecidableEq, Repr

/-- What the stages made of a source, and the diagnostics on it. -/
structure Compilation where
  padded : Option PaddedText := none
  tokens : Option (List (Located Token)) := none
  parsed : Option Module := none
  desugared : Option Module := none
  target : Option Target := none
  log : Log := {}

namespace Compilation

/-- Add a diagnostic. -/
def record (compilation : Compilation) (diagnostic : Diagnostic) : Compilation :=
  { compilation with log := compilation.log.emit diagnostic }

/-- Add diagnostics, one after another. -/
def recordAll (compilation : Compilation) (diagnostics : List Diagnostic) : Compilation :=
  { compilation with log := diagnostics.foldl Log.emit compilation.log }

/-- The diagnostics, oldest first. -/
def diagnostics (compilation : Compilation) : List Diagnostic :=
  compilation.log.entries

/-- Whether the log is flagged: some diagnostic is not mere advice. -/
def failed (compilation : Compilation) : Bool :=
  compilation.log.hasErrors

/-- The target of a compilation that did not fail. -/
def finish (compilation : Compilation) (source : String) : Except Failure Target :=
  match compilation.log.finish with
  | .error rejection => .error (.rejected rejection source)
  | .ok _ =>
    match compilation.target with
    | none => .error .noTarget
    | some target => .ok target

/-- Go on with a desugared module. -/
def lowerModule (compilation : Compilation) (config : Config) (module : Module) : Compilation :=
  match module.lower config.names with
  | .error failure =>
    (compilation.recordAll (failure.faults.map LoweringFault.diagnostic)).record failure.diagnostic
  | .ok generator =>
    { compilation.recordAll (generator.faults.map LoweringFault.diagnostic) with
      target := some generator.builder.target }

/-- Go on with a parsed module. -/
def desugarModule (compilation : Compilation) (config : Config) (options : CompileOptions)
    (module : Module) : Compilation :=
  let swept := module.desugar
  let noted := compilation.recordAll (swept.notes.map IgnoredOperands.diagnostic)
  match swept.result with
  | .error fault => noted.record fault.diagnostic
  | .ok desugared =>
    let analysed := { noted with desugared := some desugared }
    if options.syntaxOnly then analysed else analysed.lowerModule config desugared

/-- Go on with balanced tokens. -/
def parseTokens (compilation : Compilation) (config : Config) (options : CompileOptions)
    (tokens : List (Located Token)) : Compilation :=
  let scanned := { compilation with tokens := if options.keepStages then some tokens else none }
  match Module.ofTokens tokens with
  | .error fault => scanned.record fault.diagnostic
  | .ok parsed =>
    { scanned with parsed := if options.keepStages then some parsed else none }.desugarModule
      config options parsed

end Compilation

/-- Compile a source. -/
def compile (config : Config) (source : String) (options : CompileOptions) : Compilation :=
  let padded := PaddedText.ofSource source
  let start : Compilation := { padded := if options.keepStages then some padded else none }
  match padded.tokens with
  | .error fault => start.record fault.diagnostic
  | .ok tokens =>
    match balance tokens with
    | .error fault => start.record fault.diagnostic
    | .ok _ => start.parseTokens config options tokens

/-- Compile a source to a target. -/
def build (config : Config) (source : String) : Except Failure Target :=
  (compile config source {}).finish source

/-- Run the entry function of a target. -/
def evaluate (config : Config) (target : Target) : Except Failure Float :=
  (target.runEntry config.maxCallDepth).mapError .evaluation

end Lisplet

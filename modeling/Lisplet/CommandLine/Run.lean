import Lisplet.CommandLine.Arguments
import Lisplet.CommandLine.FileSystem
import Lisplet.Compilation
import Lisplet.Config.Basic
import Lisplet.Tree.Outline

/-!
# Runs of the compiler

A run loads the configuration, reads and compiles the input, prints what the
requested stages made, writes the listing, and evaluates the program if asked to.
No listing is written and nothing is evaluated unless the program is accepted. The
loader of configurations and the operations on files are given by the caller.
-/

namespace Lisplet

/-- What a run that succeeds leaves. -/
structure Success where
  source : String
  /-- The diagnostics that are shown. -/
  notes : List Diagnostic
  status : Int

/-- How a run ends. -/
inductive Ending where
  | success (result : Success)
  | failure (cause : Failure)
  /-- The value of the program could not be printed. -/
  | abort (error : FileError)

/-- The exit status for a result: its whole part, held within 64 bits, of which
the low eight are kept and read as a signed number. -/
def exitStatus (value : Float) : Int :=
  let whole : Int :=
    match Binary64.ofFloat value with
    | .nan => 0
    | .infinite negative => if negative then -Int.pow 2 63 else Int.pow 2 63 - 1
    | .finite negative magnitude =>
      let floor : Int := magnitude.floor
      max (-Int.pow 2 63) (min (Int.pow 2 63 - 1) (if negative then -floor else floor))
  Int.bmod whole (Nat.pow 2 8)

namespace Compilation

/-- What a stage made, in the pieces in which it is printed. -/
def dump (compilation : Compilation) : DumpStage → Option (List String)
  | .preproc => compilation.padded.map fun padded => [";; preproc\n", padded.text ++ "\n"]
  | .tokens => compilation.tokens.map fun tokens =>
      ";; tokens\n" :: tokens.map fun token => token.tokenLine ++ "\n"
  | .ast => compilation.parsed.map fun module => [";; ast\n", module.outline]
  | .desugared => compilation.desugared.map fun module => [";; desugared\n", module.outline]
  | .ir => compilation.target.map fun target => [";; ir\n", target.listing]
  | .all => none

/-- What the requested stages made, in the order in which they ran. -/
def dumps (compilation : Compilation) (arguments : Arguments) : List String :=
  ((DumpStage.choices.filter arguments.dumps).filterMap compilation.dump).flatten

/-- The listing of an accepted program. -/
def listing? (compilation : Compilation) : Option String :=
  if compilation.failed then none else compilation.target.map Target.listing

/-- The diagnostics that are shown: all of them, or all that are not mere advice. -/
def shown (compilation : Compilation) (showInfo : Bool) : List Diagnostic :=
  compilation.diagnostics.filter fun diagnostic => showInfo || !diagnostic.severity.isInfo

end Compilation

/-- The diagnostic for a listing that cannot be written to a file. -/
def unwritableOutput (path : String) (error : FileError) : Diagnostic where
  severity := .fatal
  message := s!"could not write output file '{path}': {error.message}"
  code := some .unwritableOutput

/-- The diagnostic for a listing that cannot be printed. -/
def unprintableListing (error : FileError) : Diagnostic where
  severity := .fatal
  message := s!"could not write listing: {error.message}"
  code := some .unwritableOutput

namespace Arguments

/-- The configuration that applies: that of the file, with advice shown if the
command line asks for it. -/
def configured (arguments : Arguments) (config : Config) : Config :=
  if arguments.info then { config with showInfo := true } else config

/-- What a run compiles. The stages are kept if any is to be printed. -/
def compiled (arguments : Arguments) (config : Config) (source : String) : Compilation :=
  compile (arguments.configured config) source
    { syntaxOnly := arguments.syntaxOnly, keepStages := !arguments.dump.isEmpty }

end Arguments

/-- How a configuration is loaded, given the path on the command line, if there is one,
and the input. -/
abbrev ConfigLoader (m : Type → Type) :=
  Option String → String → m (Except Failure Config)

section Effects

variable {m : Type → Type} [Monad m]

/-- Write a listing, or print it unless the value of the program is to be printed. A
diagnostic tells why that cannot be done. -/
def FileSystem.putListing (files : FileSystem m) (arguments : Arguments) (listing : String) :
    m (Except Diagnostic Unit) :=
  match arguments.output with
  | some path => do
    let written ← files.write path listing
    pure (written.mapError (unwritableOutput path))
  | none =>
    if arguments.run then pure (.ok ())
    else do
      let printed ← files.print listing
      pure (printed.mapError unprintableListing)

/-- Write or print the listing of an accepted program. A listing that cannot be
written is recorded. -/
def FileSystem.emitListing (files : FileSystem m) (arguments : Arguments)
    (compilation : Compilation) : m Compilation :=
  match compilation.listing? with
  | none => pure compilation
  | some listing => do
    match ← files.putListing arguments listing with
    | .ok () => pure compilation
    | .error diagnostic => pure (compilation.record diagnostic)

/-- End a run, given what was compiled and recorded. -/
def FileSystem.conclude (files : FileSystem m) (arguments : Arguments) (config : Config)
    (source : String) (compilation : Compilation) : m Ending :=
  let shown := compilation.shown config.showInfo
  if compilation.failed then pure (.failure (.rejected ⟨shown⟩ source))
  else
    match arguments.run, compilation.target with
    | true, some target =>
      match evaluate config target with
      | .error failure => pure (.failure failure)
      | .ok value => do
        match ← files.print (NumberLayout.result.format value ++ "\n") with
        | .ok () => pure (.success ⟨source, shown, exitStatus value⟩)
        | .error error => pure (.abort error)
    | _, _ => pure (.success ⟨source, shown, 0⟩)

/-- Compile a source that was read, print what was asked for, and end the run. -/
def FileSystem.process (files : FileSystem m) (arguments : Arguments) (config : Config)
    (source : String) : m Ending := do
  let compilation := arguments.compiled config source
  match ← files.printAll (compilation.dumps arguments) with
  | .error error => pure (.failure (.file error))
  | .ok () =>
    let recorded ← files.emitListing arguments compilation
    files.conclude arguments (arguments.configured config) source recorded

/-- Run the compiler. -/
def Arguments.execute (arguments : Arguments) (load : ConfigLoader m) (files : FileSystem m) :
    m Ending := do
  match ← load arguments.config arguments.input with
  | .error failure => pure (.failure failure)
  | .ok config =>
    match ← files.read arguments.input with
    | .error error => pure (.failure (.file error))
    | .ok source => files.process arguments config source

end Effects

end Lisplet

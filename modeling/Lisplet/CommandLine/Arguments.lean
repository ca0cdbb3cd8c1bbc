/-!
# Command line arguments

The words of a command line are read from left to right. An option that takes a
value may have it attached, or else takes the next word that is no option. Such a
word is only checked once the option is complete, when the next option, the input
or the end of the line is reached; an unknown word is refused at once.
-/

namespace Lisplet

/-- A stage whose result can be printed. -/
inductive DumpStage where
  | preproc
  | tokens
  | ast
  | desugared
  | ir
  | all
deriving DecidableEq, Repr

namespace DumpStage

/-- The stages in the order in which they run, and all of them together. -/
def choices : List DumpStage :=
  [preproc, tokens, ast, desugared, ir, all]

/-- The word for a stage. -/
def name : DumpStage → String
  | preproc => "preproc"
  | tokens => "tokens"
  | ast => "ast"
  | desugared => "desugared"
  | ir => "ir"
  | all => "all"

/-- The stage of the given word. -/
def ofName? (word : String) : Option DumpStage :=
  choices.find? fun stage => stage.name == word

end DumpStage

/-- What a command line asks for. -/
structure Arguments where
  input : String
  output : Option String := none
  config : Option String := none
  logLevel : String := "info"
  dump : List DumpStage := []
  syntaxOnly : Bool := false
  info : Bool := false
  run : Bool := false
deriving DecidableEq, Repr

/-- Whether the result of a stage is to be printed. -/
def Arguments.dumps (arguments : Arguments) (stage : DumpStage) : Bool :=
  arguments.dump.any fun requested => requested == stage || requested == .all

/-- Why a command line is not carried out. -/
inductive ArgumentsError where
  | missingInput
  | unknownArgument (word : String)
  | invalidValue (option : String)
  | repeatedOption (option : String)
  | unwantedValue (option : String)
  | helpRequested
  | versionRequested
deriving DecidableEq, Repr

namespace Arguments

/-- An option that takes a value. -/
inductive ValueOption where
  | output
  | config
  | logLevel
  | dump
deriving DecidableEq, Repr

/-- An option that takes no value. -/
inductive FlagOption where
  | syntaxOnly
  | info
  | run
  | help
  | version
deriving DecidableEq, Repr

/-- An option. -/
inductive OptionName where
  | value (option : ValueOption)
  | flag (option : FlagOption)
deriving DecidableEq, Repr

/-- The long name of an option that takes a value. -/
def ValueOption.name : ValueOption → String
  | output => "--output"
  | config => "--config"
  | logLevel => "--log-level"
  | dump => "--dump"

/-- The long name of an option that takes no value. -/
def FlagOption.name : FlagOption → String
  | syntaxOnly => "--syntax-only"
  | info => "--info"
  | run => "--run"
  | help => "--help"
  | version => "--version"

/-- All options. -/
def OptionName.all : List OptionName :=
  [.value .output, .value .config, .value .logLevel, .value .dump, .flag .syntaxOnly, .flag .info,
    .flag .run, .flag .help, .flag .version]

/-- The long name of an option. -/
def OptionName.name : OptionName → String
  | value option => option.name
  | flag option => option.name

/-- The option of the given long name. -/
def OptionName.ofLong? (word : String) : Option OptionName :=
  all.find? fun option => option.name == word

/-- The option of the given letter. -/
def OptionName.ofShort? : Char → Option OptionName
  | 'o' => some (.value .output)
  | 'c' => some (.value .config)
  | 'h' => some (.flag .help)
  | 'V' => some (.flag .version)
  | _ => none

/-- An option that is not complete yet, and the value it has taken. -/
structure Pending where
  option : ValueOption
  value : Option String
deriving DecidableEq, Repr

/-- What has been read of a command line. -/
structure Progress where
  input : Option String := none
  output : Option String := none
  config : Option String := none
  logLevel : Option String := none
  dump : List DumpStage := []
  flags : List FlagOption := []
  pending : Option Pending := none
  /-- Whether the rest of the line holds no options. -/
  optionsEnded : Bool := false
deriving DecidableEq, Repr

namespace Progress

/-- A value for an option that is given at most once. -/
def setOnce (option : ValueOption) (previous : Option String) (value : String) :
    Except ArgumentsError (Option String) :=
  match previous with
  | none => .ok (some value)
  | some _ => .error (.repeatedOption option.name)

/-- Give an option its value. -/
def store (progress : Progress) (option : ValueOption) (value : String) :
    Except ArgumentsError Progress :=
  match option with
  | .output => do
    let output ← setOnce option progress.output value
    pure { progress with output }
  | .config => do
    let config ← setOnce option progress.config value
    pure { progress with config }
  | .logLevel => do
    let logLevel ← setOnce option progress.logLevel value
    pure { progress with logLevel }
  | .dump =>
    match DumpStage.ofName? value with
    | none => .error (.invalidValue option.name)
    | some stage => .ok { progress with dump := progress.dump ++ [stage] }

/-- Complete the option that is pending. -/
def settle (progress : Progress) : Except ArgumentsError Progress :=
  match progress.pending with
  | none => .ok progress
  | some ⟨option, none⟩ => .error (.invalidValue option.name)
  | some ⟨option, some value⟩ => { progress with pending := none }.store option value

/-- Take an option that takes no value. -/
def takeFlag (progress : Progress) (flag : FlagOption) : Except ArgumentsError Progress := do
  let settled ← progress.settle
  match flag with
  | .help => .error .helpRequested
  | .version => .error .versionRequested
  | flag =>
    if settled.flags.contains flag then
      .error (.repeatedOption flag.name)
    else
      pure { settled with flags := flag :: settled.flags }

/-- Take an option that takes a value, which may be attached. -/
def takeValueOption (progress : Progress) (option : ValueOption) (attached : Option String) :
    Except ArgumentsError Progress := do
  let settled ← progress.settle
  match attached with
  | some value => settled.store option value
  | none => pure { settled with pending := some ⟨option, none⟩ }

/-- Take the input. -/
def takeInput (progress : Progress) (word : String) : Except ArgumentsError Progress :=
  match progress.input with
  | some _ => .error (.unknownArgument word)
  | none => do
    let settled ← progress.settle
    pure { settled with input := some word }

/-- Take an option by its long name. -/
def takeLong (progress : Progress) (word : String) (name : String) (attached : Option String) :
    Except ArgumentsError Progress :=
  match OptionName.ofLong? name, attached with
  | none, _ => .error (.unknownArgument word)
  | some (.flag flag), some _ => .error (.unwantedValue flag.name)
  | some (.flag flag), none => progress.takeFlag flag
  | some (.value option), attached => progress.takeValueOption option attached

/-- The value attached to a letter: the rest of the word, less an equals sign. -/
def attachedToLetter : List Char → Option String
  | [] => none
  | '=' :: rest => some (String.ofList rest)
  | rest => some (String.ofList rest)

/-- Take an option by its letter. -/
def takeShort (progress : Progress) (word : String) (letter : Char) (rest : List Char) :
    Except ArgumentsError Progress :=
  match OptionName.ofShort? letter with
  | none => .error (.unknownArgument word)
  | some (.flag flag) => progress.takeFlag flag
  | some (.value option) => progress.takeValueOption option (attachedToLetter rest)

/-- The name and the attached value of a word that starts with two dashes. -/
def splitLong (chars : List Char) : String × Option String :=
  let name := chars.takeWhile fun char => char != '='
  match chars.drop name.length with
  | [] => (String.ofList name, none)
  | _ :: value => (String.ofList name, some (String.ofList value))

/-- Take a word that is no option: a value for the pending option, or the input. -/
def takePlain (progress : Progress) (word : String) : Except ArgumentsError Progress :=
  match progress.pending with
  | some ⟨option, none⟩ => .ok { progress with pending := some ⟨option, some word⟩ }
  | _ => progress.takeInput word

/-- Take one word. -/
def take (progress : Progress) (word : String) : Except ArgumentsError Progress :=
  if progress.optionsEnded then
    progress.takeInput word
  else
    match word.toList with
    | ['-', '-'] => .ok { progress with optionsEnded := true }
    | '-' :: '-' :: rest =>
      let (name, attached) := splitLong ('-' :: '-' :: rest)
      progress.takeLong word name attached
    | '-' :: letter :: rest => progress.takeShort word letter rest
    | _ => progress.takePlain word

/-- What a complete line asks for. -/
def finish (progress : Progress) : Except ArgumentsError Arguments := do
  let settled ← progress.settle
  match settled.input with
  | none => .error .missingInput
  | some input =>
    pure {
      input
      output := settled.output
      config := settled.config
      logLevel := settled.logLevel.getD "info"
      dump := settled.dump
      syntaxOnly := settled.flags.contains .syntaxOnly
      info := settled.flags.contains .info
      run := settled.flags.contains .run }

end Progress

/-- What a command line asks for, given its words without the name of the
program. -/
def parse (words : List String) : Except ArgumentsError Arguments := do
  let progress ← words.foldlM Progress.take {}
  progress.finish

end Arguments

end Lisplet

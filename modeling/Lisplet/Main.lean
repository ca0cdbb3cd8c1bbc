import Lisplet.CommandLine.Run
import Lisplet.Config.Loader
import Lisplet.Report

/-!
# The command

The outer layer: it takes the words of the command line, carries out a run on the
files and the standard output of the system with the configuration files of the user,
shows the reports of the run on the error stream, and exits with its status.
-/

namespace Lisplet.Command

/-- Why an operation of the system failed. -/
def fileError : IO.Error → FileError
  | .noFileOrDirectory _ _ _ => .notFound
  | .inappropriateType _ 20 _ => .notDirectory
  | .inappropriateType _ 21 _ => .isDirectory
  | .invalidArgument _ 36 _ => .nameTooLong
  | error => .other (toString error)

/-- Carry out an operation of the system and keep its error. -/
def attempt {α : Type} (action : IO α) : IO (Except FileError α) := do
  try
    let value ← action
    pure (.ok value)
  catch error => pure (.error (fileError error))

/-- The directory for configuration files: the one that is set, or the usual one
in the directory of the user. -/
def configHome : IO (Option String) := do
  match ← IO.getEnv "XDG_CONFIG_HOME" with
  | some directory => pure (some directory)
  | none =>
    let home ← IO.getEnv "HOME"
    pure (home.map fun directory => Path.join directory ".config")

/-- Print a text at once. -/
def printNow (text : String) : IO Unit := do
  let output ← IO.getStdout
  output.putStr text
  output.flush

/-- The files and the standard output of the system. -/
def fileSystem : FileSystem IO where
  pathExists path := do
    match ← attempt (IO.FS.Handle.mk path .read) with
    | .ok _ => pure true
    | .error error => pure (error != .notFound && error != .notDirectory && error != .nameTooLong)
  read path := do
    match ← attempt (IO.FS.readBinFile path) with
    | .error error => pure (.error error)
    | .ok content =>
      match String.fromUTF8? content with
      | some text => pure (.ok text)
      | none => pure (.error .invalidText)
  write path text := attempt (IO.FS.writeFile path text)
  print text := attempt (printNow text)

/-- The lines that show a report. -/
def reportLines (report : Report) : List String :=
  let kind := (report.severity.map ReportSeverity.name).getD "error"
  let code := (report.code.map fun code => "[" ++ code ++ "]").getD ""
  let labels := report.labels.map fun label =>
    s!"  {label.span.start}..{label.span.stop}: {label.message}"
  let help := report.help.map fun text => "  help: " ++ text
  [kind ++ code ++ ": " ++ report.text] ++ labels ++ help.toList

/-- Show reports on the error stream. -/
def showReports (reports : List Report) : IO Unit :=
  (reports.flatMap reportLines).forM fun line => IO.eprintln line

/-- How the command is used. -/
def usage : String :=
  "Usage: lc [OPTIONS] <INPUT>\n\n"
    ++ "Arguments:\n  <INPUT>  Path to the input file\n\n"
    ++ "Options:\n"
    ++ "  -o, --output <OUTPUT>        Path to the output listing; standard output when omitted\n"
    ++ "  -c, --config <CONFIG>        Path to configuration file (TOML)\n"
    ++ "      --log-level <LOG_LEVEL>  Log level (off, error, warn, info, debug, trace)\n"
    ++ "      --dump <PHASE>           Print the state after a phase; may be repeated\n"
    ++ "      --syntax-only            Stop after desugaring\n"
    ++ "      --info                   Show advisory diagnostics\n"
    ++ "      --run                    Interpret the compiled module and print its result\n"
    ++ "  -h, --help                   Print help\n"
    ++ "  -V, --version                Print version\n"

/-- What is said about a command line that is not carried out, and the exit
status. -/
def refusal : ArgumentsError → String × UInt32
  | .missingInput => ("error: the input file is missing\n\n" ++ usage, 2)
  | .unknownArgument word => (s!"error: unexpected argument '{word}'\n\n" ++ usage, 2)
  | .invalidValue option => (s!"error: invalid value for '{option}'\n\n" ++ usage, 2)
  | .repeatedOption option => (s!"error: '{option}' is given more than once\n\n" ++ usage, 2)
  | .unwantedValue option => (s!"error: '{option}' takes no value\n\n" ++ usage, 2)
  | .helpRequested => (usage, 0)
  | .versionRequested => ("lc 0.1.0\n", 0)

/-- Carry out a command line. -/
def execute (arguments : Arguments) : IO UInt32 := do
  let load := fileSystem.loadConfig Config.ofToml? (← configHome)
  match ← arguments.execute load fileSystem with
  | .success success =>
    showReports (success.notes.map Diagnostic.report)
    pure (UInt32.ofNat (success.status % Int.pow 2 8).toNat)
  | .failure failure =>
    showReports failure.reports
    pure 1
  | .abort error =>
    IO.eprintln s!"failed printing to stdout: {error.message}"
    pure 101

end Lisplet.Command

/-- Compile the file that the command line names. -/
def main (words : List String) : IO UInt32 := do
  match Lisplet.Arguments.parse words with
  | .ok arguments => Lisplet.Command.execute arguments
  | .error error =>
    let (message, status) := Lisplet.Command.refusal error
    if status = 0 then IO.print message else IO.eprint message
    pure status

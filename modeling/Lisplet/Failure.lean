import Lisplet.Diagnostic.Log
import Lisplet.Target.Interpreter

/-!
# Failures

Everything that can keep the compiler from its result, with the text that tells
the user.
-/

namespace Lisplet

/-- Why a file cannot be used. -/
inductive FileError where
  | notFound
  | notDirectory
  | isDirectory
  | nameTooLong
  /-- A path holds a character that no path can hold. -/
  | invalidPath
  | invalidText
  | other (message : String)
deriving DecidableEq, Repr

/-- The message for a file that cannot be used. -/
def FileError.message : FileError → String
  | notFound => "No such file or directory (os error 2)"
  | notDirectory => "Not a directory (os error 20)"
  | isDirectory => "Is a directory (os error 21)"
  | nameTooLong => "File name too long (os error 36)"
  | invalidPath => "file name contained an unexpected NUL byte"
  | invalidText => "stream did not contain valid UTF-8"
  | other message => message

/-- Why a configuration cannot be used. -/
inductive ConfigError where
  | missing (path : String)
  | malformed (path : String)
deriving DecidableEq, Repr

/-- The message for a configuration that cannot be used. -/
def ConfigError.message : ConfigError → String
  | missing path => s!"Missing configuration file: {path}"
  | malformed path => s!"Failed to parse TOML configuration {path}"

/-- Why there is no result. A rejection comes with the source it is about. -/
inductive Failure where
  | file (error : FileError)
  | rejected (rejection : Rejection) (source : String)
  | evaluation (error : EvalError)
  | config (error : ConfigError)
  | noTarget
deriving DecidableEq, Repr

/-- The message for a failure. -/
def Failure.message : Failure → String
  | file error => s!"I/O error: {error.message}"
  | rejected rejection _ => rejection.message
  | evaluation error => s!"Evaluation error: {error.message}"
  | config error => s!"Configuration error: {error.message}"
  | noTarget => "no target module was produced"

end Lisplet

import Lisplet.CommandLine.FileSystem
import Lisplet.Config.Basic
import Lisplet.Toml.Document

/-!
# Loading a configuration

A configuration file is one that the command line names, or the first that is found
next to the input, in the working directory or among the files of the user. Without
any of them the defaults apply. How the text of a file is read is up to the caller;
`Config.ofToml?` reads the usual format.
-/

namespace Lisplet

/-- Read a configuration from the text of a file. -/
def Config.ofToml? (text : String) : Option Config :=
  (Toml.parse? text).bind (Config.ofSetting? .ignored)

/-- The paths at which the configuration for an input is looked for, the most specific
first. -/
def Config.paths (configHome : Option String) (input : String) : List String :=
  ((Path.parent? input).map fun directory => Path.join directory "lc.toml").toList
    ++ ["lc/config.toml"]
    ++ (configHome.map fun home => Path.join home "lc/config.toml").toList

namespace FileSystem

variable {m : Type → Type} [Monad m]

/-- The first of some paths that leads somewhere. -/
def firstExisting (files : FileSystem m) : List String → m (Option String)
  | [] => pure none
  | path :: rest => do
    if ← files.pathExists path then pure (some path) else files.firstExisting rest

/-- Read the configuration at a path. -/
def readConfig (files : FileSystem m) (decode : String → Option Config) (path : String) :
    m (Except Failure Config) := do
  match ← files.read path with
  | .error error => pure (.error (.file error))
  | .ok text =>
    match decode text with
    | none => pure (.error (.config (.malformed path)))
    | some config => pure (.ok config)

/-- Load the configuration for an input. A path that is given for it must lead
somewhere. -/
def loadConfig (files : FileSystem m) (decode : String → Option Config)
    (configHome : Option String) (given : Option String) (input : String) :
    m (Except Failure Config) := do
  match given with
  | some path => do
    if ← files.pathExists path then files.readConfig decode path
    else pure (.error (.config (.missing path)))
  | none =>
    match ← files.firstExisting (Config.paths configHome input) with
    | some path => files.readConfig decode path
    | none => pure (.ok {})

end FileSystem

end Lisplet

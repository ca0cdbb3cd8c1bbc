import Lisplet.Config.Setting
import Lisplet.Lowering.Generator

/-!
# Configuration

What a user can set: the names in the target module, how deep calls may nest,
and whether advice is shown. A configuration is read from a tree of settings.
Everything has a default, and keys that mean nothing are passed over; a setting
of the wrong type is refused.
-/

namespace Lisplet

/-- What a user can set. -/
structure Config where
  names : TargetNames := {}
  maxCallDepth : Nat := 256
  showInfo : Bool := false
deriving DecidableEq, Repr

namespace Config

/-- Read the section on names. -/
def readNames (surplus : Surplus) (setting : Setting) : Option TargetNames :=
  let defaults : TargetNames := {}
  match setting.fields surplus ["module_name", "entry_name"] with
  | some [moduleName, entryName] => do
    let module ← Setting.readField Setting.readText defaults.module moduleName
    let entry ← Setting.readField Setting.readText defaults.entry entryName
    some { module, entry }
  | _ => none

/-- Read the section on runs: how deep calls may nest. -/
def readMaxCallDepth (surplus : Surplus) (setting : Setting) : Option Nat :=
  let defaults : Config := {}
  match setting.fields surplus ["max_call_depth"] with
  | some [depth] => Setting.readField Setting.readCount defaults.maxCallDepth depth
  | _ => none

/-- Read the section on diagnostics: whether advice is shown. -/
def readShowInfo (surplus : Surplus) (setting : Setting) : Option Bool :=
  let defaults : Config := {}
  match setting.fields surplus ["show_info"] with
  | some [showInfo] => Setting.readField Setting.readBoolean defaults.showInfo showInfo
  | _ => none

/-- Read a configuration. -/
def ofSetting? (surplus : Surplus) (setting : Setting) : Option Config :=
  let defaults : Config := {}
  match setting.fields surplus ["codegen", "eval", "diagnostics"] with
  | some [codegen, eval, diagnostics] => do
    let names ← Setting.readField (readNames surplus) defaults.names codegen
    let maxCallDepth ←
      Setting.readField (readMaxCallDepth surplus) defaults.maxCallDepth eval
    let showInfo ← Setting.readField (readShowInfo surplus) defaults.showInfo diagnostics
    some { names, maxCallDepth, showInfo }
  | _ => none

end Config

end Lisplet

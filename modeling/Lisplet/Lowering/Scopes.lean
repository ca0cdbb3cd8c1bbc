import Lisplet.Bindings
import Lisplet.Target.Basic

/-!
# Scopes

While a program is lowered, a name stands for a parameter of the function at
hand or else for a global. Globals are bound wherever a variable is defined, also
inside of functions. A global that is not a constant was computed in some
function and has a meaning only there: that function owns it.
-/

namespace Lisplet

/-- What a name stands for. -/
inductive Resolution where
  | value (value : Value)
  | unbound
  | foreign (owner : String)
deriving DecidableEq, Repr

/-- The names that can be used, and the function at hand. -/
structure Scopes where
  globals : Bindings Value := .empty
  /-- The functions that own globals. -/
  owners : Bindings String := .empty
  locals : Bindings Value := .empty
  current : Option String := none

namespace Scopes

/-- What a name stands for in the function at hand. Parameters come first. -/
def resolve (scopes : Scopes) (name : String) : Resolution :=
  match scopes.locals.get? name with
  | some value => .value value
  | none =>
    match scopes.globals.get? name with
    | none => .unbound
    | some value =>
      match scopes.owners.get? name with
      | none => .value value
      | some owner => if scopes.current = some owner then .value value else .foreign owner

/-- The value a name stands for, if it can be used in the function at hand. -/
def lookup? (scopes : Scopes) (name : String) : Option Value :=
  match scopes.resolve name with
  | .value value => some value
  | .unbound => none
  | .foreign _ => none

/-- The value of a global, whoever owns it. -/
def global? (scopes : Scopes) (name : String) : Option Value :=
  scopes.globals.get? name

/-- The owners once a global is bound to a value. -/
def ownersAfter (scopes : Scopes) (name : String) (value : Value) : Bindings String :=
  match value, scopes.current with
  | .constant _, _ => scopes.owners.erase name
  | _, none => scopes.owners.erase name
  | _, some current => scopes.owners.bind name current

/-- Bind a global. Constants belong to nobody, everything else to the function at
hand. -/
def bindGlobal (scopes : Scopes) (name : String) (value : Value) : Scopes :=
  { scopes with
    globals := scopes.globals.bind name value
    owners := scopes.ownersAfter name value }

/-- Parameters bound one after another, the first at the given position. -/
def bindParams : Nat → List String → Bindings Value → Bindings Value
  | _, [], locals => locals
  | index, name :: rest, locals =>
    bindParams (index + 1) rest (locals.bind name (.param index name))

/-- Turn to a function. Its parameters are the only local names. -/
def enterFunction (scopes : Scopes) (function : String) (params : List String) : Scopes :=
  { scopes with locals := bindParams 0 params .empty, current := some function }

/-- Turn away from the function at hand. -/
def leaveFunction (scopes : Scopes) : Scopes :=
  { scopes with locals := .empty, current := none }

end Scopes

end Lisplet

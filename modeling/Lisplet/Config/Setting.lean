/-!
# Settings

A tree of settings, as a user writes it, and how its parts are read. A setting that
means nothing is passed over, but only if every number in it can be stored.
-/

namespace Lisplet

/-- A tree of settings, as written by a user. -/
inductive Setting where
  | text (value : String)
  | integer (value : Int)
  | boolean (value : Bool)
  /-- A date, a time of day, or both. -/
  | moment
  /-- A value of a type that no setting has. -/
  | unsupported
  /-- A number that is too large to be stored. -/
  | overflow
  | list (items : List Setting)
  | table (entries : List (String × Setting))
deriving Repr

/-- What becomes of items of a list that stand for no field of a section. -/
inductive Surplus where
  | refused
  | ignored
deriving DecidableEq, Repr

namespace Setting

instance : Inhabited Setting := ⟨.unsupported⟩

mutual

/-- Whether a setting that means nothing can be passed over. Integers are stored in
128 bits, with or without a sign. -/
def isPassable : Setting → Bool
  | text _ => true
  | integer value => decide (-Int.pow 2 127 ≤ value ∧ value < Int.pow 2 128)
  | boolean _ => true
  | moment => true
  | unsupported => true
  | overflow => false
  | list items => arePassable items
  | table entries => havePassable entries

/-- Whether all items of a list can be passed over. -/
def arePassable : List Setting → Bool
  | [] => true
  | first :: others => first.isPassable && arePassable others

/-- Whether the values of all entries of a table can be passed over. -/
def havePassable : List (String × Setting) → Bool
  | [] => true
  | (_, first) :: others => first.isPassable && havePassable others

end

/-- Read a text. -/
def readText : Setting → Option String
  | text value => some value
  | _ => none

/-- Read a truth value. -/
def readBoolean : Setting → Option Bool
  | boolean value => some value
  | _ => none

/-- Read a count that fits in 64 bits. -/
def readCount : Setting → Option Nat
  | integer (.ofNat count) => if count < Nat.pow 2 64 then some count else none
  | _ => none

/-- The fields of a section with the given keys, in the order of the keys. A section
is a table, or a list of the first of its fields. A moment is a section that sets
none of them. -/
def fields (surplus : Surplus) (keys : List String) : Setting → Option (List (Option Setting))
  | table entries =>
    if havePassable (entries.filter fun entry => !keys.contains entry.1) then
      some (keys.map fun key => entries.lookup key)
    else
      none
  | list items =>
    if surplus = .ignored ∨ items.length ≤ keys.length then
      some ((List.range keys.length).map fun position => items[position]?)
    else
      none
  | moment => some (keys.map fun _ => none)
  | _ => none

/-- Read a field that may be left out. -/
def readField {α : Type} (read : Setting → Option α) (default : α) : Option Setting → Option α
  | none => some default
  | some setting => read setting

end Setting

end Lisplet

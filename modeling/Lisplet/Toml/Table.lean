import Lisplet.Config.Setting

/-!
# Tables of TOML

The tables of a file are filled line by line. It is kept how each of them came to be,
since that decides who may add to it: a table has at most one header, and dotted keys
only add to tables without one, which then get none.
-/

namespace Lisplet.Toml

/-- How a table came to be. -/
inductive Origin where
  /-- By a header of its own, or as the whole of a file. -/
  | header
  /-- By the header of a table within it. -/
  | implied
  /-- By a dotted key, or by a longer header before dotted keys added to it. -/
  | dotted
deriving DecidableEq, Repr

/-- What a name in a table stands for. -/
inductive Node where
  | value (setting : Setting)
  | table (origin : Origin) (entries : List (String × Node))
  /-- An array of tables, each with a header, to the last of which can be added. -/
  | tables (earlier : List (List (String × Node))) (last : List (String × Node))

/-- What the names in a table stand for. -/
abbrev Entries := List (String × Node)

mutual

/-- The setting that a node stands for. -/
def Node.setting : Node → Setting
  | .value setting => setting
  | .table _ entries => .table (Entries.settings entries)
  | .tables earlier last =>
    .list (Entries.rowSettings earlier ++ [.table (Entries.settings last)])

/-- The settings in a table. -/
def Entries.settings : List (String × Node) → List (String × Setting)
  | [] => []
  | (name, node) :: others => (name, node.setting) :: Entries.settings others

/-- The settings in the tables of an array. -/
def Entries.rowSettings : List (List (String × Node)) → List Setting
  | [] => []
  | first :: others => .table (Entries.settings first) :: Entries.rowSettings others

end

namespace Entries

/-- Let a name stand for a node. -/
def put (entries : Entries) (name : String) (node : Node) : Entries :=
  if (entries.lookup name).isSome then
    entries.map fun entry => if entry.1 == name then (name, node) else entry
  else
    entries ++ [(name, node)]

/-- Change the table that a path leads to, and how it came to be, out of a table of
the given origin. The tables on the way that are missing are made. Dotted keys lead
through no table that has a header. -/
def change (made : Origin) (edit : Origin → Entries → Option (Origin × Entries)) :
    List String → Origin → Entries → Option (Origin × Entries)
  | [], origin, entries => edit origin entries
  | name :: path, own, entries =>
    match entries.lookup name with
    | none =>
      (change made edit path made []).map fun (origin, below) =>
        (own, entries.put name (.table origin below))
    | some (.value _) => none
    | some (.table origin below) =>
      if made = .dotted ∧ origin = .header then none
      else
        (change made edit path origin below).map fun (origin, below) =>
          (own, entries.put name (.table origin below))
    | some (.tables earlier last) =>
      (change made edit path .header last).map fun (_, last) =>
        (own, entries.put name (.tables earlier last))

/-- Change the table that a path leads to out of a whole file or a table within
braces. -/
def changeFrom (entries : Entries) (made : Origin) (path : List String)
    (edit : Origin → Entries → Option (Origin × Entries)) : Option Entries :=
  (change made edit path .header entries).map Prod.snd

/-- Give a value to a name that has none, in the table that a path leads to. A path
is part of a dotted key, so it leads to a table without a header. -/
def assign (entries : Entries) (path : List String) (name : String) (setting : Setting) :
    Option Entries :=
  entries.changeFrom .dotted path fun origin entries =>
    let added := entries.put name (.value setting)
    if (entries.lookup name).isSome then none
    else if path.isEmpty then some (origin, added)
    else if origin = .header then none
    else some (.dotted, added)

/-- Start a table. One that was only implied is kept. -/
def startTable (entries : Entries) (path : List String) (name : String) : Option Entries :=
  entries.changeFrom .implied path fun origin entries =>
    match entries.lookup name with
    | none => some (origin, entries.put name (.table .header []))
    | some (.table .implied below) => some (origin, entries.put name (.table .header below))
    | some _ => none

/-- Start one more table of an array. -/
def startRow (entries : Entries) (path : List String) (name : String) : Option Entries :=
  entries.changeFrom .implied path fun origin entries =>
    match entries.lookup name with
    | none => some (origin, entries.put name (.tables [] []))
    | some (.tables earlier last) =>
      some (origin, entries.put name (.tables (earlier ++ [last]) []))
    | some _ => none

end Entries

end Lisplet.Toml

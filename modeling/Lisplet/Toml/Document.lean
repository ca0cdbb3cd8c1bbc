import Lisplet.Toml.Moment
import Lisplet.Toml.Number
import Lisplet.Toml.Table

/-!
# TOML files

A file has lines `key = value` and headers of tables, and comments. A value is a
string, a number, a truth value, a moment, an array, or a table within braces; arrays
and tables within braces may go over several lines and end in a comma.
-/

namespace Lisplet.Toml

/-- How deep values may nest, and how many parts a key may have. -/
def maxDepth : Nat := 80

/-- A key: the names on the way to a table, and a name in that table. -/
structure Key where
  path : List String
  name : String
deriving DecidableEq, Repr

/-- Whether a character may stand in a name without quotes. -/
def isBareKeyChar (char : Char) : Bool :=
  char.isAlphanum || char == '_' || char == '-'

/-- One part of a key. -/
def keyPart : Reader String := fun chars =>
  match shortString chars with
  | some (name, rest) => some (String.ofList name, rest)
  | none =>
    match chars.takeWhile isBareKeyChar with
    | [] => none
    | name => some (String.ofList name, chars.drop name.length)

/-- A key of at most so many parts, with the blanks around it. -/
def keyWithin : Nat → Reader Key
  | 0, _ => none
  | bound + 1, chars => do
    let (first, rest) ← keyPart (skipBlanks chars)
    match skipBlanks rest with
    | '.' :: rest => do
      let (key, rest) ← keyWithin bound rest
      some (⟨first :: key.path, key.name⟩, rest)
    | rest => some (⟨[], first⟩, rest)

/-- A key, with the blanks around it. -/
def key : Reader Key :=
  keyWithin maxDepth

/-- Whether a character ends a value without quotes. -/
def endsWord (char : Char) : Bool :=
  " \t\r\n#,=[]\x7b\x7d".toList.contains char

/-- The word at the start of a text. A date takes in the time of day after a single
blank. -/
def word (chars : List Char) : List Char × List Char :=
  let first := chars.takeWhile fun char => !endsWord char
  match isDate first, chars.drop first.length with
  | true, ' ' :: next :: rest =>
    if next.isDigit then
      let second := (next :: rest).takeWhile fun char => !endsWord char
      (first ++ ' ' :: second, (next :: rest).drop second.length)
    else
      (first, ' ' :: next :: rest)
  | _, rest => (first, rest)

/-- The setting that a word stands for. -/
def wordSetting? (word : List Char) : Option Setting :=
  if word = "true".toList then some (.boolean true)
  else if word = "false".toList then some (.boolean false)
  else if isMoment word then some .moment
  else if isSpecial word then some .unsupported
  else
    match integer? word, magnitude? word with
    | some value, _ => some (.integer value)
    | none, some magnitude => some (if magnitude.overflows then .overflow else .unsupported)
    | none, none => none

/-- A value that holds no others. -/
def scalar : Reader Setting := fun chars =>
  match chars with
  | '"' :: _ => (anyString chars).map fun (text, rest) => (.text (String.ofList text), rest)
  | '\'' :: _ => (anyString chars).map fun (text, rest) => (.text (String.ofList text), rest)
  | chars =>
    let (word, rest) := word chars
    (wordSetting? word).map fun setting => (setting, rest)

/-- The items of an array up to its closing bracket, each read by `item`. The second
argument bounds their number. -/
def arrayItems (item : Reader Setting) : Nat → Reader (List Setting)
  | 0, _ => none
  | bound + 1, chars =>
    match skipSpace chars with
    | ']' :: rest => some ([], rest)
    | chars => do
      let (first, rest) ← item chars
      match skipSpace rest with
      | ',' :: rest => do
        let (others, rest) ← arrayItems item bound rest
        some (first :: others, rest)
      | ']' :: rest => some ([first], rest)
      | _ => none

/-- A key, an equals sign, and a value, which is read by `item`. -/
def pair (item : Reader Setting) : Reader (Key × Setting) := fun chars => do
  let (key, rest) ← key chars
  let rest ← expect '=' rest
  let (setting, rest) ← item (skipBlanks rest)
  some ((key, setting), rest)

/-- The pairs of a table within braces up to the closing brace, added to the pairs
before them. The second argument bounds their number. -/
def braceEntries (item : Reader Setting) : Nat → Entries → Reader Entries
  | 0, _, _ => none
  | bound + 1, entries, chars =>
    match skipSpace chars with
    | '\x7d' :: rest => some (entries, rest)
    | chars => do
      let ((key, setting), rest) ← pair item chars
      let entries ← entries.assign key.path key.name setting
      match skipSpace rest with
      | ',' :: rest => braceEntries item bound entries rest
      | '\x7d' :: rest => some (entries, rest)
      | _ => none

/-- A value in which others nest at most so deep. -/
def value : Nat → Reader Setting
  | 0, '[' :: _ => none
  | 0, '\x7b' :: _ => none
  | 0, chars => scalar chars
  | depth + 1, '[' :: rest =>
    (arrayItems (value depth) (rest.length + 1) rest).map fun (items, rest) =>
      (.list items, rest)
  | depth + 1, '\x7b' :: rest =>
    (braceEntries (value depth) (rest.length + 1) [] rest).map fun (entries, rest) =>
      (.table (Entries.settings entries), rest)
  | _ + 1, chars => scalar chars

/-- What has been read of a file: the entries, and the path to the table that keys
go to. -/
structure Document where
  entries : Entries := []
  current : List String := []

namespace Document

/-- Start a table, or one more table of an array. -/
def header (document : Document) (key : Key) (isRow : Bool) : Option Document := do
  let entries ←
    if isRow then document.entries.startRow key.path key.name
    else document.entries.startTable key.path key.name
  some { entries, current := key.path ++ [key.name] }

/-- Add a value to the current table. -/
def assign (document : Document) (key : Key) (setting : Setting) : Option Document := do
  let entries ← document.entries.changeFrom .implied document.current fun origin entries =>
    (entries.assign key.path key.name setting).map fun entries => (origin, entries)
  some { document with entries }

/-- Read lines. The first argument bounds their number. -/
def lines : Nat → Document → List Char → Option Document
  | 0, _, _ => none
  | bound + 1, document, chars =>
    match skipSpace chars with
    | [] => some document
    | '[' :: '[' :: rest => do
      let (key, rest) ← key rest
      let rest ← expect ']' rest
      let rest ← expect ']' rest
      let rest ← endLine rest
      let document ← document.header key true
      lines bound document rest
    | '[' :: rest => do
      let (key, rest) ← key rest
      let rest ← expect ']' rest
      let rest ← endLine rest
      let document ← document.header key false
      lines bound document rest
    | chars => do
      let ((key, setting), rest) ← pair (value maxDepth) chars
      let rest ← endLine rest
      let document ← document.assign key setting
      lines bound document rest

end Document

/-- The text of a file without the mark of its encoding. -/
def withoutMark : List Char → List Char
  | '\uFEFF' :: rest => rest
  | chars => chars

/-- Read a file. -/
def parse? (source : String) : Option Setting :=
  let chars := withoutMark source.toList
  (Document.lines (chars.length + 1) {} chars).map fun document =>
    .table (Entries.settings document.entries)

end Lisplet.Toml

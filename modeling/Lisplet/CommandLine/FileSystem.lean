import Lisplet.Failure

/-!
# Files

The compiler reaches files and the standard output through four operations, given by
whoever runs it; reading, writing and printing may fail. A file tree in memory, with
the text printed so far, provides them as changes of its own state.
-/

namespace Lisplet

/-- The operations on files and on the standard output that a run needs. -/
structure FileSystem (m : Type → Type) where
  /-- Whether there is a file or a directory at a path. -/
  pathExists : String → m Bool
  /-- The text of the file at a path. -/
  read : String → m (Except FileError String)
  /-- Replace the text of the file at a path, or make that file. -/
  write : String → String → m (Except FileError Unit)
  /-- Add a text to the standard output. -/
  print : String → m (Except FileError Unit)

/-- Print texts one after another, up to the first that cannot be printed. -/
def FileSystem.printAll {m : Type → Type} [Monad m] (files : FileSystem m) :
    List String → m (Except FileError Unit)
  | [] => pure (.ok ())
  | text :: rest => do
    match ← files.print text with
    | .error error => pure (.error error)
    | .ok () => files.printAll rest

namespace Path

/-- The names on a path between its slashes. A single dot goes nowhere and is left
out. -/
def parts (path : String) : List String :=
  (path.splitOn "/").filter fun part => part != "" && part != "."

/-- The steps on a path: its names, and the dots that go nowhere and upwards. -/
def steps (path : String) : List String :=
  (path.splitOn "/").filter fun part => part != ""

/-- Whether a path starts at the root. -/
def isAbsolute (path : String) : Bool :=
  path.toList.head? == some '/'

/-- Whether a path ends in a slash, as only paths to directories may. -/
def endsInSlash (path : String) : Bool :=
  path.toList.getLast? == some '/'

/-- Whether a step is a name. -/
def isName (step : String) : Bool :=
  step != "." && step != ".."

/-- The most bytes that a name can have. -/
def maxNameSize : Nat := 255

/-- The most bytes that a path can have. -/
def maxSize : Nat := 4095

/-- The directory that a path leads through last. The root and the empty path
have none. -/
def parent? (path : String) : Option String :=
  let directory := String.intercalate "/" (parts path).dropLast
  if path.isEmpty then none
  else if isAbsolute path then
    if (parts path).isEmpty then none else some ("/" ++ directory)
  else
    some directory

/-- The path of a name in a directory. -/
def join (directory name : String) : String :=
  if directory.isEmpty || directory.endsWith "/" then directory ++ name
  else directory ++ "/" ++ name

end Path

/-- Files in memory, by the names on the paths that lead to them. Every path to a
file leads through directories. The tree stands in a directory of which only the
directories above are known. -/
structure FileTree where
  files : List (List String × ByteArray) := []

namespace FileTree

/-- What a path leads to. The path is kept as names, after a step upwards for each
directory above the tree, or a slash for the root. -/
inductive Place where
  | file (path : List String) (content : ByteArray)
  | directory (path : List String)
  | absent (path : List String)

/-- Whether a path leads to a directory above the tree. -/
def isAbove (path : List String) : Bool :=
  path == ["/"] || path.all fun step => step == ".."

/-- Whether there is a directory at a path: one above the tree, or one that leads to
a file. -/
def isDirectory (tree : FileTree) (path : List String) : Bool :=
  isAbove path || tree.files.any fun file => path.length < file.1.length && path.isPrefixOf file.1

/-- What the given names lead to. -/
def placeAt (tree : FileTree) (path : List String) : Place :=
  match tree.files.lookup path with
  | some content => .file path content
  | none => if tree.isDirectory path then .directory path else .absent path

/-- The directory above a directory. The root is above itself. -/
def above (path : List String) : List String :=
  if path == ["/"] then path
  else if isAbove path then path ++ [".."]
  else path.dropLast

/-- Take one more step. Only directories lead further. -/
def follow (tree : FileTree) (place : Place) (step : String) : Except FileError Place :=
  match place with
  | .file _ _ => .error .notDirectory
  | .absent _ => .error .notFound
  | .directory path =>
    if step = "." then .ok (.directory path)
    else if step = ".." then .ok (.directory (above path))
    else if Path.maxNameSize < step.utf8ByteSize then .error .nameTooLong
    else .ok (tree.placeAt (path ++ [step]))

/-- Where a path starts. -/
def start (path : String) : Place :=
  if Path.isAbsolute path then .directory ["/"] else .directory []

/-- The steps of a path that can be followed at all. -/
def stepsOf (path : String) : Except FileError (List String) :=
  if path.toList.contains '\x00' then .error .invalidPath
  else if path.isEmpty then .error .notFound
  else if Path.maxSize < path.utf8ByteSize then .error .nameTooLong
  else .ok (Path.steps path)

/-- What a path leads to. A path that ends in a slash leads to a directory. -/
def find (tree : FileTree) (path : String) : Except FileError Place := do
  let steps ← stepsOf path
  let place ← steps.foldlM tree.follow (start path)
  match place, Path.endsInSlash path with
  | .file _ _, true => .error .notDirectory
  | place, _ => .ok place

/-- The place for a file that is to be written. The directory that it stands in must
be there, and no file can be made by a path that ends in a slash. -/
def findForWriting (tree : FileTree) (path : String) : Except FileError Place := do
  let steps ← stepsOf path
  let directory ← steps.dropLast.foldlM tree.follow (start path)
  match steps.getLast? with
  | none => .ok directory
  | some last =>
    match directory with
    | .directory _ =>
      if Path.isName last && Path.endsInSlash path then .error .isDirectory
      else tree.follow directory last
    | directory => tree.follow directory last

/-- Whether a path leads to a file or a directory. -/
def pathExists (tree : FileTree) (path : String) : Bool :=
  match tree.find path with
  | .ok (.file _ _) => true
  | .ok (.directory _) => true
  | _ => false

/-- The text of the file that a path leads to. -/
def read (tree : FileTree) (path : String) : Except FileError String :=
  match tree.find path with
  | .error error => .error error
  | .ok (.absent _) => .error .notFound
  | .ok (.directory _) => .error .isDirectory
  | .ok (.file _ content) =>
    match String.fromUTF8? content with
    | some text => .ok text
    | none => .error .invalidText

/-- Put a file in place of the one at the same path. -/
def replace (tree : FileTree) (path : List String) (text : String) : FileTree :=
  ⟨tree.files.filter (fun file => file.1 != path) ++ [(path, text.toUTF8)]⟩

/-- Replace the text of the file that a path leads to, or make that file. -/
def write (tree : FileTree) (path text : String) : Except FileError FileTree :=
  match tree.findForWriting path with
  | .error error => .error error
  | .ok (.directory _) => .error .isDirectory
  | .ok (.absent target) => .ok (tree.replace target text)
  | .ok (.file target _) => .ok (tree.replace target text)

/-- Whether a path stays in the tree. -/
def isInside (path : List String) : Bool :=
  path.head? != some "/" && path.head? != some ".."

/-- The files of the tree that are new or different, compared with an earlier
state. -/
def changesSince (tree earlier : FileTree) : List (String × ByteArray) :=
  (tree.files.filter fun file => isInside file.1).filterMap fun file =>
    match earlier.files.lookup file.1 with
    | some content =>
      if content == file.2 then none else some (String.intercalate "/" file.1, file.2)
    | none => some (String.intercalate "/" file.1, file.2)

/-- Files in memory, and the text printed so far. -/
structure Session where
  tree : FileTree := {}
  printed : String := ""

/-- The operations on files in memory. All texts can be printed. -/
def fileSystem : FileSystem (StateM Session) where
  pathExists path := do
    let session ← get
    pure (session.tree.pathExists path)
  read path := do
    let session ← get
    pure (session.tree.read path)
  write path text := do
    let session ← get
    match session.tree.write path text with
    | .error error => pure (.error error)
    | .ok changed => do
      set { session with tree := changed }
      pure (.ok ())
  print text := do
    modify fun session => { session with printed := session.printed ++ text }
    pure (.ok ())

end FileTree

end Lisplet

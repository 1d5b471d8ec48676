import LambdaTutor.Text.Line

/-!
# Files as a run sees them

A run reads files and never writes them, so all it needs is a view: what stands at a path, or why
nothing can be found there. A view can be filled from a disk or from a `FileTree`, a directory
that is described by its entries.
-/

namespace LambdaTutor

/-- The reasons for which a file cannot be read as text. -/
inductive FileFault where
  | notFound
  | notADirectory
  | isADirectory
  | nameTooLong
  | nameWithNul
  | invalidText
  | other (message : String)
deriving DecidableEq, Repr

/-- The message of a file fault. -/
def FileFault.message : FileFault → String
  | .notFound => "No such file or directory (os error 2)"
  | .notADirectory => "Not a directory (os error 20)"
  | .isADirectory => "Is a directory (os error 21)"
  | .nameTooLong => "File name too long (os error 36)"
  | .nameWithNul => "file name contained an unexpected NUL byte"
  | .invalidText => "stream did not contain valid UTF-8"
  | .other message => message

/-- What stands at a path. -/
inductive FileNode where
  | file (bytes : List UInt8)
  | directory
deriving DecidableEq, Repr

/-- What a run finds at each path. -/
abbrev FileView := String → Except FileFault FileNode

namespace FileView

/-- Whether a directory stands at the path. -/
def isDirectory (view : FileView) (path : String) : Bool :=
  match view path with
  | .ok .directory => true
  | _ => false

/-- Whether a file stands at the path. -/
def isFile (view : FileView) (path : String) : Bool :=
  match view path with
  | .ok (.file _) => true
  | _ => false

/-- The text of the file at the path. -/
def readText (view : FileView) (path : String) : Except FileFault String := do
  match ← view path with
  | .directory => .error .isADirectory
  | .file bytes =>
    match decodeText? bytes with
    | some text => .ok text
    | none => .error .invalidText

end FileView

/-- The path of an entry of a directory. -/
def joinPath (directory entry : String) : String :=
  if directory.endsWith "/" then directory ++ entry else directory ++ "/" ++ entry

/-- The largest number of bytes in a name. -/
def maxNameBytes : Nat := 255

/-- The largest number of bytes in a path. -/
def maxPathBytes : Nat := 4095

/-- A working directory, given by what stands at the places in it. A place is a list of names below
the working directory, or a list that starts with `..` when it lies outside. A later entry hides an
earlier one of the same place. -/
structure FileTree where
  entries : List (List String × FileNode)
deriving Repr

namespace FileTree

/-- A working directory with nothing in it. -/
def empty : FileTree := ⟨[]⟩

/-- The steps of a path. A slash at the end asks for a directory, as a step to itself would. -/
def steps (path : String) : List String :=
  let names := (path.splitOn "/").filter (· ≠ "")
  if path.endsWith "/" then names ++ ["."] else names

/-- The place one step further. -/
def next (place : List String) (step : String) : List String :=
  if step = "." then place
  else if step = ".." ∧ place.getLast?.any (· ≠ "..") then place.dropLast
  else place ++ [step]

/-- The places from which the steps are taken. -/
def departures (place : List String) : List String → List (List String)
  | [] => []
  | step :: rest => place :: departures (next place step) rest

/-- Puts a node at a path and makes the directories that the path leads through. -/
def insert (tree : FileTree) (path : String) (node : FileNode) : FileTree :=
  ⟨((steps path).foldl next [], node) ::
    (departures [] (steps path)).map (·, .directory) ++ tree.entries⟩

/-- The node at a place. Of the outside only the directories above are known. -/
def nodeAt? (tree : FileTree) (place : List String) : Option FileNode :=
  if place.all (· = "..") then some .directory else tree.entries.lookup place

/-- Walks from a place. Every step has to start from a directory and to bear a name of admissible
length. -/
def walk (tree : FileTree) (place : List String) : List String → Except FileFault FileNode
  | [] => (tree.nodeAt? place).elim (.error .notFound) .ok
  | step :: rest =>
    match tree.nodeAt? place with
    | none => .error .notFound
    | some (.file _) => .error .notADirectory
    | some .directory =>
      if step.utf8ByteSize > maxNameBytes then .error .nameTooLong
      else tree.walk (next place step) rest

/-- The view of a tree from its working directory. No path that starts at the root of the file
system leads into the tree. -/
def view (tree : FileTree) : FileView := fun path =>
  if path.contains '\x00' then .error .nameWithNul
  else if path = "" then .error .notFound
  else if path.utf8ByteSize > maxPathBytes then .error .nameTooLong
  else tree.walk (if path.startsWith "/" then [".."] else []) (steps path)

end FileTree

end LambdaTutor

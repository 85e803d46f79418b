import FlowDiagram.Command.Path
import FlowDiagram.Failure

/-!
# Files

What the command does to files is said in terms of three operations (`FileOperations`), which can be those of a
machine or those of a `FileTree`: the files and directories below a root as a value. A path that does not start at the
root starts at the working directory, and the way up ends at the root.

A directory is made together with those above it (`FileOperations.makeDirectories`): the innermost is tried first, and
only where that finds the way missing, the next one out is made before it.
-/

namespace FlowDiagram

/-- What can be done with files, in some monad. -/
structure FileOperations (m : Type → Type) where
  /-- The text at a path. -/
  read : String → m (Except FileFault String)
  /-- Makes a directory in one that is there, if it is not there already. -/
  makeDirectory : String → m (Except FileFault Unit)
  /-- Puts a text at a path, in place of what was there. -/
  write : String → String → m (Except FileFault Unit)

/-- Makes a directory, given with those above it, the innermost first. -/
def FileOperations.makeDirectories {m : Type → Type} [Monad m] (files : FileOperations m) :
    List String → m (Except FileFault Unit)
  | [] => return .ok ()
  | directory :: above => do
    match ← files.makeDirectory directory with
    | .error .missing =>
      match ← files.makeDirectories above with
      | .ok () => files.makeDirectory directory
      | .error e => return .error e
    | result => return result

/-- Files and directories by their paths from the root. A directory that holds something need not be listed. -/
structure FileTree where
  files : List (List String × ByteArray)
  directories : List (List String) := []
  workingDirectory : List String := []

namespace FileTree

/-- The content of a file. -/
def file? (t : FileTree) (path : List String) : Option ByteArray :=
  t.files.lookup path

/-- Whether a directory is at a path: it was made, or holds something. -/
def isDirectory (t : FileTree) (path : List String) : Bool :=
  path.isEmpty || t.directories.any (path.isPrefixOf ·) ||
    t.files.any fun f => path.isPrefixOf f.1 && path != f.1

/-- What a path leads to. -/
inductive Spot where
  | directory (path : List String)
  | file (path : List String) (content : ByteArray)
  /-- Nothing, in a directory that is there. -/
  | vacant (path : List String)

/-- The most bytes that a name has. -/
def maxNameSize : Nat := 255

/-- The most bytes that a path has. -/
def maxPathSize : Nat := 4095

/-- Follows one segment from a directory. -/
def step (t : FileTree) (base : List String) (segment : String) : Except FileFault Spot :=
  if Path.isFiller segment then .ok (.directory base)
  else if segment == ".." then .ok (.directory base.dropLast)
  else if maxNameSize < segment.utf8ByteSize then .error .nameTooLong
  else
    let path := base ++ [segment]
    match t.file? path with
    | some content => .ok (.file path content)
    | none => .ok (if t.isDirectory path then .directory path else .vacant path)

/-- Follows segments from a directory. Nothing follows a file, not even a segment that stands for nothing. -/
def follow (t : FileTree) (base : List String) : List String → Except FileFault Spot
  | [] => .ok (.directory base)
  | s :: r => do
    match ← t.step base s with
    | .directory path => t.follow path r
    | .file path content => if r.isEmpty then .ok (.file path content) else .error .notDirectory
    | .vacant path => if r.isEmpty then .ok (.vacant path) else .error .missing

/-- The directory that a path starts from, and its segments from there. The empty path leads nowhere. -/
def route (t : FileTree) (path : String) : Except FileFault (List String × List String) :=
  if path.isEmpty then .error .missing
  else if maxPathSize < path.utf8ByteSize then .error .nameTooLong
  else match Path.segments path with
  | "" :: r => .ok ([], r)
  | segments => .ok (t.workingDirectory, segments)

/-- Reads a file as text. -/
def read (t : FileTree) (path : String) : Except FileFault String := do
  let (base, segments) ← t.route path
  match ← t.follow base segments with
  | .directory _ => .error .isDirectory
  | .vacant _ => .error .missing
  | .file _ content =>
    match String.fromUTF8? content with
    | some s => .ok s
    | none => .error .notText

/-- Makes a directory in one that is there, if it is not there already. -/
def makeDirectory (t : FileTree) (path : String) : Except FileFault FileTree := do
  let (base, segments) ← t.route path
  match ← t.follow base (Text.dropEnd String.isEmpty segments) with
  | .directory _ => .ok t
  | .vacant p => .ok { t with directories := p :: t.directories }
  | .file _ _ => .error .occupied

/-- Puts bytes at a path, in place of what was there. A name with slashes after it is that of a directory, whatever is
there. -/
def write (t : FileTree) (path : String) (content : ByteArray) : Except FileFault FileTree := do
  let (base, segments) ← t.route path
  let named := Text.dropEnd String.isEmpty segments
  if named != segments && named.getLast?.any Path.isName then
    let _ ← t.follow base (named.dropLast ++ [""])
    .error .isDirectory
  else match ← t.follow base segments with
  | .directory _ => .error .isDirectory
  | .vacant p => .ok { t with files := t.files ++ [(p, content)] }
  | .file p _ => .ok { t with files := t.files.map fun f => if f.1 == p then (p, content) else f }

/-- Takes over the tree that an operation leaves, if the operation succeeds. -/
def commit (operation : FileTree → Except FileFault FileTree) : StateM FileTree (Except FileFault Unit) :=
  fun t => match operation t with
    | .ok t' => (.ok (), t')
    | .error e => (.error e, t)

/-- The operations on a file tree that is kept as a state. -/
def operations : FileOperations (StateM FileTree) where
  read path := fun t => (t.read path, t)
  makeDirectory path := commit (·.makeDirectory path)
  write path text := commit (·.write path text.toUTF8)

/-- The tree with a file at a path, and the directories that it needs. Where something is in the way, the tree stays
without the file. -/
def place (t : FileTree) (path : String) (content : ByteArray) : FileTree :=
  let (_, t) := (operations.makeDirectories (Path.enclosing path)).run t
  ((commit (·.write path content)).run t).2

/-- The files in the working directory and below, by their paths from there. -/
def workingFiles (t : FileTree) : List (List String × ByteArray) :=
  (t.files.filter (t.workingDirectory.isPrefixOf ·.1)).map fun f => (f.1.drop t.workingDirectory.length, f.2)

end FileTree

end FlowDiagram

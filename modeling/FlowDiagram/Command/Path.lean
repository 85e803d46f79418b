import FlowDiagram.Text.Blank

/-!
# Paths

A path is a text cut into segments by slashes. Empty segments and single dots stand for nothing, except that a leading
one is kept as it is. What is asked of a path here is the directories that it goes through (`Path.enclosing`), the name
of what it leads to (`Path.fileName?`), and what a flow in such a file is called (`Path.flowName`).
-/

namespace FlowDiagram.Path

/-- The pieces of a text between separators. -/
def split (separator : Char) : List Char → List (List Char)
  | [] => [[]]
  | c :: r =>
    if c == separator then [] :: split separator r
    else match split separator r with
    | [] => [[c]]
    | p :: ps => (c :: p) :: ps

/-- The segments of a path. -/
def segments (path : String) : List String :=
  (split '/' path.toList).map String.ofList

/-- A segment that stands for nothing. -/
def isFiller (segment : String) : Bool :=
  segment.isEmpty || segment == "."

/-- Segments without those at the end that stand for nothing. The first one stays. -/
def settle : List String → List String
  | [] => []
  | s :: r => s :: Text.dropEnd isFiller r

/-- Segments as a path. A single empty one is the root directory. -/
def join (segments : List String) : String :=
  if segments == [""] then "/" else "/".intercalate segments

/-- The paths to each segment that stands for something, the last one first. The segments after the first are given in
reverse. -/
def stations (first : String) : List String → List String
  | [] => [join [first]]
  | s :: r =>
    if isFiller s then stations first r
    else join (first :: (s :: r).reverse) :: stations first r

/-- The directories that a path goes through to what it leads to, the innermost first. -/
def enclosing (path : String) : List String :=
  match segments path with
  | [] => []
  | s :: r => (stations s r.reverse).drop 1

/-- Whether a segment is the name of something in a directory. -/
def isName (segment : String) : Bool :=
  !isFiller segment && segment != ".."

/-- The name of what is at a path. -/
def fileName? (path : String) : Option String :=
  (settle (segments path)).getLast?.filter isName

/-- A file name without its last extension. A dot at the start of a name starts no extension. -/
def stem (name : List Char) : List Char :=
  match (name.reverse.dropWhile (· != '.')).drop 1 with
  | [] => name
  | r => r.reverse

/-- A text without an ending, if it has that ending. -/
def dropEnding? (ending s : List Char) : Option (List Char) :=
  if ending.isSuffixOf s then some (s.take (s.length - ending.length)) else none

/-- What a flow is called that is read from a path: the name of the file without extension and without what marks it as
a flow. -/
def flowName (path : String) : String :=
  match fileName? path with
  | none => "Flow"
  | some name =>
    let s := stem name.toList
    String.ofList
      ((dropEnding? ".flow-meta".toList s <|> dropEnding? ".flow".toList s).getD s)

end FlowDiagram.Path

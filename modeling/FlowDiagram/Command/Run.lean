import FlowDiagram.Command.Arguments
import FlowDiagram.Command.FileTree

/-!
# The command

`Command.run` reads a document from a file, compiles it and prints what was asked for, or writes it to a file. It fails
before it has changed anything but for directories, and prints nothing then.
-/

namespace FlowDiagram.Command

/-- How a run ends. -/
inductive Outcome where
  /-- The arguments make no sense. -/
  | rejected
  /-- Only information on the command was asked for. -/
  | help
  | version
  /-- Nothing came out, for this reason. -/
  | failed (message : String)
  /-- This was printed. -/
  | printed (text : String)
  /-- The output went to a file. -/
  | written
  deriving DecidableEq, Repr

namespace Outcome

/-- The exit code of a run. -/
def exitCode : Outcome → Nat
  | rejected => 2
  | failed _ => 1
  | _ => 0

/-- What a run prints. -/
def output : Outcome → String
  | printed text => text
  | _ => ""

/-- Why a run failed. -/
def error? : Outcome → Option String
  | failed message => some message
  | _ => none

end Outcome

/-- What the text of a document comes to under the arguments of the command. -/
def produce (a : Arguments) (text : String) : Logged (Except Failure String) := do
  let name := a.name.getD (Path.flowName a.path)
  match ← compileDocument { name := some name, faults := a.options.faults } text with
  | .error e => return .error e
  | .ok flow =>
    let rendered ← flow.render a.format a.options
    return .ok rendered

/-- Makes the directories that a path needs, or says why that failed. -/
def prepare {m : Type → Type} [Monad m] (files : FileOperations m) (path : String) : m (Option String) := do
  match Path.enclosing path with
  | [] => return none
  | directory :: above =>
    match ← files.makeDirectories (directory :: above) with
    | .ok () => return none
    | .error e => return some ("Could not create directory '" ++ directory ++ "': " ++ e.message)

/-- Puts a text where the arguments say. -/
def deliver {m : Type → Type} [Monad m] (files : FileOperations m) (output : Option String) (text : String) :
    m Outcome := do
  match output with
  | none => return .printed text
  | some path =>
    match ← prepare files path with
    | some message => return .failed message
    | none =>
      match ← files.write path text with
      | .ok () => return .written
      | .error e => return .failed ("Could not write '" ++ path ++ "': " ++ e.message)

/-- The notices that are shown: warnings always, details only when more is asked for. -/
def shown (verbosity : Nat) (notices : List Notice) : List Notice :=
  notices.filter fun n => n.level == .warning || 0 < verbosity

/-- Does what the arguments say. -/
def perform {m : Type → Type} [Monad m] (files : FileOperations m) (a : Arguments) : m (Logged Outcome) := do
  match ← files.read a.path with
  | .error e => return pure (.failed (Failure.unreadable a.path e).message)
  | .ok text =>
    let produced := produce a text
    let notices := shown a.verbosity produced.notices
    match produced.value with
    | .error e => return ⟨notices, .failed e.message⟩
    | .ok rendered =>
      let outcome ← deliver files a.output rendered
      return ⟨notices, outcome⟩

/-- Runs the command. -/
def run {m : Type → Type} [Monad m] (files : FileOperations m) (arguments : List String) : m (Logged Outcome) :=
  match Arguments.parse arguments with
  | .error .rejected => return pure .rejected
  | .error .help => return pure .help
  | .error .version => return pure .version
  | .ok a => perform files a

end FlowDiagram.Command

import FlowDiagram.Command.Run

/-!
# The program

The command on the files of the machine: its arguments come from the shell, its output goes to standard output, and
notices and errors go to standard error.
-/

namespace FlowDiagram

/-- Why the machine refused something. -/
def FileFault.ofError : IO.Error → FileFault
  | .noFileOrDirectory .. => .missing
  | .alreadyExists .. => .occupied
  | .inappropriateType _ 20 _ => .notDirectory
  | .inappropriateType .. => .isDirectory
  | .invalidArgument _ 36 _ => .nameTooLong
  | _ => .missing

/-- The result of an action that the machine may refuse. -/
def attempt {α : Type} (action : IO α) : IO (Except FileFault α) := do
  try
    return .ok (← action)
  catch e =>
    return .error (.ofError e)

/-- Makes a directory in one that is there. Where something is there already, making all of the way to it succeeds just
if that is a directory. -/
def makeMachineDirectory (path : String) : IO (Except FileFault Unit) := do
  match ← attempt (IO.FS.createDir path) with
  | .error .occupied =>
    match ← attempt (IO.FS.createDirAll path) with
    | .ok () => return .ok ()
    | .error _ => return .error .occupied
  | result => return result

/-- The files of the machine. -/
def machineFiles : FileOperations IO where
  read path := do
    match ← attempt (IO.FS.readBinFile path) with
    | .error e => return .error e
    | .ok bytes =>
      match String.fromUTF8? bytes with
      | some s => return .ok s
      | none => return .error .notText
  makeDirectory := makeMachineDirectory
  write path text := attempt (IO.FS.writeFile path text)

/-- How the command is used. -/
def usage : String :=
  "Usage: flow-diagram [OPTIONS] <FLOW_PATH>\n\n" ++
  "Options:\n" ++
  "  -f, --format <FORMAT>    mermaid (the default), markdown or json\n" ++
  "  -o, --output <OUTPUT>    write the result to this file\n" ++
  "      --no-labels          show names inside nodes instead of labels\n" ++
  "      --show-fault-paths   include fault paths, drawn as dotted edges\n" ++
  "      --name <NAME>        name of the flow; the file name is the default\n" ++
  "  -v, --verbose            say more\n" ++
  "  -h, --help               print this text\n" ++
  "  -V, --version            print the version\n"

/-- A level as it is printed. -/
def Level.name : Level → String
  | warning => "WARN"
  | detail => "DEBUG"

/-- The value of a field as it is printed. -/
def NoticeField.display : NoticeField → String
  | text s => s
  | number n => toString n
  | flag b => toString b

/-- A notice as it is printed. -/
def Notice.line (n : Notice) : String :=
  " ".intercalate (n.level.name :: n.message :: n.fields.map fun f => f.1 ++ "=" ++ f.2.display)

end FlowDiagram

open FlowDiagram in
def main (arguments : List String) : IO UInt32 := do
  let ⟨notices, outcome⟩ ← Command.run machineFiles arguments
  for n in notices do
    IO.eprintln n.line
  match outcome with
  | .rejected => IO.eprint usage
  | .help => IO.print usage
  | .version => IO.println "flow-diagram 0.1.0"
  | .failed message => IO.eprintln ("\nError: " ++ message)
  | .printed text => IO.print text
  | .written => pure ()
  return outcome.exitCode.toUInt32

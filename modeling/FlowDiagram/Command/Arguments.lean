import FlowDiagram.Output

/-!
# Arguments of the command

What can be asked for on the command line (`Arguments`), and how it is read from the arguments, one at a time
(`Arguments.parse`). A value of an option stands in the argument after it or is attached to it; an argument that
starts with a dash is never the value of the option before it, and after two dashes alone every argument is a path.
Every option but the one for verbosity is given once at most.
-/

namespace FlowDiagram

/-- What is asked for. -/
structure Arguments where
  path : String
  format : OutputFormat
  output : Option String
  options : DrawOptions
  name : Option String
  verbosity : Nat
  deriving DecidableEq, Repr

namespace Arguments

/-- The options that take a value. -/
inductive Setting where
  | format
  | output
  | name
  deriving DecidableEq, Repr

/-- Why reading stops before the end: the arguments make no sense, or only information is asked for. -/
inductive Stop where
  | rejected
  | help
  | version
  deriving DecidableEq, Repr

/-- What was read so far. -/
structure Draft where
  path : Option String := none
  format : Option OutputFormat := none
  output : Option String := none
  noLabels : Bool := false
  faults : Bool := false
  name : Option String := none
  verbosity : Nat := 0
  /-- The option whose value has to come next. -/
  awaited : Option Setting := none
  /-- Whether all that follows are paths. -/
  onlyPaths : Bool := false
  deriving DecidableEq, Repr

namespace Draft

/-- Sets the path. There is one, and it is not empty. -/
def setPath (d : Draft) (path : String) : Except Stop Draft :=
  if d.path.isSome || path.isEmpty then .error .rejected
  else .ok { d with path := some path }

/-- Gives an option its value. -/
def set (d : Draft) (s : Setting) (value : String) : Except Stop Draft :=
  let d := { d with awaited := none }
  match s with
  | .format =>
    match d.format, OutputFormat.ofName? value with
    | none, some f => .ok { d with format := some f }
    | _, _ => .error .rejected
  | .output =>
    if d.output.isSome || value.isEmpty then .error .rejected
    else .ok { d with output := some value }
  | .name =>
    if d.name.isSome then .error .rejected
    else .ok { d with name := some value }

/-- Takes in an option whose value is attached to it or comes next. -/
def setting (d : Draft) (s : Setting) : Option String → Except Stop Draft
  | some value => d.set s value
  | none => .ok { d with awaited := some s }

/-- Takes in an option by its long name. -/
def long (d : Draft) (option : String) (value : Option String) : Except Stop Draft :=
  match option, value with
  | "format", v => d.setting .format v
  | "output", v => d.setting .output v
  | "name", v => d.setting .name v
  | "no-labels", none => if d.noLabels then .error .rejected else .ok { d with noLabels := true }
  | "show-fault-paths", none => if d.faults then .error .rejected else .ok { d with faults := true }
  | "verbose", none => .ok { d with verbosity := d.verbosity + 1 }
  | "help", none => .error .help
  | "version", none => .error .version
  | _, _ => .error .rejected

/-- The value attached to a short option: what follows it, less an equals sign. -/
def attached : List Char → Option String
  | [] => none
  | '=' :: r => some (String.ofList r)
  | r => some (String.ofList r)

/-- Takes in short options that are written together. The first that takes a value takes the rest as its value. -/
def short (d : Draft) : List Char → Except Stop Draft
  | [] => .ok d
  | 'v' :: r => { d with verbosity := d.verbosity + 1 }.short r
  | 'h' :: _ => .error .help
  | 'V' :: _ => .error .version
  | 'f' :: r => d.setting .format (attached r)
  | 'o' :: r => d.setting .output (attached r)
  | _ => .error .rejected

/-- Takes in an argument. -/
def take (d : Draft) (argument : String) : Except Stop Draft :=
  if d.onlyPaths then
    if d.awaited.isSome then .error .rejected else d.setPath argument
  else match argument.toList with
  | ['-', '-'] => .ok { d with onlyPaths := true }
  | '-' :: '-' :: body =>
    if d.awaited.isSome then .error .rejected
    else d.long (String.ofList (body.takeWhile (· != '=')))
      (match body.dropWhile (· != '=') with
        | [] => none
        | _ :: value => some (String.ofList value))
  | '-' :: c :: r => if d.awaited.isSome then .error .rejected else d.short (c :: r)
  | _ =>
    match d.awaited with
    | some s => d.set s argument
    | none => d.setPath argument

/-- What is asked for in the end. -/
def finish (d : Draft) : Except Stop Arguments :=
  match d.path, d.awaited with
  | some path, none =>
    .ok
      { path
        format := d.format.getD .standard
        output := d.output
        options := { labels := !d.noLabels, faults := d.faults }
        name := d.name
        verbosity := d.verbosity }
  | _, _ => .error .rejected

end Draft

/-- Reads the arguments of the command. -/
def parse (arguments : List String) : Except Stop Arguments := do
  let d ← arguments.foldlM Draft.take {}
  d.finish

end Arguments

end FlowDiagram

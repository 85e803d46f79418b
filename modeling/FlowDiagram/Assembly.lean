import FlowDiagram.Failure
import FlowDiagram.Graph.Completion

/-!
# From entries to a flow

Whatever a flow is written in, it is taken apart into entries (`Entry`): its header, its variables and its elements,
one by one. An `Assembly` takes them in and collects the connectors of each element at once, so the connectors stand
in the order in which their elements were added, and those of an element stay when a later one takes its place.
`build` assembles entries and completes the flow; `compile` does so for a source that may be refused in the end.
-/

namespace FlowDiagram

/-- A part of a flow, as a source hands it over. -/
inductive Entry where
  | header (h : Header)
  | var (v : Variable)
  | element (e : Element)
  /-- A variable that has to be left out. -/
  | namelessVariable
  /-- An element that has to be left out. -/
  | namelessElement (kind : Kind)
  deriving DecidableEq, Repr

/-- Everything that a source hands over, and why it is refused, if it is. -/
structure Source where
  entries : List Entry
  refusal : Option String := none
  deriving DecidableEq, Repr

/-- A flow that is being put together. -/
structure Assembly where
  /-- Whether the transitions taken on faults are kept. -/
  faults : Bool
  header : Header := {}
  elements : OrderedMap String Element := .empty
  vars : List Variable := []
  connectors : List Connector := []

namespace Assembly

/-- Adds an element and its connectors. An element of the same name loses its place to it. -/
def addElement (a : Assembly) (e : Element) : Logged Assembly := do
  if a.elements.contains e.name then
    Logged.tell (.redeclared e.name)
  return { a with
    elements := a.elements.insert e.name e
    connectors := a.connectors ++ e.connectors a.faults }

/-- Adds a variable. -/
def addVariable (a : Assembly) (v : Variable) : Assembly :=
  { a with vars := a.vars ++ [v] }

/-- Sets the header, all of it. -/
def setHeader (a : Assembly) (h : Header) : Assembly :=
  { a with header := h }

/-- Takes in an entry. -/
def take (a : Assembly) : Entry → Logged Assembly
  | .header h => pure (a.setHeader h)
  | .var v => pure (a.addVariable v)
  | .element e => a.addElement e
  | .namelessVariable => do
    Logged.tell .unnamedVariable
    return a
  | .namelessElement kind => do
    Logged.tell (.unnamedElement kind)
    return a

/-- Takes in entries in order. -/
def takeAll (a : Assembly) (entries : List Entry) : Logged Assembly :=
  entries.foldlM take a

/-- The name of a flow about which nothing is known, and the type of process of one that does not say. -/
def unknown : String := "Flow"

/-- The flow that was put together. It is called by the name given, else by its label. -/
def finish (a : Assembly) (name : Option String) : Flow :=
  let name := name.getD (a.header.label.getD unknown)
  { name
    label := a.header.label.getD name
    description := a.header.description
    processType := a.header.processType.getD unknown
    status := a.header.status
    elements := a.elements
    connectors := a.connectors
    vars := a.vars }

end Assembly

/-- What is decided about a flow outside of its source. -/
structure BuildOptions where
  name : Option String := none
  faults : Bool := false
  deriving DecidableEq, Repr

/-- The complete flow made of entries. -/
def build (o : BuildOptions) (entries : List Entry) : Logged Flow := do
  let a ← ({ faults := o.faults } : Assembly).takeAll entries
  Logged.tell (.assembled a.elements.size a.connectors.length)
  let (flow, report) ← (a.finish o.name).complete
  Logged.tell (.completed flow.name report.endAdded report.terminalEdges report.redirected)
  return flow

/-- The complete flow of a source, unless the source is refused. -/
def compile (o : BuildOptions) (s : Source) : Logged (Except Failure Flow) :=
  match s.refusal with
  | none => do
    let flow ← build o s.entries
    return .ok flow
  | some reason => do
    let _ ← ({ faults := o.faults } : Assembly).takeAll s.entries
    return .error (.invalid reason)

end FlowDiagram

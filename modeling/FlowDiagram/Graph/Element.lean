/-!
# Elements of a flow

A flow is made of elements: steps of twenty kinds, each with the transitions that leave it. An element may carry the
transition fields of any kind; none of them is required, and an element without any ends the flow where it stands.
-/

namespace FlowDiagram

/-- The kinds of elements. -/
inductive Kind where
  | start
  | decision
  | screen
  | recordCreate
  | recordUpdate
  | recordDelete
  | recordLookup
  | recordRollback
  | assignment
  | loop
  | subflow
  | action
  | apex
  | collection
  | wait
  | customError
  | transform
  | orchestratedStage
  | step
  | finish
  deriving DecidableEq, Repr

/-- All kinds, in the order in which they are listed to users. -/
def Kind.all : List Kind :=
  [.start, .decision, .screen, .recordCreate, .recordUpdate, .recordDelete, .recordLookup, .recordRollback, .assignment,
    .loop, .subflow, .action, .apex, .collection, .wait, .customError, .transform, .orchestratedStage, .step, .finish]

/-- The name of a kind. -/
def Kind.name : Kind → String
  | .start => "start"
  | .decision => "decision"
  | .screen => "screen"
  | .recordCreate => "recordCreate"
  | .recordUpdate => "recordUpdate"
  | .recordDelete => "recordDelete"
  | .recordLookup => "recordLookup"
  | .recordRollback => "recordRollback"
  | .assignment => "assignment"
  | .loop => "loop"
  | .subflow => "subflow"
  | .action => "action"
  | .apex => "apex"
  | .collection => "collection"
  | .wait => "wait"
  | .customError => "customError"
  | .transform => "transform"
  | .orchestratedStage => "orchestratedStage"
  | .step => "step"
  | .finish => "end"

/-- The list of all kinds leaves none out. -/
theorem Kind.mem_all (k : Kind) : k ∈ Kind.all := by
  cases k <;> decide

/-- The kind of a name. -/
def Kind.ofName? (name : String) : Option Kind :=
  Kind.all.find? (·.name == name)

/-- A comparison inside a rule or a wait event. -/
structure Condition where
  left : Option String
  operator : Option String
  right : Option String
  deriving DecidableEq, Repr

/-- A branch of a decision. -/
structure Rule where
  name : String
  label : Option String
  logic : Option String
  conditions : List Condition
  target : Option String
  deriving DecidableEq, Repr

/-- A path on which a wait resumes. -/
structure WaitEvent where
  name : String
  label : Option String
  eventType : Option String
  logic : Option String
  conditions : List Condition
  target : Option String
  deriving DecidableEq, Repr

/-- A path that is entered at a time relative to some date. -/
structure ScheduledPath where
  name : String
  label : Option String
  offset : Option Int
  offsetUnit : Option String
  timeSource : Option String
  pathType : Option String
  target : Option String
  deriving DecidableEq, Repr

/-- What a rule is called on the edge that it becomes. -/
def Rule.title (r : Rule) : String :=
  r.label.getD r.name

/-- What a wait event is called on the edge that it becomes. -/
def WaitEvent.title (w : WaitEvent) : String :=
  w.label.getD w.name

/-- What a scheduled path is called on the edge that it becomes. -/
def ScheduledPath.title (p : ScheduledPath) : String :=
  p.label.getD p.name

/-- What makes a flow run. -/
structure Trigger where
  triggerType : Option String
  object : Option String
  recordTriggerType : Option String
  deriving DecidableEq, Repr

/-- An element. Transitions are given by the names of their targets. -/
structure Element where
  name : String
  kind : Kind
  label : Option String := none
  description : Option String := none
  next : Option String := none
  onFault : Option String := none
  byDefault : Option String := none
  defaultLabel : Option String := none
  rules : List Rule := []
  waitEvents : List WaitEvent := []
  eachItem : Option String := none
  afterLast : Option String := none
  scheduledPaths : List ScheduledPath := []
  trigger : Option Trigger := none
  deriving DecidableEq, Repr

/-- What an element is called in a diagram: its label, or its name if it has none. -/
def Element.title (e : Element) : String :=
  e.label.getD e.name

end FlowDiagram

import FlowDiagram.Graph.Element

/-!
# Flow documents

A flow is written down as a document of blocks (`Document`). The blocks hold what the document says, word for word: a
text that is missing is told apart from one that is empty, and nothing is trimmed. A block that makes a step stands
under one of eighteen tags (`StepTag`), and all these tags share one form (`StepBlock`).
-/

namespace FlowDiagram

/-- The tags of the blocks that make steps, in the order in which their blocks are taken. -/
inductive StepTag where
  | decisions
  | screens
  | recordCreates
  | recordUpdates
  | recordDeletes
  | recordLookups
  | recordRollbacks
  | assignments
  | loops
  | subflows
  | actionCalls
  | apexPluginCalls
  | collectionProcessors
  | waits
  | customErrors
  | transforms
  | orchestratedStages
  | steps
  deriving DecidableEq, Repr

namespace StepTag

/-- All tags, in the order in which their blocks are taken. -/
def all : List StepTag :=
  [decisions, screens, recordCreates, recordUpdates, recordDeletes, recordLookups, recordRollbacks, assignments, loops,
    subflows, actionCalls, apexPluginCalls, collectionProcessors, waits, customErrors, transforms, orchestratedStages,
    steps]

/-- A tag as it is written. -/
def name : StepTag → String
  | decisions => "decisions"
  | screens => "screens"
  | recordCreates => "recordCreates"
  | recordUpdates => "recordUpdates"
  | recordDeletes => "recordDeletes"
  | recordLookups => "recordLookups"
  | recordRollbacks => "recordRollbacks"
  | assignments => "assignments"
  | loops => "loops"
  | subflows => "subflows"
  | actionCalls => "actionCalls"
  | apexPluginCalls => "apexPluginCalls"
  | collectionProcessors => "collectionProcessors"
  | waits => "waits"
  | customErrors => "customErrors"
  | transforms => "transforms"
  | orchestratedStages => "orchestratedStages"
  | steps => "steps"

/-- The kind of element that a block under a tag makes. -/
def kind : StepTag → Kind
  | decisions => .decision
  | screens => .screen
  | recordCreates => .recordCreate
  | recordUpdates => .recordUpdate
  | recordDeletes => .recordDelete
  | recordLookups => .recordLookup
  | recordRollbacks => .recordRollback
  | assignments => .assignment
  | loops => .loop
  | subflows => .subflow
  | actionCalls => .action
  | apexPluginCalls => .apex
  | collectionProcessors => .collection
  | waits => .wait
  | customErrors => .customError
  | transforms => .transform
  | orchestratedStages => .orchestratedStage
  | steps => .step

/-- The list of all tags leaves none out. -/
theorem mem_all (t : StepTag) : t ∈ all := by
  cases t <;> decide

/-- The tag whose blocks make elements of a kind, if there is one. -/
def ofKind? (k : Kind) : Option StepTag :=
  all.find? (·.kind == k)

end StepTag

/-- Where a transition leads. -/
structure Jump where
  target : Option String := none
  deriving DecidableEq, Repr

/-- A value written in one of six ways. -/
structure Literal where
  string : Option String := none
  number : Option String := none
  boolean : Option String := none
  date : Option String := none
  dateTime : Option String := none
  reference : Option String := none
  deriving DecidableEq, Repr

/-- The first way in which a value is written, references before all others and dates last. -/
def Literal.display (l : Literal) : Option String :=
  l.reference <|> l.string <|> l.number <|> l.boolean <|> l.dateTime <|> l.date

/-- A comparison. -/
structure ConditionBlock where
  left : Option String := none
  operator : Option String := none
  right : Option Literal := none
  deriving DecidableEq, Repr

/-- A branch. -/
structure RuleBlock where
  name : Option String := none
  label : Option String := none
  logic : Option String := none
  conditions : List ConditionBlock := []
  connector : Option Jump := none
  deriving DecidableEq, Repr

/-- A path on which a wait resumes. -/
structure WaitBlock where
  name : Option String := none
  label : Option String := none
  eventType : Option String := none
  logic : Option String := none
  conditions : List ConditionBlock := []
  connector : Option Jump := none
  deriving DecidableEq, Repr

/-- A path that is entered at a time. -/
structure PathBlock where
  name : Option String := none
  label : Option String := none
  offset : Option Int := none
  offsetUnit : Option String := none
  timeSource : Option String := none
  pathType : Option String := none
  connector : Option Jump := none
  deriving DecidableEq, Repr

/-- Where the flow starts, and what makes it run. -/
structure StartBlock where
  connector : Option Jump := none
  scheduledPaths : List PathBlock := []
  triggerType : Option String := none
  object : Option String := none
  recordTriggerType : Option String := none
  deriving DecidableEq, Repr

/-- A step. Fields that make no sense under its tag are kept all the same. -/
structure StepBlock where
  name : Option String := none
  label : Option String := none
  description : Option String := none
  next : Option Jump := none
  onFault : Option Jump := none
  byDefault : Option Jump := none
  defaultLabel : Option String := none
  rules : List RuleBlock := []
  waitEvents : List WaitBlock := []
  eachItem : Option Jump := none
  afterLast : Option Jump := none
  deriving DecidableEq, Repr

/-- A variable. -/
structure VariableBlock where
  name : Option String := none
  dataType : Option String := none
  objectType : Option String := none
  description : Option String := none
  isInput : Bool := false
  isOutput : Bool := false
  isCollection : Bool := false
  deriving DecidableEq, Repr

/-- A flow document. -/
structure Document where
  label : Option String := none
  description : Option String := none
  processType : Option String := none
  status : Option String := none
  start : Option StartBlock := none
  startReference : Option String := none
  vars : List VariableBlock := []
  steps : StepTag → List StepBlock := fun _ => []

/-- The number of blocks that make steps. -/
def Document.blockCount (d : Document) : Nat :=
  (StepTag.all.flatMap d.steps).length

end FlowDiagram

import FlowDiagram.Assembly
import FlowDiagram.Document.Block
import FlowDiagram.Text.Blank

/-!
# What a document contributes to a flow

Every text of a document is trimmed, and what is blank counts as missing (`known`). The entries of a document
(`Document.entries`) are its header, its variables, the element where it starts, and its steps tag by tag. A block
without a name makes no variable and no element.
-/

namespace FlowDiagram

/-- A text trimmed, unless it is missing or blank. -/
def known (t : Option String) : Option String :=
  t.bind Text.nonblank

/-- Where a transition leads, if it leads anywhere. -/
def destination (j : Option Jump) : Option String :=
  known (j.bind (·.target))

/-- The condition of a block. -/
def ConditionBlock.toCondition (b : ConditionBlock) : Condition where
  left := known b.left
  operator := known b.operator
  right := known (b.right.bind (·.display))

/-- The rule of a block. Its name is empty if it has none. -/
def RuleBlock.toRule (b : RuleBlock) : Rule where
  name := (known b.name).getD ""
  label := known b.label
  logic := known b.logic
  conditions := b.conditions.map (·.toCondition)
  target := destination b.connector

/-- The wait event of a block. Its name is empty if it has none. -/
def WaitBlock.toWaitEvent (b : WaitBlock) : WaitEvent where
  name := (known b.name).getD ""
  label := known b.label
  eventType := known b.eventType
  logic := known b.logic
  conditions := b.conditions.map (·.toCondition)
  target := destination b.connector

/-- The path of a block. Its name is empty if it has none. -/
def PathBlock.toScheduledPath (b : PathBlock) : ScheduledPath where
  name := (known b.name).getD ""
  label := known b.label
  offset := b.offset
  offsetUnit := known b.offsetUnit
  timeSource := known b.timeSource
  pathType := known b.pathType
  target := destination b.connector

/-- The label of every element that a flow starts at. -/
def startLabel : String := "Start"

/-- The element of a start block. -/
def StartBlock.toElement (b : StartBlock) : Element where
  name := startName
  kind := .start
  label := some startLabel
  next := destination b.connector
  scheduledPaths := b.scheduledPaths.map (·.toScheduledPath)
  trigger := some
    { triggerType := known b.triggerType
      object := known b.object
      recordTriggerType := known b.recordTriggerType }

/-- The element of a step of some kind, if the step has a name. Only a decision has rules, and only a wait has events.
-/
def StepBlock.toElement? (kind : Kind) (b : StepBlock) : Option Element :=
  (known b.name).map fun name =>
    { name
      kind
      label := known b.label
      description := known b.description
      next := destination b.next
      onFault := destination b.onFault
      byDefault := destination b.byDefault
      defaultLabel := known b.defaultLabel
      rules := if kind = .decision then b.rules.map (·.toRule) else []
      waitEvents := if kind = .wait then b.waitEvents.map (·.toWaitEvent) else []
      eachItem := destination b.eachItem
      afterLast := destination b.afterLast }

/-- The variable of a block, if it has a name. -/
def VariableBlock.toVariable? (b : VariableBlock) : Option Variable :=
  (known b.name).map fun name =>
    { name
      dataType := known b.dataType
      objectType := known b.objectType
      description := known b.description
      isInput := b.isInput
      isOutput := b.isOutput
      isCollection := b.isCollection }

namespace Document

/-- What a document says about its flow as a whole. -/
def header (d : Document) : Header where
  label := known d.label
  description := known d.description
  processType := known d.processType
  status := known d.status

/-- The element where a flow starts. Older documents name only the element that comes first. -/
def startElement? (d : Document) : Option Element :=
  match d.start with
  | some b => some b.toElement
  | none => (known d.startReference).map fun first =>
    { name := startName, kind := .start, label := some startLabel, next := some first }

/-- The entry of a block for a variable. -/
def variableEntry (b : VariableBlock) : Entry :=
  match b.toVariable? with
  | some v => .var v
  | none => .namelessVariable

/-- The entry of a block for a step. -/
def stepEntry (kind : Kind) (b : StepBlock) : Entry :=
  match b.toElement? kind with
  | some e => .element e
  | none => .namelessElement kind

/-- What a document contributes to its flow, in order. -/
def entries (d : Document) : List Entry :=
  .header d.header :: d.vars.map variableEntry ++ d.startElement?.toList.map .element ++
    StepTag.all.flatMap fun t => (d.steps t).map (stepEntry t.kind)

/-- A document as a source. It is never refused. -/
def source (d : Document) : Source where
  entries := d.entries

end Document

end FlowDiagram

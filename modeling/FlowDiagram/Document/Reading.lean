import FlowDiagram.Document.Block
import FlowDiagram.Markup.Record
import FlowDiagram.Notice

/-!
# Reading flow documents

Which fields each block has (`Document.fields` and the tables before it), how a block is put together from the values of
its fields, and `Document.read`, which does both for a text.
-/

namespace FlowDiagram

open Markup

/-- The fields of an element that were read, by name. -/
abbrev FieldValues := List (String × Value)

namespace FieldValues

/-- The text of a field. -/
def text? (fs : FieldValues) (key : String) : Option String :=
  match fs.lookup key with
  | some (.text t) => some t
  | _ => none

/-- The number of a field. -/
def integer? (fs : FieldValues) (key : String) : Option Int :=
  match fs.lookup key with
  | some (.integer i) => some i
  | _ => none

/-- The flag of a field, which is off if the field is missing. -/
def flag (fs : FieldValues) (key : String) : Bool :=
  match fs.lookup key with
  | some (.flag b) => b
  | _ => false

/-- The record of a field. -/
def record? (fs : FieldValues) (key : String) : Option FieldValues :=
  match fs.lookup key with
  | some (.record r) => some r
  | _ => none

/-- The records of a list, which is empty if the field is missing. -/
def list (fs : FieldValues) (key : String) : List FieldValues :=
  match fs.lookup key with
  | some (.list items) => items
  | _ => []

end FieldValues

/-- Fields that hold text. -/
def textFields (names : List String) : List (String × Shape) :=
  names.map fun n => (n, .text)

/-- The shape of a field that says where a transition leads. -/
def Jump.shape : Shape :=
  .record "RawConnector" (textFields ["targetReference"])

def Jump.ofFields (fs : FieldValues) : Jump where
  target := fs.text? "targetReference"

/-- The shape of a field that holds a value. -/
def Literal.shape : Shape :=
  .record "RawValue"
    (textFields ["stringValue", "numberValue", "booleanValue", "dateValue", "dateTimeValue", "elementReference"])

def Literal.ofFields (fs : FieldValues) : Literal where
  string := fs.text? "stringValue"
  number := fs.text? "numberValue"
  boolean := fs.text? "booleanValue"
  date := fs.text? "dateValue"
  dateTime := fs.text? "dateTimeValue"
  reference := fs.text? "elementReference"

/-- The shape of a list of comparisons. -/
def ConditionBlock.shape : Shape :=
  .list "RawCondition" (textFields ["leftValueReference", "operator"] ++ [("rightValue", Literal.shape)])

def ConditionBlock.ofFields (fs : FieldValues) : ConditionBlock where
  left := fs.text? "leftValueReference"
  operator := fs.text? "operator"
  right := (fs.record? "rightValue").map Literal.ofFields

/-- The shape of a list of branches. -/
def RuleBlock.shape : Shape :=
  .list "RawRule"
    (textFields ["name", "label", "conditionLogic"] ++
      [("conditions", ConditionBlock.shape), ("connector", Jump.shape)])

def RuleBlock.ofFields (fs : FieldValues) : RuleBlock where
  name := fs.text? "name"
  label := fs.text? "label"
  logic := fs.text? "conditionLogic"
  conditions := (fs.list "conditions").map ConditionBlock.ofFields
  connector := (fs.record? "connector").map Jump.ofFields

/-- The shape of a list of paths on which a wait resumes. -/
def WaitBlock.shape : Shape :=
  .list "RawWaitEvent"
    (textFields ["name", "label", "eventType", "conditionLogic"] ++
      [("conditions", ConditionBlock.shape), ("connector", Jump.shape)])

def WaitBlock.ofFields (fs : FieldValues) : WaitBlock where
  name := fs.text? "name"
  label := fs.text? "label"
  eventType := fs.text? "eventType"
  logic := fs.text? "conditionLogic"
  conditions := (fs.list "conditions").map ConditionBlock.ofFields
  connector := (fs.record? "connector").map Jump.ofFields

/-- The shape of a list of paths that are entered at a time. -/
def PathBlock.shape : Shape :=
  .list "RawScheduledPath"
    (textFields ["name", "label", "offsetUnit", "timeSource", "pathType"] ++
      [("offsetNumber", .integer), ("connector", Jump.shape)])

def PathBlock.ofFields (fs : FieldValues) : PathBlock where
  name := fs.text? "name"
  label := fs.text? "label"
  offset := fs.integer? "offsetNumber"
  offsetUnit := fs.text? "offsetUnit"
  timeSource := fs.text? "timeSource"
  pathType := fs.text? "pathType"
  connector := (fs.record? "connector").map Jump.ofFields

/-- The shape of the field that says where the flow starts. -/
def StartBlock.shape : Shape :=
  .record "RawStart"
    (textFields ["triggerType", "object", "recordTriggerType"] ++
      [("connector", Jump.shape), ("scheduledPaths", PathBlock.shape)])

def StartBlock.ofFields (fs : FieldValues) : StartBlock where
  connector := (fs.record? "connector").map Jump.ofFields
  scheduledPaths := (fs.list "scheduledPaths").map PathBlock.ofFields
  triggerType := fs.text? "triggerType"
  object := fs.text? "object"
  recordTriggerType := fs.text? "recordTriggerType"

/-- The shape of a list of steps. -/
def StepBlock.shape : Shape :=
  .list "RawElement"
    (textFields ["name", "label", "description", "defaultConnectorLabel"] ++
      [("connector", Jump.shape), ("faultConnector", Jump.shape), ("defaultConnector", Jump.shape),
        ("nextValueConnector", Jump.shape), ("noMoreValuesConnector", Jump.shape), ("rules", RuleBlock.shape),
        ("waitEvents", WaitBlock.shape)])

def StepBlock.ofFields (fs : FieldValues) : StepBlock where
  name := fs.text? "name"
  label := fs.text? "label"
  description := fs.text? "description"
  next := (fs.record? "connector").map Jump.ofFields
  onFault := (fs.record? "faultConnector").map Jump.ofFields
  byDefault := (fs.record? "defaultConnector").map Jump.ofFields
  defaultLabel := fs.text? "defaultConnectorLabel"
  rules := (fs.list "rules").map RuleBlock.ofFields
  waitEvents := (fs.list "waitEvents").map WaitBlock.ofFields
  eachItem := (fs.record? "nextValueConnector").map Jump.ofFields
  afterLast := (fs.record? "noMoreValuesConnector").map Jump.ofFields

/-- The shape of a list of variables. -/
def VariableBlock.shape : Shape :=
  .list "RawVariable"
    (textFields ["name", "dataType", "objectType", "description"] ++
      [("isInput", .flag), ("isOutput", .flag), ("isCollection", .flag)])

def VariableBlock.ofFields (fs : FieldValues) : VariableBlock where
  name := fs.text? "name"
  dataType := fs.text? "dataType"
  objectType := fs.text? "objectType"
  description := fs.text? "description"
  isInput := fs.flag "isInput"
  isOutput := fs.flag "isOutput"
  isCollection := fs.flag "isCollection"

namespace Document

/-- The name of the root element of a flow document. -/
def rootName : String := "Flow"

/-- What messages call the root element. -/
def title : String := "RawFlow"

/-- The fields of the root element. -/
def fields : List (String × Shape) :=
  textFields ["label", "description", "processType", "status", "startElementReference"] ++
    [("start", StartBlock.shape), ("variables", VariableBlock.shape)] ++
    StepTag.all.map fun t => (t.name, StepBlock.shape)

def ofFields (fs : FieldValues) : Document where
  label := fs.text? "label"
  description := fs.text? "description"
  processType := fs.text? "processType"
  status := fs.text? "status"
  start := (fs.record? "start").map StartBlock.ofFields
  startReference := fs.text? "startElementReference"
  vars := (fs.list "variables").map VariableBlock.ofFields
  steps := fun t => (fs.list t.name).map StepBlock.ofFields

/-- Reads a flow document. A sound document that is about something else, or about nothing, is an empty flow document.
-/
def read (text : String) : Logged (Except Fault Document) := do
  match readDocument rootName title fields text.toList with
  | .error f => return .error f
  | .ok .missing =>
    Logged.tell .noRoot
    return .ok {}
  | .ok (.foreign root) =>
    Logged.tell (.foreignRoot root)
    return .ok {}
  | .ok (.found fs) =>
    let d := ofFields fs
    Logged.tell (.documentRead d.blockCount d.vars.length)
    return .ok d

end Document

end FlowDiagram

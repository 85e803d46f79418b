import FlowDiagram.Proofs.Neatness

/-!
# Blanks around the texts of a document

A document may have all of its texts trimmed beforehand, and those that are blank left out (`Document.trimmed`). It contributes
the same to its flow then (`Document.entries_trimmed`), for every text is trimmed on its way in any case.

Main statement: trimming a document beforehand changes nothing, and the texts of a compiled document are neat, except where a
branch or a path has neither a label nor a name, and except for the name of the flow, which may be given from outside
(`compile_trimmed`).
-/

namespace FlowDiagram

open Text

/-! ## Trimming twice -/

/-- What is known of a text is known for good. -/
@[simp] theorem known_known (t : Option String) : known (known t) = known t := by
  cases h : known t with
  | none => rfl
  | some s =>
    have hneat : Neat s := neatIfAny_known t s h
    rw [known, Option.bind_some, neat_iff.mp hneat]

/-- Trimming a text beforehand makes no difference. -/
@[simp] theorem known_map_trim (t : Option String) : known (t.map trim) = known t := by
  cases t with
  | none => rfl
  | some s => simp [known, nonblank]

/-! ## Trimmed documents -/

/-- A transition with its target trimmed, and left out if it is blank. -/
def Jump.trimmed (j : Jump) : Jump where
  target := known j.target

/-- The value with each way in which it is written trimmed. One that is blank still comes before the others. -/
def Literal.trimmed (l : Literal) : Literal where
  string := l.string.map trim
  number := l.number.map trim
  boolean := l.boolean.map trim
  date := l.date.map trim
  dateTime := l.dateTime.map trim
  reference := l.reference.map trim

/-- A condition with its texts trimmed, and its value in each way in which it is written. -/
def ConditionBlock.trimmed (b : ConditionBlock) : ConditionBlock where
  left := known b.left
  operator := known b.operator
  right := b.right.map (·.trimmed)

/-- A rule with its texts trimmed, and with them its conditions and its transition. -/
def RuleBlock.trimmed (b : RuleBlock) : RuleBlock where
  name := known b.name
  label := known b.label
  logic := known b.logic
  conditions := b.conditions.map (·.trimmed)
  connector := b.connector.map (·.trimmed)

/-- A wait event with its texts trimmed, and with them its conditions and its transition. -/
def WaitBlock.trimmed (b : WaitBlock) : WaitBlock where
  name := known b.name
  label := known b.label
  eventType := known b.eventType
  logic := known b.logic
  conditions := b.conditions.map (·.trimmed)
  connector := b.connector.map (·.trimmed)

/-- A path with its texts trimmed, and with them its transition. Its offset is no text. -/
def PathBlock.trimmed (b : PathBlock) : PathBlock where
  name := known b.name
  label := known b.label
  offset := b.offset
  offsetUnit := known b.offsetUnit
  timeSource := known b.timeSource
  pathType := known b.pathType
  connector := b.connector.map (·.trimmed)

/-- A start with its texts trimmed, and with them its transition and its paths. -/
def StartBlock.trimmed (b : StartBlock) : StartBlock where
  connector := b.connector.map (·.trimmed)
  scheduledPaths := b.scheduledPaths.map (·.trimmed)
  triggerType := known b.triggerType
  object := known b.object
  recordTriggerType := known b.recordTriggerType

/-- A step with its texts trimmed, and with them its transitions, its rules and its wait events. -/
def StepBlock.trimmed (b : StepBlock) : StepBlock where
  name := known b.name
  label := known b.label
  description := known b.description
  next := b.next.map (·.trimmed)
  onFault := b.onFault.map (·.trimmed)
  byDefault := b.byDefault.map (·.trimmed)
  defaultLabel := known b.defaultLabel
  rules := b.rules.map (·.trimmed)
  waitEvents := b.waitEvents.map (·.trimmed)
  eachItem := b.eachItem.map (·.trimmed)
  afterLast := b.afterLast.map (·.trimmed)

/-- A variable with its texts trimmed. Its flags are no texts. -/
def VariableBlock.trimmed (b : VariableBlock) : VariableBlock where
  name := known b.name
  dataType := known b.dataType
  objectType := known b.objectType
  description := known b.description
  isInput := b.isInput
  isOutput := b.isOutput
  isCollection := b.isCollection

/-- A document with every text trimmed, and left out if it is blank. -/
def Document.trimmed (d : Document) : Document where
  label := known d.label
  description := known d.description
  processType := known d.processType
  status := known d.status
  start := d.start.map (·.trimmed)
  startReference := known d.startReference
  vars := d.vars.map (·.trimmed)
  steps := fun t => (d.steps t).map (·.trimmed)

/-- A trimmed transition leads to the same element. -/
@[simp] theorem destination_trimmed (j : Option Jump) : destination (j.map (·.trimmed)) = destination j := by
  cases j with
  | none => rfl
  | some j => exact known_known j.target

/-- Of a trimmed value the same way of writing it comes first. -/
theorem Literal.display_trimmed (l : Literal) : l.trimmed.display = l.display.map trim := by
  simp only [display, trimmed, Option.orElse_eq_orElse, Option.orElse_eq_or, Option.map_or]

/-- A trimmed block makes the same condition; so with the other blocks. -/
@[simp] theorem ConditionBlock.toCondition_trimmed (b : ConditionBlock) : b.trimmed.toCondition = b.toCondition := by
  have hright : known (b.trimmed.right.bind (·.display)) = known (b.right.bind (·.display)) := by
    rw [trimmed]
    cases b.right with
    | none => rfl
    | some l => exact (congrArg known l.display_trimmed).trans (known_map_trim _)
  rw [toCondition, hright]
  simp [toCondition, trimmed]

/-- A trimmed block makes the same rule. -/
@[simp] theorem RuleBlock.toRule_trimmed (b : RuleBlock) : b.trimmed.toRule = b.toRule := by
  simp [toRule, trimmed, Function.comp_def]

@[simp] theorem WaitBlock.toWaitEvent_trimmed (b : WaitBlock) : b.trimmed.toWaitEvent = b.toWaitEvent := by
  simp [toWaitEvent, trimmed, Function.comp_def]

@[simp] theorem PathBlock.toScheduledPath_trimmed (b : PathBlock) :
    b.trimmed.toScheduledPath = b.toScheduledPath := by
  simp [toScheduledPath, trimmed]

/-- A trimmed block makes the same start. -/
@[simp] theorem StartBlock.toElement_trimmed (b : StartBlock) : b.trimmed.toElement = b.toElement := by
  simp [toElement, trimmed, Function.comp_def]

/-- A trimmed block makes the same step, or none where it made none. -/
@[simp] theorem StepBlock.toElement?_trimmed (kind : Kind) (b : StepBlock) :
    b.trimmed.toElement? kind = b.toElement? kind := by
  simp [toElement?, trimmed, Function.comp_def]

@[simp] theorem VariableBlock.toVariable?_trimmed (b : VariableBlock) : b.trimmed.toVariable? = b.toVariable? := by
  simp [toVariable?, trimmed]

namespace Document

/-- A trimmed document starts at the same element. -/
@[simp] theorem startElement?_trimmed (d : Document) : d.trimmed.startElement? = d.startElement? := by
  unfold startElement? trimmed
  cases d.start with
  | none => simp
  | some b => simp

/-- A trimmed document contributes the same to its flow. -/
theorem entries_trimmed (d : Document) : d.trimmed.entries = d.entries := by
  have hheader : d.trimmed.header = d.header := by
    simp [header, trimmed]
  have hvars : d.trimmed.vars.map variableEntry = d.vars.map variableEntry := by
    simp [trimmed, variableEntry, Function.comp_def]
  have hsteps : ∀ t, (d.trimmed.steps t).map (stepEntry t.kind) = (d.steps t).map (stepEntry t.kind) := by
    intro t
    simp [trimmed, stepEntry, Function.comp_def]
  simp only [entries, hheader, hvars, hsteps, startElement?_trimmed]

end Document

/-! ## Compiling a trimmed document -/

/-- Trimming the texts of a document beforehand changes nothing: the same flow comes of it, and the same notices. All texts of
that flow are neat, but for those that have to be there and are missing: the names of branches and paths, and the labels of
their connectors. Its label is neat as well, unless the document has none and the name stands for it, and its name is, unless
it was given. -/
theorem compile_trimmed (o : BuildOptions) (d : Document) :
    compile o d.trimmed.source = compile o d.source ∧
      ∃ f, (compile o d.source).value = .ok f ∧ f.Neat (declarations d.entries) ∧
        (Text.Neat f.label ∨ known d.label = none ∧ f.label = f.name) ∧
        (Text.Neat f.name ∨ o.name = some f.name) := by
  refine ⟨?_, _, compile_value o d.entries, (d.neat_assembled o).completed, ?_, ?_⟩
  · rw [Document.source, Document.source, d.entries_trimmed]
  · have hlabel : (assembled o d.entries).completed.label = (known d.label).getD (assembled o d.entries).completed.name :=
      d.label_assembled o
    rw [hlabel]
    cases h : known d.label with
    | none => exact Or.inr ⟨rfl, rfl⟩
    | some l => exact Or.inl (neatIfAny_known _ l h)
  · have hname : (assembled o d.entries).completed.name = o.name.getD ((known d.label).getD Assembly.unknown) :=
      d.name_assembled o
    rw [hname]
    cases o.name with
    | none => exact Or.inl (neat_known_getD d.label (neat_iff.mpr (by decide)))
    | some n => exact Or.inr rfl

end FlowDiagram

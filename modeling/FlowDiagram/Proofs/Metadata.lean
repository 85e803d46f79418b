import FlowDiagram.Diagram.Chart
import FlowDiagram.Proofs.EntryPoint

/-!
# What is said of a flow and not drawn

A document says much that its diagram does not show: what its flow is for, its variables, descriptions, the conditions and the
times of transitions, what makes the flow run, and, where faults are hidden, what is done on a fault. `Document.bare` leaves
all of this out, and `Flow.bare` does so for a flow: of an element it keeps what its node shows, while its transitions are told
by the connectors alone.

A flow and its bare flow have the same chart (`Flow.chart_bare`), completing goes by names and targets and so commutes with
leaving out the rest (`Flow.bare_completed`), and a document and its bare document declare elements that look the same
(`Document.looks_declarations_bare`).

Main statement: documents that are the same once they are bare have the same diagram, whatever else they say and whatever their
flows are called (`draw_compile_of_bare_eq`).
-/

namespace FlowDiagram

open Diagram

/-! ## Bare documents -/

/-- A transition with nothing but its target. One that leads nowhere is left out. -/
def pointer (j : Option Jump) : Option Jump :=
  (j.bind (·.target)).map fun target => { target := some target }

/-- A rule with its name, its label and its transition. -/
def RuleBlock.bare (b : RuleBlock) : RuleBlock where
  name := b.name
  label := b.label
  connector := pointer b.connector

/-- A wait event with its name, its label and its transition. -/
def WaitBlock.bare (b : WaitBlock) : WaitBlock where
  name := b.name
  label := b.label
  connector := pointer b.connector

/-- A path with its name, its label and its transition. -/
def PathBlock.bare (b : PathBlock) : PathBlock where
  name := b.name
  label := b.label
  connector := pointer b.connector

/-- A start with its transition and its paths. -/
def StartBlock.bare (b : StartBlock) : StartBlock where
  connector := pointer b.connector
  scheduledPaths := b.scheduledPaths.map (·.bare)

/-- A step with its name, its label and its transitions. The one taken on a fault is kept only where faults are shown. -/
def StepBlock.bare (faults : Bool) (b : StepBlock) : StepBlock where
  name := b.name
  label := b.label
  next := pointer b.next
  onFault := if faults then pointer b.onFault else none
  byDefault := pointer b.byDefault
  rules := b.rules.map (·.bare)
  waitEvents := b.waitEvents.map (·.bare)
  eachItem := pointer b.eachItem
  afterLast := pointer b.afterLast

/-- A document without what no diagram shows: where it starts, and its steps. -/
def Document.bare (faults : Bool) (d : Document) : Document where
  start := d.start.map (·.bare)
  startReference := d.startReference
  steps := fun t => (d.steps t).map (·.bare faults)

/-! ## Bare flows -/

/-- An element with nothing but what its node shows. -/
def Element.bare (e : Element) : Element where
  name := e.name
  kind := e.kind
  label := e.label

/-- A flow with nothing but what its diagram shows. -/
def Flow.bare (f : Flow) : Flow where
  name := ""
  label := ""
  description := none
  processType := ""
  status := none
  elements := f.elements.mapWithKey fun _ e => e.bare
  connectors := f.connectors
  vars := []

namespace Flow

/-- A flow and its bare flow have the same chart. -/
theorem chart_bare (o : DrawOptions) (f : Flow) : f.bare.chart o = f.chart o := by
  have hvalues : f.bare.elements.values = f.elements.values.map (·.bare) := by
    simp [bare, OrderedMap.values, OrderedMap.mapWithKey]
  simp only [chart, hvalues, List.map_map, List.filterMap_map]
  rfl

/-- The same elements dangle in a bare flow. -/
theorem dangling_bare (f : Flow) : f.bare.dangling = f.dangling := by
  simp only [dangling, bare, OrderedMap.keys_mapWithKey]

theorem unresolved_bare (f : Flow) : f.bare.unresolved = f.unresolved := by
  simp only [unresolved, bare, OrderedMap.contains_mapWithKey]

/-- Completing goes by names and targets: it does the same to a bare flow. The end has nothing but a name, a kind and a label, so
it is bare when it is added. -/
theorem bare_completed (f : Flow) : f.completed.bare = f.bare.completed := by
  have hend : (withEnd f.elements).mapWithKey (fun _ e => e.bare) = withEnd (f.elements.mapWithKey fun _ e => e.bare) := by
    unfold withEnd
    rw [OrderedMap.contains_mapWithKey]
    split
    · rfl
    · rw [OrderedMap.mapWithKey_insert]
      rfl
  have helements : f.completed.bare.elements = f.bare.completed.elements := by
    rw [bare, completed_elements, completed_elements, dangling_bare, unresolved_bare]
    split
    · rfl
    · exact hend
  have hconnectors : f.completed.bare.connectors = f.bare.completed.connectors := by
    rw [bare, completed_connectors, completed_connectors, dangling_bare]
    simp only [bare, OrderedMap.contains_mapWithKey]
  have hrest : f.bare.completed =
      { f.bare with elements := f.bare.completed.elements, connectors := f.bare.completed.connectors } := by
    rw [completed, complete_value]
  rw [hrest, ← helements, ← hconnectors]
  rfl

end Flow

/-! ## What the elements of a document look like -/

/-- What an element looks like in a diagram: its node, and the connectors that leave it. -/
def Element.look (faults : Bool) (e : Element) : Element × List Connector :=
  (e.bare, e.connectors faults)

/-- A transition with nothing but its target has the same target, and one that leads nowhere has none in any case. -/
theorem target_pointer (j : Option Jump) : (pointer j).bind (·.target) = j.bind (·.target) := by
  unfold pointer
  cases j.bind (·.target) <;> rfl

/-- A transition with nothing but its target leads to the same element. -/
@[simp] theorem destination_pointer (j : Option Jump) : destination (pointer j) = destination j := by
  rw [destination, destination, target_pointer]

/-- A bare block makes a rule of the same title and the same target. -/
theorem RuleBlock.toRule_bare (b : RuleBlock) :
    b.bare.toRule.title = b.toRule.title ∧ b.bare.toRule.target = b.toRule.target := by
  simp [toRule, bare, Rule.title]

theorem WaitBlock.toWaitEvent_bare (b : WaitBlock) :
    b.bare.toWaitEvent.title = b.toWaitEvent.title ∧ b.bare.toWaitEvent.target = b.toWaitEvent.target := by
  simp [toWaitEvent, bare, WaitEvent.title]

theorem PathBlock.toScheduledPath_bare (b : PathBlock) :
    b.bare.toScheduledPath.title = b.toScheduledPath.title ∧
      b.bare.toScheduledPath.target = b.toScheduledPath.target := by
  simp [toScheduledPath, bare, ScheduledPath.title]

/-- A bare block makes a start that looks the same. -/
theorem StartBlock.look_toElement_bare (faults : Bool) (b : StartBlock) :
    b.bare.toElement.look faults = b.toElement.look faults := by
  simp [Element.look, Element.bare, toElement, bare, Element.connectors, Element.regularConnectors, List.filterMap_map,
    Function.comp_def, PathBlock.toScheduledPath_bare]

/-- A bare block makes a step that looks the same, or none where it made none. -/
theorem StepBlock.look_toElement?_bare (faults : Bool) (kind : Kind) (b : StepBlock) :
    ((b.bare faults).toElement? kind).map (·.look faults) = (b.toElement? kind).map (·.look faults) := by
  have hname : (b.bare faults).name = b.name := rfl
  rw [toElement?, toElement?, hname, Option.map_map, Option.map_map]
  congr 1
  funext name
  cases faults <;>
    simp [Element.look, Element.bare, bare, Element.connectors, Element.regularConnectors, List.filterMap_map, apply_ite,
      Function.comp_def, RuleBlock.toRule_bare, WaitBlock.toWaitEvent_bare]

namespace Document

/-- A bare document starts at an element that looks the same. -/
theorem look_startElement?_bare (faults : Bool) (d : Document) :
    (d.bare faults).startElement?.map (·.look faults) = d.startElement?.map (·.look faults) := by
  unfold startElement? bare
  cases d.start with
  | none => rfl
  | some b => exact congrArg some (b.look_toElement_bare faults)

/-- A document and its bare document declare elements that look the same, in the same order. -/
theorem looks_declarations_bare (faults : Bool) (d : Document) :
    (declarations (d.bare faults).entries).map (·.look faults) = (declarations d.entries).map (·.look faults) := by
  have hstart : (d.bare faults).startElement?.toList.map (·.look faults) =
      d.startElement?.toList.map (·.look faults) := by
    rw [← Option.toList_map, ← Option.toList_map, look_startElement?_bare]
  have hsteps : (d.bare faults).stepElements.map (·.look faults) = d.stepElements.map (·.look faults) := by
    rw [stepElements, stepElements, List.map_flatMap, List.map_flatMap]
    congr 1
    funext t
    have hblocks : (d.bare faults).steps t = (d.steps t).map (·.bare faults) := rfl
    rw [hblocks, List.map_filterMap, List.map_filterMap, List.filterMap_map]
    congr 1
    funext b
    exact b.look_toElement?_bare faults t.kind
  rw [declarations_entries_eq, declarations_entries_eq, List.map_append, List.map_append, hstart, hsteps]

end Document

/-! ## The diagrams of documents that look the same -/

/-- A map of elements is bare if the elements added to it are. -/
theorem mapWithKey_declareAll (m : OrderedMap String Element) (es : List Element) :
    (declareAll m es).mapWithKey (fun _ e => e.bare) =
      declareAll (m.mapWithKey fun _ e => e.bare) (es.map (·.bare)) := by
  unfold declareAll
  induction es generalizing m with
  | nil => rfl
  | cons e es ih =>
    rw [List.foldl_cons, ih, OrderedMap.mapWithKey_insert, List.map_cons, List.foldl_cons]
    rfl

/-- What is assembled from elements that look the same is the same, once it is bare. -/
theorem bare_assembled_congr {o o' : BuildOptions} {entries entries' : List Entry} (ho : o.faults = o'.faults)
    (h : (declarations entries).map (·.look o.faults) = (declarations entries').map (·.look o.faults)) :
    (assembled o entries).bare = (assembled o' entries').bare := by
  have hbare : (declarations entries).map (·.bare) = (declarations entries').map (·.bare) := by
    have := congrArg (List.map Prod.fst) h
    simpa only [List.map_map, Function.comp_def, Element.look] using this
  have hconnectors : (declarations entries).flatMap (·.connectors o.faults) =
      (declarations entries').flatMap (·.connectors o.faults) := by
    have := congrArg (List.flatMap Prod.snd) h
    simpa only [List.flatMap_map, Element.look] using this
  have helements : (assembled o entries).bare.elements = (assembled o' entries').bare.elements := by
    rw [Flow.bare, Flow.bare, assembled_elements, assembled_elements, mapWithKey_declareAll, mapWithKey_declareAll, hbare]
  have hwired : (assembled o entries).bare.connectors = (assembled o' entries').bare.connectors := by
    rw [Flow.bare, Flow.bare, assembled_connectors, assembled_connectors, ← ho, hconnectors]
  unfold Flow.bare at helements hwired ⊢
  simp only at helements hwired
  rw [helements, hwired]

/-- Documents that are the same once they are bare have the same diagram: it does not matter what their flows are called, what
else the documents say of them, and, where faults are hidden, what is done on a fault. -/
theorem draw_compile_of_bare_eq {faults : Bool} {d d' : Document} (h : d.bare faults = d'.bare faults)
    (name name' : Option String) (o : DrawOptions) :
    ∃ f f', (compile { name, faults } d.source).value = .ok f ∧ (compile { name := name', faults } d'.source).value = .ok f' ∧
      (f.draw o).value = (f'.draw o).value := by
  refine ⟨_, _, compile_value { name, faults } d.entries, compile_value { name := name', faults } d'.entries, ?_⟩
  have hlooks : (declarations d.entries).map (·.look faults) = (declarations d'.entries).map (·.look faults) := by
    rw [← d.looks_declarations_bare, h, d'.looks_declarations_bare]
  have hbare : (assembled { name, faults } d.entries).bare = (assembled { name := name', faults } d'.entries).bare :=
    bare_assembled_congr rfl hlooks
  have hchart : (assembled { name, faults } d.entries).completed.chart o =
      (assembled { name := name', faults } d'.entries).completed.chart o := by
    rw [← Flow.chart_bare, Flow.bare_completed, hbare, ← Flow.bare_completed, Flow.chart_bare]
  rw [Flow.value_draw, Flow.value_draw, hchart]

/-- A document with a label, a variable, a condition and a time, and with a step that leads on only if it fails. -/
def annotated : Document where
  label := some "Orders"
  status := some "Active"
  start := some
    { connector := some { target := some "A" }
      scheduledPaths :=
        [{ name := some "P", offset := some 3, offsetUnit := some "Days", connector := some { target := some "B" } }]
      triggerType := some "Scheduled" }
  vars := [{ name := some "order", isInput := true }]
  steps
    | .decisions =>
      [{ name := some "A"
         description := some "Looks at the order."
         defaultLabel := some "Otherwise"
         rules :=
           [{ name := some "R"
              logic := some "and"
              conditions := [{ left := some "order", operator := some "IsNull" }]
              connector := some { target := some "B" } }] }]
    | .actionCalls => [{ name := some "B", onFault := some { target := some "C" } }]
    | _ => []

/-- The same steps with nothing said about them. -/
def unannotated : Document where
  start := some
    { connector := some { target := some "A" }
      scheduledPaths := [{ name := some "P", connector := some { target := some "B" } }] }
  steps
    | .decisions => [{ name := some "A", rules := [{ name := some "R", connector := some { target := some "B" } }] }]
    | .actionCalls => [{ name := some "B" }]
    | _ => []

/-- Where faults are hidden the documents look the same, and so do their diagrams. The target of the fault, which is not
declared, would bring an edge to the end of its own where faults are shown. -/
theorem draw_compile_of_bare_eq_annotated :
    annotated.bare false = unannotated.bare false ∧ annotated.bare true ≠ unannotated.bare true ∧
      ∃ f f', (compile { name := some "Orders" } annotated.source).value = .ok f ∧
        (compile {} unannotated.source).value = .ok f' ∧ f.name ≠ f'.name ∧ (f.draw {}).value = (f'.draw {}).value := by
  have hsame : annotated.bare false = unannotated.bare false := by
    unfold Document.bare
    congr 1
    funext t
    cases t <;> rfl
  have hshown : annotated.bare true ≠ unannotated.bare true := by
    intro h
    have := congrFun (congrArg Document.steps h) .actionCalls
    exact absurd this (by decide)
  obtain ⟨f, f', hf, hf', hdraw⟩ := draw_compile_of_bare_eq hsame (some "Orders") none {}
  refine ⟨hsame, hshown, f, f', hf, hf', ?_, hdraw⟩
  rw [← Except.ok.inj hf, ← Except.ok.inj hf']
  decide

end FlowDiagram

import FlowDiagram.Graph.Flow
import FlowDiagram.Json.Basic

/-!
# Flows as JSON

The whole of a flow as one JSON value, for programs that want the graph itself. Nothing is left out: what is missing is
null, and an empty list is an empty list. The elements are an object in the order of the flow.
-/

namespace FlowDiagram

/-- The object of a condition. -/
def Condition.json (c : Condition) : Json :=
  .obj [("left_value_reference", .ofOption c.left), ("operator", .ofOption c.operator),
    ("right_value", .ofOption c.right)]

/-- The object of a rule, with its conditions. -/
def Rule.json (r : Rule) : Json :=
  .obj [("name", .str r.name), ("label", .ofOption r.label), ("condition_logic", .ofOption r.logic),
    ("conditions", .arr (r.conditions.map (·.json))), ("target", .ofOption r.target)]

/-- The object of a wait event, with its conditions. -/
def WaitEvent.json (w : WaitEvent) : Json :=
  .obj [("name", .str w.name), ("label", .ofOption w.label), ("event_type", .ofOption w.eventType),
    ("condition_logic", .ofOption w.logic), ("conditions", .arr (w.conditions.map (·.json))),
    ("target", .ofOption w.target)]

/-- The object of a path. -/
def ScheduledPath.json (p : ScheduledPath) : Json :=
  .obj [("name", .str p.name), ("label", .ofOption p.label),
    ("offset_number", match p.offset with
      | some i => .int i
      | none => .null),
    ("offset_unit", .ofOption p.offsetUnit), ("time_source", .ofOption p.timeSource),
    ("path_type", .ofOption p.pathType), ("target", .ofOption p.target)]

/-- The object of a trigger. -/
def Trigger.json (t : Trigger) : Json :=
  .obj [("trigger_type", .ofOption t.triggerType), ("object", .ofOption t.object),
    ("record_trigger_type", .ofOption t.recordTriggerType)]

/-- The object of an element, with its branches, its paths and its trigger. -/
def Element.json (e : Element) : Json :=
  .obj [("name", .str e.name), ("label", .ofOption e.label), ("description", .ofOption e.description),
    ("element_type", .str e.kind.name), ("connector", .ofOption e.next), ("fault_connector", .ofOption e.onFault),
    ("default_connector", .ofOption e.byDefault), ("default_connector_label", .ofOption e.defaultLabel),
    ("rules", .arr (e.rules.map (·.json))), ("wait_events", .arr (e.waitEvents.map (·.json))),
    ("next_value_connector", .ofOption e.eachItem), ("no_more_values_connector", .ofOption e.afterLast),
    ("scheduled_paths", .arr (e.scheduledPaths.map (·.json))),
    ("trigger", match e.trigger with
      | some t => t.json
      | none => .null)]

/-- The object of a connector. -/
def Connector.json (c : Connector) : Json :=
  .obj [("from", .str c.source), ("to", .str c.target), ("label", .ofOption c.label), ("is_fault", .bool c.isFault),
    ("is_scheduled", .bool c.isScheduled)]

/-- The object of a variable. -/
def Variable.json (v : Variable) : Json :=
  .obj [("name", .str v.name), ("data_type", .ofOption v.dataType), ("object_type", .ofOption v.objectType),
    ("description", .ofOption v.description), ("is_input", .bool v.isInput), ("is_output", .bool v.isOutput),
    ("is_collection", .bool v.isCollection)]

/-- The object of a flow, with its elements under their names. -/
def Flow.json (f : Flow) : Json :=
  .obj [("name", .str f.name), ("label", .str f.label), ("description", .ofOption f.description),
    ("process_type", .str f.processType), ("status", .ofOption f.status),
    ("elements", .obj (f.elements.entries.map fun e => (e.1, e.2.json))),
    ("connectors", .arr (f.connectors.map (·.json))), ("variables", .arr (f.vars.map (·.json)))]

/-- A flow as a JSON text. -/
def Flow.dump (f : Flow) : String :=
  f.json.pretty

end FlowDiagram

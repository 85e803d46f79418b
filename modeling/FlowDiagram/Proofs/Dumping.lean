import FlowDiagram.Output
import FlowDiagram.Proofs.JsonText

/-!
# The dump leaves nothing out

Each record has one field in its object for every field of its own, and each of them can be told from its JSON value: a text
from its absence, a kind by its name, a list item by item, and the elements with their keys in the order of the flow. The
text of a value tells the value (`Json.pretty_inj`).

Main statement: flows have the same dump only if they are the same flow (`Flow.render_json_inj`).
-/

namespace FlowDiagram

/-- A text that may be missing is told by its value, which is null where it is missing. -/
@[simp] theorem Json.ofOption_inj {s t : Option String} : ofOption s = ofOption t ↔ s = t := by
  cases s <;> cases t <;> simp [ofOption]

/-- The name of a kind is the name of no other. -/
theorem Kind.ofName?_name (k : Kind) : ofName? k.name = some k := by
  cases k <;> rfl

/-- Kinds that have the same name are the same. -/
@[simp] theorem Kind.name_inj {k l : Kind} : k.name = l.name ↔ k = l := by
  constructor
  · intro h
    have hread := congrArg ofName? h
    rw [ofName?_name, ofName?_name] at hread
    exact Option.some.inj hread
  · rintro rfl
    rfl

/-! ## Records -/

/-- The object of a condition tells the condition; so with the other records. -/
@[simp] theorem Condition.json_inj {c d : Condition} : c.json = d.json ↔ c = d := by
  cases c
  cases d
  simp [Condition.json]

/-- The object of a rule tells the rule, with its conditions in order. -/
@[simp] theorem Rule.json_inj {r s : Rule} : r.json = s.json ↔ r = s := by
  cases r
  cases s
  simp [Rule.json, List.map_inj_right]

@[simp] theorem WaitEvent.json_inj {v w : WaitEvent} : v.json = w.json ↔ v = w := by
  cases v
  cases w
  simp [WaitEvent.json, List.map_inj_right]

/-- The object of a path tells the path: its offset is a number where there is one, and null elsewhere. -/
@[simp] theorem ScheduledPath.json_inj {p q : ScheduledPath} : p.json = q.json ↔ p = q := by
  rcases p with ⟨_, _, _ | i, _, _, _, _⟩ <;> rcases q with ⟨_, _, _ | j, _, _, _, _⟩ <;> simp [ScheduledPath.json]

@[simp] theorem Trigger.json_inj {t u : Trigger} : t.json = u.json ↔ t = u := by
  cases t
  cases u
  simp [Trigger.json]

/-- The object of a trigger is not what stands for a missing one. -/
theorem Trigger.json_ne_null (t : Trigger) : t.json ≠ .null := by
  simp [Trigger.json]

/-- The object of an element tells the element, with its branches and paths in order and with or without a trigger. -/
@[simp] theorem Element.json_inj {e f : Element} : e.json = f.json ↔ e = f := by
  rcases e with ⟨_, _, _, _, _, _, _, _, _, _, _, _, _, _ | t⟩ <;>
    rcases f with ⟨_, _, _, _, _, _, _, _, _, _, _, _, _, _ | u⟩ <;>
    simp [Element.json, List.map_inj_right, Trigger.json_ne_null, (Trigger.json_ne_null _).symm, and_left_comm]

/-- The object of a connector tells the connector, with what it is taken on. -/
@[simp] theorem Connector.json_inj {c d : Connector} : c.json = d.json ↔ c = d := by
  cases c
  cases d
  simp [Connector.json]

@[simp] theorem Variable.json_inj {v w : Variable} : v.json = w.json ↔ v = w := by
  cases v
  cases w
  simp [Variable.json]

/-- Flows with the same value are the same: the elements have the same keys in the same order, each with the same value. -/
theorem Flow.json_inj {f g : Flow} : f.json = g.json ↔ f = g := by
  have hentries : ∀ m n : OrderedMap String Element,
      m.entries.map (fun e => (e.1, e.2.json)) = n.entries.map (fun e => (e.1, e.2.json)) ↔ m = n := by
    intro m n
    rw [List.map_inj_right (by simp [Prod.ext_iff]), OrderedMap.ext_iff]
  cases f
  cases g
  simp [Flow.json, hentries, List.map_inj_right]

/-- The dump of a flow tells the flow, whatever its texts hold: flows have the same dump only if they are the same, field by
field, with their elements and all their lists in the same order. -/
theorem Flow.render_json_inj {f g : Flow} {o p : DrawOptions} :
    (f.render .json o).value = (g.render .json p).value ↔ f = g := by
  have hdump : f.dump = g.dump ↔ f.json = g.json := Json.pretty_inj
  exact hdump.trans Flow.json_inj

end FlowDiagram

import FlowDiagram.Graph.Element

/-!
# Connectors

A connector is a directed transition between two elements. `Element.connectors` gives those that leave an element, in
the order in which they are drawn.
-/

namespace FlowDiagram

/-- A directed transition between two elements, each given by its name. -/
structure Connector where
  source : String
  target : String
  label : Option String := none
  isFault : Bool := false
  isScheduled : Bool := false
  deriving DecidableEq, Repr

/-- A transition without a label. -/
def Connector.plain (source target : String) : Connector :=
  { source, target }

/-- A transition with a label. -/
def Connector.labeled (source target label : String) : Connector :=
  { source, target, label := some label }

/-- A transition that is taken when its element fails. -/
def Connector.fault (source target : String) : Connector :=
  { source, target, label := some "Fault", isFault := true }

/-- A transition that is taken at a time. -/
def Connector.scheduled (source target label : String) : Connector :=
  { source, target, label := some label, isScheduled := true }

/-- The transitions of an element other than the one taken when it fails. -/
def Element.regularConnectors (e : Element) : List Connector :=
  e.next.toList.map (.plain e.name) ++
  e.byDefault.toList.map (.labeled e.name · "Default") ++
  e.rules.filterMap (fun r => r.target.map (.labeled e.name · r.title)) ++
  e.waitEvents.filterMap (fun w => w.target.map (.labeled e.name · w.title)) ++
  e.eachItem.toList.map (.labeled e.name · "Next Item") ++
  e.afterLast.toList.map (.labeled e.name · "Done") ++
  e.scheduledPaths.filterMap (fun p => p.target.map (.scheduled e.name · p.title))

/-- The transitions of an element. The one taken when it fails comes last, and only where faults are shown. -/
def Element.connectors (faults : Bool) (e : Element) : List Connector :=
  e.regularConnectors ++ if faults then e.onFault.toList.map (.fault e.name) else []

/-- A transition of an element that is not taken on a fault leaves it, and is plain, labeled or scheduled. -/
theorem Element.cases_of_mem_regularConnectors {e : Element} {c : Connector} (h : c ∈ e.regularConnectors) :
    (∃ t, c = .plain e.name t) ∨ (∃ t l, c = .labeled e.name t l) ∨ ∃ t l, c = .scheduled e.name t l := by
  simp only [Element.regularConnectors, List.mem_append, List.mem_map, List.mem_filterMap, Option.map_eq_some_iff,
    or_assoc] at h
  rcases h with ⟨t, -, rfl⟩ | ⟨t, -, rfl⟩ | ⟨r, -, t, -, rfl⟩ | ⟨w, -, t, -, rfl⟩ | ⟨t, -, rfl⟩ | ⟨t, -, rfl⟩ |
    ⟨p, -, t, -, rfl⟩
  · exact Or.inl ⟨t, rfl⟩
  · exact Or.inr (Or.inl ⟨t, _, rfl⟩)
  · exact Or.inr (Or.inl ⟨t, _, rfl⟩)
  · exact Or.inr (Or.inl ⟨t, _, rfl⟩)
  · exact Or.inr (Or.inl ⟨t, _, rfl⟩)
  · exact Or.inr (Or.inl ⟨t, _, rfl⟩)
  · exact Or.inr (Or.inr ⟨t, _, rfl⟩)

/-- A transition of an element is one of those not taken on a fault, or the one taken on a fault where faults are shown. -/
theorem Element.mem_connectors {faults : Bool} {e : Element} {c : Connector} :
    c ∈ e.connectors faults ↔
      c ∈ e.regularConnectors ∨ faults = true ∧ ∃ t, e.onFault = some t ∧ c = .fault e.name t := by
  rw [Element.connectors, List.mem_append]
  cases faults with
  | false => simp
  | true => simp [eq_comm]

/-- Every transition of an element leaves it. -/
theorem Element.source_of_mem_connectors {faults : Bool} {e : Element} {c : Connector}
    (h : c ∈ e.connectors faults) : c.source = e.name := by
  rcases Element.mem_connectors.mp h with h | ⟨-, t, -, rfl⟩
  · rcases Element.cases_of_mem_regularConnectors h with ⟨t, rfl⟩ | ⟨t, l, rfl⟩ | ⟨t, l, rfl⟩ <;> rfl
  · rfl

end FlowDiagram

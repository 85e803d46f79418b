import FlowDiagram.Graph.Flow
import FlowDiagram.Notice

/-!
# Completing a flow

In a complete flow every path has an end that is drawn: every connector leads to an element of the flow, and every
element but `START` and `END` has a connector that leaves it. `Flow.complete` makes a flow complete. It leads connectors
that lead nowhere to `END`, joins every element that nothing leaves to `END`, and adds `END` the first time that it is
needed.
-/

namespace FlowDiagram

/-- What completing a flow changed. -/
structure Completion where
  /-- Whether `END` was added. -/
  endAdded : Bool := false
  /-- How many elements were joined to `END`. -/
  terminalEdges : Nat := 0
  /-- How many connectors were led to `END`. -/
  redirected : Nat := 0
  deriving DecidableEq, Repr

/-- Whether completing a flow changed nothing. -/
def Completion.isNoop (c : Completion) : Bool :=
  !c.endAdded && c.terminalEdges == 0 && c.redirected == 0

/-- The element that is added as the end. -/
def endElement : Element :=
  { name := endName, kind := .finish, label := some "End" }

/-- A flow under completion: its elements and connectors so far, and what was changed. -/
structure Progress where
  elements : OrderedMap String Element
  connectors : List Connector
  report : Completion

namespace Progress

/-- Adds the end unless an element has its name. -/
def ensureEnd (p : Progress) : Progress :=
  if p.elements.contains endName then p
  else { p with
    elements := p.elements.insert endName endElement
    report := { p.report with endAdded := true } }

/-- Takes over a connector, leading it to the end if its target is not declared. -/
def carry (declared : String → Bool) (p : Progress) (c : Connector) : Logged Progress := do
  if declared c.target then
    return { p with connectors := p.connectors ++ [c] }
  Logged.tell (.redirected c.source c.target)
  let p := p.ensureEnd
  return { p with
    connectors := p.connectors ++ [{ c with target := endName }]
    report := { p.report with redirected := p.report.redirected + 1 } }

/-- Joins an element to the end. -/
def join (p : Progress) (name : String) : Progress :=
  let p := p.ensureEnd
  { p with
    connectors := p.connectors ++ [.plain name endName]
    report := { p.report with terminalEdges := p.report.terminalEdges + 1 } }

end Progress

/-- The elements that need a connector and have none, in order. -/
def Flow.dangling (f : Flow) : List String :=
  f.elements.keys.filter fun name =>
    name != startName && name != endName && !f.connectors.any (·.source == name)

/-- Gives every path an end. Which elements need one is settled before any is joined to the end. -/
def Flow.complete (f : Flow) : Logged (Flow × Completion) := do
  let carried ← f.connectors.foldlM (Progress.carry f.elements.contains) ⟨f.elements, [], {}⟩
  let p := f.dangling.foldl Progress.join carried
  return ({ f with elements := p.elements, connectors := p.connectors }, p.report)

end FlowDiagram

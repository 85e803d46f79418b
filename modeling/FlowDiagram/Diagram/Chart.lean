import FlowDiagram.Diagram.Name
import FlowDiagram.Diagram.Style
import FlowDiagram.Graph.Flow
import FlowDiagram.Notice

/-!
# Charts

A chart is what a diagram shows: nodes, edges and the colours of nodes (`Chart`). `Flow.chart` makes it from a flow,
in the order of its elements and connectors, and `Chart.text` writes it down, one line for each thing. `Flow.draw`
does both and tells of nodes that fall together.
-/

namespace FlowDiagram

/-- What a diagram shows of a flow. -/
structure DrawOptions where
  /-- Whether nodes show labels rather than names. -/
  labels : Bool := true
  /-- Whether transitions taken on faults are drawn in their own way. -/
  faults : Bool := false
  deriving DecidableEq, Repr

namespace Diagram

/-- A node. -/
structure Node where
  id : String
  outline : Outline
  text : String
  deriving DecidableEq, Repr

/-- The line of an edge. -/
inductive Arrow where
  | solid
  | thick
  | dotted
  deriving DecidableEq, Repr

/-- An arrow as it is written. -/
def Arrow.text : Arrow → String
  | solid => "-->"
  | thick => "==>"
  | dotted => "-.->"

/-- An edge. -/
structure Edge where
  source : String
  arrow : Arrow
  label : Option String
  target : String
  deriving DecidableEq, Repr

/-- The class of a node. -/
structure Colouring where
  id : String
  style : StyleClass
  deriving DecidableEq, Repr

/-- What a diagram shows. -/
structure Chart where
  nodes : List Node
  edges : List Edge
  colourings : List Colouring
  deriving DecidableEq, Repr

/-- The node of an element. -/
def Node.ofElement (o : DrawOptions) (e : Element) : Node where
  id := identifier e.name
  outline := e.kind.outline
  text := plainLabel (if o.labels then e.title else e.name)

/-- The line of a connector. A transition taken on a fault stands out only where faults are drawn in their own way. -/
def Arrow.ofConnector (o : DrawOptions) (c : Connector) : Arrow :=
  if c.isFault && o.faults then .dotted
  else if c.isScheduled then .thick
  else .solid

/-- The edge of a connector. An empty label is not shown. -/
def Edge.ofConnector (o : DrawOptions) (c : Connector) : Edge where
  source := identifier c.source
  arrow := .ofConnector o c
  label := (c.label.filter (!·.isEmpty)).map plainLabel
  target := identifier c.target

/-- The class of the node of an element, if it has one. -/
def Colouring.ofElement? (e : Element) : Option Colouring :=
  e.kind.styleClass?.map fun style => ⟨identifier e.name, style⟩

/-- The first line of every diagram. -/
def header : String := "flowchart TD"

/-- The blanks before every other line. -/
def indent : String := "    "

/-- A node as a line. -/
def Node.line (n : Node) : String :=
  indent ++ n.id ++ n.outline.opening ++ n.text ++ n.outline.closing

/-- An edge as a line. -/
def Edge.line (e : Edge) : String :=
  match e.label with
  | some label => indent ++ e.source ++ e.arrow.text ++ "|" ++ label ++ "|" ++ e.target
  | none => indent ++ e.source ++ e.arrow.text ++ e.target

/-- The definition of a class as a line. -/
def StyleClass.line (c : StyleClass) : String :=
  indent ++ "classDef " ++ c.name ++ " " ++ c.definition

/-- The class of a node as a line. -/
def Colouring.line (c : Colouring) : String :=
  indent ++ "class " ++ c.id ++ " " ++ c.style.name

/-- The lines of a chart: header, nodes, edges, definitions of classes, and classes of nodes. -/
def Chart.lines (c : Chart) : List String :=
  [header] ++ c.nodes.map (·.line) ++ [""] ++ c.edges.map (·.line) ++ ["", indent ++ "%% Styling"] ++
    StyleClass.all.map (·.line) ++ c.colourings.map (·.line)

/-- Lines as a text, each with the line feed that ends it. -/
def unlines (lines : List String) : String :=
  String.join (lines.map (· ++ "\n"))

/-- The text of lines is the first line with its line feed, and then the text of the others. -/
theorem unlines_cons (l : String) (ls : List String) : unlines (l :: ls) = l ++ "\n" ++ unlines ls := by
  simp [unlines]

/-- The text of lines is put together from the texts of their parts. -/
theorem unlines_append (ks ls : List String) : unlines (ks ++ ls) = unlines ks ++ unlines ls := by
  simp [unlines]

/-- A chart as a text. -/
def Chart.text (c : Chart) : String :=
  unlines c.lines

end Diagram

open Diagram

/-- The chart of a flow. -/
def Flow.chart (o : DrawOptions) (f : Flow) : Chart where
  nodes := f.elements.values.map (.ofElement o)
  edges := f.connectors.map (.ofConnector o)
  colourings := f.elements.values.filterMap Colouring.ofElement?

/-- The diagram of a flow, with a notice for every identifier that several elements share. -/
def Flow.draw (o : DrawOptions) (f : Flow) : Logged String :=
  let text := (f.chart o).text
  ⟨(collisions f.elements.keys).map (fun c => .collision c.id c.names) ++
    [.drawn f.name f.elements.size f.connectors.length text.utf8ByteSize], text⟩

/-- What is drawn of a flow is the text of its chart. -/
theorem Flow.value_draw (o : DrawOptions) (f : Flow) : (f.draw o).value = (f.chart o).text := rfl

end FlowDiagram

import FlowDiagram.Graph.Element

/-!
# How elements are drawn

Each kind of element has a node outline of its own (`Kind.outline`), and most belong to one of nine colour classes
(`Kind.styleClass?`).
-/

namespace FlowDiagram.Diagram

/-- The marks that open and close a node. -/
structure Outline where
  opening : String
  closing : String
  deriving DecidableEq, Repr

/-- The outline of a node that is nothing special. -/
def box : Outline :=
  ⟨"[", "]"⟩

/-- The colour classes, by what their elements do. -/
inductive StyleClass where
  | startEnd
  | decision
  | screen
  | recordOperation
  | action
  | loop
  | wait
  | subflow
  | error
  deriving DecidableEq, Repr

namespace StyleClass

/-- All classes, in the order in which they are defined in a diagram. -/
def all : List StyleClass :=
  [startEnd, decision, screen, recordOperation, action, loop, wait, subflow, error]

/-- The name of a class. -/
def name : StyleClass → String
  | startEnd => "startEnd"
  | decision => "decision"
  | screen => "screen"
  | recordOperation => "recordOperation"
  | action => "action"
  | loop => "loop"
  | wait => "wait"
  | subflow => "subflow"
  | error => "error"

/-- The colours of a class. -/
def definition : StyleClass → String
  | startEnd => "fill:#d4edda,stroke:#28a745,stroke-width:2px"
  | decision => "fill:#fff3cd,stroke:#ffc107,stroke-width:2px"
  | screen => "fill:#cce5ff,stroke:#004085,stroke-width:2px"
  | recordOperation => "fill:#e2d9f3,stroke:#6f42c1,stroke-width:2px"
  | action => "fill:#d1ecf1,stroke:#17a2b8,stroke-width:2px"
  | loop => "fill:#ffe5d0,stroke:#fd7e14,stroke-width:2px"
  | wait => "fill:#e9ecef,stroke:#6c757d,stroke-width:2px"
  | subflow => "fill:#d6f5f5,stroke:#20c997,stroke-width:2px"
  | error => "fill:#f8d7da,stroke:#dc3545,stroke-width:2px"

end StyleClass

end FlowDiagram.Diagram

namespace FlowDiagram.Kind

open Diagram

/-- The outline of the nodes of a kind. -/
def outline : Kind → Outline
  | start => ⟨"([", "])"⟩
  | finish => ⟨"((", "))"⟩
  | decision => ⟨"\x7b", "\x7d"⟩
  | screen => ⟨"[/", "/]"⟩
  | recordCreate => ⟨"[(", ")]"⟩
  | recordUpdate => ⟨"[(", ")]"⟩
  | recordDelete => ⟨"[(", ")]"⟩
  | recordLookup => ⟨"[(", ")]"⟩
  | recordRollback => ⟨"[(", ")]"⟩
  | assignment => box
  | loop => ⟨"\x7b\x7b", "\x7d\x7d"⟩
  | subflow => ⟨"[[", "]]"⟩
  | action => ⟨">", "]"⟩
  | apex => ⟨">", "]"⟩
  | collection => ⟨"[\\", "\\]"⟩
  | wait => ⟨"(", ")"⟩
  | customError => ⟨"[/", "\\]"⟩
  | transform => ⟨"[\\", "/]"⟩
  | orchestratedStage => ⟨"[[", "]]"⟩
  | step => box

/-- The class that the nodes of a kind are coloured by, if they are coloured. -/
def styleClass? : Kind → Option StyleClass
  | start => some .startEnd
  | finish => some .startEnd
  | decision => some .decision
  | screen => some .screen
  | recordCreate => some .recordOperation
  | recordUpdate => some .recordOperation
  | recordDelete => some .recordOperation
  | recordLookup => some .recordOperation
  | recordRollback => some .recordOperation
  | action => some .action
  | apex => some .action
  | loop => some .loop
  | wait => some .wait
  | subflow => some .subflow
  | orchestratedStage => some .subflow
  | customError => some .error
  | assignment => none
  | collection => none
  | transform => none
  | step => none

end FlowDiagram.Kind

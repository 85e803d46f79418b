import FlowDiagram.Document.Entries
import FlowDiagram.Document.Reading
import FlowDiagram.Json.Dump
import FlowDiagram.Report

/-!
# From a document to an output

The forms in which a flow can be put out (`OutputFormat`), and the ways from the text of a document to a flow
(`compileDocument`) and to its diagram (`drawDocument`).
-/

namespace FlowDiagram

/-- The forms in which a flow can be put out. -/
inductive OutputFormat where
  /-- A diagram. -/
  | mermaid
  /-- A report with a diagram in it. -/
  | markdown
  /-- The flow itself. -/
  | json
  deriving DecidableEq, Repr

namespace OutputFormat

/-- All forms. -/
def all : List OutputFormat :=
  [mermaid, markdown, json]

/-- The form that is used when none is asked for. -/
def standard : OutputFormat := mermaid

/-- What a form is called. -/
def name : OutputFormat → String
  | mermaid => "mermaid"
  | markdown => "markdown"
  | json => "json"

/-- The form of a name. -/
def ofName? (s : String) : Option OutputFormat :=
  all.find? (·.name == s)

/-- The usual extension of a file that holds a form. -/
def extension : OutputFormat → String
  | mermaid => "mmd"
  | markdown => "md"
  | json => "json"

end OutputFormat

/-- A flow in one of the forms. -/
def Flow.render (f : Flow) (format : OutputFormat) (o : DrawOptions) : Logged String :=
  match format with
  | .mermaid => f.draw o
  | .markdown => f.report o
  | .json => pure f.dump

/-- The flow that the text of a document describes. -/
def compileDocument (o : BuildOptions) (text : String) : Logged (Except Failure Flow) := do
  match ← Document.read text with
  | .error cause => return .error (.malformed cause)
  | .ok d => compile o d.source

/-- The diagram of the flow that the text of a document describes. One switch shows or hides transitions taken on
faults, both in the flow and in the drawing. -/
def drawDocument (o : DrawOptions) (text : String) : Logged (Except Failure String) := do
  match ← compileDocument { faults := o.faults } text with
  | .error e => return .error e
  | .ok f =>
    let diagram ← f.draw o
    return .ok diagram

end FlowDiagram

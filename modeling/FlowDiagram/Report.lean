import FlowDiagram.Diagram.Chart
import FlowDiagram.Text.Numeral

/-!
# Reports

A report is a Markdown document about one flow: its properties, its diagram, how many elements of each kind it has, and
its variables. The parts are tables (`Table`) whose cells cannot break out of their columns: a bar inside a cell is
written after a backslash (`cell`).
-/

namespace FlowDiagram

open Diagram

namespace Report

/-- A text as a cell of a table. -/
def cell (s : String) : String :=
  String.ofList (s.toList.flatMap fun c => if c == '|' then ['\\', '|'] else [c])

/-- Cells as a row of a table. -/
def row (cells : List String) : String :=
  "| " ++ " | ".intercalate cells ++ " |"

/-- The rule between the head of a table and its rows. -/
def headRule (columns : Nat) : String :=
  row (List.replicate columns "---")

/-- A table: the titles of its columns and its rows, as many cells as there are columns. -/
structure Table where
  head : List String
  rows : List (List String)
  deriving DecidableEq, Repr

/-- The lines of a table. -/
def Table.lines (t : Table) : List String :=
  row t.head :: headRule t.head.length :: t.rows.map row

/-- A number in decimal. -/
def number (n : Nat) : String :=
  String.ofList (Text.natDecimal n)

/-- A flag in words. -/
def yesNo (b : Bool) : String :=
  if b then "Yes" else "No"

/-- The type of a variable: its data type, and the object type in brackets if it has both. -/
def typeOf (v : Variable) : String :=
  match v.dataType, v.objectType with
  | some d, some o => d ++ " (" ++ o ++ ")"
  | some d, none => d
  | none, some o => o
  | none, none => ""

/-- The properties of a flow. -/
def propertyTable (f : Flow) : Table where
  head := ["Property", "Value"]
  rows :=
    [["API Name", cell f.name], ["Process Type", cell f.processType]] ++
    f.status.toList.map (fun s => ["Status", cell s]) ++
    [["Elements", number f.summary.elements], ["Connectors", number f.summary.connectors]]

/-- How many elements of each kind a flow has. -/
def kindTable (f : Flow) : Table where
  head := ["Type", "Count"]
  rows := f.summary.kinds.entries.map fun e => [e.1.name, number e.2]

/-- A variable as a row. -/
def variableRow (v : Variable) : List String :=
  [cell v.name, cell (typeOf v), yesNo v.isInput, yesNo v.isOutput, yesNo v.isCollection]

/-- The variables of a flow. -/
def variableTable (f : Flow) : Table where
  head := ["Name", "Type", "Input", "Output", "Collection"]
  rows := f.vars.map variableRow

/-- A part of a report that is left out if its table has no rows. -/
def part (title : String) (t : Table) : List String :=
  if t.rows.isEmpty then [] else ["", "## " ++ title, ""] ++ t.lines

/-- The lines of the fence that a diagram stands in. -/
def fenced (diagram : String) : String :=
  "```mermaid\n" ++ diagram ++ "```\n"

/-- A fence adds a line before the lines of a diagram and one behind them. -/
theorem fenced_unlines (ls : List String) : fenced (unlines ls) = unlines ("```mermaid" :: (ls ++ ["```"])) := by
  simp [fenced, unlines, String.append_assoc]

/-- The report on a flow around its diagram. -/
def text (f : Flow) (diagram : String) : String :=
  unlines (["# " ++ f.label, ""] ++ f.description.toList.flatMap (fun d => [d, ""]) ++ (propertyTable f).lines ++
    ["", "## Diagram", ""]) ++
  fenced diagram ++
  unlines (part "Elements" (kindTable f) ++ part "Variables" (variableTable f))

end Report

/-- The report on a flow, with the notices of its diagram. -/
def Flow.report (o : DrawOptions) (f : Flow) : Logged String := do
  let diagram ← f.draw o
  return Report.text f diagram

end FlowDiagram

import Mathlib.Algebra.GroupWithZero.Nat
import FlowDiagram.Proofs.ChartText
import FlowDiagram.Proofs.Tables

/-!
# The numbers in a report

A report says three times how many elements a flow has: in the table of its properties, in the table of its kinds, and by the
nodes of its diagram. The first number is the size of a map, the others come from going through its values, kind by kind and
one by one. A number is read from the second cell of a row (`readCount?`), as any reader of the report would do it.

Main statement: the kinds are counted exactly, and the numbers of a report agree with each other and with what is drawn in it
(`counts_report`).
-/

namespace FlowDiagram

open Diagram Report Text

/-! ## Counting elements -/

/-- Counting one more adds one to the sum of all counts, whether its kind was counted before or not. -/
theorem sum_values_upsert_succ (m : OrderedMap Kind Nat) (k : Kind) :
    (m.upsert k fun n => n.getD 0 + 1).values.sum = m.values.sum + 1 := by
  obtain ⟨es, h⟩ := m
  simp only [OrderedMap.values, OrderedMap.upsert]
  clear h
  induction es with
  | nil => rfl
  | cons e r ih =>
    rw [OrderedMap.upsertEntries]
    split
    · simp only [List.map_cons, List.sum_cons, Option.getD_some]
      omega
    · simp only [List.map_cons, List.sum_cons, ih]
      omega

/-- The counts add up to how many kinds were counted, repeated ones as often as they are repeated. -/
theorem sum_values_countKinds (kinds : List Kind) : (countKinds kinds).values.sum = kinds.length := by
  have hrun : ∀ m : OrderedMap Kind Nat,
      (kinds.foldl (fun m k => m.upsert k fun n => n.getD 0 + 1) m).values.sum = m.values.sum + kinds.length := by
    induction kinds with
    | nil => exact fun m => rfl
    | cons k kinds ih =>
      intro m
      rw [List.foldl_cons, ih, sum_values_upsert_succ, List.length_cons]
      omega
  exact (hrun .empty).trans (Nat.zero_add _)

/-- The kinds that occur in a flow, in the order of first occurrence, each with the number of its elements. -/
theorem Flow.entries_kinds_summary (f : Flow) :
    f.summary.kinds.entries =
      (f.elements.values.map (·.kind)).eraseDups.map fun k => (k, f.elements.values.countP (·.kind == k)) := by
  rw [summary, entries_countKinds]
  apply List.map_congr_left
  intro k _
  rw [List.count, List.countP_map]
  rfl

/-- The numbers of elements of all kinds add up to the number of elements. -/
theorem Flow.sum_kinds_summary (f : Flow) : f.summary.kinds.values.sum = f.summary.elements := by
  rw [summary, sum_values_countKinds, List.length_map, OrderedMap.values, List.length_map]
  rfl

/-! ## Numbers in rows -/

namespace Report

/-- The title of a row of two cells, and the number that it gives. -/
def readCount? (line : String) : Option (String × Nat) :=
  match readRow? line with
  | some [title, n] => (readNat? n.toList).map (title, ·)
  | _ => none

/-- A number reads back from the row of a title that has no bar. -/
theorem readCount?_row {title : String} (h : '|' ∉ title.toList) (n : Nat) :
    readCount? (row [title, number n]) = some (title, n) := by
  have hcells : [title, number n] = [title, number n].map cell := by
    simp only [List.map_cons, List.map_nil, cell_of_not_mem h, cell_number]
  rw [readCount?, hcells, readRow?_row]
  simp only [number, String.toList_ofList, readNat?_natDecimal, Option.map_some]

end Report

theorem Kind.bar_not_mem_name (k : Kind) : '|' ∉ k.name.toList := by
  cases k <;> decide

namespace Flow

theorem kindRows_infix (o : DrawOptions) (f : Flow) : (kindTable f).rows.map row <:+: f.reportLines o :=
  (rows_infix_part "Elements" _).trans (List.infix_of_mem_flatten (by simp [reportParts]))

/-- The diagram stands in the lines of a report, inside of its fence. -/
theorem fence_infix (o : DrawOptions) (f : Flow) : "```mermaid" :: ((f.chart o).lines ++ ["```"]) <:+: f.reportLines o :=
  List.infix_of_mem_flatten (by simp [reportParts])

/-- The rows of the table of kinds give the kinds of the summary with their numbers. -/
theorem readCount?_kindTable (f : Flow) :
    ((kindTable f).rows.map row).mapM readCount? = some (f.summary.kinds.entries.map fun e => (e.1.name, e.2)) := by
  have hread : ∀ e : Kind × Nat, readCount? (row [e.1.name, number e.2]) = some (e.1.name, e.2) :=
    fun e => readCount?_row e.1.bar_not_mem_name e.2
  rw [kindTable, List.map_map, List.mapM_map]
  simp only [Function.comp_def, hread]
  exact List.mapM_pure

/-- The last two rows of the table of properties. -/
theorem totals_suffix (f : Flow) :
    [row ["Elements", number f.summary.elements], row ["Connectors", number f.summary.connectors]] <:+
      (propertyTable f).rows.map row := by
  rw [propertyTable, List.map_append]
  exact List.suffix_append _ _

end Flow

/-- The kinds of a flow are counted exactly: those that occur, each once and in the order of first occurrence, with the number
of elements of the kind, and the numbers add up to that of all elements. So the numbers of a report agree. Those in its table
of kinds are the exact ones. Their sum stands in its table of properties and is the number of lines that the diagram inside of
its fence has for nodes; and what the properties give as connectors is the number of lines that it has for edges. -/
theorem counts_report (o : DrawOptions) (f : Flow) :
    f.summary.kinds.entries =
        (f.elements.values.map (·.kind)).eraseDups.map (fun k => (k, f.elements.values.countP (·.kind == k))) ∧
      f.summary.kinds.values.sum = f.summary.elements ∧
      (f.report o).value = unlines (f.reportLines o) ∧
      (kindTable f).rows.map row <:+: f.reportLines o ∧
      ((kindTable f).rows.map row).mapM readCount? = some (f.summary.kinds.entries.map fun e => (e.1.name, e.2)) ∧
      (propertyTable f).rows.map row <:+: f.reportLines o ∧
      "```mermaid" :: ((f.chart o).lines ++ ["```"]) <:+: f.reportLines o ∧
      ∃ elementsRow connectorsRow nodes edges styling,
        [elementsRow, connectorsRow] <:+ (propertyTable f).rows.map row ∧
        (f.chart o).lines.splitOn "" = [header :: nodes, edges, styling] ∧
        readCount? elementsRow = some ("Elements", f.summary.kinds.values.sum) ∧
        f.summary.kinds.values.sum = nodes.length ∧
        readCount? connectorsRow = some ("Connectors", edges.length) := by
  have hnodes : f.summary.elements = ((f.chart o).nodes.map (·.line)).length := by
    rw [List.length_map, Flow.chart, List.length_map, OrderedMap.values, List.length_map]
    rfl
  have hedges : f.summary.connectors = ((f.chart o).edges.map (·.line)).length := by
    rw [List.length_map, Flow.chart, List.length_map]
    rfl
  refine ⟨f.entries_kinds_summary, f.sum_kinds_summary, f.value_report o, f.kindRows_infix o, f.readCount?_kindTable,
    f.propertyRows_infix o, f.fence_infix o, _, _, _, _, _, f.totals_suffix, Chart.splitOn_lines _, ?_, ?_, ?_⟩
  · rw [f.sum_kinds_summary]
    exact readCount?_row (by decide) _
  · rw [f.sum_kinds_summary, hnodes]
  · rw [← hedges]
    exact readCount?_row (by decide) _

end FlowDiagram

import FlowDiagram.Report

/-!
# What the tables of a report tell

A row is read without knowing how it was made. It is cut at every bar, except where a backslash stands right before the bar
(`pieces`). From each of its inner pieces one blank is taken away at either end, and then every backslash with a bar behind it
gives way to the bar (`readCell?`).

A cell has a backslash before each of its bars, but its backslashes stand for themselves. This does no harm: the backslash
before a bar is always one that was put there, and a blank keeps a backslash at the end of a cell from the bar that follows
(`piecesAfter_cell`). So a row tells the texts that it was made of, whatever these are (`readRow?_row`).

Main statement: the rows about the properties of a flow and those about its variables stand in the lines of the report, and
each of them tells its texts (`readRow?_report`).
-/

namespace FlowDiagram.Report

open Diagram Text

/-! ## Reading a row -/

/-- The pieces of a text that is cut at every bar, except where a backslash stands right before it. For a bar at the start this
is a backslash right before the text. -/
def piecesAfter (backslash : Bool) : List Char → List (List Char)
  | [] => [[]]
  | c :: r =>
    if c = '|' ∧ backslash = false then [] :: piecesAfter false r
    else (piecesAfter (c == '\\') r).modifyHead (c :: ·)

/-- The pieces of a line. -/
def pieces (line : String) : List String :=
  (piecesAfter false line.toList).map String.ofList

/-- A text in which every backslash with a bar behind it has given way to the bar, from left to right. -/
def unescapeBars : List Char → List Char
  | '\\' :: '|' :: r => '|' :: unescapeBars r
  | c :: r => c :: unescapeBars r
  | [] => []

/-- A text without one blank at either end, if it has them. -/
def unpad? : List Char → Option (List Char)
  | ' ' :: r => if r.getLast? = some ' ' then some r.dropLast else none
  | _ => none

/-- The text that a piece of a row tells. -/
def readCell? (piece : String) : Option String :=
  (unpad? piece.toList).map fun s => String.ofList (unescapeBars s)

/-- The texts that a row tells, one for each of its pieces but the outer two. These must be empty. -/
def readRow? (line : String) : Option (List String) :=
  match pieces line with
  | "" :: r => if r.getLast? = some "" then r.dropLast.mapM readCell? else none
  | _ => none

/-! ## Cells -/

/-- What stands in a cell for a character. -/
def cellChars (c : Char) : List Char :=
  if c == '|' then ['\\', '|'] else [c]

/-- A character other than a bar stands for itself in a cell. -/
theorem cellChars_of_ne {c : Char} (hc : c ≠ '|') : cellChars c = [c] :=
  if_neg (by simpa using hc)

/-- A cell is written character by character. -/
theorem toList_cell (s : String) : (cell s).toList = s.toList.flatMap cellChars :=
  String.toList_ofList

/-- A text without bars is a cell as it is. -/
theorem cell_of_not_mem {s : String} (h : '|' ∉ s.toList) : cell s = s :=
  ofList_flatMap_eq_self fun _ hc => cellChars_of_ne fun hbar => h (hbar ▸ hc)

/-- No cell starts with a bar. -/
theorem head?_flatMap_cellChars (s : List Char) : (s.flatMap cellChars).head? ≠ some '|' := by
  cases s with
  | nil => simp
  | cons c s =>
    by_cases hc : c = '|'
    · simp [cellChars, hc]
    · simpa [cellChars_of_ne hc] using hc

/-- A character is what it stands for unless a bar follows it. -/
theorem unescapeBars_cons {c : Char} {r : List Char} (h : r.head? ≠ some '|') :
    unescapeBars (c :: r) = c :: unescapeBars r := by
  rw [unescapeBars]
  rintro r' - rfl
  exact h rfl

/-- A cell tells its text, whatever backslashes and bars this has. -/
theorem unescapeBars_flatMap_cellChars (s : List Char) : unescapeBars (s.flatMap cellChars) = s := by
  induction s with
  | nil => rfl
  | cons c s ih =>
    rw [List.flatMap_cons]
    by_cases hc : c = '|'
    · subst hc
      exact congrArg _ ih
    · rw [cellChars_of_ne hc, List.singleton_append, unescapeBars_cons (head?_flatMap_cellChars s), ih]

/-- A cell between blanks tells its text. -/
theorem readCell?_cell (s : String) : readCell? (" " ++ cell s ++ " ") = some s := by
  have hpiece : (" " ++ cell s ++ " ").toList = ' ' :: (s.toList.flatMap cellChars ++ [' ']) := by
    simp [toList_cell]
  rw [readCell?, hpiece, unpad?, List.getLast?_concat, if_pos rfl, List.dropLast_concat, Option.map_some,
    unescapeBars_flatMap_cellChars, String.ofList_toList]

/-! ## Rows -/

/-- A row is a bar, and then for each cell a blank, the cell, a blank and a bar. -/
theorem toList_row (c : String) (cs : List String) :
    (row (c :: cs)).toList = '|' :: (c :: cs).flatMap fun d => ' ' :: (d.toList ++ [' ', '|']) := by
  induction cs generalizing c with
  | nil => simp [row]
  | cons d cs ih =>
    have hrow : (row (c :: d :: cs)).toList = '|' :: ' ' :: (c.toList ++ ' ' :: (row (d :: cs)).toList) := by
      simp [row, String.intercalate_cons_cons]
    rw [hrow, ih, List.flatMap_cons]
    simp

/-- A cell is not cut, whatever stands before it, and its row is cut right behind it. -/
theorem piecesAfter_cell (backslash : Bool) (s r : List Char) :
    piecesAfter backslash (s.flatMap cellChars ++ ' ' :: '|' :: r) =
      (s.flatMap cellChars ++ [' ']) :: piecesAfter false r := by
  induction s generalizing backslash with
  | nil => simp [piecesAfter]
  | cons c s ih =>
    by_cases hc : c = '|'
    · subst hc
      simp [cellChars, piecesAfter, ih]
    · simp [cellChars_of_ne hc, piecesAfter, hc, ih]

/-- Behind its first bar a row is cut into its cells, and nothing is left behind the last bar. -/
theorem piecesAfter_cells (texts : List String) :
    piecesAfter false ((texts.map cell).flatMap fun d => ' ' :: (d.toList ++ [' ', '|'])) =
      texts.map (fun s => (" " ++ cell s ++ " ").toList) ++ [[]] := by
  induction texts with
  | nil => rfl
  | cons s texts ih =>
    have hfirst : (((s :: texts).map cell).flatMap fun d => ' ' :: (d.toList ++ [' ', '|'])) =
        ' ' :: (s.toList.flatMap cellChars ++
          ' ' :: '|' :: (texts.map cell).flatMap fun d => ' ' :: (d.toList ++ [' ', '|'])) := by
      simp [toList_cell]
    rw [hfirst, piecesAfter, if_neg (by decide), piecesAfter_cell, ih]
    simp [toList_cell]

/-- A row has an empty piece at either end, and between them its cells, each with a blank at either end. -/
theorem pieces_row (s : String) (texts : List String) :
    pieces (row ((s :: texts).map cell)) = "" :: ((s :: texts).map (fun t => " " ++ cell t ++ " ") ++ [""]) := by
  rw [pieces, List.map_cons, toList_row, ← List.map_cons, piecesAfter, if_pos ⟨rfl, rfl⟩, piecesAfter_cells, List.map_cons,
    List.map_append, List.map_map]
  simp only [Function.comp_def, String.ofList_toList]
  rfl

/-- A row tells the texts that its cells were made of. -/
theorem readRow?_row (s : String) (texts : List String) : readRow? (row ((s :: texts).map cell)) = some (s :: texts) := by
  have hcells : ((s :: texts).map fun t => " " ++ cell t ++ " ").mapM readCell? = some (s :: texts) := by
    rw [List.mapM_map, Function.comp_def, funext readCell?_cell]
    exact List.mapM_pure.trans (congrArg some (List.map_id (s :: texts)))
  rw [readRow?, pieces_row]
  simp only [List.getLast?_concat, if_true, List.dropLast_concat, hcells]

/-! ## The tables of a report -/

/-- A number is a cell as it is. -/
theorem cell_number (n : Nat) : cell (number n) = number n := by
  refine cell_of_not_mem fun h => ?_
  rw [number, String.toList_ofList] at h
  exact absurd (isDigit_of_mem_natDecimal h) (by decide)

theorem rows_infix_lines (t : Table) : t.rows.map row <:+: t.lines :=
  List.IsSuffix.isInfix ⟨[row t.head, headRule t.head.length], rfl⟩

/-- A part that is left out has a table without rows. -/
theorem rows_infix_part (title : String) (t : Table) : t.rows.map row <:+: part title t := by
  unfold part
  split
  · next h =>
    rw [List.isEmpty_iff.mp h]
    exact List.infix_rfl
  · exact (rows_infix_lines t).trans (List.suffix_append _ _).isInfix

end FlowDiagram.Report

namespace FlowDiagram

open Diagram Report

namespace Flow

/-- The parts of the report on a flow, line by line: its heading, its properties, its diagram inside of a fence, the numbers of
its elements, and its variables. -/
def reportParts (o : DrawOptions) (f : Flow) : List (List String) :=
  [["# " ++ f.label, ""] ++ f.description.toList.flatMap fun d => [d, ""], (propertyTable f).lines,
    ["", "## Diagram", ""], "```mermaid" :: ((f.chart o).lines ++ ["```"]), part "Elements" (kindTable f),
    part "Variables" (variableTable f)]

/-- The lines of the report on a flow. -/
def reportLines (o : DrawOptions) (f : Flow) : List String :=
  (f.reportParts o).flatten

/-- A report is written in its lines. -/
theorem value_report (o : DrawOptions) (f : Flow) : (f.report o).value = unlines (f.reportLines o) := by
  have htext : (f.report o).value = Report.text f (unlines (f.chart o).lines) := rfl
  rw [htext, Report.text, fenced_unlines, ← unlines_append, ← unlines_append]
  simp only [reportLines, reportParts, List.flatten_cons, List.flatten_nil, List.append_nil, List.append_assoc]

/-- The rows of the table of properties stand in the lines of a report. -/
theorem propertyRows_infix (o : DrawOptions) (f : Flow) : (propertyTable f).rows.map row <:+: f.reportLines o :=
  (rows_infix_lines _).trans (List.infix_of_mem_flatten (by simp [reportParts]))

end Flow

/-- A backslash at the end of a cell, and one right before a bar, is neither lost nor taken for one that escapes. -/
example : readRow? (row [cell "a\\|", cell "\\", cell ""]) = some ["a\\|", "\\", ""] := by
  decide

end FlowDiagram

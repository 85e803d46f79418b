import FlowDiagram.Proofs.ChartText
import FlowDiagram.Text.Blank

/-!
# Reading the lines of a diagram

Two empty lines set the lines of a diagram apart, so those that stand for nodes, for edges and for the classes of nodes are
found without knowing what was drawn (`nodeLines`, `edgeLines`, `classLines`). On such a line an identifier reaches up to the
first character that no identifier holds. It is read behind the opening of the line (`identifierBehind`), with the outline, the
arrow or the class following it (`restBehind`), and at the end of the line of an edge (`finalIdentifier`).

Main statements: the lines that are found in a chart are those of its parts (`Chart.edgeLines_lines` and its like), and what is
read from the line of a node, of an edge or of a colouring is what it was written with (`Edge.identifierBehind_line`,
`Edge.finalIdentifier_line`, `Edge.arrow_line` and their like).
-/

namespace FlowDiagram.Diagram

open Text

/-! ## Lines -/

/-- The opening of the lines that give nodes their classes. -/
def classOpening : String :=
  indent ++ "class "

/-- The lines of a diagram that stand for nodes: those behind the first line, up to an empty one. -/
def nodeLines (lines : List String) : List String :=
  ((lines.splitOn "").getD 0 []).drop 1

/-- The lines of a diagram that stand for edges: those between the first empty line and the second. -/
def edgeLines (lines : List String) : List String :=
  (lines.splitOn "").getD 1 []

/-- The lines of a diagram that give nodes their classes: those behind the second empty line that open in their way. -/
def classLines (lines : List String) : List String :=
  ((lines.splitOn "").getD 2 []).filter fun l => classOpening.toList.isPrefixOf l.toList

/-- The lines of a chart that stand for nodes are those of its nodes, in order. -/
theorem Chart.nodeLines_lines (c : Chart) : nodeLines c.lines = c.nodes.map (·.line) := by
  rw [nodeLines, splitOn_lines]
  rfl

/-- The lines of a chart that stand for edges are those of its edges, in order. -/
theorem Chart.edgeLines_lines (c : Chart) : edgeLines c.lines = c.edges.map (·.line) := by
  rw [edgeLines, splitOn_lines]
  rfl

/-- The line that defines a class opens in another way than those that give nodes their classes. -/
theorem StyleClass.not_isPrefixOf_line (c : StyleClass) : classOpening.toList.isPrefixOf c.line.toList = false := by
  have hopening : classOpening.toList = indent.toList ++ "class ".toList := String.toList_append
  have hline : c.line.toList = indent.toList ++ ("classDef ".toList ++ (c.name ++ " " ++ c.definition).toList) := by
    rw [← String.toList_append, ← String.toList_append, StyleClass.line]
    simp only [String.append_assoc]
  rw [Bool.eq_false_iff, ne_eq, List.isPrefixOf_iff_prefix, hopening, hline, List.prefix_append_right_inj]
  rintro ⟨r, hr⟩
  simp at hr

/-- The line that gives a node its class is the opening of these lines, and behind it the node and the class. -/
theorem Colouring.line_eq (c : Colouring) : c.line = classOpening ++ c.id ++ (" " ++ c.style.name) := by
  rw [Colouring.line, classOpening]
  simp only [String.append_assoc]

/-- The line that gives a node its class opens in the way of these lines. -/
theorem Colouring.isPrefixOf_line (c : Colouring) : classOpening.toList.isPrefixOf c.line.toList = true := by
  rw [line_eq, String.append_assoc, String.toList_append, List.isPrefixOf_iff_prefix]
  exact List.prefix_append _ _

/-- The lines of a chart that give nodes their classes are those of its colourings, in order. -/
theorem Chart.classLines_lines (c : Chart) : classLines c.lines = c.colourings.map (·.line) := by
  have hstyling : classOpening.toList.isPrefixOf (indent ++ "%% Styling").toList = false := by
    decide
  have hdefinitions : (StyleClass.all.map (·.line)).filter (fun l => classOpening.toList.isPrefixOf l.toList) = [] := by
    rw [List.filter_eq_nil_iff]
    intro l hl
    obtain ⟨k, -, rfl⟩ := List.mem_map.mp hl
    rw [k.not_isPrefixOf_line]
    exact Bool.false_ne_true
  have hclasses : (c.colourings.map (·.line)).filter (fun l => classOpening.toList.isPrefixOf l.toList) =
      c.colourings.map (·.line) := by
    rw [List.filter_eq_self]
    intro l hl
    obtain ⟨k, -, rfl⟩ := List.mem_map.mp hl
    exact k.isPrefixOf_line
  have hpart : classLines c.lines =
      ((indent ++ "%% Styling") :: (StyleClass.all.map (·.line) ++ c.colourings.map (·.line))).filter fun l =>
        classOpening.toList.isPrefixOf l.toList := by
    rw [classLines, splitOn_lines]
    rfl
  rw [hpart, List.filter_cons_of_neg (by rw [hstyling]; exact Bool.false_ne_true), List.filter_append, hdefinitions, hclasses,
    List.nil_append]

/-! ## Identifiers and what follows them -/

/-- The identifier that follows an opening of a line. -/
def identifierBehind (opening line : String) : String :=
  String.ofList ((line.toList.drop opening.toList.length).takeWhile isIdentifierChar)

/-- What follows the identifier that follows an opening of a line. -/
def restBehind (opening line : String) : List Char :=
  (line.toList.drop opening.toList.length).dropWhile isIdentifierChar

/-- The identifier that a line ends with. -/
def finalIdentifier (line : String) : String :=
  String.ofList (line.toList.reverse.takeWhile isIdentifierChar).reverse

/-- An identifier reaches up to the first character that no identifier holds. -/
theorem identifierBehind_append {opening id rest : String} (hid : IsIdentifier id)
    (hrest : ∀ c ∈ rest.toList.head?, isIdentifierChar c = false) :
    identifierBehind opening (opening ++ id ++ rest) = id := by
  rw [identifierBehind, String.toList_append, String.toList_append, List.append_assoc, List.drop_left,
    takeWhile_append_of_head? hid hrest, String.ofList_toList]

/-- What follows an identifier starts at the first character that no identifier holds. -/
theorem restBehind_append {opening id rest : String} (hid : IsIdentifier id)
    (hrest : ∀ c ∈ rest.toList.head?, isIdentifierChar c = false) :
    restBehind opening (opening ++ id ++ rest) = rest.toList := by
  rw [restBehind, String.toList_append, String.toList_append, List.append_assoc, List.drop_left,
    List.dropWhile_append_of_pos hid, dropWhile_of_head? hrest]

/-- An identifier at the end of a line reaches back to the last character that no identifier holds. -/
theorem finalIdentifier_append {start id : String} (hid : IsIdentifier id)
    (hstart : ∀ c ∈ start.toList.getLast?, isIdentifierChar c = false) : finalIdentifier (start ++ id) = id := by
  have hin : ∀ c ∈ id.toList.reverse, isIdentifierChar c = true := fun c hc => hid c (List.mem_reverse.mp hc)
  rw [← List.head?_reverse] at hstart
  rw [finalIdentifier, String.toList_append, List.reverse_append, takeWhile_append_of_head? hin hstart, List.reverse_reverse,
    String.ofList_toList]

/-- The line of a node starts with its identifier. -/
theorem Node.identifierBehind_line {n : Node} {k : Kind} (hid : IsIdentifier n.id) (houtline : n.outline = k.outline) :
    identifierBehind indent n.line = n.id := by
  obtain ⟨⟨c, r, hc, hcp⟩, -⟩ := outline_marks k
  have hline : n.line = indent ++ n.id ++ (k.outline.opening ++ n.text ++ k.outline.closing) := by
    rw [Node.line, houtline]
    simp only [String.append_assoc]
  rw [hline, identifierBehind_append hid]
  intro d hd
  rw [String.toList_append, String.toList_append, hc] at hd
  obtain rfl : c = d := Option.some.inj hd
  exact hcp

/-- The line of an edge is what it leads from, and behind it the arrow with the label and the target. -/
theorem Edge.line_eq (e : Edge) : e.line = indent ++ e.source ++ String.ofList (e.arrow.text.toList ++ e.ending) := by
  apply String.toList_inj.mp
  rw [toList_line, String.toList_append, String.toList_append, String.toList_ofList, List.append_assoc]

/-- What follows the source of an edge starts with a character that no identifier holds, since the arrow does. -/
theorem Edge.head?_arrow_ending (e : Edge) :
    ∀ c ∈ (String.ofList (e.arrow.text.toList ++ e.ending)).toList.head?, isIdentifierChar c = false := by
  obtain ⟨c, r, hc, hcp⟩ := e.arrow.exists_text
  intro d hd
  rw [String.toList_ofList, hc] at hd
  obtain rfl : c = d := Option.some.inj hd
  exact hcp

/-- The line of an edge starts with the identifier that it leads from. -/
theorem Edge.identifierBehind_line {e : Edge} (hsource : IsIdentifier e.source) :
    identifierBehind indent e.line = e.source := by
  rw [line_eq, identifierBehind_append hsource e.head?_arrow_ending]

/-- The line of an edge ends with the identifier that it leads to. -/
theorem Edge.finalIdentifier_line {e : Edge} (htarget : IsIdentifier e.target) : finalIdentifier e.line = e.target := by
  unfold Edge.line
  split
  · refine finalIdentifier_append htarget fun c hc => ?_
    rw [String.toList_append, List.getLast?_append] at hc
    obtain rfl : '|' = c := Option.some.inj hc
    decide
  · refine finalIdentifier_append htarget fun c hc => ?_
    have harrow : e.arrow.text.toList.getLast? = some '>' := by
      cases e.arrow <;> rfl
    rw [String.toList_append, List.getLast?_append, harrow] at hc
    obtain rfl : '>' = c := Option.some.inj hc
    decide

/-- What starts with an arrow starts with no other one. -/
theorem Arrow.isPrefixOf_append (a b : Arrow) (r : List Char) :
    b.text.toList.isPrefixOf (a.text.toList ++ r) = (a == b) := by
  cases a <;> cases b <;> rfl

/-- Behind the identifier that the line of an edge starts with stands the arrow of the edge, and no other. -/
theorem Edge.arrow_line {e : Edge} (hsource : IsIdentifier e.source) (a : Arrow) :
    a.text.toList.isPrefixOf (restBehind indent e.line) = (e.arrow == a) := by
  rw [line_eq, restBehind_append hsource e.head?_arrow_ending, String.toList_ofList, Arrow.isPrefixOf_append]

/-- The line that gives a node its class tells the node behind its opening. -/
theorem Colouring.identifierBehind_line {c : Colouring} (hid : IsIdentifier c.id) :
    identifierBehind classOpening c.line = c.id := by
  rw [line_eq, identifierBehind_append hid]
  intro d hd
  rw [String.toList_append] at hd
  obtain rfl : ' ' = d := Option.some.inj hd
  decide

end FlowDiagram.Diagram

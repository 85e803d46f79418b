import FlowDiagram.Document.Entries
import FlowDiagram.Proofs.Assembly
import FlowDiagram.Proofs.Outlines
import FlowDiagram.Report

/-!
# What separates the parts of a diagram

Two characters separate the parts of a diagram: a line feed ends the line of a node, an edge or a colour, and bars stand
around the label of an edge. Identifiers hold neither (`occurrences_identifier`), but labels keep both as they are
(`occurrences_plainLabel`).

Main statements: a diagram has a line feed for each of its lines and one more for each that stands in a text it shows, so its
lines are those of its chart just if no such text has one (`lineFeeds_draw_document`). The line of an edge with a label has two
bars and one more for each in the label, and is cut by its bars into arrow, label and target just if the label has none
(`cutAt_line_compile`). Both kinds of text occur (`not_lineCount_draw_document`, `not_two_bars_compile`).
-/

namespace FlowDiagram.Diagram

/-! ## Counting and cutting -/

/-- How often a character stands in a text. -/
def occurrences (c : Char) (s : String) : Nat :=
  s.toList.count c

/-- The parts of a text before, between and after the places where a character stands. -/
def cutAt (c : Char) (s : String) : List String :=
  (s.toList.splitOn c).map String.ofList

/-- A character is in a text as often as in its two parts together. -/
theorem occurrences_append (c : Char) (s t : String) : occurrences c (s ++ t) = occurrences c s + occurrences c t := by
  rw [occurrences, String.toList_append, List.count_append]
  rfl

/-- A character is in a text zero times just if the text does not have it. -/
theorem occurrences_eq_zero_iff {c : Char} {s : String} : occurrences c s = 0 ↔ c ∉ s.toList :=
  List.count_eq_zero

/-- A text is on one line if it has no line feed. -/
theorem isOneLine_iff {s : String} : IsOneLine s ↔ occurrences '\n' s = 0 :=
  occurrences_eq_zero_iff.symm

/-- A character is missing from texts put together just if it is missing from each. -/
theorem occurrences_join_eq_zero_iff {c : Char} {ls : List String} :
    occurrences c (String.join ls) = 0 ↔ ∀ l ∈ ls, occurrences c l = 0 := by
  simp [occurrences, String.toList_join, List.count_eq_zero]

/-- Texts joined have a character as often as other texts joined if this holds of the texts one by one. -/
theorem occurrences_join_map_congr {α : Type} {c : Char} {f g : α → String} {xs : List α}
    (h : ∀ x ∈ xs, occurrences c (f x) = occurrences c (g x)) :
    occurrences c (String.join (xs.map f)) = occurrences c (String.join (xs.map g)) := by
  induction xs with
  | nil => rfl
  | cons x xs ih =>
    rw [List.map_cons, List.map_cons, String.join_cons, String.join_cons, occurrences_append, occurrences_append,
      h x List.mem_cons_self, ih fun y hy => h y (List.mem_cons_of_mem x hy)]

/-- A text is cut into one part more than the character has places. -/
theorem length_cutAt (c : Char) (s : String) : (cutAt c s).length = occurrences c s + 1 := by
  rw [cutAt, List.length_map, occurrences]
  induction s.toList with
  | nil => rfl
  | cons d r ih =>
    rw [List.splitOn_cons_eq_if_modifyHead, List.count_cons]
    split <;> simp [ih]

/-- A text without a character is not cut at it. -/
theorem cutAt_of_not_mem {c : Char} {s : String} (h : c ∉ s.toList) : cutAt c s = [s] := by
  rw [cutAt, List.splitOn_eq_singleton h, List.map_singleton, String.ofList_toList]

/-- A mark that is the character alone cuts a text into the parts of what stands before it and of what stands after it. -/
theorem cutAt_append (c : Char) (s mark t : String) (hmark : mark.toList = [c]) :
    cutAt c (s ++ mark ++ t) = cutAt c s ++ cutAt c t := by
  have hlist : (s ++ mark ++ t).toList = s.toList ++ c :: t.toList := by
    simp [hmark]
  rw [cutAt, hlist, List.splitOn_append_cons_self, List.map_append]
  rfl

/-! ## Separators in identifiers and labels -/

/-- The characters that separate the parts of a diagram. -/
def separators : List Char :=
  ['\n', '|']

theorem mem_separators {c : Char} : c ∈ separators ↔ c = '\n' ∨ c = '|' := by
  simp [separators]

/-- A separator stands for itself in a label, and is no part of what stands for another character. -/
theorem count_labelChars {c : Char} (hc : c ∈ separators) (d : Char) :
    (labelChars d).count c = if d = c then 1 else 0 := by
  unfold labelChars
  split
  case h_8 => simp [List.count_singleton]
  all_goals
    rcases mem_separators.1 hc with rfl | rfl <;> decide

/-- A label has the separators of the text it is made of. -/
theorem occurrences_plainLabel {c : Char} (hc : c ∈ separators) (label : String) :
    occurrences c (plainLabel label) = occurrences c label := by
  rw [occurrences, occurrences, plainLabel, String.toList_ofList]
  induction label.toList with
  | nil => rfl
  | cons d r ih =>
    rw [List.flatMap_cons, List.count_append, ih, count_labelChars hc, List.count_cons, Nat.add_comm]
    simp

/-- No identifier has a line feed or a bar. -/
theorem occurrences_identifier {c : Char} (hc : c ∈ separators) (name : String) : occurrences c (identifier name) = 0 := by
  have houtside : isIdentifierChar c = false := by
    rcases mem_separators.1 hc with rfl | rfl <;> decide
  rw [occurrences_eq_zero_iff]
  intro h
  have hinside := isIdentifier_identifier name c h
  rw [houtside] at hinside
  exact Bool.false_ne_true hinside

theorem occurrences_indent {c : Char} (hc : c ∈ separators) : occurrences c indent = 0 := by
  rcases mem_separators.1 hc with rfl | rfl <;> decide

theorem occurrences_arrow {c : Char} (hc : c ∈ separators) (a : Arrow) : occurrences c a.text = 0 := by
  rcases mem_separators.1 hc with rfl | rfl <;> cases a <;> decide

/-- The marks of an outline hold no separator, so a node has those of the text that it shows. -/
theorem occurrences_drawn {c : Char} (hc : c ∈ separators) (k : Kind) (label : String) :
    occurrences c (k.drawn label) = occurrences c label := by
  have hopening : occurrences c k.outline.opening = 0 := by
    rcases mem_separators.1 hc with rfl | rfl <;> cases k <;> decide
  have hclosing : occurrences c k.outline.closing = 0 := by
    rcases mem_separators.1 hc with rfl | rfl <;> cases k <;> decide
  rw [Kind.drawn, occurrences_append, occurrences_append, hopening, hclosing, occurrences_plainLabel hc, Nat.zero_add,
    Nat.add_zero]

/-! ## Lines -/

/-- The line feeds of a text of lines: one for each line, and those that stand inside of lines. -/
theorem occurrences_unlines (ls : List String) :
    occurrences '\n' (unlines ls) = ls.length + occurrences '\n' (String.join ls) := by
  have hfeed : occurrences '\n' "\n" = 1 := rfl
  induction ls with
  | nil => rfl
  | cons l ls ih =>
    rw [unlines_cons, String.join_cons, occurrences_append, occurrences_append, occurrences_append, hfeed, ih,
      List.length_cons]
    omega

/-- A text of lines without line feeds is cut into these lines, and nothing is left behind the last. -/
theorem cutAt_unlines {ls : List String} (h : ∀ l ∈ ls, IsOneLine l) : cutAt '\n' (unlines ls) = ls ++ [""] := by
  induction ls with
  | nil => rfl
  | cons l ls ih =>
    rw [unlines_cons, cutAt_append '\n' l "\n" _ rfl, cutAt_of_not_mem (h l List.mem_cons_self),
      ih fun m hm => h m (List.mem_cons_of_mem l hm)]
    rfl

/-- Every line of a chart but the first is empty or indented. -/
theorem Chart.indented_of_mem_lines {c : Chart} {l : String} (hl : l ∈ c.lines) :
    l = header ∨ l = "" ∨ indent.toList <+: l.toList := by
  have hindent : ∀ s : String, indent.toList <+: (indent ++ s).toList := by
    intro s
    rw [String.toList_append]
    exact List.prefix_append _ _
  simp only [Chart.lines, List.mem_append, List.mem_map, List.mem_cons, List.not_mem_nil, or_false, or_assoc] at hl
  rcases hl with rfl | ⟨n, -, rfl⟩ | rfl | ⟨e, -, rfl⟩ | rfl | rfl | ⟨k, -, rfl⟩ | ⟨k, -, rfl⟩
  · exact Or.inl rfl
  · rw [Node.line, String.append_assoc, String.append_assoc, String.append_assoc]
    exact Or.inr (Or.inr (hindent _))
  · exact Or.inr (Or.inl rfl)
  · refine Or.inr (Or.inr ?_)
    unfold Edge.line
    split <;> simp only [String.append_assoc] <;> exact hindent _
  · exact Or.inr (Or.inl rfl)
  · exact Or.inr (Or.inr (hindent _))
  · simp only [StyleClass.line, String.append_assoc]
    exact Or.inr (Or.inr (hindent _))
  · simp only [Colouring.line, String.append_assoc]
    exact Or.inr (Or.inr (hindent _))

/-! ## The parts of an edge -/

section

variable {e : Edge} {label : String}

/-- The line of an edge with a label is cut by its bars into arrow, parts of the label, and target. -/
theorem Edge.cutAt_line (hlabel : e.label = some label) (hsource : occurrences '|' e.source = 0)
    (htarget : occurrences '|' e.target = 0) :
    cutAt '|' e.line = (indent ++ e.source ++ e.arrow.text) :: (cutAt '|' label ++ [e.target]) := by
  have hstart : occurrences '|' (indent ++ e.source ++ e.arrow.text) = 0 := by
    rw [occurrences_append, occurrences_append, hsource, occurrences_indent (by decide), occurrences_arrow (by decide)]
  have hline : e.line = indent ++ e.source ++ e.arrow.text ++ "|" ++ (label ++ "|" ++ e.target) := by
    rw [Edge.line, hlabel]
    simp only [String.append_assoc]
  rw [hline, cutAt_append '|' _ "|" _ rfl, cutAt_append '|' _ "|" _ rfl, cutAt_of_not_mem (occurrences_eq_zero_iff.1 hstart),
    cutAt_of_not_mem (occurrences_eq_zero_iff.1 htarget)]
  rfl

/-- Two bars stand around the label, and the others in it. -/
theorem Edge.bars_line (hlabel : e.label = some label) (hsource : occurrences '|' e.source = 0)
    (htarget : occurrences '|' e.target = 0) : occurrences '|' e.line = 2 + occurrences '|' label := by
  have hlength := congrArg List.length (Edge.cutAt_line hlabel hsource htarget)
  rw [length_cutAt, List.length_cons, List.length_append, length_cutAt, List.length_singleton] at hlength
  omega

/-- The label is one part just if it has no bar. -/
theorem Edge.cutAt_line_eq_iff (hlabel : e.label = some label) (hsource : occurrences '|' e.source = 0)
    (htarget : occurrences '|' e.target = 0) :
    cutAt '|' e.line = [indent ++ e.source ++ e.arrow.text, label, e.target] ↔ occurrences '|' label = 0 := by
  rw [Edge.cutAt_line hlabel hsource htarget]
  constructor
  · intro h
    have hlength := congrArg List.length h
    simp only [List.length_cons, List.length_append, List.length_nil, length_cutAt] at hlength
    omega
  · intro h
    rw [cutAt_of_not_mem (occurrences_eq_zero_iff.1 h)]
    rfl

end

end FlowDiagram.Diagram

namespace FlowDiagram

open Diagram

/-! ## The lines of a diagram -/

namespace Flow

/-- How many lines the parts of a diagram need: the thirteen lines that all diagrams have, and one for each node, for each
edge and for the colour of each node that has one. -/
def lineCount (f : Flow) : Nat :=
  13 + f.elements.size + f.connectors.length + f.elements.values.countP (·.kind.styleClass?.isSome)

/-- The texts that a diagram shows: those of its nodes, and the labels of its edges. -/
def shownTexts (o : DrawOptions) (f : Flow) : List String :=
  f.elements.values.map (·.shown o) ++ f.connectors.map (·.label.getD "")

/-- How many line feeds stand in the texts that a diagram shows. -/
def shownLineFeeds (o : DrawOptions) (f : Flow) : Nat :=
  occurrences '\n' (String.join (f.shownTexts o))

/-- A flow whose diagram is written in the lines of its chart, and is inside of its fence in a report: no line of it but the
first, and those that are empty, starts further left than a fence can. -/
structure DrawnInLines (o : DrawOptions) (f : Flow) : Prop where
  lines : cutAt '\n' (f.draw o).value = (f.chart o).lines ++ [""]
  fence : cutAt '\n' (Report.fenced (f.draw o).value) = "```mermaid" :: ((f.chart o).lines ++ ["```", ""])
  inside : ∀ l ∈ (f.chart o).lines, l = header ∨ l = "" ∨ indent.toList <+: l.toList

/-- The chart of a flow has as many lines as are counted for the flow. -/
theorem length_lines_chart (o : DrawOptions) (f : Flow) : (f.chart o).lines.length = f.lineCount := by
  have hcoloured : (f.elements.values.filterMap Colouring.ofElement?).length =
      f.elements.values.countP (·.kind.styleClass?.isSome) := by
    simp only [List.length_filterMap_eq_countP, Colouring.ofElement?, Option.isSome_map]
  have hsize : f.elements.values.length = f.elements.size := List.length_map _
  simp only [Chart.lines, chart, List.length_append, List.length_map, List.length_cons, List.length_nil, hcoloured, hsize,
    lineCount, StyleClass.all]
  omega

end Flow

/-- The line of an edge has the line feeds of the label it is made of. An empty label, which is not shown, has none. -/
theorem Connector.lineFeeds_line (o : DrawOptions) (c : Connector) :
    occurrences '\n' (Edge.ofConnector o c).line = occurrences '\n' (c.label.getD "") := by
  have hsource : occurrences '\n' (Edge.ofConnector o c).source = 0 := occurrences_identifier (by decide) _
  have htarget : occurrences '\n' (Edge.ofConnector o c).target = 0 := occurrences_identifier (by decide) _
  have harrow : occurrences '\n' (Edge.ofConnector o c).arrow.text = 0 := occurrences_arrow (by decide) _
  have hindent : occurrences '\n' indent = 0 := occurrences_indent (by decide)
  have hbar : occurrences '\n' "|" = 0 := rfl
  have hlabel : (Edge.ofConnector o c).label = (c.label.filter (!·.isEmpty)).map plainLabel := rfl
  unfold Edge.line
  split
  · next l hl =>
    obtain ⟨l', hl', rfl⟩ := Option.map_eq_some_iff.mp (hlabel.symm.trans hl)
    simp only [occurrences_append, hindent, hsource, harrow, hbar, htarget, Option.eq_some_of_filter_eq_some hl',
      occurrences_plainLabel (c := '\n') (by decide), Option.getD_some, Nat.zero_add, Nat.add_zero]
  · next hl =>
    have hempty : c.label.getD "" = "" := by
      rw [hlabel, Option.map_eq_none_iff] at hl
      cases hc : c.label with
      | none => rfl
      | some l =>
        rw [hc] at hl
        simpa using hl
    rw [hempty]
    simp only [occurrences_append, hindent, hsource, harrow, htarget]
    rfl

namespace Flow

/-- A diagram has a line feed for each of its lines, and those that stand in the texts it shows. -/
theorem lineFeeds_draw (o : DrawOptions) (f : Flow) :
    occurrences '\n' (f.draw o).value = f.lineCount + f.shownLineFeeds o := by
  have hnodes : occurrences '\n' (String.join ((f.chart o).nodes.map (·.line))) =
      occurrences '\n' (String.join (f.elements.values.map (·.shown o))) := by
    simp only [chart, List.map_map]
    refine occurrences_join_map_congr fun e _ => ?_
    rw [Function.comp_apply, Kind.line_ofElement, occurrences_append, occurrences_append, occurrences_indent (by decide),
      occurrences_identifier (by decide), occurrences_drawn (by decide), Nat.zero_add]
  have hedges : occurrences '\n' (String.join ((f.chart o).edges.map (·.line))) =
      occurrences '\n' (String.join (f.connectors.map (·.label.getD ""))) := by
    simp only [chart, List.map_map]
    exact occurrences_join_map_congr fun c _ => c.lineFeeds_line o
  have hstyles : occurrences '\n' (String.join (StyleClass.all.map (·.line))) = 0 := by
    rw [occurrences_join_eq_zero_iff, List.forall_mem_map]
    exact fun c _ => isOneLine_iff.1 c.isOneLine_line
  have hcolours : occurrences '\n' (String.join ((f.chart o).colourings.map (·.line))) = 0 := by
    rw [occurrences_join_eq_zero_iff, List.forall_mem_map]
    intro k hk
    obtain ⟨e, -, he⟩ := List.mem_filterMap.mp hk
    obtain ⟨c, -, rfl⟩ := Option.map_eq_some_iff.mp he
    exact isOneLine_iff.1 (Colouring.isOneLine_line (isIdentifier_identifier e.name))
  have hfixed : occurrences '\n' header = 0 ∧ occurrences '\n' "" = 0 ∧ occurrences '\n' (indent ++ "%% Styling") = 0 := by
    decide
  have htext : (f.draw o).value = unlines (f.chart o).lines := rfl
  rw [htext, occurrences_unlines, length_lines_chart]
  simp only [Chart.lines, String.join_append, String.join_cons, String.join_nil, occurrences_append, hnodes, hedges, hstyles,
    hcolours, hfixed, shownLineFeeds, shownTexts]
  omega

/-- No text that is drawn has a line feed just if the flow is one-lined. -/
theorem shownLineFeeds_eq_zero_iff (o : DrawOptions) (f : Flow) : f.shownLineFeeds o = 0 ↔ f.OneLined o := by
  have hlabel : ∀ c : Connector, IsOneLine (c.label.getD "") ↔ ∀ l ∈ c.label, IsOneLine l := by
    intro c
    cases c.label with
    | none => simp [IsOneLine]
    | some l => simp
  rw [shownLineFeeds, occurrences_join_eq_zero_iff, shownTexts, List.forall_mem_append, List.forall_mem_map,
    List.forall_mem_map]
  simp only [← isOneLine_iff, hlabel]
  exact ⟨fun h => ⟨h.1, h.2⟩, fun h => ⟨h.nodes, h.labels⟩⟩

/-- A flow is drawn in the lines of its chart just if no text that is drawn has a line feed: the number of lines leaves no room
for a further one. -/
theorem drawnInLines_iff (o : DrawOptions) (f : Flow) : f.DrawnInLines o ↔ f.OneLined o := by
  constructor
  · intro h
    have hlength := congrArg List.length h.lines
    rw [length_cutAt, lineFeeds_draw, List.length_append, length_lines_chart, List.length_singleton] at hlength
    rw [← shownLineFeeds_eq_zero_iff]
    omega
  · intro h
    have hlines := cutAt_unlines h.legible_chart.isOneLine_lines
    refine ⟨hlines, ?_, fun l => Chart.indented_of_mem_lines⟩
    have hdrawn : (f.draw o).value = unlines (f.chart o).lines := rfl
    have hfence : ∀ l ∈ "```mermaid" :: ((f.chart o).lines ++ ["```"]), IsOneLine l := by
      intro l hl
      rcases List.mem_cons.mp hl with rfl | hl
      · decide
      · rcases List.mem_append.mp hl with hl | hl
        · exact h.legible_chart.isOneLine_lines l hl
        · rw [List.mem_singleton.mp hl]
          decide
    rw [hdrawn, Report.fenced_unlines, cutAt_unlines hfence, List.cons_append, List.append_assoc, List.singleton_append]

end Flow

/-- The diagram of a compiled document. It has a line feed for each of its lines and one for each line feed that stands in a
text it shows. So it has those of its lines alone just if no such text has one, and in these cases, and no others, it is
written in the lines of its chart, and a report has these lines and none other inside of its fence. -/
theorem lineFeeds_draw_document (b : BuildOptions) (d : Document) (o : DrawOptions) :
    ∃ f, (compile b d.source).value = .ok f ∧
      occurrences '\n' (f.draw o).value = f.lineCount + f.shownLineFeeds o ∧
      (occurrences '\n' (f.draw o).value = f.lineCount ↔ f.OneLined o) ∧
      (f.DrawnInLines o ↔ f.OneLined o) := by
  refine ⟨_, compile_value b d.entries, Flow.lineFeeds_draw o _, ?_, Flow.drawnInLines_iff o _⟩
  rw [Flow.lineFeeds_draw, ← Flow.shownLineFeeds_eq_zero_iff]
  omega

/-- A document of one step whose label has a line feed inside, where trimming does not reach it. -/
def brokenLabel : Document where
  steps
    | .steps => [{ name := some "A", label := some "a\nb" }]
    | _ => []

/-- A label can add a line to the diagram of a compiled document. -/
theorem not_lineCount_draw_document :
    ¬∀ (b : BuildOptions) (d : Document) (o : DrawOptions), ∃ f, (compile b d.source).value = .ok f ∧
      occurrences '\n' (f.draw o).value = f.lineCount := by
  intro h
  obtain ⟨f, hf, hcount⟩ := h {} brokenLabel {}
  rw [Flow.lineFeeds_draw, Nat.add_eq_left] at hcount
  rw [← Except.ok.inj hf] at hcount
  exact absurd hcount (by decide)

/-! ## The labels of a diagram -/

/-- The edges of a compiled flow. The line of one with a label has two bars and one for each bar in the label, and what the
bars cut it into are the arrow with its source, the parts of the label, and the target. So the label is all that stands
between the first bar and the next, and the target all that follows, just if no bar is in the label. -/
theorem cutAt_line_compile (b : BuildOptions) (entries : List Entry) :
    ∃ f, (compile b { entries }).value = .ok f ∧
      ∀ (o : DrawOptions), ∀ c ∈ f.connectors, ∀ l, c.label = some l → l ≠ "" →
        let line := (Edge.ofConnector o c).line
        let start := indent ++ identifier c.source ++ (Arrow.ofConnector o c).text
        line ∈ (f.chart o).lines ∧
        occurrences '|' line = 2 + occurrences '|' l ∧
        cutAt '|' line = start :: (cutAt '|' (plainLabel l) ++ [identifier c.target]) ∧
        (cutAt '|' line = [start, plainLabel l, identifier c.target] ↔ '|' ∉ l.toList) := by
  refine ⟨_, compile_value b entries, fun o c hc l hl hne => ?_⟩
  have hlabel : (Edge.ofConnector o c).label = some (plainLabel l) := by
    have hshown : (!l.isEmpty) = true := by simpa using hne
    simp only [Edge.ofConnector, hl, Option.filter_some, hshown, if_true, Option.map_some]
  have hsource : occurrences '|' (identifier c.source) = 0 := occurrences_identifier (by decide) _
  have htarget : occurrences '|' (identifier c.target) = 0 := occurrences_identifier (by decide) _
  have hbars : occurrences '|' (plainLabel l) = occurrences '|' l := occurrences_plainLabel (by decide) l
  refine ⟨?_, ?_, Edge.cutAt_line hlabel hsource htarget, ?_⟩
  · simp only [Chart.lines, Flow.chart, List.mem_append, List.mem_map]
    exact Or.inl (Or.inl (Or.inl (Or.inr ⟨_, ⟨c, hc, rfl⟩, rfl⟩)))
  · rw [Edge.bars_line hlabel hsource htarget, hbars]
  · rw [← occurrences_eq_zero_iff, ← hbars]
    exact Edge.cutAt_line_eq_iff hlabel hsource htarget

/-- A decision with a rule for each of two labels, one of which has a bar. -/
def barredLabel : List Entry :=
  [.element
    { name := "A"
      kind := .decision
      rules :=
        [{ name := "R", label := some "a|b", logic := none, conditions := [], target := some "A" },
          { name := "S", label := none, logic := none, conditions := [], target := some "A" }] }]

/-- The bar in a label cuts the label in two. A label without one is whole. -/
theorem cutAt_line_compile_barredLabel :
    ∃ f, (compile {} { entries := barredLabel }).value = .ok f ∧
      f.connectors = [.labeled "A" "A" "a|b", .labeled "A" "A" "S"] ∧
      occurrences '|' (Edge.ofConnector {} (.labeled "A" "A" "a|b")).line = 3 ∧
      cutAt '|' (Edge.ofConnector {} (.labeled "A" "A" "S")).line = ["    A-->", "S", "A"] := by
  obtain ⟨f, hf, h⟩ := cutAt_line_compile {} barredLabel
  have hconnectors : f.connectors = [.labeled "A" "A" "a|b", .labeled "A" "A" "S"] := by
    rw [← Except.ok.inj hf]
    decide
  have hbarred := h {} (.labeled "A" "A" "a|b") (by simp [hconnectors]) "a|b" rfl (by decide)
  have hwhole := h {} (.labeled "A" "A" "S") (by simp [hconnectors]) "S" rfl (by decide)
  exact ⟨f, hf, hconnectors, hbarred.2.1, hwhole.2.2.2.2 (by decide)⟩

/-- A label can add a bar to the line of its edge. -/
theorem not_two_bars_compile :
    ¬∀ (b : BuildOptions) (entries : List Entry), ∃ f, (compile b { entries }).value = .ok f ∧
      ∀ (o : DrawOptions), ∀ c ∈ f.connectors, ∀ l, c.label = some l → l ≠ "" →
        occurrences '|' (Edge.ofConnector o c).line = 2 := by
  intro h
  obtain ⟨f, hf, hbars⟩ := h {} barredLabel
  have hconnector : .labeled "A" "A" "a|b" ∈ f.connectors := by
    rw [← Except.ok.inj hf]
    decide
  exact absurd (hbars {} _ hconnector "a|b" rfl (by decide)) (by decide)

end FlowDiagram

import FlowDiagram.Diagram.Chart

/-!
# What the text of a chart tells

A line of a chart is taken apart from its left end: an identifier ends at the first character that no identifier holds, and
what follows it starts with such a character (`append_cons_inj`). The label of an edge may hold bars and arrows of its own.
It is what stands between the first bar after the arrow and the last bar of the line, since a target has none
(`Edge.line_inj`). A text is taken apart into lines in the same way, and the lines into parts at those
that are empty (`Chart.splitOn_lines`).

Main statement: flows whose labels have no line feeds have the same text only if they have the same identifiers, the same
edges and the same colours, in the same order (`draw_injective`).
-/

namespace FlowDiagram.Diagram

/-! ## Cutting at the first that is outside a class -/

/-- A list is cut in one way only where the first part lies in a class and the next element outside of it. -/
theorem append_cons_inj {α : Type} {p : α → Bool} {a b r s : List α} {x y : α} (ha : ∀ z ∈ a, p z = true)
    (hb : ∀ z ∈ b, p z = true) (hx : p x = false) (hy : p y = false) (h : a ++ x :: r = b ++ y :: s) :
    a = b ∧ x = y ∧ r = s := by
  have htake : a = b := by
    have := congrArg (List.takeWhile p) h
    simpa [List.takeWhile_append_of_pos ha, List.takeWhile_append_of_pos hb, hx, hy] using this
  subst htake
  simpa using h

/-! ## Identifiers and labels -/

/-- A text that can stand as an identifier. -/
def IsIdentifier (s : String) : Prop :=
  ∀ c ∈ s.toList, isIdentifierChar c = true

/-- What stands in an identifier for a character can stand there, whatever the character is. -/
theorem isIdentifierChar_identifierChar (c : Char) : isIdentifierChar (identifierChar c) = true := by
  unfold identifierChar
  split
  · assumption
  · rfl

/-- The identifier of a name can stand as an identifier, whatever the name is. -/
theorem isIdentifier_identifier (name : String) : IsIdentifier (identifier name) := by
  intro c hc
  rw [identifier, String.toList_ofList, List.mem_map] at hc
  obtain ⟨d, -, rfl⟩ := hc
  exact isIdentifierChar_identifierChar d

/-- A text that stays on one line. -/
def IsOneLine (s : String) : Prop :=
  '\n' ∉ s.toList

instance (s : String) : Decidable (IsOneLine s) :=
  inferInstanceAs (Decidable (¬_))

/-- A text given by its characters is on one line if none of them is a line feed. -/
theorem isOneLine_ofList {l : List Char} (h : '\n' ∉ l) : IsOneLine (String.ofList l) := by
  rwa [IsOneLine, String.toList_ofList]

/-- Texts that stay on one line do so together. -/
theorem IsOneLine.append {s t : String} (hs : IsOneLine s) (ht : IsOneLine t) : IsOneLine (s ++ t) := by
  unfold IsOneLine
  rw [String.toList_append, List.mem_append]
  exact fun h => h.elim hs ht

/-- An identifier stays on one line. -/
theorem IsIdentifier.isOneLine {s : String} (h : IsIdentifier s) : IsOneLine s :=
  fun hc => absurd (h _ hc) (by decide)

/-- What stands in a label for a character is a line feed only if the character is one. -/
theorem isOneLine_plainLabel {label : String} (h : IsOneLine label) : IsOneLine (plainLabel label) := by
  intro hc
  rw [plainLabel, String.toList_ofList, List.mem_flatMap] at hc
  obtain ⟨d, hd, hc⟩ := hc
  have hsame : '\n' = d := by
    unfold labelChars at hc
    split at hc <;> first | exact List.mem_singleton.mp hc | exact absurd hc (by decide)
  exact h (hsame ▸ hd)

/-! ## Lines -/

theorem Arrow.isOneLine_text (a : Arrow) : IsOneLine a.text := by
  cases a <;> exact isOneLine_ofList (by decide)

/-- An arrow starts with a character that no identifier holds. -/
theorem Arrow.exists_text (a : Arrow) : ∃ c r, a.text.toList = c :: r ∧ isIdentifierChar c = false := by
  cases a with
  | solid => exact ⟨'-', ['-', '>'], rfl, rfl⟩
  | thick => exact ⟨'=', ['=', '>'], rfl, rfl⟩
  | dotted => exact ⟨'-', ['.', '-', '>'], rfl, rfl⟩

/-- No arrow is the start of another. -/
theorem Arrow.text_append_inj {a b : Arrow} {r s : List Char} (h : a.text.toList ++ r = b.text.toList ++ s) :
    a = b ∧ r = s := by
  cases a <;> cases b <;> simp_all [Arrow.text]

/-- Classes of the same name are the same. -/
theorem StyleClass.name_inj {a b : StyleClass} (h : a.name = b.name) : a = b := by
  cases a <;> cases b <;> first | rfl | exact absurd h (by decide)

theorem StyleClass.isOneLine_name (c : StyleClass) : IsOneLine c.name := by
  cases c <;> exact isOneLine_ofList (by decide)

theorem isOneLine_indent : IsOneLine indent :=
  isOneLine_ofList (by decide)

/-- The line that defines a class is one line. -/
theorem StyleClass.isOneLine_line (c : StyleClass) : IsOneLine c.line := by
  have hdefinition : IsOneLine c.definition := by
    cases c <;> exact isOneLine_ofList (by decide)
  have hword : IsOneLine "classDef " := isOneLine_ofList (by decide)
  have hblank : IsOneLine " " := isOneLine_ofList (by decide)
  exact (((isOneLine_indent.append hword).append c.isOneLine_name).append hblank).append hdefinition

/-- A node whose line can be taken apart: its outline opens with a character that no identifier holds. -/
structure Node.Legible (n : Node) : Prop where
  id : IsIdentifier n.id
  outline : ∃ k : Kind, n.outline = k.outline
  text : IsOneLine n.text

/-- An edge whose line can be taken apart. -/
structure Edge.Legible (e : Edge) : Prop where
  source : IsIdentifier e.source
  target : IsIdentifier e.target
  label : ∀ l, e.label = some l → IsOneLine l

/-- The outline of every kind opens with a character that no identifier holds, and its marks stay on one line. -/
theorem outline_marks (k : Kind) :
    (∃ c r, k.outline.opening.toList = c :: r ∧ isIdentifierChar c = false) ∧ IsOneLine k.outline.opening ∧
      IsOneLine k.outline.closing := by
  cases k <;> exact ⟨⟨_, _, rfl, rfl⟩, isOneLine_ofList (by decide), isOneLine_ofList (by decide)⟩

/-- The line of a node that can be taken apart is one line. -/
theorem Node.Legible.isOneLine_line {n : Node} (h : n.Legible) : IsOneLine n.line := by
  obtain ⟨k, hk⟩ := h.outline
  obtain ⟨-, hopening, hclosing⟩ := outline_marks k
  rw [Node.line, hk]
  exact (((isOneLine_indent.append h.id.isOneLine).append hopening).append h.text).append hclosing

/-- The line of an edge that can be taken apart is one line. -/
theorem Edge.Legible.isOneLine_line {e : Edge} (h : e.Legible) : IsOneLine e.line := by
  have hstart := (isOneLine_indent.append h.source.isOneLine).append e.arrow.isOneLine_text
  have hbar : IsOneLine "|" := isOneLine_ofList (by decide)
  unfold Edge.line
  split
  · next l hl => exact (((hstart.append hbar).append (h.label l hl)).append hbar).append h.target.isOneLine
  · exact hstart.append h.target.isOneLine

/-- The line that gives a node its class is one line. -/
theorem Colouring.isOneLine_line {c : Colouring} (h : IsIdentifier c.id) : IsOneLine c.line := by
  have hword : IsOneLine "class " := isOneLine_ofList (by decide)
  have hblank : IsOneLine " " := isOneLine_ofList (by decide)
  exact (((isOneLine_indent.append hword).append h.isOneLine).append hblank).append c.style.isOneLine_name

/-- The line of a node tells its identifier. -/
theorem Node.id_eq_of_line_eq {m n : Node} (hm : m.Legible) (hn : n.Legible) (h : m.line = n.line) : m.id = n.id := by
  obtain ⟨j, hj⟩ := hm.outline
  obtain ⟨k, hk⟩ := hn.outline
  obtain ⟨⟨x, r, hx, hxp⟩, -⟩ := outline_marks j
  obtain ⟨⟨y, s, hy, hyp⟩, -⟩ := outline_marks k
  have hlist := congrArg String.toList h
  simp only [Node.line, hj, hk, String.toList_append, List.append_assoc, hx, hy, List.cons_append,
    List.append_cancel_left_eq] at hlist
  exact String.toList_inj.mp (append_cons_inj hm.id hn.id hxp hyp hlist).1

/-- What follows the arrow of an edge. -/
def Edge.ending (e : Edge) : List Char :=
  match e.label with
  | some label => '|' :: (label.toList ++ '|' :: e.target.toList)
  | none => e.target.toList

/-- The line of an edge is blanks, its source, its arrow and what follows the arrow. -/
theorem Edge.toList_line (e : Edge) :
    e.line.toList = indent.toList ++ (e.source.toList ++ (e.arrow.text.toList ++ e.ending)) := by
  unfold Edge.line Edge.ending
  cases e.label <;> simp

/-- What follows the arrow tells the label and the target. A target has no bar, so the last bar ends the label, and the two are
cut apart from the right end, where bars inside of the label do not count. -/
theorem Edge.ending_inj {d e : Edge} (hd : d.Legible) (he : e.Legible) (h : d.ending = e.ending) :
    d.label = e.label ∧ d.target = e.target := by
  have hbar : isIdentifierChar '|' = false := by decide
  unfold Edge.ending at h
  cases hdl : d.label with
  | none =>
    cases hel : e.label with
    | none =>
      simp only [hdl, hel] at h
      exact ⟨rfl, String.toList_inj.mp h⟩
    | some l =>
      simp only [hdl, hel] at h
      have := hd.target '|' (by rw [h]; exact List.mem_cons_self)
      exact absurd this (by rw [hbar]; exact Bool.false_ne_true)
  | some k =>
    cases hel : e.label with
    | none =>
      simp only [hdl, hel] at h
      have := he.target '|' (by rw [← h]; exact List.mem_cons_self)
      exact absurd this (by rw [hbar]; exact Bool.false_ne_true)
    | some l =>
      simp only [hdl, hel, List.cons.injEq, true_and] at h
      have hreverse := congrArg List.reverse h
      simp only [List.reverse_append, List.reverse_cons, List.append_assoc, List.singleton_append] at hreverse
      have hin : ∀ {f : Edge}, f.Legible → ∀ z ∈ f.target.toList.reverse, isIdentifierChar z = true :=
        fun hf z hz => hf.target z (List.mem_reverse.mp hz)
      obtain ⟨htarget, -, hlabel⟩ := append_cons_inj (hin hd) (hin he) hbar hbar hreverse
      exact ⟨congrArg some (String.toList_inj.mp (List.reverse_inj.mp hlabel)),
        String.toList_inj.mp (List.reverse_inj.mp htarget)⟩

/-- The line of an edge tells all of the edge. -/
theorem Edge.line_inj {d e : Edge} (hd : d.Legible) (he : e.Legible) (h : d.line = e.line) : d = e := by
  have hlist := congrArg String.toList h
  rw [Edge.toList_line, Edge.toList_line, List.append_cancel_left_eq] at hlist
  obtain ⟨x, r, hx, hxp⟩ := d.arrow.exists_text
  obtain ⟨y, s, hy, hyp⟩ := e.arrow.exists_text
  obtain ⟨hsource, hfirst, hrest⟩ := append_cons_inj (r := r ++ d.ending) (s := s ++ e.ending) hd.source he.source hxp hyp
    (by rw [← List.cons_append, ← List.cons_append, ← hx, ← hy]; exact hlist)
  obtain ⟨harrow, hending⟩ := Arrow.text_append_inj (a := d.arrow) (b := e.arrow) (r := d.ending) (s := e.ending)
    (by rw [hx, hy, List.cons_append, List.cons_append, hfirst, hrest])
  obtain ⟨hlabel, htarget⟩ := Edge.ending_inj hd he hending
  obtain ⟨_, _, _, _⟩ := d
  obtain ⟨_, _, _, _⟩ := e
  simp only [Edge.mk.injEq]
  exact ⟨String.toList_inj.mp hsource, harrow, hlabel, htarget⟩

/-- The line of a colouring tells the node and the class. -/
theorem Colouring.line_inj {c d : Colouring} (hc : IsIdentifier c.id) (hd : IsIdentifier d.id) (h : c.line = d.line) :
    c = d := by
  have hlist := congrArg String.toList h
  simp only [Colouring.line, String.toList_append, List.append_assoc, List.append_cancel_left_eq] at hlist
  have hblank : isIdentifierChar ' ' = false := by decide
  obtain ⟨hid, -, hname⟩ := append_cons_inj hc hd hblank hblank hlist
  obtain ⟨_, _⟩ := c
  obtain ⟨_, _⟩ := d
  simp only [Colouring.mk.injEq]
  exact ⟨String.toList_inj.mp hid, StyleClass.name_inj (String.toList_inj.mp hname)⟩

/-! ## Texts of lines -/

/-- A text tells its lines if none of them has a line feed. -/
theorem unlines_inj {xs ys : List String} (hx : ∀ l ∈ xs, IsOneLine l) (hy : ∀ l ∈ ys, IsOneLine l)
    (h : unlines xs = unlines ys) : xs = ys := by
  have hcons : ∀ (l : String) (ls : List String), (unlines (l :: ls)).toList = l.toList ++ '\n' :: (unlines ls).toList := by
    intro l ls
    simp [unlines_cons]
  have hnil : (unlines []).toList = [] := rfl
  have hfeed : ∀ {l : String}, IsOneLine l → ∀ c ∈ l.toList, (c != '\n') = true :=
    fun hl c hc => bne_iff_ne.2 fun heq => hl (heq ▸ hc)
  induction xs generalizing ys with
  | nil =>
    cases ys with
    | nil => rfl
    | cons y ys =>
      have := congrArg String.toList h
      simp [hcons, hnil] at this
  | cons x xs ih =>
    cases ys with
    | nil =>
      have := congrArg String.toList h
      simp [hcons, hnil] at this
    | cons y ys =>
      have hlist := congrArg String.toList h
      rw [hcons, hcons] at hlist
      obtain ⟨hline, -, hrest⟩ := append_cons_inj (hfeed (hx x List.mem_cons_self)) (hfeed (hy y List.mem_cons_self))
        (by decide) (by decide) hlist
      rw [String.toList_inj.mp hline, ih (fun l hl => hx l (List.mem_cons_of_mem x hl))
        (fun l hl => hy l (List.mem_cons_of_mem y hl)) (String.toList_inj.mp hrest)]

/-- Lists that a function maps to the same list are the same where the function tells their members apart. -/
theorem map_eq_of_map_eq {α β γ : Type} {f : α → β} {g : α → γ} {xs ys : List α}
    (hfg : ∀ x ∈ xs, ∀ y ∈ ys, f x = f y → g x = g y) (h : xs.map f = ys.map f) : xs.map g = ys.map g := by
  induction xs generalizing ys with
  | nil =>
    cases ys with
    | nil => rfl
    | cons y ys => exact absurd h.symm (List.cons_ne_nil _ _)
  | cons x xs ih =>
    cases ys with
    | nil => exact absurd h (List.cons_ne_nil _ _)
    | cons y ys =>
      obtain ⟨hfirst, hrest⟩ := List.cons.inj h
      rw [List.map_cons, List.map_cons, hfg x List.mem_cons_self y List.mem_cons_self hfirst,
        ih (fun a ha b hb => hfg a (List.mem_cons_of_mem x ha) b (List.mem_cons_of_mem y hb)) hrest]

/-- A chart whose lines can be taken apart. -/
structure Chart.Legible (c : Chart) : Prop where
  nodes : ∀ n ∈ c.nodes, n.Legible
  edges : ∀ e ∈ c.edges, e.Legible
  colourings : ∀ k ∈ c.colourings, IsIdentifier k.id

/-- Every line of a chart that can be taken apart is one line. -/
theorem Chart.Legible.isOneLine_lines {c : Chart} (h : c.Legible) : ∀ l ∈ c.lines, IsOneLine l := by
  intro l hl
  simp only [Chart.lines, List.mem_append, List.mem_map, List.mem_cons, List.not_mem_nil, or_false, or_assoc] at hl
  rcases hl with rfl | ⟨n, hn, rfl⟩ | rfl | ⟨e, he, rfl⟩ | rfl | rfl | ⟨k, -, rfl⟩ | ⟨k, hk, rfl⟩
  · exact isOneLine_ofList (by decide)
  · exact (h.nodes n hn).isOneLine_line
  · exact isOneLine_ofList (by decide)
  · exact (h.edges e he).isOneLine_line
  · exact isOneLine_ofList (by decide)
  · exact isOneLine_indent.append (isOneLine_ofList (by decide))
  · exact k.isOneLine_line
  · exact Colouring.isOneLine_line (h.colourings k hk)

/-- No line but those between the parts of a chart is empty, since all others are indented. -/
theorem indent_append_ne (s : String) : indent ++ s ≠ "" := by
  intro h
  have := congrArg String.toList h
  simp [indent] at this

/-- The line of a node is not empty, nor is one about an edge or about a class. -/
theorem Node.line_ne (n : Node) : n.line ≠ "" := by
  rw [Node.line, String.append_assoc, String.append_assoc, String.append_assoc]
  exact indent_append_ne _

theorem Edge.line_ne (e : Edge) : e.line ≠ "" := by
  unfold Edge.line
  split <;> simp only [String.append_assoc] <;> exact indent_append_ne _

theorem StyleClass.line_ne (c : StyleClass) : c.line ≠ "" := by
  rw [StyleClass.line, String.append_assoc, String.append_assoc, String.append_assoc]
  exact indent_append_ne _

theorem Colouring.line_ne (c : Colouring) : c.line ≠ "" := by
  rw [Colouring.line, String.append_assoc, String.append_assoc, String.append_assoc]
  exact indent_append_ne _

/-- The two empty lines of a chart set its lines apart: those of its nodes behind the first line, those of its edges, and those
about colours. -/
theorem Chart.splitOn_lines (c : Chart) :
    c.lines.splitOn "" = [header :: c.nodes.map (·.line), c.edges.map (·.line),
      (indent ++ "%% Styling") :: (StyleClass.all.map (·.line) ++ c.colourings.map (·.line))] := by
  have hnodes : "" ∉ header :: c.nodes.map (·.line) := by
    rw [List.mem_cons, List.mem_map]
    rintro (h | ⟨n, -, h⟩)
    · exact absurd h (by decide)
    · exact n.line_ne h
  have hedges : "" ∉ c.edges.map (·.line) := by
    rw [List.mem_map]
    rintro ⟨e, -, h⟩
    exact e.line_ne h
  have hstyles : "" ∉ (indent ++ "%% Styling") :: (StyleClass.all.map (·.line) ++ c.colourings.map (·.line)) := by
    rw [List.mem_cons, List.mem_append, List.mem_map, List.mem_map]
    rintro (h | ⟨k, -, h⟩ | ⟨k, -, h⟩)
    · exact indent_append_ne _ h.symm
    · exact k.line_ne h
    · exact k.line_ne h
  have hlines : c.lines = (header :: c.nodes.map (·.line)) ++ "" :: (c.edges.map (·.line) ++
      "" :: (indent ++ "%% Styling") :: (StyleClass.all.map (·.line) ++ c.colourings.map (·.line))) := by
    simp [lines]
  rw [hlines, List.splitOn_append_cons_self, List.splitOn_append_cons_self, List.splitOn_eq_singleton hnodes,
    List.splitOn_eq_singleton hedges, List.splitOn_eq_singleton hstyles]
  rfl

/-- The lines of a chart tell the lines of its parts. -/
theorem Chart.lines_inj {c d : Chart} (h : c.lines = d.lines) :
    c.nodes.map (·.line) = d.nodes.map (·.line) ∧ c.edges.map (·.line) = d.edges.map (·.line) ∧
      c.colourings.map (·.line) = d.colourings.map (·.line) := by
  have hparts := congrArg (List.splitOn "") h
  rw [splitOn_lines, splitOn_lines] at hparts
  simpa only [List.cons.injEq, true_and, and_true, List.append_cancel_left_eq] using hparts

/-- The text of a chart tells its identifiers, its edges and its colours. -/
theorem Chart.text_inj {c d : Chart} (hc : c.Legible) (hd : d.Legible) (h : c.text = d.text) :
    c.nodes.map (·.id) = d.nodes.map (·.id) ∧ c.edges = d.edges ∧ c.colourings = d.colourings := by
  obtain ⟨hnodes, hedges, hcolourings⟩ := Chart.lines_inj (unlines_inj hc.isOneLine_lines hd.isOneLine_lines h)
  refine ⟨map_eq_of_map_eq (fun m hm n hn => ?_) hnodes, ?_, ?_⟩
  · exact Node.id_eq_of_line_eq (hc.nodes m hm) (hd.nodes n hn)
  · rw [← List.map_id c.edges, ← List.map_id d.edges]
    exact map_eq_of_map_eq (fun x hx y hy => Edge.line_inj (hc.edges x hx) (hd.edges y hy)) hedges
  · rw [← List.map_id c.colourings, ← List.map_id d.colourings]
    exact map_eq_of_map_eq (fun x hx y hy => Colouring.line_inj (hc.colourings x hx) (hd.colourings y hy)) hcolourings

end FlowDiagram.Diagram

namespace FlowDiagram

open Diagram

/-- The text that the node of an element shows: its label or its name, as the options say. -/
def Element.shown (o : DrawOptions) (e : Element) : String :=
  if o.labels then e.title else e.name

/-- A flow in which no text that is drawn has a line feed: no text of a node, and no label of a connector. -/
structure Flow.OneLined (o : DrawOptions) (f : Flow) : Prop where
  nodes : ∀ e ∈ f.elements.values, IsOneLine (e.shown o)
  labels : ∀ c ∈ f.connectors, ∀ l ∈ c.label, IsOneLine l

/-- The chart of a flow can be taken apart if no text in it has a line feed. -/
theorem Flow.OneLined.legible_chart {o : DrawOptions} {f : Flow} (h : f.OneLined o) : (f.chart o).Legible where
  nodes n hn := by
    obtain ⟨e, he, rfl⟩ := List.mem_map.mp hn
    exact ⟨isIdentifier_identifier e.name, ⟨e.kind, rfl⟩, isOneLine_plainLabel (h.nodes e he)⟩
  edges x hx := by
    obtain ⟨c, hc, rfl⟩ := List.mem_map.mp hx
    refine ⟨isIdentifier_identifier c.source, isIdentifier_identifier c.target, fun l hl => ?_⟩
    obtain ⟨l', hl', rfl⟩ := Option.map_eq_some_iff.mp hl
    exact isOneLine_plainLabel (h.labels c hc l' (Option.eq_some_of_filter_eq_some hl'))
  colourings k hk := by
    obtain ⟨e, -, he⟩ := List.mem_filterMap.mp hk
    obtain ⟨s, -, rfl⟩ := Option.map_eq_some_iff.mp he
    exact isIdentifier_identifier e.name

/-- What a diagram shows of a connector: the identifiers of its ends, and between them its arrow and, unless it is missing or
empty, its label. -/
def Connector.shown (o : DrawOptions) (c : Connector) : String × String × Option String × String :=
  (identifier c.source, if c.isFault && o.faults then "-.->" else if c.isScheduled then "==>" else "-->",
    (c.label.filter (!·.isEmpty)).map plainLabel, identifier c.target)

/-- What a diagram shows of the colour of an element: its identifier and the class of its kind, if the kind has one. -/
def Element.shownClass? (e : Element) : Option (String × StyleClass) :=
  e.kind.styleClass?.map fun style => (identifier e.name, style)

/-- What is shown of a connector is what the edge that is drawn for it consists of. -/
theorem Connector.shown_eq (o : DrawOptions) (c : Connector) :
    c.shown o = ((Edge.ofConnector o c).source, (Edge.ofConnector o c).arrow.text, (Edge.ofConnector o c).label,
      (Edge.ofConnector o c).target) := by
  have harrow : (Arrow.ofConnector o c).text =
      if c.isFault && o.faults then "-.->" else if c.isScheduled then "==>" else "-->" := by
    unfold Arrow.ofConnector
    split
    · rfl
    · split <;> rfl
  rw [Connector.shown, ← harrow]
  rfl

/-- What is shown of the colour of an element is what the colouring that is drawn for it consists of. -/
theorem Element.shownClass?_eq (e : Element) :
    e.shownClass? = (Colouring.ofElement? e).map fun k => (k.id, k.style) := by
  rw [shownClass?, Colouring.ofElement?, Option.map_map]
  rfl

/-- The diagrams of two flows, drawn alike, are the same text only if the flows have the same identifiers of nodes, the same
edges and the same colours of nodes, each in the same order. An edge is told by the identifiers of its ends, its arrow and its
label, and a colour by an identifier and a class. This holds whatever their labels are made of, line feeds apart. -/
theorem draw_injective (o : DrawOptions) {f g : Flow} (hf : f.OneLined o) (hg : g.OneLined o)
    (h : (f.draw o).value = (g.draw o).value) :
    f.elements.values.map (fun e => identifier e.name) = g.elements.values.map (fun e => identifier e.name) ∧
      f.connectors.map (·.shown o) = g.connectors.map (·.shown o) ∧
      f.elements.values.filterMap (·.shownClass?) = g.elements.values.filterMap (·.shownClass?) := by
  obtain ⟨hnodes, hedges, hcolours⟩ := Chart.text_inj hf.legible_chart hg.legible_chart h
  refine ⟨?_, ?_, ?_⟩
  · simpa only [Flow.chart, List.map_map, Function.comp_def, Node.ofElement] using hnodes
  · have hparts := congrArg (List.map fun e : Edge => (e.source, e.arrow.text, e.label, e.target)) hedges
    simpa only [Flow.chart, List.map_map, Function.comp_def, ← Connector.shown_eq] using hparts
  · have hparts := congrArg (List.map fun k : Colouring => (k.id, k.style)) hcolours
    simpa only [Flow.chart, List.map_filterMap, ← Element.shownClass?_eq] using hparts

/-- A flow of one decision under a name, with labels that look like other parts of a diagram. -/
def misleading (name : String) : Flow where
  name := "misleading"
  label := "misleading"
  description := none
  processType := "Flow"
  status := none
  elements := OrderedMap.empty.insert name { name, kind := .decision, label := some "x\x7d\x7d --> y|z %% class" }
  connectors := [.labeled name name "|END|-->", .labeled name "END" "", .scheduled "END" name "a|b"]
  vars := []

/-- Names that differ only where their identifiers do not give the same text, so the edges are the same. -/
theorem draw_injective_misleading :
    (misleading "a-b").OneLined {} ∧ (misleading "a.b").OneLined {} ∧
      ((misleading "a-b").draw {}).value = ((misleading "a.b").draw {}).value ∧
      (misleading "a-b").connectors.map (·.shown {}) = (misleading "a.b").connectors.map (·.shown {}) := by
  have hlined : ∀ name ∈ ["a-b", "a.b"], (misleading name).OneLined {} := by
    intro name hname
    simp only [List.mem_cons, List.not_mem_nil, or_false] at hname
    rcases hname with rfl | rfl <;> exact ⟨by decide, by decide⟩
  have hf := hlined "a-b" (by decide)
  have hg := hlined "a.b" (by decide)
  have htext : ((misleading "a-b").draw {}).value = ((misleading "a.b").draw {}).value := by
    have hid : identifier "a-b" = identifier "a.b" := by decide
    have hchart : (misleading "a-b").chart {} = (misleading "a.b").chart {} := by
      simp [Flow.chart, misleading, OrderedMap.insert, OrderedMap.upsert, OrderedMap.upsertEntries, OrderedMap.empty,
        OrderedMap.values, Node.ofElement, Element.title, Edge.ofConnector, Connector.labeled, Connector.scheduled,
        Arrow.ofConnector, Colouring.ofElement?, Kind.styleClass?, hid]
    exact congrArg Chart.text hchart
  exact ⟨hf, hg, htext, (draw_injective {} hf hg htext).2.1⟩

end FlowDiagram

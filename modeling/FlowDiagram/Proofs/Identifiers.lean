import FlowDiagram.Proofs.DrawnLines
import FlowDiagram.Proofs.Wiring

/-!
# Identifiers in the lines of a diagram

The nodes of a diagram are written with the names of elements, its edges with the ends of connectors, and which names there
are was settled on the keys of a map. All three are turned into identifiers, and only the identifiers can be read from the
lines.

A diagram is linked if every identifier that the line of an edge or of a class uses is read from the line of a node as well
(`Linked`). Main statement: the diagram of a compiled flow is linked, and the line of an edge leads away from every node but
the start and the end (`linked_chart_compile`).
-/

namespace FlowDiagram.Diagram

/-- The identifiers that the lines of nodes declare. -/
def declared (lines : List String) : List String :=
  (nodeLines lines).map (identifierBehind indent)

/-- The lines of a diagram in which every identifier that the line of an edge or of a class uses is declared by the line of a
node. -/
structure Linked (lines : List String) : Prop where
  sources : ∀ l ∈ edgeLines lines, identifierBehind indent l ∈ declared lines
  targets : ∀ l ∈ edgeLines lines, finalIdentifier l ∈ declared lines
  classes : ∀ l ∈ classLines lines, identifierBehind classOpening l ∈ declared lines

end FlowDiagram.Diagram

namespace FlowDiagram

open Diagram

namespace Flow

/-- The identifiers that a diagram declares are those of the names of its elements, in order. -/
theorem declared_lines (o : DrawOptions) (f : Flow) :
    declared (f.chart o).lines = f.elements.values.map fun e => identifier e.name := by
  rw [declared, Chart.nodeLines_lines, chart, List.map_map, List.map_map]
  refine List.map_congr_left fun e _ => ?_
  exact Node.identifierBehind_line (n := Node.ofElement o e) (isIdentifier_identifier e.name) rfl

/-- Where elements stand under their own names, a diagram declares the identifiers of the keys, in order. -/
theorem declared_lines_eq_keys {f : Flow} (hnames : ∀ p ∈ f.elements.entries, p.1 = p.2.name) (o : DrawOptions) :
    declared (f.chart o).lines = f.elements.keys.map identifier := by
  rw [declared_lines, OrderedMap.values, OrderedMap.keys, List.map_map, List.map_map]
  apply List.map_congr_left
  intro p hp
  exact congrArg identifier (hnames p hp).symm

/-- The identifiers that the lines of edges start and end with are those of the ends of connectors, in order. -/
theorem ends_edgeLines (o : DrawOptions) (f : Flow) :
    (edgeLines (f.chart o).lines).map (fun l => (identifierBehind indent l, finalIdentifier l)) =
      f.connectors.map fun c => (identifier c.source, identifier c.target) := by
  rw [Chart.edgeLines_lines, chart, List.map_map, List.map_map]
  refine List.map_congr_left fun c _ => ?_
  exact Prod.ext (Edge.identifierBehind_line (e := .ofConnector o c) (isIdentifier_identifier c.source))
    (Edge.finalIdentifier_line (e := .ofConnector o c) (isIdentifier_identifier c.target))

/-- The identifiers that are given a class are those of the names of the elements whose kind has one, in order. -/
theorem identifiers_classLines (o : DrawOptions) (f : Flow) :
    (classLines (f.chart o).lines).map (identifierBehind classOpening) =
      f.elements.values.filterMap fun e => e.kind.styleClass?.map fun _ => identifier e.name := by
  have hread : ∀ (e : Element) (style : StyleClass),
      identifierBehind classOpening (Colouring.line ⟨identifier e.name, style⟩) = identifier e.name :=
    fun e _ => Colouring.identifierBehind_line (isIdentifier_identifier e.name)
  rw [Chart.classLines_lines, chart, List.map_map, List.map_filterMap]
  simp only [Colouring.ofElement?, Option.map_map, Function.comp_def, hread]

/-- Where elements stand under their own names, a diagram declares the identifier of every key. -/
theorem identifier_mem_declared {f : Flow} (hnames : ∀ p ∈ f.elements.entries, p.1 = p.2.name) (o : DrawOptions) {k : String}
    (hk : k ∈ f.elements.keys) : identifier k ∈ declared (f.chart o).lines := by
  rw [declared_lines_eq_keys hnames]
  exact List.mem_map_of_mem hk

/-- The line of an edge starts and ends with the identifiers of the ends of a connector. -/
theorem exists_connector_of_mem_edgeLines {o : DrawOptions} {f : Flow} {l : String} (hl : l ∈ edgeLines (f.chart o).lines) :
    ∃ c ∈ f.connectors, identifierBehind indent l = identifier c.source ∧ finalIdentifier l = identifier c.target := by
  have hends := List.mem_map_of_mem (f := fun l => (identifierBehind indent l, finalIdentifier l)) hl
  rw [ends_edgeLines] at hends
  obtain ⟨c, hc, hcl⟩ := List.mem_map.mp hends
  exact ⟨c, hc, (congrArg Prod.fst hcl).symm, (congrArg Prod.snd hcl).symm⟩

/-- The diagram of a closed flow is linked. -/
theorem Closed.linked_lines {f : Flow} (h : f.Closed) (o : DrawOptions) : Linked (f.chart o).lines where
  sources := by
    intro l hl
    obtain ⟨c, hc, hsource, -⟩ := exists_connector_of_mem_edgeLines hl
    rw [hsource]
    exact identifier_mem_declared h.names o (h.origins c hc)
  targets := by
    intro l hl
    obtain ⟨c, hc, -, htarget⟩ := exists_connector_of_mem_edgeLines hl
    rw [htarget]
    exact identifier_mem_declared h.names o (h.targets c hc)
  classes := by
    intro l hl
    have hid := List.mem_map_of_mem (f := identifierBehind classOpening) hl
    rw [identifiers_classLines] at hid
    obtain ⟨e, he, hid⟩ := List.mem_filterMap.mp hid
    obtain ⟨-, -, hid⟩ := Option.map_eq_some_iff.mp hid
    rw [← hid, declared_lines]
    exact List.mem_map_of_mem he

/-- From the node of every element of a closed flow, but the start and the end, the line of an edge leads away. -/
theorem Closed.exists_mem_edgeLines {f : Flow} (h : f.Closed) (o : DrawOptions) {e : Element} (he : e ∈ f.elements.values)
    (hs : e.name ≠ startName) (hend : e.name ≠ endName) :
    ∃ l ∈ edgeLines (f.chart o).lines, identifierBehind indent l = identifier e.name := by
  obtain ⟨p, hp, rfl⟩ := List.mem_map.mp he
  have hk : p.2.name ∈ f.elements.keys := List.mem_map.mpr ⟨p, hp, h.names p hp⟩
  obtain ⟨c, hc, hck⟩ := h.sources p.2.name hk hs hend
  have hends := List.mem_map_of_mem (f := fun c : Connector => (identifier c.source, identifier c.target)) hc
  rw [← ends_edgeLines o] at hends
  obtain ⟨l, hl, hlc⟩ := List.mem_map.mp hends
  exact ⟨l, hl, (congrArg Prod.fst hlc).trans (congrArg identifier hck)⟩

end Flow

/-- The diagram of a compiled flow, read from the lines that its text is made of, whatever is drawn and whatever the names
are.

(1) The lines of nodes declare the identifiers of all elements, in order. The lines of edges start and end with those of the
ends of all connectors, and the lines of classes give those of all elements whose kind has a class.
(2) Every identifier that the line of an edge starts or ends with, and every one that is given a class, is declared by the line
of a node.
(3) From the node of every element but the start and the end the line of an edge leads away. -/
theorem linked_chart_compile (b : BuildOptions) (entries : List Entry) :
    ∃ f, (compile b { entries }).value = .ok f ∧ ∀ o : DrawOptions,
      (f.draw o).value = unlines (f.chart o).lines ∧
      declared (f.chart o).lines = f.elements.values.map (fun e => identifier e.name) ∧
      (edgeLines (f.chart o).lines).map (fun l => (identifierBehind indent l, finalIdentifier l)) =
        f.connectors.map (fun c => (identifier c.source, identifier c.target)) ∧
      (classLines (f.chart o).lines).map (identifierBehind classOpening) =
        f.elements.values.filterMap (fun e => e.kind.styleClass?.map fun _ => identifier e.name) ∧
      Linked (f.chart o).lines ∧
      ∀ e ∈ f.elements.values, e.name ≠ startName → e.name ≠ endName →
        ∃ l ∈ edgeLines (f.chart o).lines, identifierBehind indent l = identifier e.name := by
  have hclosed : (assembled b entries).completed.Closed :=
    { toSettled := (assembled b entries).completed_settled
      origins := Flow.source_mem_keys_completed fun _ => source_mem_keys_assembled
      names := Flow.name_of_mem_completed name_of_mem_assembled }
  refine ⟨_, compile_value b entries, fun o => ⟨Flow.value_draw o _, Flow.declared_lines o _, Flow.ends_edgeLines o _,
    Flow.identifiers_classLines o _, hclosed.linked_lines o, ?_⟩⟩
  intro e he hs hend
  exact hclosed.exists_mem_edgeLines o he hs hend

/-- Two steps with names that no identifier can hold. The first leads to a target that is not declared, the second nowhere. -/
def awkwardNames : List Entry :=
  [.element { name := "a-b", kind := .screen, next := some "c d" }, .element { name := "é", kind := .wait }]

/-- Both steps are drawn under identifiers of their own, and an edge leads from each of them to the end, which was added. -/
theorem linked_chart_compile_awkwardNames :
    ∃ f, (compile {} { entries := awkwardNames }).value = .ok f ∧
      edgeLines (f.chart {}).lines = ["    a_b-->END", "    _-->END"] ∧
      declared (f.chart {}).lines = ["a_b", "_", "END"] ∧ Linked (f.chart {}).lines ∧
      ∃ l ∈ edgeLines (f.chart {}).lines, identifierBehind indent l = identifier "a-b" := by
  obtain ⟨f, hf, h⟩ := linked_chart_compile {} awkwardNames
  obtain ⟨-, hdeclared, -, -, hlinked, hedges⟩ := h {}
  have hfirst : { name := "a-b", kind := .screen, next := some "c d" } ∈ f.elements.values := by
    rw [← Except.ok.inj hf]
    decide
  refine ⟨f, hf, ?_, hdeclared.trans ?_, hlinked, hedges _ hfirst (by decide) (by decide)⟩
  · rw [← Except.ok.inj hf, Chart.edgeLines_lines]
    decide
  · rw [← Except.ok.inj hf]
    decide

end FlowDiagram

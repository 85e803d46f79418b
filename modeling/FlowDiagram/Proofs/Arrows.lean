import FlowDiagram.Proofs.Assembly
import FlowDiagram.Proofs.DrawnLines

/-!
# The arrows of a diagram

An edge has one of three arrows. Which one is settled by what its connector is taken on, faults first, so a connector that is
taken on a fault and at a time would be drawn for the one and counted for both. There is no such connector: an element has
none (`Element.unmixed_of_mem_connectors`), and completing a flow makes none (`Flow.unmixed_completed`). The arrows are counted
on the lines of edges, where they stand behind the identifiers that the lines start with (`arrows`).

Main statement: the arrows that are drawn of a compiled flow are as many as its summary says, and as many as are declared,
whether faults are kept when the flow is made, and whether they stand out when it is drawn (`arrows_draw_compile`).
-/

namespace FlowDiagram

open Diagram

/-! ## Connectors of one sort -/

/-- A connector that is taken on a fault or at a time, but not both, and that says so if it is taken on a fault. -/
structure Connector.Unmixed (c : Connector) : Prop where
  exclusive : (c.isFault && c.isScheduled) = false
  label : c.isFault = true → c.label = some "Fault"

/-- Resolving a connector leaves it taken at a time or not, as it was. -/
@[simp] theorem Connector.isScheduled_resolve (declared : String → Bool) (c : Connector) :
    (c.resolve declared).isScheduled = c.isScheduled := by
  unfold Connector.resolve
  split <;> rfl

/-- Resolving a connector leaves its label as it was. -/
@[simp] theorem Connector.label_resolve (declared : String → Bool) (c : Connector) :
    (c.resolve declared).label = c.label := by
  unfold Connector.resolve
  split <;> rfl

/-- Resolving a connector leaves it of one sort. -/
theorem Connector.Unmixed.resolve {c : Connector} (h : c.Unmixed) (declared : String → Bool) :
    (c.resolve declared).Unmixed := by
  refine ⟨?_, ?_⟩
  · rw [Connector.isFault_resolve, Connector.isScheduled_resolve]
    exact h.exclusive
  · rw [Connector.isFault_resolve, Connector.label_resolve]
    exact h.label

/-- The connectors of an element are of one sort each. -/
theorem Element.unmixed_of_mem_connectors {faults : Bool} {e : Element} {c : Connector} (hc : c ∈ e.connectors faults) :
    c.Unmixed := by
  rcases Element.mem_connectors.mp hc with hc | ⟨-, t, -, rfl⟩
  · rcases Element.cases_of_mem_regularConnectors hc with ⟨t, rfl⟩ | ⟨t, l, rfl⟩ | ⟨t, l, rfl⟩
    · exact ⟨rfl, fun h => absurd h Bool.false_ne_true⟩
    · exact ⟨rfl, fun h => absurd h Bool.false_ne_true⟩
    · exact ⟨rfl, fun h => absurd h Bool.false_ne_true⟩
  · exact ⟨rfl, fun _ => rfl⟩

/-- Completing a flow keeps its connectors of one sort each: those that it adds are plain. -/
theorem Flow.unmixed_completed {f : Flow} (hf : ∀ c ∈ f.connectors, c.Unmixed) : ∀ c ∈ f.completed.connectors, c.Unmixed := by
  intro c hc
  rcases mem_completed_connectors.mp hc with ⟨d, hd, rfl⟩ | ⟨k, -, rfl⟩
  · exact (hf d hd).resolve _
  · exact ⟨rfl, fun h => absurd h Bool.false_ne_true⟩

/-- Before a flow is completed its connectors are of one sort each, since every one comes from a declaration as it was collected
there. -/
theorem unmixed_assembled {b : BuildOptions} {entries : List Entry} : ∀ c ∈ (assembled b entries).connectors, c.Unmixed := by
  intro c hc
  rw [assembled_connectors] at hc
  obtain ⟨e, -, hc⟩ := List.mem_flatMap.mp hc
  exact e.unmixed_of_mem_connectors hc

/-! ## Counting connectors -/

/-- Completing a flow leaves as many connectors of a class as there were, if the class has nothing to do with targets and plain
connectors are outside of it. -/
theorem Flow.countP_completed {p : Connector → Bool} (hresolve : ∀ declared c, p (c.resolve declared) = p c)
    (hplain : ∀ source target, p (.plain source target) = false) (f : Flow) :
    f.completed.connectors.countP p = f.connectors.countP p := by
  have hnew : (f.dangling.map (Connector.plain · endName)).countP p = 0 := by
    rw [List.countP_eq_zero]
    intro c hc
    obtain ⟨k, -, rfl⟩ := List.mem_map.mp hc
    rw [hplain]
    exact Bool.false_ne_true
  rw [completed_connectors, List.countP_append, hnew, Nat.add_zero, List.countP_map]
  exact List.countP_congr fun c _ => by rw [Function.comp_apply, hresolve]

/-- An element has a connector that is taken at a time for each of its paths that has a target, and no other. -/
theorem Element.countP_isScheduled_connectors (faults : Bool) (e : Element) :
    (e.connectors faults).countP (·.isScheduled) = e.scheduledPaths.countP (·.target.isSome) := by
  have hother : ∀ target : Option String, (target.map fun _ => false).getD false = false := by
    intro target
    cases target <;> rfl
  have hpath : ∀ target : Option String, (target.map fun _ => true).getD false = target.isSome := by
    intro target
    cases target <;> rfl
  cases faults <;>
    simp [connectors, regularConnectors, List.countP_filterMap, Function.comp_def, Connector.plain, Connector.labeled,
      Connector.fault, Connector.scheduled, hother, hpath]

/-- An element has at most one connector that is taken on a fault, and has it only where faults are kept. -/
theorem Element.countP_isFault_connectors (faults : Bool) (e : Element) :
    (e.connectors faults).countP (·.isFault) = if faults && e.onFault.isSome then 1 else 0 := by
  have hregular : e.regularConnectors.countP (·.isFault) = 0 := by
    rw [List.countP_eq_zero]
    intro c hc
    rcases cases_of_mem_regularConnectors hc with ⟨t, rfl⟩ | ⟨t, l, rfl⟩ | ⟨t, l, rfl⟩ <;> exact Bool.false_ne_true
  rw [connectors, List.countP_append, hregular, Nat.zero_add]
  cases faults with
  | false => rfl
  | true => cases e.onFault <;> rfl

/-- The connectors of elements that are taken at a time are as many as the paths of all of them that have a target. -/
theorem countP_isScheduled_flatMap (faults : Bool) (es : List Element) :
    (es.flatMap (·.connectors faults)).countP (·.isScheduled) =
      (es.flatMap (·.scheduledPaths)).countP (·.target.isSome) := by
  induction es with
  | nil => rfl
  | cons e es ih =>
    rw [List.flatMap_cons, List.flatMap_cons, List.countP_append, List.countP_append, ih,
      e.countP_isScheduled_connectors]

/-- The connectors of elements that are taken on faults are as many as the elements that have one, where faults are kept. -/
theorem countP_isFault_flatMap (faults : Bool) (es : List Element) :
    (es.flatMap (·.connectors faults)).countP (·.isFault) = if faults then es.countP (·.onFault.isSome) else 0 := by
  induction es with
  | nil => cases faults <;> rfl
  | cons e es ih =>
    rw [List.flatMap_cons, List.countP_append, ih, e.countP_isFault_connectors, List.countP_cons]
    cases faults with
    | false => rfl
    | true => exact Nat.add_comm _ _

/-! ## Arrows -/

/-- How many edges of a diagram are drawn with an arrow. It is read from the lines of edges, behind the identifiers that they
start with. -/
def Diagram.arrows (lines : List String) (arrow : String) : Nat :=
  (edgeLines lines).countP fun l => arrow.toList.isPrefixOf (restBehind indent l)

/-- An arrow is drawn as often as connectors are to be drawn with it. -/
theorem Flow.arrows_lines (o : DrawOptions) (f : Flow) (a : Arrow) :
    arrows (f.chart o).lines a.text = f.connectors.countP fun c => Arrow.ofConnector o c == a := by
  have hread : ∀ c : Connector,
      a.text.toList.isPrefixOf (restBehind indent (Edge.ofConnector o c).line) = (Arrow.ofConnector o c == a) :=
    fun c => Edge.arrow_line (e := .ofConnector o c) (isIdentifier_identifier c.source) a
  rw [arrows, Chart.edgeLines_lines, chart, List.map_map, List.countP_map]
  simp only [Function.comp_def, hread]

/-- The three arrows are drawn as often as there are connectors: each has one of them. -/
theorem Flow.arrows_total (o : DrawOptions) (f : Flow) :
    arrows (f.chart o).lines "-->" + arrows (f.chart o).lines "==>" + arrows (f.chart o).lines "-.->" =
      f.connectors.length := by
  have hsolid : arrows (f.chart o).lines "-->" = _ := f.arrows_lines o .solid
  have hthick : arrows (f.chart o).lines "==>" = _ := f.arrows_lines o .thick
  have hdotted : arrows (f.chart o).lines "-.->" = _ := f.arrows_lines o .dotted
  have hone : ∀ a : Arrow,
      (if a == .solid then 1 else 0) + (if a == .thick then 1 else 0) + (if a == .dotted then 1 else 0) = 1 := by
    intro a
    cases a <;> rfl
  rw [hsolid, hthick, hdotted]
  induction f.connectors with
  | nil => rfl
  | cons c cs ih =>
    have := hone (Arrow.ofConnector o c)
    rw [List.countP_cons, List.countP_cons, List.countP_cons, List.length_cons, ← ih]
    omega

/-- A connector of one sort is drawn with the arrow of its sort: the thick one if it is taken at a time, and the dotted one if
it is taken on a fault and faults stand out. -/
theorem Connector.Unmixed.arrow {c : Connector} (h : c.Unmixed) (o : DrawOptions) :
    (Arrow.ofConnector o c == .thick) = c.isScheduled ∧ (Arrow.ofConnector o c == .dotted) = (o.faults && c.isFault) := by
  have hexclusive := h.exclusive
  unfold Arrow.ofConnector
  cases hf : c.isFault <;> cases hs : c.isScheduled <;> cases o.faults <;> simp_all

/-- The arrows of a flow whose connectors are of one sort each are as many as there are connectors of that sort. -/
theorem Flow.arrows_summary {f : Flow} (hf : ∀ c ∈ f.connectors, c.Unmixed) (o : DrawOptions) :
    arrows (f.chart o).lines "==>" = f.summary.scheduledConnectors ∧
      arrows (f.chart o).lines "-.->" = if o.faults then f.summary.faultConnectors else 0 := by
  refine ⟨?_, ?_⟩
  · have hthick : arrows (f.chart o).lines "==>" = _ := f.arrows_lines o .thick
    rw [hthick]
    exact List.countP_congr fun c hc => by rw [((hf c hc).arrow o).1]
  · have hdotted : arrows (f.chart o).lines "-.->" = f.connectors.countP fun c => o.faults && c.isFault :=
      (f.arrows_lines o .dotted).trans (List.countP_congr fun c hc => by rw [((hf c hc).arrow o).2])
    rw [hdotted]
    cases o.faults with
    | false => exact congrFun List.countP_false _
    | true => rfl

/-- The arrows of a compiled flow, read from the lines that the text of its diagram is made of.

(1) Each connector is taken on a fault or at a time, or neither, but not both, and one that is taken on a fault says so.
(2) The thick arrows are as many as the summary has connectors that are taken at a time, which are the paths with a target in
all declarations.
(3) The dotted ones are as many as it has connectors that are taken on faults, or none where faults do not stand out; and these
are the declarations with a transition taken on a fault, or none where faults were not kept.
(4) Every connector has one of the three arrows: their numbers add up to that of the connectors. -/
theorem arrows_draw_compile (b : BuildOptions) (entries : List Entry) :
    ∃ f, (compile b { entries }).value = .ok f ∧ (∀ c ∈ f.connectors, c.Unmixed) ∧
      f.summary.scheduledConnectors = ((declarations entries).flatMap (·.scheduledPaths)).countP (·.target.isSome) ∧
      f.summary.faultConnectors = (if b.faults then (declarations entries).countP (·.onFault.isSome) else 0) ∧
      ∀ o : DrawOptions,
        (f.draw o).value = unlines (f.chart o).lines ∧
        arrows (f.chart o).lines "==>" = f.summary.scheduledConnectors ∧
        arrows (f.chart o).lines "-.->" = (if o.faults then f.summary.faultConnectors else 0) ∧
        arrows (f.chart o).lines "-->" + arrows (f.chart o).lines "==>" + arrows (f.chart o).lines "-.->" =
          f.summary.connectors := by
  have hunmixed : ∀ c ∈ (assembled b entries).completed.connectors, c.Unmixed := Flow.unmixed_completed unmixed_assembled
  refine ⟨_, compile_value b entries, hunmixed, ?_, ?_, fun o => ?_⟩
  · rw [Flow.summary, Flow.countP_completed Connector.isScheduled_resolve fun _ _ => rfl, assembled_connectors,
      countP_isScheduled_flatMap]
  · rw [Flow.summary, Flow.countP_completed Connector.isFault_resolve fun _ _ => rfl, assembled_connectors,
      countP_isFault_flatMap]
  · obtain ⟨hthick, hdotted⟩ := Flow.arrows_summary hunmixed o
    exact ⟨Flow.value_draw o _, hthick, hdotted, Flow.arrows_total o _⟩

/-- A start with two paths, one of which leads nowhere, and a step that is declared twice, each time with a transition taken on
a fault. -/
def mixedArrows : List Entry :=
  [.element
      { name := "START"
        kind := .start
        next := some "A"
        scheduledPaths :=
          [{ name := "P", label := none, offset := some 1, offsetUnit := none, timeSource := none, pathType := none,
             target := some "A" },
            { name := "Q", label := none, offset := none, offsetUnit := none, timeSource := none, pathType := none,
              target := none }] },
    .element { name := "A", kind := .action, onFault := some "X" },
    .element { name := "A", kind := .action, onFault := some "A" }]

/-- Of the four connectors one is taken at a time and two are taken on faults, which are drawn solid where they do not stand
out. -/
theorem arrows_draw_compile_mixedArrows :
    ∃ f, (compile { faults := true } { entries := mixedArrows }).value = .ok f ∧
      .fault "A" "END" ∈ f.connectors ∧ (Connector.fault "A" "END").Unmixed ∧
      f.summary.scheduledConnectors = 1 ∧ f.summary.faultConnectors = 2 ∧
      arrows (f.chart { faults := true }).lines "==>" = 1 ∧ arrows (f.chart { faults := true }).lines "-.->" = 2 ∧
      arrows (f.chart {}).lines "-.->" = 0 ∧ arrows (f.chart {}).lines "-->" = 3 := by
  obtain ⟨f, hf, hunmixed, hscheduled, hfaults, harrows⟩ := arrows_draw_compile { faults := true } mixedArrows
  have hmem : .fault "A" "END" ∈ f.connectors := by
    rw [← Except.ok.inj hf]
    decide
  have htotal : f.summary.connectors = 4 := by
    rw [← Except.ok.inj hf]
    decide
  have hone : f.summary.scheduledConnectors = 1 := hscheduled.trans (by decide)
  have htwo : f.summary.faultConnectors = 2 := hfaults.trans (by decide)
  obtain ⟨-, hthick, hdotted, -⟩ := harrows { faults := true }
  obtain ⟨-, hthick', hdotted', hsum⟩ := harrows {}
  refine ⟨f, hf, hmem, hunmixed _ hmem, hone, htwo, hthick.trans hone, hdotted.trans htwo, hdotted', ?_⟩
  rw [hthick', hdotted', hone, htotal] at hsum
  simpa using hsum

end FlowDiagram

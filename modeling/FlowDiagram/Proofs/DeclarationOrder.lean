import FlowDiagram.Proofs.ReadingOrder
import FlowDiagram.Proofs.Recompiling

/-!
# Flows whose elements are declared in another order

Two flows are reorderings of each other if they have the same elements and connectors in any order, but the connectors that
leave an element stand in the same order in both (`Flow.Reorders`). What completing a flow does is decided by its names and
its targets, so completing keeps flows reorderings of each other (`Flow.Reorders.completed`) and reports the same on both
(`Flow.Reorders.report`), and they agree in all numbers (`Flow.Reorders.summary`).

Main statement: where no name is declared twice, the order in which entries are handed over makes no difference to the graph
that they compile to (`compile_perm`).
-/

namespace FlowDiagram

/-! ## Summaries -/

/-- Summaries with the same numbers, in whatever order the kinds are listed. -/
structure Summary.Agree (s t : Summary) : Prop where
  kinds : ∀ k, s.kinds.get? k = t.kinds.get? k
  elements : s.elements = t.elements
  connectors : s.connectors = t.connectors
  faultConnectors : s.faultConnectors = t.faultConnectors
  scheduledConnectors : s.scheduledConnectors = t.scheduledConnectors
  vars : s.vars = t.vars

/-! ## Reordered flows -/

namespace Flow

/-- Flows that differ in their order only, and not in the order of the connectors that leave an element. -/
structure Reorders (f g : Flow) : Prop where
  elements : f.elements.entries.Perm g.elements.entries
  connectors : f.connectors.Perm g.connectors
  outgoing : ∀ k, f.outgoing k = g.outgoing k
  vars : f.vars.Perm g.vars

namespace Reorders

variable {f g : Flow}

theorem element? (h : f.Reorders g) (k : String) : f.element? k = g.element? k :=
  OrderedMap.get?_eq_of_perm h.elements k

/-- Flows with reordered elements have the same names, in some order. -/
theorem keys (h : f.Reorders g) : f.elements.keys.Perm g.elements.keys :=
  h.elements.map _

theorem contains (h : f.Reorders g) : f.elements.contains = g.elements.contains := by
  funext k
  rw [Bool.eq_iff_iff, OrderedMap.contains_iff, OrderedMap.contains_iff, h.keys.mem_iff]

/-- The same elements dangle. -/
theorem dangling (h : f.Reorders g) : f.dangling.Perm g.dangling := by
  rw [dangling_eq, dangling_eq]
  simp only [h.outgoing]
  exact h.keys.filter _

/-- The same number of connectors lead nowhere. -/
theorem unresolved (h : f.Reorders g) : f.unresolved = g.unresolved := by
  unfold Flow.unresolved
  rw [h.contains]
  exact h.connectors.countP_eq _

/-- Completing reports the same. -/
theorem report (h : f.Reorders g) : f.complete.value.2 = g.complete.value.2 := by
  rw [complete_value, complete_value]
  simp only [Progress.after, h.dangling.length_eq, h.unresolved, h.contains]

/-- What completing adds, it adds to both: the end, and the connectors of the elements that dangle. -/
theorem completed (h : f.Reorders g) : f.completed.Reorders g.completed where
  elements := by
    rw [entries_completed, entries_completed, h.report]
    exact h.elements.append_right _
  connectors := by
    rw [completed_connectors, completed_connectors, h.contains]
    exact (h.connectors.map _).append (h.dangling.map _)
  outgoing k := by
    rw [outgoing_completed, outgoing_completed, h.outgoing, h.contains]
    simp only [h.dangling.mem_iff]
  vars := h.vars

/-- All numbers are the same. -/
theorem summary (h : f.Reorders g) : f.summary.Agree g.summary where
  kinds k := by
    have hkinds : (f.elements.values.map (·.kind)).Perm (g.elements.values.map (·.kind)) := (h.elements.map _).map _
    simp only [Flow.summary, get?_countKinds, hkinds.mem_iff, hkinds.count_eq]
  elements := h.elements.length_eq
  connectors := h.connectors.length_eq
  faultConnectors := h.connectors.countP_eq _
  scheduledConnectors := h.connectors.countP_eq _
  vars := h.vars.length_eq

end Reorders

end Flow

/-! ## Reordered entries -/

/-- Elements whose names differ hold at most one of each name. -/
theorem length_filter_name_le {es : List Element} (h : (es.map (·.name)).Nodup) (k : String) :
    (es.filter (·.name == k)).length ≤ 1 := by
  have hcount : (es.filter (·.name == k)).length = (es.map (·.name)).count k := by
    rw [List.count, List.countP_map, List.countP_eq_length_filter]
    rfl
  rw [hcount, h.count]
  split
  · exact Nat.le_refl 1
  · exact Nat.zero_le 1

/-- There is only one order for at most one. -/
theorem eq_of_perm_of_length_le_one {α : Type} {l l' : List α} (h : l.Perm l') (hl : l.length ≤ 1) : l = l' := by
  match l with
  | [] => exact h.nil_eq
  | [a] => exact h.singleton_eq
  | a :: b :: l => exact absurd hl (by simp)

/-- Entries in another order assemble to the same flow in another order, where no name is declared twice. -/
theorem reorders_assembled (o : BuildOptions) {entries entries' : List Entry} (h : entries.Perm entries')
    (hnames : ((declarations entries).map (·.name)).Nodup) :
    (assembled o entries).Reorders (assembled o entries') := by
  have hdeclared : (declarations entries).Perm (declarations entries') := h.filterMap _
  have hnames' : ((declarations entries').map (·.name)).Nodup := (hdeclared.map _).nodup_iff.1 hnames
  refine ⟨?_, ?_, fun k => ?_, ?_⟩
  · rw [assembled_elements, assembled_elements, entries_declareAll_of_nodup (fun _ _ => List.not_mem_nil) hnames,
      entries_declareAll_of_nodup (fun _ _ => List.not_mem_nil) hnames']
    exact (hdeclared.map _).append_left _
  · rw [assembled_connectors, assembled_connectors]
    exact hdeclared.flatMap_right _
  · have hsame : (declarations entries).filter (·.name == k) = (declarations entries').filter (·.name == k) :=
      eq_of_perm_of_length_le_one (hdeclared.filter _) (length_filter_name_le hnames k)
    rw [outgoing_assembled, outgoing_assembled, declaredTransitions, declaredTransitions, hsame]
  · rw [assembled, assembled, Assembly.takeAll_value, Assembly.takeAll_value]
    exact (h.filterMap _).append_left _

/-- The order in which entries are handed over makes no difference to the graph, where no name is declared twice: under every
name stands the same element, the same connectors leave it, in the same order, and there are no other connectors. Completing
the flow reports the same, and all numbers of the flow are the same. -/
theorem compile_perm (o : BuildOptions) {entries entries' : List Entry} (h : entries.Perm entries')
    (hnames : ((declarations entries).map (·.name)).Nodup) :
    ∃ f g, (compile o { entries }).value = .ok f ∧ (compile o { entries := entries' }).value = .ok g ∧
      (∀ k, f.element? k = g.element? k) ∧ (∀ k, f.outgoing k = g.outgoing k) ∧ f.connectors.Perm g.connectors ∧
      (assembled o entries).complete.value.2 = (assembled o entries').complete.value.2 ∧ f.summary.Agree g.summary := by
  have hassembled := reorders_assembled o h hnames
  have hcompleted := hassembled.completed
  exact ⟨_, _, compile_value o entries, compile_value o entries', hcompleted.element?, hcompleted.outgoing,
    hcompleted.connectors, hassembled.report, hcompleted.summary⟩

/-- Two steps that lead to each other, one of them also to a name that is not declared, and a step that nothing leaves but a
transition taken on a fault. -/
def mutualSteps : List Entry :=
  [.element { name := "A", kind := .decision, next := some "B", byDefault := some "X" },
    .element { name := "B", kind := .screen, next := some "A" },
    .element { name := "C", kind := .action, onFault := some "A" }]

/-- Handed over backwards, the steps stand backwards and the connectors in another order, but those that leave a step are the
same and so are all numbers. -/
theorem compile_perm_backwards :
    mutualSteps.Perm mutualSteps.reverse ∧ ((declarations mutualSteps).map (·.name)).Nodup ∧
      ∃ f g, (compile {} { entries := mutualSteps }).value = .ok f ∧
        (compile {} { entries := mutualSteps.reverse }).value = .ok g ∧
        f.elements.keys = ["A", "B", "C", "END"] ∧ g.elements.keys = ["C", "B", "A", "END"] ∧
        (∀ k, f.element? k = g.element? k) ∧ (∀ k, f.outgoing k = g.outgoing k) ∧ f.connectors.Perm g.connectors ∧
        (assembled {} mutualSteps).complete.value.2 = (assembled {} mutualSteps.reverse).complete.value.2 ∧
        f.summary.Agree g.summary := by
  have hperm : mutualSteps.Perm mutualSteps.reverse := mutualSteps.reverse_perm.symm
  have hnames : ((declarations mutualSteps).map (·.name)).Nodup := by decide
  obtain ⟨f, g, hf, hg, hrest⟩ := compile_perm {} hperm hnames
  refine ⟨hperm, hnames, f, g, hf, hg, ?_, ?_, hrest⟩
  · rw [← Except.ok.inj hf]
    decide
  · rw [← Except.ok.inj hg]
    decide

end FlowDiagram

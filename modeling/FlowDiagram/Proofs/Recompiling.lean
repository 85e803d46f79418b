import FlowDiagram.Proofs.Wiring

/-!
# Compiling a flow that was compiled

A compiled flow can be taken apart into entries again (`Flow.entries`). Its elements keep the targets they were declared
with, so its connectors are collected anew and are led to the end anew, and where the end was added it is now declared.
Completing a flow does not depend on this: a flow that has its added end from the start comes out the same
(`Flow.completed_of_end_added`).

Main statement: where no name is declared twice, a compiled flow compiles to itself (`compile_entries_compiled`).
-/

namespace FlowDiagram

/-- A flow as a source hands it over: all that is said about it, its variables and its elements, in order. -/
def Flow.entries (f : Flow) : List Entry :=
  .header
      { label := some f.label, description := f.description, processType := some f.processType, status := f.status } ::
    (f.vars.map .var ++ f.elements.values.map .element)

/-! ## Declaring the elements of a map -/

/-- Elements with new names that differ go to the end of a map, in order. -/
theorem entries_declareAll_of_nodup {m : OrderedMap String Element} {es : List Element}
    (hnew : ∀ e ∈ es, e.name ∉ m.keys) (hes : (es.map (·.name)).Nodup) :
    (declareAll m es).entries = m.entries ++ es.map fun e => (e.name, e) := by
  unfold declareAll
  induction es generalizing m with
  | nil => simp
  | cons e es ih =>
    obtain ⟨hfirst, hrest⟩ := List.nodup_cons.mp hes
    have hlater : ∀ x ∈ es, x.name ∉ (m.insert e.name e).keys := by
      intro x hx hk
      rcases OrderedMap.mem_keys_insert.mp hk with hk | hk
      · exact hnew x (List.mem_cons_of_mem e hx) hk
      · exact hfirst (List.mem_map.mpr ⟨x, hx, hk⟩)
    rw [List.foldl_cons, ih hlater hrest, OrderedMap.entries_insert_of_not_mem e (hnew e List.mem_cons_self),
      List.append_assoc, List.map_cons, List.singleton_append]

/-- Elements whose names differ are the values of the map they are declared in. -/
theorem values_declareAll_of_nodup {es : List Element} (hes : (es.map (·.name)).Nodup) :
    (declareAll .empty es).values = es := by
  rw [OrderedMap.values, entries_declareAll_of_nodup (fun _ _ => List.not_mem_nil) hes]
  simp [OrderedMap.empty, Function.comp_def]

/-- A map whose keys are the names of its elements is what declaring its elements gives. -/
theorem declareAll_values {m : OrderedMap String Element} (hm : ∀ p ∈ m.entries, p.1 = p.2.name) :
    declareAll .empty m.values = m := by
  have hpairs : m.values.map (fun e => (e.name, e)) = m.entries := by
    rw [OrderedMap.values, List.map_map]
    refine (List.map_congr_left fun p hp => ?_).trans (List.map_id m.entries)
    exact Prod.ext (hm p hp).symm rfl
  have hnames : m.values.map (·.name) = m.entries.map (·.1) := by
    rw [← hpairs, List.map_map]
    rfl
  apply OrderedMap.ext
  rw [entries_declareAll_of_nodup (fun _ _ => List.not_mem_nil) (hnames ▸ m.nodup), hpairs]
  rfl

/-! ## Completing with the end already there -/

namespace Flow

/-- The elements of a complete flow with the connectors that the flow had before it was completed. -/
def withEndAdded (f : Flow) : Flow :=
  { f.completed with connectors := f.connectors }

/-- A connector is resolved alike whether or not the added end counts as declared. -/
theorem resolve_contains_completed (f : Flow) (c : Connector) :
    c.resolve f.completed.elements.contains = c.resolve f.elements.contains := by
  unfold Connector.resolve
  by_cases hdeclared : c.target ∈ f.elements.keys
  · rw [if_pos (OrderedMap.contains_iff.2 (mem_keys_completed_of_mem hdeclared)),
      if_pos (OrderedMap.contains_iff.2 hdeclared)]
  · rw [if_neg (fun h => hdeclared (OrderedMap.contains_iff.1 h))]
    by_cases hend : c.target = endName
    · rw [← hend, ite_self]
    · rw [if_neg (fun h => hdeclared (mem_keys_of_mem_completed (OrderedMap.contains_iff.1 h) hend))]

/-- The end does not dangle, so the same elements do whether or not it was added. -/
theorem dangling_withEndAdded (f : Flow) : f.withEndAdded.dangling = f.dangling := by
  unfold dangling withEndAdded OrderedMap.keys
  rcases f.completed_entries_cases with h | h
  · rw [h]
  · rw [h, List.map_append, List.filter_append]
    simp

/-- A flow that has the added end from the start is completed to the same flow. Where no end was added, nothing was left to do. -/
theorem completed_of_end_added (f : Flow) : f.withEndAdded.completed = f.completed := by
  have hconnectors : f.withEndAdded.completed.connectors = f.completed.connectors := by
    rw [completed_connectors, completed_connectors, dangling_withEndAdded]
    congr 1
    exact List.map_congr_left fun c _ => f.resolve_contains_completed c
  have helements : f.withEndAdded.completed.elements = f.completed.elements := by
    rw [completed_elements]
    split
    · rfl
    · next h =>
      by_cases hf : f.Settled
      · have hsame : f.withEndAdded = f := by
          rw [withEndAdded, completed, complete_value_of_settled hf]
        rw [hsame] at h
        exact absurd (settled_iff.1 hf) h
      · exact if_pos (OrderedMap.contains_iff.2 (endName_mem_keys_completed hf))
  have hrest : f.withEndAdded.completed =
      { f.completed with
        elements := f.withEndAdded.completed.elements
        connectors := f.withEndAdded.completed.connectors } := by
    rw [completed, complete_value, completed, complete_value]
    rfl
  rw [hrest, helements, hconnectors]

end Flow

/-! ## The entries of a flow -/

/-- The elements that a flow hands over are its own. -/
theorem declarations_entries (f : Flow) : declarations f.entries = f.elements.values := by
  simp [declarations, Flow.entries, List.filterMap_cons, List.filterMap_map, Function.comp_def, Entry.element?]

/-- The added end has no transitions, so a compiled flow declares those that were declared before. -/
theorem flatMap_connectors_values_completed (f : Flow) (faults : Bool) :
    f.completed.elements.values.flatMap (·.connectors faults) = f.elements.values.flatMap (·.connectors faults) := by
  have hend : endElement.connectors faults = [] := by
    cases faults <;> rfl
  unfold OrderedMap.values
  rcases f.completed_entries_cases with h | h
  · rw [h]
  · rw [h, List.map_append, List.flatMap_append]
    simp [hend]

/-- What is assembled from the entries of a flow: the flow itself, with the connectors that its elements declare. -/
theorem assembled_entries {f : Flow} (faults : Bool) (hf : ∀ p ∈ f.elements.entries, p.1 = p.2.name) :
    assembled { name := some f.name, faults } f.entries =
      { f with connectors := f.elements.values.flatMap (·.connectors faults) } := by
  have hheader : f.entries.filterMap Entry.header? =
      [{ label := some f.label, description := f.description, processType := some f.processType, status := f.status }] := by
    simp [Flow.entries, List.filterMap_map, Function.comp_def, Entry.header?]
  have hvars : f.entries.filterMap Entry.var? = f.vars := by
    simp [Flow.entries, List.filterMap_cons, List.filterMap_map, Function.comp_def, Entry.var?]
  rw [assembled, Assembly.takeAll_value, hheader, hvars, declarations_entries, declareAll_values hf]
  rfl

/-- Compiling what a compiled flow hands over gives the flow itself, all of it, under the same name and with faults shown or
hidden as before, provided that no name was declared twice in the first place. -/
theorem compile_entries_compiled (o : BuildOptions) (entries : List Entry)
    (h : ((declarations entries).map (·.name)).Nodup) :
    ∃ f, (compile o { entries }).value = .ok f ∧
      (compile { name := some f.name, faults := o.faults } { entries := f.entries }).value = .ok f := by
  refine ⟨_, compile_value o entries, ?_⟩
  have hassembled : ∀ p ∈ (assembled o entries).elements.entries, p.1 = p.2.name := name_of_mem_assembled
  have hnames := Flow.name_of_mem_completed hassembled
  have hdeclared : (assembled o entries).elements.values = declarations entries := by
    rw [assembled_elements, values_declareAll_of_nodup h]
  have hagain : assembled { name := some (assembled o entries).completed.name, faults := o.faults }
      (assembled o entries).completed.entries = (assembled o entries).withEndAdded := by
    rw [assembled_entries o.faults hnames, flatMap_connectors_values_completed, hdeclared, ← assembled_connectors]
    rfl
  rw [compile_value, hagain, Flow.completed_of_end_added]

/-- A start that leads to a step, a step with a target that is not declared, and a step with a transition taken on a fault and
none other. -/
def openEnded : List Entry :=
  [.header { label := some "Open" }, .var { name := "v" },
    .element { name := "START", kind := .start, next := some "A" },
    .element { name := "A", kind := .decision, byDefault := some "X" },
    .element { name := "B", kind := .action, onFault := some "A" }]

/-- The target that is not declared and the fault transition that is hidden are made up for by the end, which is declared when
the flow is compiled again. -/
theorem compile_entries_compiled_openEnded :
    ∃ f, (compile {} { entries := openEnded }).value = .ok f ∧ f.elements.keys = ["START", "A", "B", "END"] ∧
      (compile { name := some f.name } { entries := f.entries }).value = .ok f := by
  obtain ⟨f, hf, hagain⟩ := compile_entries_compiled {} openEnded (by decide)
  refine ⟨f, hf, ?_, hagain⟩
  rw [← Except.ok.inj hf]
  decide

end FlowDiagram

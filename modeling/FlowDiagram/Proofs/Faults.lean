import FlowDiagram.Proofs.Assembly

/-!
# Flows with and without fault transitions

Fault transitions are left out as elements are declared, long before a flow is completed, so an element with nothing but a
fault transition dangles where faults are hidden. A flow without its fault transitions (`Flow.withoutFaults`) is compared
with the flow itself, both completed: the dangling elements of the one are those of the other and the elements that only
fault transitions leave (`Flow.filter_dangling_withoutFaults`, `Flow.faultOnly_completed`).

Main statement: showing faults adds fault transitions, and takes away the connectors to the end that they make unnecessary,
and nothing else (`compile_shown_or_hidden`).
-/

namespace FlowDiagram

/-- Hiding faults leaves out the fault transitions of an element and nothing else. -/
theorem Element.filter_connectors (e : Element) :
    (e.connectors true).filter (!·.isFault) = e.connectors false := by
  have hregular : e.regularConnectors.filter (!·.isFault) = e.regularConnectors := by
    rw [List.filter_eq_self]
    intro c hc
    rcases cases_of_mem_regularConnectors hc with ⟨t, rfl⟩ | ⟨t, l, rfl⟩ | ⟨t, l, rfl⟩ <;> rfl
  have hfault : (e.onFault.toList.map (Connector.fault e.name)).filter (!·.isFault) = [] := by
    rw [List.filter_eq_nil_iff]
    intro c hc
    obtain ⟨t, -, rfl⟩ := List.mem_map.mp hc
    exact Bool.false_ne_true
  simp only [connectors, if_true, List.filter_append, hregular, hfault, Bool.false_eq_true, if_false]

namespace Flow

/-- A flow without its fault transitions. -/
def withoutFaults (f : Flow) : Flow :=
  { f with connectors := f.connectors.filter (!·.isFault) }

/-- The elements, other than the start and the end, that some connectors leave, all of them taken on faults. -/
def faultOnly (f : Flow) : List String :=
  f.elements.keys.filter fun k =>
    k != startName && k != endName && !(f.outgoing k).isEmpty && (f.outgoing k).all (·.isFault)

theorem outgoing_withoutFaults (f : Flow) (k : String) :
    f.withoutFaults.outgoing k = (f.outgoing k).filter (!·.isFault) := by
  simp only [outgoing, withoutFaults, List.filter_filter, Bool.and_comm]

/-- What dangles with the fault transitions dangles without them. -/
theorem filter_dangling_withoutFaults (f : Flow) :
    f.withoutFaults.dangling.filter (fun k => (f.outgoing k).isEmpty) = f.dangling := by
  rw [dangling_eq, dangling_eq, List.filter_filter]
  apply List.filter_congr
  intro k _
  rw [outgoing_withoutFaults]
  cases h : f.outgoing k with
  | nil => simp
  | cons c cs => simp

/-- Only fault transitions leave an element of a completed flow just if that was so before: an element that nothing leaves
gets a connector that is not taken on a fault. -/
theorem faultOnly_outgoing_completed {f : Flow} {k : String} (hk : k ∈ f.elements.keys) (hs : k ≠ startName)
    (he : k ≠ endName) :
    (!(f.completed.outgoing k).isEmpty && (f.completed.outgoing k).all (·.isFault)) =
      (!(f.outgoing k).isEmpty && (f.outgoing k).all (·.isFault)) := by
  rw [outgoing_completed]
  cases h : f.outgoing k with
  | nil =>
    rw [if_pos (mem_dangling_iff_outgoing.2 ⟨hk, hs, he, h⟩)]
    rfl
  | cons c cs =>
    have hd : k ∉ f.dangling := fun hd => List.cons_ne_nil c cs (h.symm.trans (mem_dangling_iff_outgoing.1 hd).2.2.2)
    rw [if_neg hd, List.append_nil, List.all_map]
    simp only [Function.comp_def, Connector.isFault_resolve]
    rfl

/-- What dangles only without the fault transitions are the elements that only fault transitions leave. -/
theorem faultOnly_completed (f : Flow) :
    f.completed.faultOnly = f.withoutFaults.dangling.filter (fun k => !(f.outgoing k).isEmpty) := by
  have hkeys : f.completed.faultOnly = f.elements.keys.filter fun k =>
      k != startName && k != endName && !(f.completed.outgoing k).isEmpty &&
        (f.completed.outgoing k).all (·.isFault) := by
    unfold faultOnly OrderedMap.keys
    rcases f.completed_entries_cases with h | h
    · rw [h]
    · rw [h, List.map_append, List.filter_append]
      simp
  rw [hkeys, dangling_eq, List.filter_filter]
  apply List.filter_congr
  intro k hk
  by_cases hs : k = startName
  · simp [hs]
  by_cases he : k = endName
  · simp [he]
  have hall : ((f.outgoing k).filter (!·.isFault)).isEmpty = (f.outgoing k).all (·.isFault) := by
    rw [Bool.eq_iff_iff]
    simp [List.filter_eq_nil_iff]
  rw [Bool.and_assoc, faultOnly_outgoing_completed hk hs he, outgoing_withoutFaults, hall, bne_iff_ne.2 hs,
    bne_iff_ne.2 he, Bool.true_and, Bool.true_and, Bool.true_and]

/-- The connectors of a flow, completed, that are not taken on faults. -/
theorem filter_completed_connectors (f : Flow) :
    f.completed.connectors.filter (!·.isFault) =
      f.withoutFaults.connectors.map (·.resolve f.elements.contains) ++ f.dangling.map (.plain · endName) := by
  have hnew : (f.dangling.map (Connector.plain · endName)).filter (!·.isFault) = f.dangling.map (.plain · endName) := by
    rw [List.filter_eq_self]
    intro c hc
    obtain ⟨k, -, rfl⟩ := List.mem_map.mp hc
    rfl
  rw [completed_connectors, List.filter_append, hnew, List.filter_map]
  simp only [Function.comp_def, Connector.isFault_resolve]
  rfl

/-- With the fault transitions left out of the one and not taken into the other, a completed flow is part of the other, in
order. -/
theorem filter_completed_sublist (f : Flow) :
    (f.completed.connectors.filter (!·.isFault)).Sublist f.withoutFaults.completed.connectors := by
  rw [filter_completed_connectors, f.withoutFaults.completed_connectors, ← filter_dangling_withoutFaults]
  exact (List.Sublist.refl _).append (List.filter_sublist.map _)

/-- What is missing are the connectors that join the elements to the end that only fault transitions leave. -/
theorem completed_withoutFaults_perm (f : Flow) :
    f.withoutFaults.completed.connectors.Perm
      (f.completed.connectors.filter (!·.isFault) ++ f.completed.faultOnly.map (.plain · endName)) := by
  have hsplit := (List.filter_append_perm (fun k => (f.outgoing k).isEmpty) f.withoutFaults.dangling).symm
  rw [filter_dangling_withoutFaults, ← faultOnly_completed] at hsplit
  rw [filter_completed_connectors, f.withoutFaults.completed_connectors, List.append_assoc, ← List.map_append]
  exact (hsplit.map _).append_left _

/-- The elements are the same, but for the end, which either may have without the other. -/
theorem completed_withoutFaults_entries (f : Flow) :
    f.completed.elements.entries = f.withoutFaults.completed.elements.entries ∨
      f.completed.elements.entries = f.withoutFaults.completed.elements.entries ++ [(endName, endElement)] ∨
      f.withoutFaults.completed.elements.entries = f.completed.elements.entries ++ [(endName, endElement)] := by
  have hsame : f.withoutFaults.elements = f.elements := rfl
  rcases f.completed_entries_cases with hon | hon <;>
    rcases f.withoutFaults.completed_entries_cases with hoff | hoff <;>
    rw [hon, hoff, hsame]
  · exact Or.inl rfl
  · exact Or.inr (Or.inr rfl)
  · exact Or.inr (Or.inl rfl)
  · exact Or.inl rfl

/-- Completing a flow adds no fault transition. -/
theorem any_isFault_completed_withoutFaults (f : Flow) :
    f.withoutFaults.completed.connectors.any (·.isFault) = false := by
  rw [List.any_eq_false]
  intro c hc
  rcases mem_completed_connectors.1 hc with ⟨d, hd, rfl⟩ | ⟨k, -, rfl⟩
  · rw [Connector.isFault_resolve]
    simpa using (List.mem_filter.mp hd).2
  · exact Bool.false_ne_true

end Flow

/-- Assembling entries with faults hidden gives what it gives with faults shown, without the fault transitions. -/
theorem assembled_withoutFaults (name : Option String) (entries : List Entry) :
    assembled { name, faults := false } entries = (assembled { name, faults := true } entries).withoutFaults := by
  unfold assembled Flow.withoutFaults
  rw [Assembly.takeAll_value, Assembly.takeAll_value]
  simp only [Assembly.finish, List.nil_append, List.filter_flatMap, Element.filter_connectors]

/-- A source compiled with faults shown and with faults hidden. With faults hidden there is no fault transition. What else is
there with faults shown is there as well, in the same order. Over and above that there is one plain connector to the end
for each element, other than the start and the end, that only fault transitions leave where they are shown. The elements
are the same, in the same order, but that either flow may have the added end where the other has none. -/
theorem compile_shown_or_hidden (name : Option String) (entries : List Entry) :
    ∃ shown hidden, (compile { name, faults := true } { entries }).value = .ok shown ∧
      (compile { name, faults := false } { entries }).value = .ok hidden ∧
      hidden.connectors.any (·.isFault) = false ∧
      (shown.connectors.filter (!·.isFault)).Sublist hidden.connectors ∧
      hidden.connectors.Perm
        (shown.connectors.filter (!·.isFault) ++ shown.faultOnly.map (.plain · endName)) ∧
      (shown.elements.entries = hidden.elements.entries ∨
        shown.elements.entries = hidden.elements.entries ++ [(endName, endElement)] ∨
        hidden.elements.entries = shown.elements.entries ++ [(endName, endElement)]) := by
  refine ⟨_, _, compile_value _ entries, compile_value _ entries, ?_⟩
  rw [assembled_withoutFaults]
  exact ⟨Flow.any_isFault_completed_withoutFaults _, Flow.filter_completed_sublist _,
    Flow.completed_withoutFaults_perm _, Flow.completed_withoutFaults_entries _⟩

end FlowDiagram

import FlowDiagram.Proofs.Assembly

/-!
# How a compiled flow is wired

Main statements, for whatever entries a source hands over. A compiled flow is closed: its connectors join its elements, and
one leaves every element but the start and the end (`compile_closed`). What leaves an element is what was declared for its
name, resolved, and a connector to the end only where nothing was declared (`outgoing_compile`).
-/

namespace FlowDiagram

/-- A flow whose graph has no loose ends: connectors join elements, elements stand under their own names, and a connector
leaves every element but the start and the end. -/
structure Flow.Closed (f : Flow) : Prop extends f.Settled where
  origins : ∀ c ∈ f.connectors, c.source ∈ f.elements.keys
  names : ∀ p ∈ f.elements.entries, p.1 = p.2.name

namespace Flow

/-- Elements that stand under their own names do so when the end is added. -/
theorem name_of_mem_completed {f : Flow} (hf : ∀ p ∈ f.elements.entries, p.1 = p.2.name) :
    ∀ p ∈ f.completed.elements.entries, p.1 = p.2.name := by
  rcases f.completed_entries_cases with h | h
  · rw [h]
    exact hf
  · rw [h]
    intro p hp
    rcases List.mem_append.mp hp with hp | hp
    · exact hf p hp
    · rw [List.mem_singleton.mp hp]
      rfl

/-- Completing keeps connectors leaving elements: those added leave elements that dangled. -/
theorem source_mem_keys_completed {f : Flow} (hf : ∀ c ∈ f.connectors, c.source ∈ f.elements.keys) :
    ∀ c ∈ f.completed.connectors, c.source ∈ f.completed.elements.keys := by
  intro c hc
  rcases mem_completed_connectors.1 hc with ⟨d, hd, rfl⟩ | ⟨k, hk, rfl⟩
  · rw [Connector.source_resolve]
    exact mem_keys_completed_of_mem (hf d hd)
  · exact mem_keys_completed_of_mem (mem_dangling.1 hk).1

end Flow

/-- A connector of an assembled flow leaves a declared element, and a later declaration of the name does not take it away. -/
theorem source_mem_keys_assembled {o : BuildOptions} {entries : List Entry} {c : Connector}
    (hc : c ∈ (assembled o entries).connectors) : c.source ∈ (assembled o entries).elements.keys := by
  rw [assembled_connectors] at hc
  obtain ⟨e, he, hce⟩ := List.mem_flatMap.mp hc
  rw [mem_keys_assembled, Element.source_of_mem_connectors hce]
  exact List.mem_map_of_mem he

/-- Whatever a source hands over, in whatever order, and whether faults are shown or not, it compiles to a closed flow. -/
theorem compile_closed (o : BuildOptions) (entries : List Entry) :
    ∃ f, (compile o { entries }).value = .ok f ∧ f.Closed := by
  refine ⟨_, compile_value o entries, ?_⟩
  exact
    { toSettled := (assembled o entries).completed_settled
      origins := Flow.source_mem_keys_completed fun _ => source_mem_keys_assembled
      names := Flow.name_of_mem_completed name_of_mem_assembled }

/-- What leaves an element of a compiled flow: the transitions of all elements declared under its name, in order, where those
whose target no declared element has for its name lead to the end instead. Where there are none, one plain connector joins
the element to the end, unless it is the start or the end. -/
theorem outgoing_compile (o : BuildOptions) (entries : List Entry) :
    ∃ f, (compile o { entries }).value = .ok f ∧ ∀ k ∈ f.elements.keys,
      f.outgoing k =
        (declaredTransitions o.faults (declarations entries) k).map
            (·.resolve ((declarations entries).map (·.name)).contains) ++
          if k ≠ startName ∧ k ≠ endName ∧ declaredTransitions o.faults (declarations entries) k = [] then
            [.plain k endName]
          else [] := by
  refine ⟨_, compile_value o entries, fun k hk => ?_⟩
  rw [Flow.outgoing_completed, outgoing_assembled, contains_assembled]
  congr 1
  by_cases he : k = endName
  · rw [if_neg (fun h => (Flow.mem_dangling.1 h).2.2.1 he), if_neg (fun h => h.2.1 he)]
  · have hk' := Flow.mem_keys_of_mem_completed hk he
    have hd : k ∈ (assembled o entries).dangling ↔
        k ≠ startName ∧ k ≠ endName ∧ declaredTransitions o.faults (declarations entries) k = [] := by
      rw [Flow.mem_dangling_iff_outgoing, outgoing_assembled, and_iff_right hk']
    simp only [hd]

/-- A name declared twice, first with a transition to a target that is not declared and with one taken on a fault. -/
def redeclaration : List Entry :=
  [.element { name := "A", kind := .decision, byDefault := some "X", onFault := some "B" },
    .element { name := "A", kind := .screen }, .element { name := "B", kind := .step }]

/-- The transition of a replaced declaration stays, led to the end, so the element is not joined to the end as well. The fault
transition is not shown. -/
theorem outgoing_compile_redeclaration :
    ∃ f, (compile {} { entries := redeclaration }).value = .ok f ∧ "A" ∈ f.elements.keys ∧
      f.outgoing "A" = [.labeled "A" "END" "Default"] := by
  obtain ⟨f, hf, h⟩ := outgoing_compile {} redeclaration
  have hk : "A" ∈ f.elements.keys := by
    rw [← Except.ok.inj hf]
    decide
  refine ⟨f, hf, hk, (h "A" hk).trans ?_⟩
  decide

end FlowDiagram

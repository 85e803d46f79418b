import FlowDiagram.Document.Entries
import FlowDiagram.Proofs.Assembly

/-!
# The elements of a document in reading order

A document declares elements where its flow starts and in the blocks under its tags (`Declaration`). They are read in a
fixed order, the start first and then tag by tag (`Document.declared`), whatever the order of the blocks in the document.

Main statement: the elements of a compiled document stand in the order in which their names are first declared, the added
end after them, and each is what the last declaration of its name says (`elements_compile_document`).
-/

namespace FlowDiagram

/-! ## Declarations -/

/-- What a document says about one element. -/
inductive Declaration where
  /-- The block that says where the flow starts. -/
  | start (b : StartBlock)
  /-- The name of the element that comes first, as older documents give it. -/
  | startReference (first : String)
  /-- A block under a tag, and its name. -/
  | step (t : StepTag) (name : String) (b : StepBlock)

namespace Declaration

/-- The name that an element is declared under. -/
def name : Declaration → String
  | start _ => startName
  | startReference _ => startName
  | step _ name _ => name

/-- The kind of element that is declared. -/
def kind : Declaration → Kind
  | start _ => .start
  | startReference _ => .start
  | step t _ _ => t.kind

/-- The element that is declared. Rules are read under one tag only, and so are wait events. -/
def element : Declaration → Element
  | start b => b.toElement
  | startReference first => { name := startName, kind := .start, label := some startLabel, next := some first }
  | step t name b =>
    { name
      kind := t.kind
      label := known b.label
      description := known b.description
      next := destination b.next
      onFault := destination b.onFault
      byDefault := destination b.byDefault
      defaultLabel := known b.defaultLabel
      rules := if t = .decisions then b.rules.map (·.toRule) else []
      waitEvents := if t = .waits then b.waitEvents.map (·.toWaitEvent) else []
      eachItem := destination b.eachItem
      afterLast := destination b.afterLast }

/-- An element that has the name and the kind it was declared with, and nothing that belongs to other kinds: rules only if it
is a decision, wait events only if it is a wait, and paths and a trigger only if it was declared as the start. -/
structure Gives (x : Declaration) (e : Element) : Prop where
  made : e = x.element
  name : e.name = x.name
  kind : e.kind = x.kind
  rules : e.rules ≠ [] → e.kind = .decision
  waitEvents : e.waitEvents ≠ [] → e.kind = .wait
  scheduledPaths : e.scheduledPaths ≠ [] → ∃ b, x = .start b
  trigger : e.trigger ≠ none → ∃ b, x = .start b

/-- The element of a declaration has the name that it is declared under. -/
theorem name_element (x : Declaration) : x.element.name = x.name := by
  cases x <;> rfl

/-- The element of a declaration is what the declaration gives. -/
theorem gives_element (x : Declaration) : x.Gives x.element := by
  cases x with
  | start b =>
    exact ⟨rfl, rfl, rfl, fun h => absurd rfl h, fun h => absurd rfl h, fun _ => ⟨b, rfl⟩, fun _ => ⟨b, rfl⟩⟩
  | startReference first =>
    exact ⟨rfl, rfl, rfl, fun h => absurd rfl h, fun h => absurd rfl h, fun h => absurd rfl h, fun h => absurd rfl h⟩
  | step t name b =>
    refine ⟨rfl, rfl, rfl, fun h => ?_, fun h => ?_, fun h => absurd rfl h, fun h => absurd rfl h⟩
    · by_cases ht : t = .decisions
      · rw [ht]
        rfl
      · exact absurd (if_neg ht) h
    · by_cases ht : t = .waits
      · rw [ht]
        rfl
      · exact absurd (if_neg ht) h

end Declaration

/-- Decisions are what the blocks under one tag make, and waits are what those under another make. -/
theorem StepTag.kind_eq_iff (t : StepTag) : (t.kind = .decision ↔ t = .decisions) ∧ (t.kind = .wait ↔ t = .waits) := by
  cases t <;> decide

/-- What counts as known of a text is what is left of it when it is trimmed, unless that is nothing. -/
theorem known_eq (t : Option String) : known t = (t.map Text.trim).filter (!·.isEmpty) := by
  cases t with
  | none => rfl
  | some s =>
    rw [known, Option.bind_some, Option.map_some, Option.filter_some, Text.nonblank]
    cases (Text.trim s).isEmpty <;> rfl

/-- A block that has a name makes the element that it declares. -/
theorem StepBlock.toElement?_kind (t : StepTag) (b : StepBlock) :
    b.toElement? t.kind =
      ((b.name.map Text.trim).filter (!·.isEmpty)).map fun name => (Declaration.step t name b).element := by
  rw [← known_eq]
  simp only [toElement?, Declaration.element, t.kind_eq_iff]

namespace Document

/-- What a document says about its start: a block of its own, or else the name of the element that comes first, trimmed and
if it is not blank. -/
def startDeclaration? (d : Document) : Option Declaration :=
  match d.start with
  | some b => some (.start b)
  | none => ((d.startReference.map Text.trim).filter (!·.isEmpty)).map .startReference

/-- The declarations of a document in reading order: that of the start, then the blocks tag by tag, each under its trimmed name
and if this is not blank. -/
def declared (d : Document) : List Declaration :=
  d.startDeclaration?.toList ++ StepTag.all.flatMap fun t =>
    (d.steps t).filterMap fun b => ((b.name.map Text.trim).filter (!·.isEmpty)).map fun name => .step t name b

/-- The element that a document gives for its start is the one that it declares. -/
theorem startElement?_eq (d : Document) : d.startElement? = d.startDeclaration?.map (·.element) := by
  unfold startElement? startDeclaration?
  cases d.start with
  | some b => rfl
  | none =>
    rw [← known_eq]
    cases known d.startReference <;> rfl

/-- The entries of a document that stand for elements. -/
def elementEntries (d : Document) : List Entry :=
  d.startElement?.toList.map .element ++ StepTag.all.flatMap fun t => (d.steps t).map (stepEntry t.kind)

/-- A document contributes its header, then its variables, and then its elements. -/
theorem entries_eq (d : Document) : d.entries = .header d.header :: (d.vars.map variableEntry ++ d.elementEntries) := by
  rw [entries, elementEntries, List.cons_append, List.cons_append, List.append_assoc]

/-- What a block for a variable contributes is the variable, or that it has no name. -/
theorem cases_of_mem_variableEntries {d : Document} {x : Entry} (hx : x ∈ d.vars.map variableEntry) :
    (∃ v, x = .var v) ∨ x = .namelessVariable := by
  obtain ⟨b, -, rfl⟩ := List.mem_map.mp hx
  rw [variableEntry]
  split
  · exact Or.inl ⟨_, rfl⟩
  · exact Or.inr rfl

/-- What a start or a step contributes is an element, or that the step has no name. -/
theorem cases_of_mem_elementEntries {d : Document} {x : Entry} (hx : x ∈ d.elementEntries) :
    (∃ e, x = .element e) ∨ ∃ kind, x = .namelessElement kind := by
  rcases List.mem_append.mp hx with hx | hx
  · obtain ⟨e, -, rfl⟩ := List.mem_map.mp hx
    exact Or.inl ⟨e, rfl⟩
  · obtain ⟨t, -, hx⟩ := List.mem_flatMap.mp hx
    obtain ⟨b, -, rfl⟩ := List.mem_map.mp hx
    rw [stepEntry]
    split
    · exact Or.inl ⟨_, rfl⟩
    · exact Or.inr ⟨_, rfl⟩

/-- The elements that a document hands over are those it declares, in reading order. -/
theorem declarations_entries (d : Document) : declarations d.entries = d.declared.map (·.element) := by
  have hvars : (d.vars.map variableEntry).filterMap Entry.element? = [] := by
    rw [List.filterMap_eq_nil_iff]
    intro x hx
    rcases cases_of_mem_variableEntries hx with ⟨v, rfl⟩ | rfl <;> rfl
  have hstep : ∀ (t : StepTag) (b : StepBlock), (stepEntry t.kind b).element? =
      ((b.name.map Text.trim).filter (!·.isEmpty)).map fun name => (Declaration.step t name b).element := by
    intro t b
    rw [← StepBlock.toElement?_kind, stepEntry]
    split <;> simp only [*, Entry.element?]
  have hstart : (d.startElement?.toList.map Entry.element).filterMap Entry.element? =
      d.startDeclaration?.toList.map (·.element) := by
    rw [startElement?_eq]
    cases d.startDeclaration? <;> rfl
  have hheader : Entry.element? (.header d.header) = none := rfl
  rw [declarations, entries_eq, List.filterMap_cons_none hheader, List.filterMap_append, hvars, List.nil_append,
    elementEntries, List.filterMap_append, hstart, declared, List.map_append, List.filterMap_flatMap, List.map_flatMap]
  congr 2
  funext t
  simp only [List.filterMap_map, List.map_filterMap, Function.comp_def, hstep, Option.map_map]

end Document

/-- The elements of a compiled document. Their names stand in the order in which they are first declared, each once, with the
end after them just if it was added. Under each name stands what its last declaration gives; under a name that is not
declared nothing stands, but for the added end. -/
theorem elements_compile_document (o : BuildOptions) (d : Document) :
    let added := (assembled o d.entries).complete.value.2.endAdded
    ∃ f, (compile o d.source).value = .ok f ∧
      f.elements.keys = (d.declared.map (·.name)).eraseDups ++ (if added then [endName] else []) ∧
      ∀ k, match (d.declared.filter (·.name == k)).getLast? with
        | some x => ∃ e, f.element? k = some e ∧ x.Gives e
        | none => f.element? k = if added ∧ k = endName then some endElement else none := by
  refine ⟨_, compile_value o d.entries, ?_, fun k => ?_⟩
  · rw [Flow.keys_completed, assembled_elements, keys_declareAll, d.declarations_entries, List.map_map]
    have hall : ∀ names : List String,
        names.filter (fun k => !(OrderedMap.empty : OrderedMap String Element).contains k) = names :=
      fun names => List.filter_eq_self.2 fun _ _ => rfl
    rw [hall]
    simp only [Function.comp_def, Declaration.name_element]
    rfl
  · have hget : (assembled o d.entries).element? k =
        (d.declared.filter (·.name == k)).getLast?.map (·.element) := by
      rw [Flow.element?, assembled_elements, get?_declareAll, d.declarations_entries, List.filter_map,
        List.getLast?_map]
      simp only [Function.comp_def, Declaration.name_element]
      exact Option.or_none
    rw [Flow.element?_completed, hget]
    split
    · next x hx =>
      rw [hx]
      exact ⟨_, rfl, x.gives_element⟩
    · next hx =>
      rw [hx]
      rfl

end FlowDiagram

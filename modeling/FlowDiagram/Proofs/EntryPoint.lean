import FlowDiagram.Proofs.ReadingOrder

/-!
# Where a compiled document starts

A document says where its flow starts in a block of its own, or, if it is old, by the name of the element that comes first
(`Document.DeclaresStart`). The element it declares stands under a name of its own, but nothing keeps a step from having that
name, and a step declared later takes the place of the start.

Main statement: a compiled document starts at the last step that has the name of the start, or else where the document says.
So its start is what the document says just if no step has that name (`start?_compile_document`). That a step can take the
place of the start is `not_declaresStart_compile_document`.
-/

namespace FlowDiagram

/-- Completing a flow leaves its start as it is. -/
theorem Flow.start?_completed (f : Flow) : f.completed.start? = f.start? := by
  have hne : startName ≠ endName := by decide
  rw [start?, element?_completed, if_neg fun h => hne h.2]
  exact Option.or_none

/-- No tag makes elements of the kind of the start. -/
theorem StepTag.kind_ne_start (t : StepTag) : t.kind ≠ .start := by
  cases t <;> decide

namespace Document

/-- The elements of the blocks that make steps, tag by tag. -/
def stepElements (d : Document) : List Element :=
  StepTag.all.flatMap fun t => (d.steps t).filterMap (·.toElement? t.kind)

/-- Whether a block that makes a step has the name of the start. -/
def NamesStart (d : Document) : Prop :=
  ∃ t, ∃ b ∈ d.steps t, known b.name = some startName

/-- A start as a document declares it: it is there just if the document has a block for it or names the element that comes
first, and it leads where these say, at the times and on the occasions that the block gives. -/
structure DeclaresStart (d : Document) (start : Option Element) : Prop where
  isSome : start.isSome ↔ d.start.isSome ∨ (known d.startReference).isSome
  kind : ∀ e ∈ start, e.kind = .start
  next : ∀ e ∈ start, e.next =
    match d.start with
    | some b => destination b.connector
    | none => known d.startReference
  scheduledPaths : ∀ e ∈ start, e.scheduledPaths = (d.start.elim [] (·.scheduledPaths)).map (·.toScheduledPath)
  trigger : ∀ e ∈ start, e.trigger = d.start.map fun b =>
    { triggerType := known b.triggerType, object := known b.object, recordTriggerType := known b.recordTriggerType }

/-- The elements that a document declares: the start, and then those of the blocks that make steps. -/
theorem declarations_entries_eq (d : Document) :
    declarations d.entries = d.startElement?.toList ++ d.stepElements := by
  have hstart : d.startDeclaration?.toList.map (·.element) = d.startElement?.toList := by
    rw [startElement?_eq]
    cases d.startDeclaration? <;> rfl
  rw [declarations_entries, declared, List.map_append, hstart, List.map_flatMap, stepElements]
  congr 2
  funext t
  simp only [List.map_filterMap, Option.map_map, Function.comp_def, ← StepBlock.toElement?_kind]

/-- The element that a document gives for its start is a start as the document declares it. -/
theorem declaresStart_startElement? (d : Document) : d.DeclaresStart d.startElement? := by
  unfold startElement?
  cases hstart : d.start with
  | some b =>
    refine ⟨by simp [hstart], ?_, ?_, ?_, ?_⟩ <;>
      · rintro e ⟨⟩
        simp [hstart, StartBlock.toElement]
  | none =>
    refine ⟨by simp [hstart], ?_, ?_, ?_, ?_⟩ <;>
      · intro e he
        obtain ⟨first, hfirst, rfl⟩ := Option.map_eq_some_iff.mp he
        simp [hstart, hfirst]

/-- An element of a block has the kind of a step and the name of the block. -/
theorem exists_of_mem_stepElements {d : Document} {e : Element} (he : e ∈ d.stepElements) :
    e.kind ≠ .start ∧ ∃ t, ∃ b ∈ d.steps t, known b.name = some e.name := by
  obtain ⟨t, -, he⟩ := List.mem_flatMap.mp he
  obtain ⟨b, hb, he⟩ := List.mem_filterMap.mp he
  obtain ⟨name, hname, rfl⟩ := Option.map_eq_some_iff.mp he
  exact ⟨t.kind_ne_start, t, b, hb, hname⟩

/-- A block that makes a step and has a name makes an element of that name. -/
theorem exists_mem_stepElements {d : Document} {t : StepTag} {b : StepBlock} {name : String} (hb : b ∈ d.steps t)
    (hname : known b.name = some name) : ∃ e ∈ d.stepElements, e.name = name := by
  have helement : ∃ e, b.toElement? t.kind = some e ∧ e.name = name := by
    rw [StepBlock.toElement?, hname]
    exact ⟨_, rfl, rfl⟩
  obtain ⟨e, he, hename⟩ := helement
  exact ⟨e, List.mem_flatMap.mpr ⟨t, t.mem_all, List.mem_filterMap.mpr ⟨b, hb, he⟩⟩, hename⟩

/-- The element that a document declares as its start has the name of the start. -/
theorem name_of_mem_startElement? {d : Document} : ∀ e ∈ d.startElement?, e.name = startName := by
  unfold startElement?
  cases d.start with
  | some b =>
    rintro e ⟨⟩
    rfl
  | none =>
    intro e he
    obtain ⟨first, -, rfl⟩ := Option.map_eq_some_iff.mp he
    rfl

/-- The steps that have the name of the start, in the order in which they take its place. -/
def stepsNamedStart (d : Document) : List Element :=
  d.stepElements.filter (·.name == startName)

/-- No element has the name of the start just if no block that makes a step has it. -/
theorem stepsNamedStart_eq_nil_iff {d : Document} : d.stepsNamedStart = [] ↔ ¬d.NamesStart := by
  rw [stepsNamedStart, List.filter_eq_nil_iff]
  constructor
  · rintro h ⟨t, b, hb, hname⟩
    obtain ⟨e, he, hename⟩ := exists_mem_stepElements hb hname
    exact h e he (beq_iff_eq.2 hename)
  · intro h e he hname
    obtain ⟨-, t, b, hb, hbname⟩ := exists_of_mem_stepElements he
    exact h ⟨t, b, hb, hbname.trans (congrArg some (beq_iff_eq.1 hname))⟩

/-- Before a document is completed, the last step that has the name of the start stands in its place. -/
theorem start?_assembled (o : BuildOptions) (d : Document) :
    (assembled o d.entries).start? = d.stepsNamedStart.getLast?.or d.startElement? := by
  have hstart : d.startElement?.toList.filter (·.name == startName) = d.startElement?.toList := by
    rw [List.filter_eq_self]
    exact fun e he => beq_iff_eq.2 (name_of_mem_startElement? e (Option.mem_toList.1 he))
  have hlast : d.startElement?.toList.getLast? = d.startElement? := by
    cases d.startElement? <;> rfl
  rw [Flow.start?, Flow.element?, assembled_elements, get?_declareAll, declarations_entries_eq, List.filter_append, hstart,
    List.getLast?_append, hlast]
  exact Option.or_none

end Document

/-- Where a compiled document starts. The last step that has the name of the start is taken for it, and else the element that
the document declares as its start. So the start is there just if it is declared, and is what is declared, in the documents
none of whose steps has its name, and in no others. -/
theorem start?_compile_document (o : BuildOptions) (d : Document) :
    ∃ f, (compile o d.source).value = .ok f ∧
      f.start? = d.stepsNamedStart.getLast?.or d.startElement? ∧
      (d.DeclaresStart f.start? ↔ ¬d.NamesStart) := by
  have hstart : (assembled o d.entries).completed.start? = d.stepsNamedStart.getLast?.or d.startElement? := by
    rw [Flow.start?_completed, Document.start?_assembled]
  refine ⟨_, compile_value o d.entries, hstart, ?_⟩
  rw [hstart, ← Document.stepsNamedStart_eq_nil_iff]
  constructor
  · intro h
    cases hlast : d.stepsNamedStart.getLast? with
    | none => exact List.getLast?_eq_none_iff.1 hlast
    | some e =>
      have he : e ∈ d.stepElements := (List.mem_filter.mp (List.mem_of_getLast? hlast)).1
      rw [hlast] at h
      exact absurd (h.kind e rfl) (Document.exists_of_mem_stepElements he).1
  · intro h
    rw [h]
    exact d.declaresStart_startElement?

/-- A document that says where its flow starts, and has a screen of the name of the start. -/
def shadowedStart : Document where
  start := some { connector := some { target := some "A" } }
  steps
    | .screens => [{ name := some "START" }]
    | .steps => [{ name := some "A" }]
    | _ => []

/-- A screen can take the place of the start that a document declares. -/
theorem not_declaresStart_compile_document :
    ¬∀ (o : BuildOptions) (d : Document), ∃ f, (compile o d.source).value = .ok f ∧ d.DeclaresStart f.start? := by
  intro h
  obtain ⟨f, hf, hdeclares⟩ := h {} shadowedStart
  have hscreen : f.start?.map (·.kind) = some .screen := by
    rw [← Except.ok.inj hf]
    decide
  obtain ⟨e, he, hkind⟩ := Option.map_eq_some_iff.mp hscreen
  rw [hdeclares.kind e he] at hkind
  exact absurd hkind (by decide)

end FlowDiagram

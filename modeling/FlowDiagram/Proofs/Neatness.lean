import FlowDiagram.Proofs.EntryPoint

/-!
# Neat texts

A text is neat if it is not empty and has no blank at either end (`Text.Neat`); the neat texts are those that trimming leaves as
they are (`neat_iff`). Every text that is known of a document is neat, and so is what is put in the place of a missing one.

Main statements: the texts of a flow that is assembled from a document are neat, except where a branch or a path has neither a
label nor a name (`Document.neat_assembled`), and completing a flow brings no text that is not (`Flow.Neat.completed`).
-/

namespace FlowDiagram

/-! ## Neat texts -/

namespace Text

/-- A text that is not empty and has no blank at either end. -/
structure Neat (s : String) : Prop where
  nonempty : s ≠ ""
  first : ∀ c ∈ s.toList.head?, isBlank c = false
  last : ∀ c ∈ s.toList.getLast?, isBlank c = false

/-- What is left of a text that is not blank is neat. -/
theorem neat_of_mem_nonblank {s t : String} (h : t ∈ nonblank s) : Neat t := by
  simp only [nonblank, Option.mem_def] at h
  split at h
  · cases h
  · next hne =>
    obtain rfl := Option.some.inj h
    refine ⟨fun he => hne (by rw [he]; rfl), fun c hc => ?_, fun c hc => ?_⟩
    · rw [trim, String.toList_ofList] at hc
      exact head?_dropBoth hc
    · rw [trim, String.toList_ofList] at hc
      exact getLast?_dropBoth hc

/-- The neat texts are those that stay as they are. -/
theorem neat_iff {s : String} : Neat s ↔ nonblank s = some s := by
  constructor
  · intro h
    have htrim : trim s = s := by
      rw [trim, dropBoth_of_ends h.first h.last, String.ofList_toList]
    have hne : s.isEmpty = false := by
      rw [← Bool.not_eq_true, String.isEmpty_iff]
      exact h.nonempty
    simp only [nonblank, htrim, hne, Bool.false_eq_true, if_false]
  · exact neat_of_mem_nonblank

/-- A text that is neat if it is there. -/
def NeatIfAny (t : Option String) : Prop :=
  ∀ s ∈ t, Neat s

end Text

open Text

theorem neatIfAny_none : NeatIfAny none :=
  fun _ h => nomatch h

/-- What is known of a text is neat. -/
theorem neatIfAny_known (t : Option String) : NeatIfAny (known t) := by
  intro s hs
  obtain ⟨u, -, hs⟩ := Option.bind_eq_some_iff.mp hs
  exact neat_of_mem_nonblank hs

/-- The target of a transition is neat if it leads anywhere. -/
theorem neatIfAny_destination (j : Option Jump) : NeatIfAny (destination j) :=
  neatIfAny_known _

/-! ## Flows of neat texts -/

/-- What is known of a text is neat, and so is what stands for a missing one if that is neat itself. -/
theorem neat_known_getD (t : Option String) {s : String} (hs : Text.Neat s) : Text.Neat ((known t).getD s) := by
  cases h : known t with
  | none => exact hs
  | some u => exact neatIfAny_known t u h

/-- A name that is neat, or is empty because it is missing. -/
def NeatOrMissing (name : String) : Prop :=
  name = "" ∨ Text.Neat name

/-- A condition whose texts are neat if they are there. -/
structure Condition.Neat (c : Condition) : Prop where
  left : NeatIfAny c.left
  operator : NeatIfAny c.operator
  right : NeatIfAny c.right

/-- A rule whose texts are neat if they are there, and so are those of its conditions. -/
structure Rule.Neat (r : Rule) : Prop where
  name : NeatOrMissing r.name
  label : NeatIfAny r.label
  logic : NeatIfAny r.logic
  conditions : ∀ c ∈ r.conditions, c.Neat
  target : NeatIfAny r.target

/-- A wait event whose texts are neat if they are there, and so are those of its conditions. -/
structure WaitEvent.Neat (w : WaitEvent) : Prop where
  name : NeatOrMissing w.name
  label : NeatIfAny w.label
  eventType : NeatIfAny w.eventType
  logic : NeatIfAny w.logic
  conditions : ∀ c ∈ w.conditions, c.Neat
  target : NeatIfAny w.target

/-- A path whose texts are neat if they are there. -/
structure ScheduledPath.Neat (p : ScheduledPath) : Prop where
  name : NeatOrMissing p.name
  label : NeatIfAny p.label
  offsetUnit : NeatIfAny p.offsetUnit
  timeSource : NeatIfAny p.timeSource
  pathType : NeatIfAny p.pathType
  target : NeatIfAny p.target

/-- A trigger whose texts are neat if they are there. -/
structure Trigger.Neat (t : Trigger) : Prop where
  triggerType : NeatIfAny t.triggerType
  object : NeatIfAny t.object
  recordTriggerType : NeatIfAny t.recordTriggerType

/-- An element with a neat name whose other texts are neat if they are there, and so are those of its parts. -/
structure Element.Neat (e : Element) : Prop where
  name : Text.Neat e.name
  label : NeatIfAny e.label
  description : NeatIfAny e.description
  next : NeatIfAny e.next
  onFault : NeatIfAny e.onFault
  byDefault : NeatIfAny e.byDefault
  defaultLabel : NeatIfAny e.defaultLabel
  rules : ∀ r ∈ e.rules, r.Neat
  waitEvents : ∀ w ∈ e.waitEvents, w.Neat
  eachItem : NeatIfAny e.eachItem
  afterLast : NeatIfAny e.afterLast
  scheduledPaths : ∀ p ∈ e.scheduledPaths, p.Neat
  trigger : ∀ t ∈ e.trigger, t.Neat

/-- A variable with a neat name whose other texts are neat if they are there. -/
structure Variable.Neat (v : Variable) : Prop where
  name : Text.Neat v.name
  dataType : NeatIfAny v.dataType
  objectType : NeatIfAny v.objectType
  description : NeatIfAny v.description

/-- Whether an element has a rule, a wait event or a path with neither a label nor a name. -/
def Element.HasUntitled (e : Element) : Prop :=
  (∃ r ∈ e.rules, r.label = none ∧ r.name = "") ∨ (∃ w ∈ e.waitEvents, w.label = none ∧ w.name = "") ∨
    ∃ p ∈ e.scheduledPaths, p.label = none ∧ p.name = ""

/-- A connector with neat ends whose label is neat too, or is empty because the element that the connector leaves, one of
those given, has something with neither a label nor a name. -/
structure Connector.Neat (es : List Element) (c : Connector) : Prop where
  source : Text.Neat c.source
  target : Text.Neat c.target
  label : ∀ l ∈ c.label, Text.Neat l ∨ l = "" ∧ ∃ e ∈ es, e.name = c.source ∧ e.HasUntitled

/-- A flow all of whose texts but its name and its label are neat, where its elements were declared as given. -/
structure Flow.Neat (declared : List Element) (f : Flow) : Prop where
  description : NeatIfAny f.description
  processType : Text.Neat f.processType
  status : NeatIfAny f.status
  keys : ∀ k ∈ f.elements.keys, Text.Neat k
  elements : ∀ e ∈ f.elements.values, e.Neat
  connectors : ∀ c ∈ f.connectors, c.Neat declared
  vars : ∀ v ∈ f.vars, v.Neat

/-- The condition of a block is neat. -/
theorem ConditionBlock.neat_toCondition (b : ConditionBlock) : b.toCondition.Neat :=
  ⟨neatIfAny_known _, neatIfAny_known _, neatIfAny_known _⟩

/-- A name that is known is neat, and a missing one is empty. -/
theorem neatOrMissing_known (t : Option String) : NeatOrMissing ((known t).getD "") := by
  cases h : known t with
  | none => exact Or.inl rfl
  | some s => exact Or.inr (neatIfAny_known t s h)

/-- The conditions of blocks are neat. -/
theorem neat_toConditions (bs : List ConditionBlock) : ∀ c ∈ bs.map (·.toCondition), c.Neat := by
  intro c hc
  obtain ⟨b, -, rfl⟩ := List.mem_map.mp hc
  exact b.neat_toCondition

/-- The rule of a block is neat; so is its wait event, or its path. -/
theorem RuleBlock.neat_toRule (b : RuleBlock) : b.toRule.Neat where
  name := neatOrMissing_known b.name
  label := neatIfAny_known _
  logic := neatIfAny_known _
  conditions := neat_toConditions b.conditions
  target := neatIfAny_destination _

theorem WaitBlock.neat_toWaitEvent (b : WaitBlock) : b.toWaitEvent.Neat where
  name := neatOrMissing_known b.name
  label := neatIfAny_known _
  eventType := neatIfAny_known _
  logic := neatIfAny_known _
  conditions := neat_toConditions b.conditions
  target := neatIfAny_destination _

theorem PathBlock.neat_toScheduledPath (b : PathBlock) : b.toScheduledPath.Neat where
  name := neatOrMissing_known b.name
  label := neatIfAny_known _
  offsetUnit := neatIfAny_known _
  timeSource := neatIfAny_known _
  pathType := neatIfAny_known _
  target := neatIfAny_destination _

theorem neatIfAny_some {s : String} (h : Text.Neat s) : NeatIfAny (some s) := by
  rintro _ ⟨⟩
  exact h

theorem neat_startName : Text.Neat startName :=
  neat_iff.mpr (by decide)

theorem neat_endName : Text.Neat endName :=
  neat_iff.mpr (by decide)

/-- An element with a name and a label that leads to one target and on paths, as the start and the end are. -/
theorem neat_terminal {name label : String} {kind : Kind} {next : Option String} {scheduledPaths : List ScheduledPath}
    {trigger : Option Trigger} (hname : Text.Neat name) (hlabel : Text.Neat label) (hnext : NeatIfAny next)
    (hpaths : ∀ p ∈ scheduledPaths, p.Neat) (htrigger : ∀ t ∈ trigger, t.Neat) :
    Element.Neat { name, kind, label := some label, next, scheduledPaths, trigger } where
  name := hname
  label := neatIfAny_some hlabel
  description := neatIfAny_none
  next := hnext
  onFault := neatIfAny_none
  byDefault := neatIfAny_none
  defaultLabel := neatIfAny_none
  rules := fun _ h => nomatch h
  waitEvents := fun _ h => nomatch h
  eachItem := neatIfAny_none
  afterLast := neatIfAny_none
  scheduledPaths := hpaths
  trigger := htrigger

/-- The end that completing a flow adds is neat. -/
theorem neat_endElement : endElement.Neat :=
  neat_terminal neat_endName (neat_iff.mpr (by decide)) neatIfAny_none (fun _ h => nomatch h) (fun _ h => nomatch h)

/-- The start that a document declares is neat. -/
theorem Document.neat_of_mem_startElement? {d : Document} : ∀ e ∈ d.startElement?, e.Neat := by
  have hlabel : Text.Neat startLabel := neat_iff.mpr (by decide)
  unfold startElement?
  cases d.start with
  | some b =>
    rintro e ⟨⟩
    refine neat_terminal neat_startName hlabel (neatIfAny_destination _) (fun p hp => ?_) ?_
    · obtain ⟨b, -, rfl⟩ := List.mem_map.mp hp
      exact b.neat_toScheduledPath
    · rintro t ⟨⟩
      exact ⟨neatIfAny_known _, neatIfAny_known _, neatIfAny_known _⟩
  | none =>
    intro e he
    obtain ⟨first, hfirst, rfl⟩ := Option.map_eq_some_iff.mp he
    exact neat_terminal neat_startName hlabel (neatIfAny_some (neatIfAny_known _ first hfirst)) (fun _ h => nomatch h)
      (fun _ h => nomatch h)

/-- The element of a step is neat. -/
theorem StepBlock.neat_of_mem_toElement? {kind : Kind} {b : StepBlock} : ∀ e ∈ b.toElement? kind, e.Neat := by
  intro e he
  obtain ⟨name, hname, rfl⟩ := Option.map_eq_some_iff.mp he
  exact
    { name := neatIfAny_known _ name hname
      label := neatIfAny_known _
      description := neatIfAny_known _
      next := neatIfAny_destination _
      onFault := neatIfAny_destination _
      byDefault := neatIfAny_destination _
      defaultLabel := neatIfAny_known _
      rules := by
        intro r hr
        dsimp only at hr
        split at hr
        · obtain ⟨b, -, rfl⟩ := List.mem_map.mp hr
          exact b.neat_toRule
        · cases hr
      waitEvents := by
        intro w hw
        dsimp only at hw
        split at hw
        · obtain ⟨b, -, rfl⟩ := List.mem_map.mp hw
          exact b.neat_toWaitEvent
        · cases hw
      eachItem := neatIfAny_destination _
      afterLast := neatIfAny_destination _
      scheduledPaths := fun _ h => nomatch h
      trigger := fun _ h => nomatch h }

/-- The variable of a block is neat. -/
theorem VariableBlock.neat_of_mem_toVariable? {b : VariableBlock} : ∀ v ∈ b.toVariable?, v.Neat := by
  intro v hv
  obtain ⟨name, hname, rfl⟩ := Option.map_eq_some_iff.mp hv
  exact ⟨neatIfAny_known _ name hname, neatIfAny_known _, neatIfAny_known _, neatIfAny_known _⟩

/-- Every element that a document declares is neat. -/
theorem Document.neat_of_mem_declarations {d : Document} {e : Element} (he : e ∈ declarations d.entries) : e.Neat := by
  rw [declarations_entries_eq, List.mem_append, Option.mem_toList] at he
  rcases he with he | he
  · exact neat_of_mem_startElement? e he
  · obtain ⟨t, -, he⟩ := List.mem_flatMap.mp he
    obtain ⟨b, -, he⟩ := List.mem_filterMap.mp he
    exact StepBlock.neat_of_mem_toElement? e he

/-! ## Connectors of neat elements -/

/-- What is shown for something with a label and a name is neat, unless both are missing. -/
theorem neat_title {label : Option String} {name : String} (hlabel : NeatIfAny label) (hname : NeatOrMissing name) :
    Text.Neat (label.getD name) ∨ label.getD name = "" ∧ label = none ∧ name = "" := by
  cases label with
  | some l => exact Or.inl (hlabel l rfl)
  | none =>
    rcases hname with rfl | hname
    · exact Or.inr ⟨rfl, rfl, rfl⟩
    · exact Or.inl hname

/-- A connector with a neat label, or with none. -/
theorem Connector.neat_of_label {es : List Element} {c : Connector} (hsource : Text.Neat c.source)
    (htarget : Text.Neat c.target) (hlabel : NeatIfAny c.label) : c.Neat es :=
  ⟨hsource, htarget, fun l hl => Or.inl (hlabel l hl)⟩

/-- A connector with the title of something that an element has. -/
theorem Connector.neat_of_title {es : List Element} {e : Element} {c : Connector} {label : Option String} {name : String}
    (he : e ∈ es) (hsource : c.source = e.name) (hename : Text.Neat e.name) (htarget : Text.Neat c.target)
    (hc : c.label = some (label.getD name)) (hlabel : NeatIfAny label) (hname : NeatOrMissing name)
    (huntitled : label = none → name = "" → e.HasUntitled) : c.Neat es := by
  refine ⟨hsource ▸ hename, htarget, fun l hl => ?_⟩
  obtain rfl : label.getD name = l := Option.some.inj (hc.symm.trans hl)
  rcases neat_title hlabel hname with h | ⟨hempty, hnone, hmissing⟩
  · exact Or.inl h
  · exact Or.inr ⟨hempty, e, he, hsource.symm, huntitled hnone hmissing⟩

/-- The connectors of a neat element are neat. -/
theorem Element.Neat.neat_connectors {es : List Element} {e : Element} (h : e.Neat) (he : e ∈ es) {faults : Bool}
    {c : Connector} (hc : c ∈ e.connectors faults) : c.Neat es := by
  have hdefault : Text.Neat "Default" := neat_iff.mpr (by decide)
  have hnextItem : Text.Neat "Next Item" := neat_iff.mpr (by decide)
  have hdone : Text.Neat "Done" := neat_iff.mpr (by decide)
  have hfault : Text.Neat "Fault" := neat_iff.mpr (by decide)
  rcases Element.mem_connectors.mp hc with hc | ⟨-, t, ht, rfl⟩
  · simp only [Element.regularConnectors, List.mem_append, List.mem_map, List.mem_filterMap, Option.map_eq_some_iff,
      Option.mem_toList, or_assoc] at hc
    rcases hc with ⟨t, ht, rfl⟩ | ⟨t, ht, rfl⟩ | ⟨r, hr, t, ht, rfl⟩ | ⟨w, hw, t, ht, rfl⟩ | ⟨t, ht, rfl⟩ |
      ⟨t, ht, rfl⟩ | ⟨p, hp, t, ht, rfl⟩
    · exact Connector.neat_of_label h.name (h.next t ht) neatIfAny_none
    · exact Connector.neat_of_label h.name (h.byDefault t ht) (neatIfAny_some hdefault)
    · exact Connector.neat_of_title he rfl h.name ((h.rules r hr).target t ht) rfl (h.rules r hr).label
        (h.rules r hr).name fun hl hn => Or.inl ⟨r, hr, hl, hn⟩
    · exact Connector.neat_of_title he rfl h.name ((h.waitEvents w hw).target t ht) rfl (h.waitEvents w hw).label
        (h.waitEvents w hw).name fun hl hn => Or.inr (Or.inl ⟨w, hw, hl, hn⟩)
    · exact Connector.neat_of_label h.name (h.eachItem t ht) (neatIfAny_some hnextItem)
    · exact Connector.neat_of_label h.name (h.afterLast t ht) (neatIfAny_some hdone)
    · exact Connector.neat_of_title he rfl h.name ((h.scheduledPaths p hp).target t ht) rfl (h.scheduledPaths p hp).label
        (h.scheduledPaths p hp).name fun hl hn => Or.inr (Or.inr ⟨p, hp, hl, hn⟩)
  · exact Connector.neat_of_label h.name (h.onFault t ht) (neatIfAny_some hfault)

/-- A connector that is led to the end is as neat as before. -/
theorem Connector.Neat.resolve {es : List Element} {c : Connector} (h : c.Neat es) (declared : String → Bool) :
    (c.resolve declared).Neat es := by
  unfold Connector.resolve
  split
  · exact h
  · exact ⟨h.source, neat_endName, h.label⟩

/-! ## The compiled document -/

namespace Document

/-- A document has one header. -/
theorem filterMap_header?_entries (d : Document) : d.entries.filterMap Entry.header? = [d.header] := by
  have hvars : (d.vars.map variableEntry).filterMap Entry.header? = [] := by
    rw [List.filterMap_eq_nil_iff]
    intro x hx
    rcases cases_of_mem_variableEntries hx with ⟨v, rfl⟩ | rfl <;> rfl
  have helements : d.elementEntries.filterMap Entry.header? = [] := by
    rw [List.filterMap_eq_nil_iff]
    intro x hx
    rcases cases_of_mem_elementEntries hx with ⟨e, rfl⟩ | ⟨kind, rfl⟩ <;> rfl
  rw [entries_eq, List.filterMap_cons, List.filterMap_append, hvars, helements]
  rfl

/-- The variables that a document hands over are those of the blocks that have a name. -/
theorem filterMap_var?_entries (d : Document) : d.entries.filterMap Entry.var? = d.vars.filterMap (·.toVariable?) := by
  have hvars : (d.vars.map variableEntry).filterMap Entry.var? = d.vars.filterMap (·.toVariable?) := by
    rw [List.filterMap_map]
    congr 1
    funext b
    rw [Function.comp_apply, variableEntry]
    split <;> simp only [*, Entry.var?]
  have helements : d.elementEntries.filterMap Entry.var? = [] := by
    rw [List.filterMap_eq_nil_iff]
    intro x hx
    rcases cases_of_mem_elementEntries hx with ⟨e, rfl⟩ | ⟨kind, rfl⟩ <;> rfl
  have hheader : Entry.var? (.header d.header) = none := rfl
  rw [entries_eq, List.filterMap_cons_none hheader, List.filterMap_append, hvars, helements, List.append_nil]

/-- What is assembled from a document before it is completed. -/
theorem assembled_document (o : BuildOptions) (d : Document) :
    assembled o d.entries =
      Assembly.finish
        { faults := o.faults
          header := d.header
          elements := declareAll .empty (declarations d.entries)
          vars := d.vars.filterMap (·.toVariable?)
          connectors := (declarations d.entries).flatMap (·.connectors o.faults) } o.name := by
  rw [assembled, Assembly.takeAll_value, filterMap_header?_entries, filterMap_var?_entries]
  rfl

/-- A flow is called what it is to be called, or else what its document says. -/
theorem name_assembled (o : BuildOptions) (d : Document) :
    (assembled o d.entries).name = o.name.getD ((known d.label).getD Assembly.unknown) := by
  rw [assembled_document]
  rfl

/-- The label of a flow is what its document says, or else its name. -/
theorem label_assembled (o : BuildOptions) (d : Document) :
    (assembled o d.entries).label = (known d.label).getD (assembled o d.entries).name := by
  rw [assembled_document]
  rfl

/-- The texts of an assembled document are neat. -/
theorem neat_assembled (o : BuildOptions) (d : Document) : (assembled o d.entries).Neat (declarations d.entries) where
  description := by
    rw [assembled_document]
    exact neatIfAny_known d.description
  processType := by
    rw [assembled_document]
    exact neat_known_getD d.processType (neat_iff.mpr (by decide))
  status := by
    rw [assembled_document]
    exact neatIfAny_known d.status
  keys := by
    intro k hk
    obtain ⟨e, he, rfl⟩ := List.mem_map.mp (mem_keys_assembled.mp hk)
    exact (neat_of_mem_declarations he).name
  elements := by
    intro e he
    obtain ⟨p, hp, rfl⟩ := List.mem_map.mp he
    obtain ⟨e, hdeclared, rfl⟩ := mem_entries_assembled hp
    exact neat_of_mem_declarations hdeclared
  connectors := by
    intro c hc
    rw [assembled_connectors] at hc
    obtain ⟨e, he, hc⟩ := List.mem_flatMap.mp hc
    exact (neat_of_mem_declarations he).neat_connectors he hc
  vars := by
    intro v hv
    rw [assembled_document] at hv
    obtain ⟨b, -, hv⟩ := List.mem_filterMap.mp hv
    exact VariableBlock.neat_of_mem_toVariable? v hv

end Document

/-- Completing a flow brings no text that is not neat. -/
theorem Flow.Neat.completed {declared : List Element} {f : Flow} (h : f.Neat declared) : f.completed.Neat declared where
  description := h.description
  processType := h.processType
  status := h.status
  keys := by
    intro k hk
    by_cases he : k = endName
    · rw [he]
      exact neat_endName
    · exact h.keys k (mem_keys_of_mem_completed hk he)
  elements := by
    intro e he
    rw [OrderedMap.values] at he
    rcases f.completed_entries_cases with hentries | hentries
    · rw [hentries] at he
      exact h.elements e he
    · rw [hentries, List.map_append, List.mem_append] at he
      rcases he with he | he
      · exact h.elements e he
      · rw [List.mem_singleton.mp he]
        exact neat_endElement
  connectors := by
    intro c hc
    rcases mem_completed_connectors.mp hc with ⟨d, hd, rfl⟩ | ⟨k, hk, rfl⟩
    · exact (h.connectors d hd).resolve _
    · exact Connector.neat_of_label (h.keys k (mem_dangling.mp hk).1) neat_endName neatIfAny_none
  vars := h.vars

end FlowDiagram

import FlowDiagram.Proofs.EntryPoint

/-!
# What the notices of a compilation account for

Whatever is lost or changed on the way from entries to a flow is told. Each entry that stands for a variable becomes one or
is told to be left out (`Assembly.takeAll_vars`), and each entry that stands for an element becomes a new element, or takes the
place of an earlier one, which is told, or is told to be left out (`Assembly.takeAll_elements`). Completing the flow tells of
each connector that is led to the end, and of nothing else (`Flow.complete_notices`).

Main statement: the notices of a compiled document account for all of its blocks and for all connectors that lead nowhere
(`notices_compile_document`).
-/

namespace FlowDiagram

namespace Notice

/-- Whether a notice says that a variable is left out. -/
def losesVariable : Notice → Bool
  | unnamedVariable => true
  | _ => false

/-- Whether a notice says that an element is left out. -/
def losesElement : Notice → Bool
  | unnamedElement _ => true
  | _ => false

/-- Whether a notice says that an element takes the place of another. -/
def replacesElement : Notice → Bool
  | redeclared _ => true
  | _ => false

/-- The ends of the connector that a notice says is led to the end of the flow, as they were declared. -/
def redirection? : Notice → Option (String × String)
  | redirected source target => some (source, target)
  | _ => none

end Notice

namespace Entry

/-- Whether an entry stands for a variable, also for one that is left out. -/
def isVariable : Entry → Bool
  | var _ => true
  | namelessVariable => true
  | _ => false

/-- Whether an entry stands for an element, also for one that is left out. -/
def isElement : Entry → Bool
  | element _ => true
  | namelessElement _ => true
  | _ => false

end Entry

/-! ## The notices of an assembly -/

namespace Assembly

theorem takeAll_cons (a : Assembly) (x : Entry) (xs : List Entry) :
    a.takeAll (x :: xs) = a.take x >>= (·.takeAll xs) :=
  List.foldlM_cons

/-- An entry that stands for a variable is taken in or told of. -/
theorem take_vars (a : Assembly) (x : Entry) :
    (a.take x).notices.countP (·.losesVariable) + (a.take x).value.vars.length =
      a.vars.length + if x.isVariable then 1 else 0 := by
  cases x with
  | header h => exact Nat.zero_add _
  | var v => exact (Nat.zero_add _).trans List.length_append
  | element e =>
    simp only [take, addElement]
    split <;> simp [Logged.tell, Notice.losesVariable, Entry.isVariable]
  | namelessVariable => exact Nat.add_comm 1 _
  | namelessElement kind => exact Nat.zero_add _

/-- All entries that stand for variables are taken in or told of. -/
theorem takeAll_vars (a : Assembly) (entries : List Entry) :
    (a.takeAll entries).notices.countP (·.losesVariable) + (a.takeAll entries).value.vars.length =
      a.vars.length + entries.countP (·.isVariable) := by
  induction entries generalizing a with
  | nil => exact Nat.zero_add _
  | cons x xs ih =>
    have hstep := a.take_vars x
    have hrun := ih (a.take x).value
    rw [takeAll_cons, Logged.notices_bind, Logged.value_bind, List.countP_append, List.countP_cons]
    omega

/-- An entry that stands for an element makes for one more element, or is told of. -/
theorem take_elements (a : Assembly) (x : Entry) :
    (a.take x).notices.countP (·.losesElement) + (a.take x).notices.countP (·.replacesElement) +
        (a.take x).value.elements.size =
      a.elements.size + if x.isElement then 1 else 0 := by
  cases x with
  | header h => exact Nat.zero_add _
  | var v => exact Nat.zero_add _
  | element e =>
    simp only [take, addElement]
    by_cases h : a.elements.contains e.name = true
    · simp [h, Logged.tell, Notice.losesElement, Notice.replacesElement, OrderedMap.size_insert, Entry.isElement,
        Nat.add_comm]
    · simp [h, OrderedMap.size_insert, Entry.isElement]
  | namelessVariable => exact Nat.zero_add _
  | namelessElement kind => exact Nat.add_comm 1 _

/-- All entries that stand for elements make for one more element, or are told of. -/
theorem takeAll_elements (a : Assembly) (entries : List Entry) :
    (a.takeAll entries).notices.countP (·.losesElement) + (a.takeAll entries).notices.countP (·.replacesElement) +
        (a.takeAll entries).value.elements.size =
      a.elements.size + entries.countP (·.isElement) := by
  induction entries generalizing a with
  | nil => exact Nat.zero_add _
  | cons x xs ih =>
    have hstep := a.take_elements x
    have hrun := ih (a.take x).value
    rw [takeAll_cons, Logged.notices_bind, Logged.value_bind, List.countP_append, List.countP_append,
      List.countP_cons]
    omega

/-- Taking in entries leads no connector anywhere else. -/
theorem redirection?_of_mem_takeAll {a : Assembly} {entries : List Entry} {n : Notice}
    (hn : n ∈ (a.takeAll entries).notices) : n.redirection? = none := by
  induction entries generalizing a with
  | nil => cases hn
  | cons x xs ih =>
    rw [takeAll_cons, Logged.notices_bind, List.mem_append] at hn
    rcases hn with hn | hn
    · cases x with
      | header h => cases hn
      | var v => cases hn
      | element e =>
        simp only [take, addElement] at hn
        split at hn
        · simp [Logged.tell] at hn
          rw [hn]
          rfl
        · cases hn
      | namelessVariable =>
        rw [List.mem_singleton.mp hn]
        rfl
      | namelessElement kind =>
        rw [List.mem_singleton.mp hn]
        rfl
    · exact ih hn

end Assembly

/-! ## The notices of a completion -/

/-- A connector that is taken over is told of just if it leads nowhere. -/
theorem Progress.carry_notices (declared : String → Bool) (p : Progress) (c : Connector) :
    (p.carry declared c).notices = if declared c.target then [] else [.redirected c.source c.target] := by
  unfold carry
  split <;> rfl

/-- A notice is given for each connector whose target is not declared, in order. -/
theorem Progress.foldlM_carry_notices (declared : String → Bool) (p : Progress) (cs : List Connector) :
    (cs.foldlM (carry declared) p).notices =
      (cs.filter fun c => !declared c.target).map fun c => .redirected c.source c.target := by
  induction cs generalizing p with
  | nil => rfl
  | cons c cs ih =>
    rw [List.foldlM_cons, Logged.notices_bind, carry_notices, ih, List.filter_cons]
    cases declared c.target <;> rfl

/-- The connectors of a flow that lead to no element of it. -/
def Flow.loose (f : Flow) : List Connector :=
  f.connectors.filter fun c => !f.elements.contains c.target

/-- Completing a flow tells of the connectors that lead nowhere, in order, and of nothing else. -/
theorem Flow.complete_notices (f : Flow) :
    f.complete.notices = f.loose.map fun c => .redirected c.source c.target := by
  simp only [complete, Logged.notices_bind, Logged.notices_pure, List.append_nil, Progress.foldlM_carry_notices]
  rfl

/-- As many connectors are led to the end as lead nowhere. -/
theorem Flow.redirected_complete (f : Flow) : f.complete.value.2.redirected = f.loose.length := by
  rw [complete_value, loose, ← List.countP_eq_length_filter]
  rfl

/-- No element is added but the end. -/
theorem Flow.size_completed (f : Flow) :
    f.completed.elements.size = f.elements.size + if f.complete.value.2.endAdded then 1 else 0 := by
  rw [OrderedMap.size, entries_completed, List.length_append]
  split <;> rfl

/-! ## The notices of a whole compilation -/

/-- What is told of a compilation: first what is told of the entries, last what completing the flow changed. -/
theorem compile_notices (o : BuildOptions) (entries : List Entry) :
    let a := (({ faults := o.faults } : Assembly).takeAll entries)
    let c := (assembled o entries).complete
    (compile o { entries }).notices =
      a.notices ++ (.assembled a.value.elements.size a.value.connectors.length :: c.notices ++
        [.completed c.value.1.name c.value.2.endAdded c.value.2.terminalEdges c.value.2.redirected]) := by
  simp only [compile, build, Logged.notices_bind, Logged.notices_pure, List.append_nil]
  rfl

/-- Only the entries bring notices of what is left out or replaced. -/
theorem countP_compile_notices (o : BuildOptions) (entries : List Entry) {p : Notice → Bool}
    (hassembled : ∀ elements connectors, p (.assembled elements connectors) = false)
    (hredirected : ∀ source target, p (.redirected source target) = false)
    (hcompleted : ∀ flow endAdded terminalEdges moved, p (.completed flow endAdded terminalEdges moved) = false) :
    (compile o { entries }).notices.countP p =
      (({ faults := o.faults } : Assembly).takeAll entries).notices.countP p := by
  have hcomplete : (assembled o entries).complete.notices.countP p = 0 := by
    rw [Flow.complete_notices, List.countP_map, List.countP_eq_zero]
    intro c _
    rw [Function.comp_apply, hredirected]
    exact Bool.false_ne_true
  rw [compile_notices]
  simp only [List.countP_append, List.countP_cons, List.countP_nil, hassembled, hcompleted, hcomplete]
  rfl

/-- Only completing the flow brings notices of connectors that are led to the end. -/
theorem filterMap_redirection?_compile (o : BuildOptions) (entries : List Entry) :
    (compile o { entries }).notices.filterMap (·.redirection?) =
      (assembled o entries).loose.map fun c => (c.source, c.target) := by
  have htaken : (({ faults := o.faults } : Assembly).takeAll entries).notices.filterMap (·.redirection?) = [] := by
    rw [List.filterMap_eq_nil_iff]
    exact fun n hn => Assembly.redirection?_of_mem_takeAll hn
  have hcomplete : (assembled o entries).complete.notices.filterMap (·.redirection?) =
      (assembled o entries).loose.map fun c => (c.source, c.target) := by
    rw [Flow.complete_notices, List.filterMap_map, ← List.filterMap_eq_map]
    rfl
  have hassembled : ∀ elements connectors, (Notice.assembled elements connectors).redirection? = none :=
    fun _ _ => rfl
  have hcompleted : ∀ flow endAdded terminalEdges moved,
      (Notice.completed flow endAdded terminalEdges moved).redirection? = none :=
    fun _ _ _ _ => rfl
  rw [compile_notices]
  simp only [List.filterMap_append, List.filterMap_cons, List.filterMap_nil, htaken, hassembled, hcomplete, hcompleted,
    List.append_nil, List.nil_append]

/-! ## The entries of a document -/

namespace Document

/-- Each block of a variable makes one entry that stands for it. -/
theorem countP_isVariable_entries (d : Document) : d.entries.countP (·.isVariable) = d.vars.length := by
  have hvars : (d.vars.map variableEntry).countP (·.isVariable) = (d.vars.map variableEntry).length := by
    rw [List.countP_eq_length]
    intro x hx
    rcases cases_of_mem_variableEntries hx with ⟨v, rfl⟩ | rfl <;> rfl
  have helements : d.elementEntries.countP (·.isVariable) = 0 := by
    rw [List.countP_eq_zero]
    intro x hx
    rcases cases_of_mem_elementEntries hx with ⟨e, rfl⟩ | ⟨kind, rfl⟩ <;> exact Bool.false_ne_true
  rw [entries_eq, List.countP_cons_of_neg Bool.false_ne_true, List.countP_append, hvars, helements, List.length_map]
  rfl

/-- Each block of a step makes one entry that stands for it, and so does the start. -/
theorem countP_isElement_entries (d : Document) :
    d.entries.countP (·.isElement) =
      d.blockCount + if d.start.isSome ∨ (known d.startReference).isSome then 1 else 0 := by
  have hvars : (d.vars.map variableEntry).countP (·.isElement) = 0 := by
    rw [List.countP_eq_zero]
    intro x hx
    rcases cases_of_mem_variableEntries hx with ⟨v, rfl⟩ | rfl <;> exact Bool.false_ne_true
  have helements : d.elementEntries.countP (·.isElement) = d.elementEntries.length := by
    rw [List.countP_eq_length]
    intro x hx
    rcases cases_of_mem_elementEntries hx with ⟨e, rfl⟩ | ⟨kind, rfl⟩ <;> rfl
  have hstart : d.startElement?.toList.length = if d.start.isSome ∨ (known d.startReference).isSome then 1 else 0 := by
    simp only [← d.declaresStart_startElement?.isSome]
    cases d.startElement? <;> rfl
  have hlength : d.elementEntries.length =
      (if d.start.isSome ∨ (known d.startReference).isSome then 1 else 0) + d.blockCount := by
    rw [elementEntries, List.length_append, List.length_map, hstart, blockCount]
    simp
  rw [entries_eq, List.countP_cons_of_neg Bool.false_ne_true, List.countP_append, hvars, helements, hlength, Nat.zero_add,
    Nat.add_comm]

end Document

/-- What is told when a document is compiled accounts for everything in it. Every block of a variable makes a variable or is
told to be left out. Every block of a step, and the start, makes an element, or is told to take the place of another, or is
told to be left out, and there is no further element but the end, if it was added. The connectors that are told to be led to
the end are, one for one and in order, those of all declarations whose target has no declared name. The last notice says how
many they are, and whether the end was added. -/
theorem notices_compile_document (o : BuildOptions) (d : Document) :
    let told := (compile o d.source).notices
    let declared := (declarations d.entries).map (·.name)
    let loose := ((declarations d.entries).flatMap (·.connectors o.faults)).filter fun c => !declared.contains c.target
    ∃ f endAdded terminalEdges, (compile o d.source).value = .ok f ∧
      told.countP (·.losesVariable) + f.vars.length = d.vars.length ∧
      told.countP (·.losesElement) + told.countP (·.replacesElement) + f.elements.size =
        d.blockCount + (if d.start.isSome ∨ (known d.startReference).isSome then 1 else 0) +
          (if endAdded then 1 else 0) ∧
      (endAdded = true ↔ endName ∈ f.elements.keys ∧ endName ∉ declared) ∧
      told.filterMap (·.redirection?) = loose.map (fun c => (c.source, c.target)) ∧
      told.getLast? = some (.completed f.name endAdded terminalEdges loose.length) := by
  intro told declared loose
  have hloose : (assembled o d.entries).loose = loose := by
    rw [Flow.loose, assembled_connectors, contains_assembled]
  refine ⟨_, (assembled o d.entries).complete.value.2.endAdded, (assembled o d.entries).complete.value.2.terminalEdges,
    compile_value o d.entries, ?_, ?_, ?_, ?_, ?_⟩
  · have hvars := Assembly.takeAll_vars { faults := o.faults } d.entries
    rw [← countP_compile_notices o d.entries (fun _ _ => rfl) (fun _ _ => rfl) (fun _ _ _ _ => rfl),
      d.countP_isVariable_entries] at hvars
    exact hvars.trans (Nat.zero_add _)
  · have helements := Assembly.takeAll_elements { faults := o.faults } d.entries
    rw [← countP_compile_notices o d.entries (fun _ _ => rfl) (fun _ _ => rfl) (fun _ _ _ _ => rfl),
      ← countP_compile_notices o d.entries (fun _ _ => rfl) (fun _ _ => rfl) (fun _ _ _ _ => rfl),
      d.countP_isElement_entries] at helements
    rw [Flow.size_completed, ← Nat.add_assoc]
    exact congrArg (· + _) (helements.trans (Nat.zero_add _))
  · rw [Flow.endAdded_complete_iff, mem_keys_assembled]
  · exact (filterMap_redirection?_compile o d.entries).trans (by rw [hloose])
  · have hlast : told = _ := compile_notices o d.entries
    rw [hlast, ← List.append_assoc, List.getLast?_append, Flow.redirected_complete, hloose]
    rfl

end FlowDiagram

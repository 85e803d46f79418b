import Mathlib.Algebra.GroupWithZero.Nat
import FlowDiagram.Assembly
import FlowDiagram.Proofs.Completion

/-!
# What assembling entries gives

An `Assembly` is told by the entries it took in: its header is the last one set, its variables and its connectors are those
of the entries in order, and its elements are those declared, by name (`Assembly.takeAll_value`). One entry keeps that form
(`Assembly.take_value`).

`assembled` is the flow that stands before it is completed, so a compiled flow is an assembled one completed
(`compile_value`). Its keys are the names declared (`mem_keys_assembled`), each the name of its element
(`name_of_mem_assembled`), and its connectors are those of all declarations, the replaced ones included.

Main statement: what an assembly holds after any entries is said in terms of the entries (`Assembly.Records`), and so is the flow
that it is closed to (`Assembly.finish_takeAll`).
-/

namespace FlowDiagram

/-! ## Entries by what they are -/

/-- The element that an entry is, if it is one. -/
def Entry.element? : Entry → Option Element
  | .element e => some e
  | _ => none

/-- The variable that an entry is, if it is one. -/
def Entry.var? : Entry → Option Variable
  | .var v => some v
  | _ => none

/-- The header that an entry is, if it is one. -/
def Entry.header? : Entry → Option Header
  | .header h => some h
  | _ => none

/-- The elements declared by entries, in order. One whose name is declared again is still among them. -/
def declarations (entries : List Entry) : List Element :=
  entries.filterMap Entry.element?

/-- Elements added to a map in order, each under its name. -/
def declareAll (m : OrderedMap String Element) (es : List Element) : OrderedMap String Element :=
  es.foldl (fun m e => m.insert e.name e) m

/-- The names that elements are found under are those from before and those of the elements added. -/
theorem mem_keys_declareAll {m : OrderedMap String Element} {es : List Element} {k : String} :
    k ∈ (declareAll m es).keys ↔ k ∈ m.keys ∨ k ∈ es.map (·.name) := by
  unfold declareAll
  induction es generalizing m with
  | nil => simp
  | cons e es ih => rw [List.foldl_cons, ih, OrderedMap.mem_keys_insert, List.map_cons, List.mem_cons, or_assoc]

/-- What elements were added to a map holds is what it held before, and the elements, each under its name. -/
theorem mem_entries_declareAll {m : OrderedMap String Element} {es : List Element} {p : String × Element}
    (hp : p ∈ (declareAll m es).entries) : p ∈ m.entries ∨ ∃ e ∈ es, p = (e.name, e) := by
  unfold declareAll at hp
  induction es generalizing m with
  | nil => exact Or.inl hp
  | cons e es ih =>
    rcases ih hp with hp | ⟨d, hd, rfl⟩
    · rcases OrderedMap.mem_entries_of_mem_insert hp with hp | rfl
      · exact Or.inl hp
      · exact Or.inr ⟨e, List.mem_cons_self, rfl⟩
    · exact Or.inr ⟨d, List.mem_cons_of_mem e hd, rfl⟩

/-- Elements added to a map go behind what it holds, in the order in which their names are first met. -/
theorem keys_declareAll (m : OrderedMap String Element) (es : List Element) :
    (declareAll m es).keys = m.keys ++ ((es.map (·.name)).filter fun k => !m.contains k).eraseDups :=
  OrderedMap.keys_foldl_upsert Element.name (fun e _ => e) m es

/-- What stands under a name after elements were added to a map: the last of them that has the name, or what stood there
before. -/
theorem get?_declareAll (m : OrderedMap String Element) (es : List Element) (k : String) :
    (declareAll m es).get? k = (es.filter (·.name == k)).getLast?.or (m.get? k) := by
  have hlast : ∀ (v : Option Element) (xs : List Element), xs.foldl (fun _ e => some e) v = xs.getLast?.or v := by
    intro v xs
    induction xs generalizing v with
    | nil => rfl
    | cons x xs ih =>
      rw [List.foldl_cons, ih, List.getLast?_cons]
      cases xs.getLast? <;> rfl
  rw [← hlast]
  exact OrderedMap.get?_foldl_upsert Element.name (fun e _ => e) m es k

/-! ## The run of an assembly -/

namespace Assembly

/-- What an assembly is after one more entry. The notice of a name that was declared before does not touch the value. -/
theorem take_value (a : Assembly) (x : Entry) :
    (a.take x).value =
      { a with
        header := x.header?.getD a.header
        elements := declareAll a.elements x.element?.toList
        vars := a.vars ++ x.var?.toList
        connectors := a.connectors ++ x.element?.toList.flatMap (·.connectors a.faults) } := by
  cases x with
  | header h => simp [take, setHeader, Entry.header?, Entry.element?, Entry.var?, declareAll]
  | var v => simp [take, addVariable, Entry.header?, Entry.element?, Entry.var?, declareAll]
  | element e =>
    simp only [take, addElement, Entry.header?, Entry.element?, Entry.var?, declareAll]
    split <;> simp
  | namelessVariable => simp [take, Entry.header?, Entry.element?, Entry.var?, declareAll]
  | namelessElement kind => simp [take, Entry.header?, Entry.element?, Entry.var?, declareAll]

/-- What an assembly is after entries. -/
theorem takeAll_value (a : Assembly) (entries : List Entry) :
    (a.takeAll entries).value =
      { a with
        header := (entries.filterMap Entry.header?).getLastD a.header
        elements := declareAll a.elements (declarations entries)
        vars := a.vars ++ entries.filterMap Entry.var?
        connectors := a.connectors ++ (declarations entries).flatMap (·.connectors a.faults) } := by
  unfold takeAll
  rw [Logged.value_foldlM]
  induction entries generalizing a with
  | nil => simp [declarations, declareAll]
  | cons x xs ih =>
    rw [List.foldl_cons, ih, take_value]
    cases x <;>
      simp only [declarations, List.filterMap_cons, Entry.header?, Entry.element?, Entry.var?, declareAll,
        Option.getD_some, Option.getD_none, Option.toList_some, Option.toList_none, List.foldl_cons, List.foldl_nil,
        List.flatMap_cons, List.flatMap_nil, List.getLastD_cons, List.append_nil, List.append_assoc,
        List.cons_append, List.nil_append]

end Assembly

/-! ## The flow before it is completed -/

/-- The flow made of entries as it is before it is completed. -/
def assembled (o : BuildOptions) (entries : List Entry) : Flow :=
  (({ faults := o.faults } : Assembly).takeAll entries).value.finish o.name

/-- A source that is not refused compiles to its assembled flow, completed. -/
theorem compile_value (o : BuildOptions) (entries : List Entry) :
    (compile o { entries }).value = .ok (assembled o entries).completed :=
  rfl

/-- The elements of an assembled flow are the declared ones, added to none. -/
theorem assembled_elements (o : BuildOptions) (entries : List Entry) :
    (assembled o entries).elements = declareAll .empty (declarations entries) := by
  rw [assembled, Assembly.takeAll_value]
  rfl

/-- The connectors of an assembled flow are those of all declarations, in order. -/
theorem assembled_connectors (o : BuildOptions) (entries : List Entry) :
    (assembled o entries).connectors = (declarations entries).flatMap (·.connectors o.faults) := by
  rw [assembled, Assembly.takeAll_value]
  simp [Assembly.finish]

/-- The elements of an assembled flow stand under the names that are declared. -/
theorem mem_keys_assembled {o : BuildOptions} {entries : List Entry} {k : String} :
    k ∈ (assembled o entries).elements.keys ↔ k ∈ (declarations entries).map (·.name) := by
  rw [assembled_elements, mem_keys_declareAll]
  exact ⟨fun h => h.resolve_left List.not_mem_nil, Or.inr⟩

/-- An assembled flow has an element of a name just if one is declared. -/
theorem contains_assembled (o : BuildOptions) (entries : List Entry) :
    (assembled o entries).elements.contains = ((declarations entries).map (·.name)).contains := by
  funext k
  rw [Bool.eq_iff_iff, OrderedMap.contains_iff, mem_keys_assembled, List.contains_iff_mem]

/-- Every element of an assembled flow is one that was declared, under its name. -/
theorem mem_entries_assembled {o : BuildOptions} {entries : List Entry} {p : String × Element}
    (hp : p ∈ (assembled o entries).elements.entries) : ∃ e ∈ declarations entries, p = (e.name, e) := by
  rw [assembled_elements] at hp
  exact (mem_entries_declareAll hp).resolve_left List.not_mem_nil

/-- The elements of an assembled flow stand under their own names. -/
theorem name_of_mem_assembled {o : BuildOptions} {entries : List Entry} :
    ∀ p ∈ (assembled o entries).elements.entries, p.1 = p.2.name := by
  intro p hp
  obtain ⟨e, -, rfl⟩ := mem_entries_assembled hp
  rfl

/-- The transitions declared for a name, in order: those of every element of that name, the replaced ones included. -/
def declaredTransitions (faults : Bool) (es : List Element) (k : String) : List Connector :=
  (es.filter (·.name == k)).flatMap (·.connectors faults)

/-- What leaves an element of an assembled flow are the transitions declared for its name. -/
theorem outgoing_assembled (o : BuildOptions) (entries : List Entry) (k : String) :
    (assembled o entries).outgoing k = declaredTransitions o.faults (declarations entries) k := by
  rw [Flow.outgoing, assembled_connectors, declaredTransitions]
  induction declarations entries with
  | nil => rfl
  | cons e es ih =>
    rw [List.flatMap_cons, List.filter_append, ih]
    by_cases he : e.name = k
    · have hall : (e.connectors o.faults).filter (·.source == k) = e.connectors o.faults := by
        rw [List.filter_eq_self]
        intro c hc
        rw [Element.source_of_mem_connectors hc, he, beq_self_eq_true]
      rw [hall, List.filter_cons, if_pos (beq_iff_eq.2 he), List.flatMap_cons]
    · have hnone : (e.connectors o.faults).filter (·.source == k) = [] := by
        rw [List.filter_eq_nil_iff]
        intro c hc
        rwa [Element.source_of_mem_connectors hc, beq_iff_eq]
      rw [hnone, List.filter_cons, if_neg (fun h => he (beq_iff_eq.1 h)), List.nil_append]

/-! ## What is recorded of a run -/

/-- What an assembly holds of the entries that it took in, in whatever order headers, variables and elements came. -/
structure Assembly.Records (a : Assembly) (faults : Bool) (entries : List Entry) : Prop where
  /-- Each name has one place, the one that it was first added at. -/
  keys : a.elements.keys = ((declarations entries).map (·.name)).eraseDups
  /-- There are as many elements as distinct names. -/
  size : a.elements.size = ((declarations entries).map (·.name)).eraseDups.length
  /-- Every element stands under its own name. -/
  names : ∀ p ∈ a.elements.entries, p.1 = p.2.name
  /-- Under a name stands the element that was added last under it. -/
  values : ∀ k, a.elements.get? k = ((declarations entries).filter (·.name == k)).getLast?
  /-- The names that have an element are those that were added. -/
  contains : ∀ k, a.elements.contains k = true ↔ ∃ e ∈ declarations entries, e.name = k
  /-- The connectors of an element that was replaced stay. -/
  connectors : a.connectors = (declarations entries).flatMap (·.connectors faults)
  connectorCount : a.connectors.length = ((declarations entries).map fun e => (e.connectors faults).length).sum
  /-- No variable is left out, not even one that was added before. -/
  vars : a.vars = entries.filterMap Entry.var?
  /-- Only the header that was set last counts. -/
  header : a.header = (entries.filterMap Entry.header?).getLast?.getD {}

theorem Assembly.records_takeAll (faults : Bool) (entries : List Entry) :
    (({ faults } : Assembly).takeAll entries).value.Records faults entries := by
  have hkeys : (declareAll .empty (declarations entries)).keys = ((declarations entries).map (·.name)).eraseDups := by
    rw [keys_declareAll]
    exact congrArg List.eraseDups (List.filter_eq_self.mpr fun _ _ => rfl)
  rw [takeAll_value]
  exact
    { keys := hkeys
      size := by rw [← hkeys, OrderedMap.keys, List.length_map]; rfl
      names := by
        intro p hp
        obtain ⟨e, -, rfl⟩ := (mem_entries_declareAll hp).resolve_left List.not_mem_nil
        rfl
      values := by
        intro k
        rw [get?_declareAll]
        exact Option.or_none
      contains := by
        intro k
        rw [OrderedMap.contains_iff, hkeys, List.mem_eraseDups, List.mem_map]
      connectors := List.nil_append _
      connectorCount := by
        change ((declarations entries).flatMap (·.connectors faults)).length = _
        rw [List.length_flatMap]
      vars := List.nil_append _
      header := List.getLastD_eq_getLast? }

/-- What an assembly holds after any run of entries, and the flow that it is closed to. There is one element for each name
that was added, in the order of first addition, and it is the last one added under the name. The connectors are those of
all elements added, the replaced ones included, in order. All variables are there, in order, and of the headers the last. -/
theorem Assembly.finish_takeAll (faults : Bool) (entries : List Entry) (name : Option String) :
    let a := (({ faults } : Assembly).takeAll entries).value
    let h := (entries.filterMap Entry.header?).getLast?.getD {}
    let called := name.getD (h.label.getD "Flow")
    a.Records faults entries ∧
      a.finish name =
        { name := called
          label := h.label.getD called
          description := h.description
          processType := h.processType.getD "Flow"
          status := h.status
          elements := a.elements
          connectors := (declarations entries).flatMap (·.connectors faults)
          vars := entries.filterMap Entry.var? } := by
  intro a h called
  have hrecords : a.Records faults entries := records_takeAll faults entries
  refine ⟨hrecords, ?_⟩
  rw [finish, hrecords.connectors, hrecords.vars, hrecords.header]
  rfl

end FlowDiagram

import FlowDiagram.Graph.Connector
import FlowDiagram.OrderedMap

/-!
# Flows

A flow is a graph: elements by name, in the order in which they were declared, and the connectors between them. Two
names are special. `START` is where the flow begins, and `END` is where every path ends that leads nowhere else.

The summary of a flow counts its elements kind by kind. The counts are exact, and stand in the order in which the kinds first
occur (`entries_countKinds`).
-/

namespace FlowDiagram

/-- The name of the element where a flow begins. -/
def startName : String := "START"

/-- The name of the element where the paths end that lead nowhere else. -/
def endName : String := "END"

/-- A variable of a flow. The graph makes no use of it. -/
structure Variable where
  name : String
  dataType : Option String := none
  objectType : Option String := none
  description : Option String := none
  isInput : Bool := false
  isOutput : Bool := false
  isCollection : Bool := false
  deriving DecidableEq, Repr

/-- What is said about a flow as a whole. -/
structure Header where
  label : Option String := none
  description : Option String := none
  processType : Option String := none
  status : Option String := none
  deriving DecidableEq, Repr

/-- A flow. -/
structure Flow where
  name : String
  label : String
  description : Option String
  processType : String
  status : Option String
  elements : OrderedMap String Element
  connectors : List Connector
  vars : List Variable

namespace Flow

/-- The element under a name. -/
def element? (f : Flow) (name : String) : Option Element :=
  f.elements.get? name

/-- The element where a flow begins, if it has one. -/
def start? (f : Flow) : Option Element :=
  f.element? startName

/-- The connectors that leave an element, in order. -/
def outgoing (f : Flow) (name : String) : List Connector :=
  f.connectors.filter (·.source == name)

/-- The connectors that arrive at an element, in order. -/
def incoming (f : Flow) (name : String) : List Connector :=
  f.connectors.filter (·.target == name)

/-- Whether there is nothing to draw. -/
def isEmpty (f : Flow) : Bool :=
  f.elements.isEmpty && f.connectors.isEmpty

end Flow

/-- What a flow consists of, in numbers. -/
structure Summary where
  /-- How many elements there are of each kind that occurs, in the order of first occurrence. -/
  kinds : OrderedMap Kind Nat
  elements : Nat
  connectors : Nat
  faultConnectors : Nat
  scheduledConnectors : Nat
  vars : Nat

/-- How often each kind occurs, in the order of first occurrence. -/
def countKinds (kinds : List Kind) : OrderedMap Kind Nat :=
  kinds.foldl (fun m k => m.upsert k fun n => n.getD 0 + 1) .empty

/-- A count that goes up by one with every element of a list is there as soon as the list has an element. -/
theorem foldl_count {α : Type} (v : Option Nat) (xs : List α) :
    xs.foldl (fun n _ => some (n.getD 0 + 1)) v = if xs = [] then v else some (v.getD 0 + xs.length) := by
  induction xs generalizing v with
  | nil => rfl
  | cons x xs ih =>
    rw [List.foldl_cons, ih, Option.getD_some, if_neg (List.cons_ne_nil x xs), List.length_cons]
    split
    · next h => rw [h, List.length_nil]
    · rw [Nat.add_assoc, Nat.add_comm 1]

/-- The kinds that are counted are those that occur, in the order of first occurrence. -/
theorem keys_countKinds (kinds : List Kind) : (countKinds kinds).keys = kinds.eraseDups := by
  have hkeys := OrderedMap.keys_foldl_upsert_empty id (fun _ n => n.getD 0 + 1) kinds
  rwa [List.map_id] at hkeys

/-- A kind that occurs is counted as often as it occurs, and no other is counted. -/
theorem get?_countKinds (kinds : List Kind) (k : Kind) :
    (countKinds kinds).get? k = if k ∈ kinds then some (kinds.count k) else none := by
  have hset : (countKinds kinds).get? k = (kinds.filter (· == k)).foldl (fun n _ => some (n.getD 0 + 1)) none :=
    OrderedMap.get?_foldl_upsert id (fun _ n => n.getD 0 + 1) .empty kinds k
  rw [hset, foldl_count, Option.getD_none, Nat.zero_add, List.filter_beq, List.length_replicate]
  by_cases hk : k ∈ kinds
  · rw [if_pos hk, if_neg]
    intro hnil
    exact List.count_eq_zero.mp ((List.replicate_eq_nil_iff k).mp hnil) hk
  · rw [if_neg hk, List.count_eq_zero_of_not_mem hk]
    rfl

/-- Kinds are counted in the order in which they are first met, each as often as it is in the list. -/
theorem entries_countKinds (kinds : List Kind) :
    (countKinds kinds).entries = kinds.eraseDups.map fun k => (k, kinds.count k) := by
  rw [← keys_countKinds]
  apply OrderedMap.entries_eq_map_keys
  intro k hk
  rw [keys_countKinds, List.mem_eraseDups] at hk
  rw [get?_countKinds, if_pos hk]

/-- A flow in numbers. -/
def Flow.summary (f : Flow) : Summary where
  kinds := countKinds (f.elements.values.map (·.kind))
  elements := f.elements.size
  connectors := f.connectors.length
  faultConnectors := f.connectors.countP (·.isFault)
  scheduledConnectors := f.connectors.countP (·.isScheduled)
  vars := f.vars.length

end FlowDiagram

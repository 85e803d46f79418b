import FlowDiagram.Graph.Element

/-!
# Notices

What is worth telling on the way from a document to a diagram, and values that come with such notices (`Logged`). A
notice is a fact; its level, its wording and its fields follow from it.
-/

namespace FlowDiagram

/-- Something worth telling. -/
inductive Notice where
  /-- The root element of the document is no flow. -/
  | foreignRoot (root : String)
  /-- The document has no root element. -/
  | noRoot
  /-- A document was read. -/
  | documentRead (blocks vars : Nat)
  /-- A variable has no name and is left out. -/
  | unnamedVariable
  /-- An element has no name and is left out. -/
  | unnamedElement (kind : Kind)
  /-- An element takes the place of an earlier one of its name. -/
  | redeclared (name : String)
  /-- All elements are in place. -/
  | assembled (elements connectors : Nat)
  /-- A connector leads to no element and is led to the end instead. -/
  | redirected (source target : String)
  /-- Every path has an end. -/
  | completed (flow : String) (endAdded : Bool) (terminalEdges moved : Nat)
  /-- Several elements are drawn as one node. -/
  | collision (id : String) (names : List String)
  /-- A diagram was drawn. -/
  | drawn (flow : String) (nodes edges bytes : Nat)
  deriving DecidableEq, Repr

/-- How much a notice matters. -/
inductive Level where
  | warning
  | detail
  deriving DecidableEq, Repr

/-- The value of a field of a notice. -/
inductive NoticeField where
  | text (s : String)
  | number (n : Nat)
  | flag (b : Bool)
  deriving DecidableEq, Repr

namespace Notice

/-- The level of a notice: what is lost or changed is a warning. -/
def level : Notice → Level
  | documentRead .. => .detail
  | assembled .. => .detail
  | completed .. => .detail
  | drawn .. => .detail
  | _ => .warning

/-- The wording of a notice. -/
def message : Notice → String
  | foreignRoot _ => "document root is not <Flow>, producing an empty flow"
  | noRoot => "document has no root element, producing an empty flow"
  | documentRead .. => "deserialized flow document"
  | unnamedVariable => "skipping variable without a name"
  | unnamedElement _ => "skipping element without a name"
  | redeclared _ => "element name declared more than once, keeping the last declaration"
  | assembled .. => "assembled flow graph"
  | redirected .. => "connector targets an undeclared element, redirecting to END"
  | completed .. => "synthesized terminal nodes"
  | collision .. => "element names collide after sanitization, their nodes will be merged"
  | drawn .. => "emitted mermaid diagram"

/-- The fields of a notice by name. -/
def fields : Notice → List (String × NoticeField)
  | foreignRoot root => [("root", .text root)]
  | noRoot => []
  | documentRead blocks vars => [("element_blocks", .number blocks), ("variables", .number vars)]
  | unnamedVariable => []
  | unnamedElement kind => [("element_type", .text kind.name)]
  | redeclared name => [("name", .text name)]
  | assembled elements connectors => [("elements", .number elements), ("connectors", .number connectors)]
  | redirected source target => [("from", .text source), ("target", .text target)]
  | completed flow endAdded terminalEdges moved =>
    [("flow", .text flow), ("end_added", .flag endAdded), ("terminal_edges", .number terminalEdges),
      ("retargeted", .number moved)]
  | collision id names => [("id", .text id), ("names", .text (", ".intercalate names))]
  | drawn flow nodes edges bytes =>
    [("flow", .text flow), ("nodes", .number nodes), ("edges", .number edges), ("bytes", .number bytes)]

end Notice

/-- A value and the notices given on the way to it. -/
structure Logged (α : Type) where
  notices : List Notice
  value : α

namespace Logged

variable {α β : Type}

/-- A step that gives a notice and nothing else. -/
def tell (n : Notice) : Logged Unit :=
  ⟨[n], ()⟩

instance : Monad Logged where
  pure a := ⟨[], a⟩
  bind x f := ⟨x.notices ++ (f x.value).notices, (f x.value).value⟩

@[simp] theorem value_pure (a : α) : (pure a : Logged α).value = a := rfl

/-- A value that is given at once comes without a notice. -/
@[simp] theorem notices_pure (a : α) : (pure a : Logged α).notices = [] := rfl

/-- The value of two steps is that of the second, which goes on with the value of the first. -/
@[simp] theorem value_bind (x : Logged α) (f : α → Logged β) : (x >>= f).value = (f x.value).value := rfl

/-- The notices of two steps are those of the first and then those of the second. -/
@[simp] theorem notices_bind (x : Logged α) (f : α → Logged β) :
    (x >>= f).notices = x.notices ++ (f x.value).notices := rfl

/-- The value of a run is the run of the values: notices do not decide anything. -/
@[simp] theorem value_foldlM (f : β → α → Logged β) (b : β) (xs : List α) :
    (xs.foldlM f b).value = xs.foldl (fun b x => (f b x).value) b := by
  induction xs generalizing b with
  | nil => rfl
  | cons x xs ih => rw [List.foldlM_cons, value_bind, ih, List.foldl_cons]

end Logged

end FlowDiagram

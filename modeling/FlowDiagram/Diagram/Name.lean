import FlowDiagram.OrderedMap

/-!
# Names and labels in a diagram

A node of a diagram is known by an identifier of letters, digits and underscores (`identifier`), and shows a label
from which everything that could close or open the drawing of a node was replaced (`plainLabel`). Different names can
have the same identifier, and their nodes are then drawn as one; `collisions` finds the names this happens to.
-/

namespace FlowDiagram.Diagram

/-- A character that an identifier can hold. -/
def isIdentifierChar (c : Char) : Bool :=
  c.isAlphanum || c == '_'

/-- What stands in an identifier for a character of the name. -/
def identifierChar (c : Char) : Char :=
  if isIdentifierChar c then c else '_'

/-- The identifier of a name. -/
def identifier (name : String) : String :=
  String.ofList (name.toList.map identifierChar)

/-- A text is left as it is if every character of it stands for itself. -/
theorem ofList_flatMap_eq_self {g : Char → List Char} {s : String} (h : ∀ c ∈ s.toList, g c = [c]) :
    String.ofList (s.toList.flatMap g) = s := by
  have hkept : ∀ l : List Char, (∀ c ∈ l, g c = [c]) → l.flatMap g = l := by
    intro l hl
    induction l with
    | nil => rfl
    | cons c l ih =>
      rw [List.flatMap_cons, hl c List.mem_cons_self, ih fun d hd => hl d (List.mem_cons_of_mem c hd), List.singleton_append]
  rw [hkept s.toList h, String.ofList_toList]

/-- What stands in a label for a character. -/
def labelChars (c : Char) : List Char :=
  match c with
  | '"' => ['\'']
  | '[' => ['(']
  | '\x7b' => ['(']
  | ']' => [')']
  | '\x7d' => [')']
  | '<' => ['&', 'l', 't', ';']
  | '>' => ['&', 'g', 't', ';']
  | c => [c]

/-- A label without quotes, brackets, braces and angle brackets. -/
def plainLabel (label : String) : String :=
  String.ofList (label.toList.flatMap labelChars)

/-- Names that have the same identifier. -/
structure Collision where
  id : String
  names : List String
  deriving DecidableEq, Repr

/-- Names by identifier, both in the order of first appearance. -/
def groupByIdentifier (names : List String) : OrderedMap String (List String) :=
  names.foldl (fun m n => m.upsert (identifier n) fun ns => ns.getD [] ++ [n]) .empty

/-- The identifiers that more than one of the names has. A name that is listed twice collides with itself. -/
def collisions (names : List String) : List Collision :=
  (groupByIdentifier names).entries.filterMap fun (id, ns) =>
    if 1 < ns.length then some ⟨id, ns⟩ else none

end FlowDiagram.Diagram

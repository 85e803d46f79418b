import FlowDiagram.Markup.Record
import FlowDiagram.Text.Numeral

/-!
# Elements as they are written

A document without attributes is a tree of elements (`Node`): an element holds either a scalar or elements again. How it is
written is part of the tree: the order of the elements, and the blanks between their tags. What a tree is as characters, as
tokens and as events is one walk over it (`Node.spell`) with three kinds of pieces (`written`, `tokens`, `events`).

`Node.allFit` says that elements are the fields of a record as a reader asks for them, in any order, with elements between
them that are no fields, and `gather` makes the values of the fields from the values of the elements one by one.
-/

namespace FlowDiagram.Markup

open FlowDiagram.Text

/-! ## Pieces -/

/-- A character that the name of an element can hold. A colon is not among them, since it ends a namespace. -/
def isNameChar (c : Char) : Bool :=
  !(isSpace c || ['<', '>', '/', '"', '\'', '!', '?', ':'].contains c)

/-- The name of an element, in no namespace. -/
structure TagName where
  chars : List Char
  ne_nil : chars ≠ [] := by decide
  valid : chars.all isNameChar = true := by decide

/-- Blanks between tags, or nothing. -/
structure Gap where
  chars : List Char := []
  blank : chars.all isSpace = true := by decide

/-- A text with no blanks at its ends. -/
structure Words where
  chars : List Char
  ne_nil : chars ≠ [] := by decide
  first : chars.head?.all (!isSpace ·) = true := by decide
  last : chars.getLast?.all (!isSpace ·) = true := by decide

/-- What an element holds that has no elements in it. -/
inductive Scalar where
  | text (t : Words)
  | integer (i : Int) (held : holdsInteger i = true)
  | flag (b : Bool)

/-- What a scalar says. -/
def Scalar.said : Scalar → List Char
  | text t => t.chars
  | integer i _ => decimal i
  | flag true => "true".toList
  | flag false => "false".toList

/-- How a character is written. -/
def escape (c : Char) : List Char :=
  match c with
  | '&' => "&amp;".toList
  | '<' => "&lt;".toList
  | '>' => "&gt;".toList
  | c => [c]

/-! ## Trees -/

/-- An element, with the blanks before its start tag, and with those before its end tag if it holds elements. -/
inductive Node where
  | leaf (gap : Gap) (name : TagName) (content : Scalar)
  | branch (gap : Gap) (name : TagName) (children : List Node) (last : Gap)

namespace Node

/-- The name of an element. -/
def name : Node → TagName
  | leaf _ name _ => name
  | branch _ name _ _ => name

/-- The name of an element as a key of fields. -/
def key (n : Node) : String :=
  String.ofList n.name.chars

/-- Whether an element holds a scalar. -/
def isLeaf : Node → Bool
  | leaf .. => true
  | branch .. => false

/-- The elements in an element. -/
def children : Node → List Node
  | leaf .. => []
  | branch _ _ children _ => children

end Node

/-- What the parts of an element are spelled with. -/
structure Spelling (α : Type) where
  gap : Gap → List α
  opening : TagName → List α
  content : Scalar → List α
  closing : TagName → List α

mutual

/-- An element part by part. -/
def Node.spell {α : Type} (s : Spelling α) : Node → List α
  | .leaf gap name content => s.gap gap ++ (s.opening name ++ (s.content content ++ s.closing name))
  | .branch gap name children last =>
    s.gap gap ++ (s.opening name ++ (Node.spellAll s children ++ (s.gap last ++ s.closing name)))

/-- Elements one after the other. -/
def Node.spellAll {α : Type} (s : Spelling α) : List Node → List α
  | [] => []
  | n :: ns => n.spell s ++ Node.spellAll s ns

end

/-- Elements as characters. -/
def written : Spelling Char where
  gap g := g.chars
  opening name := '<' :: (name.chars ++ ['>'])
  content c := c.said.flatMap escape
  closing name := '<' :: '/' :: (name.chars ++ ['>'])

/-- The start tag of an element. -/
def TagName.tag (name : TagName) : Tag :=
  ⟨name.chars, []⟩

/-- Elements as tokens. -/
def tokens : Spelling Token where
  gap g := if g.chars = [] then [] else [.text g.chars]
  opening name := [.start name.tag]
  content c := [.text (c.said.flatMap escape)]
  closing name := [.close name.chars]

/-- Elements as events. Blanks between tags are none. -/
def events : Spelling Event where
  gap _ := []
  opening name := [.start name.tag]
  content c := [.text c.said]
  closing name := [.close name.chars]

example : Node.spell written (.branch {} { chars := "start".toList }
    [.leaf { chars := [' '] } { chars := "object".toList } (.text { chars := "R&D".toList })] {}) =
      "<start> <object>R&amp;D</object></start>".toList := by
  decide

/-! ## Fields -/

/-- Whether a scalar is what a field asks for. -/
def Scalar.fits : Shape → Scalar → Bool
  | .text, .text _ => true
  | .integer, .integer _ _ => true
  | .flag, .flag _ => true
  | _, _ => false

/-- The fields of a record, or of the items of a list. -/
def Shape.fields : Shape → List (String × Shape)
  | .record _ fields => fields
  | .list _ fields => fields
  | _ => []

/-- Whether a field holds a scalar. -/
def Shape.isScalar : Shape → Bool
  | .text | .integer | .flag => true
  | _ => false

/-- Whether a field is a list. -/
def Shape.isList : Shape → Bool
  | .list .. => true
  | _ => false

mutual

/-- Whether an element is what a field asks for. -/
def Node.fits : Shape → Node → Bool
  | shape, .leaf _ _ content => content.fits shape
  | .record _ fields, .branch _ _ children _ => Node.allFit fields children
  | .list _ fields, .branch _ _ children _ => Node.allFit fields children
  | _, .branch .. => false

/-- Whether elements are what a record asks for. Those that are no fields hold no elements, and a field that is no list is
given once. -/
def Node.allFit (fields : List (String × Shape)) : List Node → Bool
  | [] => true
  | n :: ns =>
    (match fields.lookup n.key with
      | none => n.isLeaf
      | some shape => n.fits shape && (shape.isList || ns.all (·.key != n.key))) &&
    Node.allFit fields ns

end

/-- The value of a scalar. -/
def Scalar.value : Scalar → Value
  | text t => .text (String.ofList t.chars)
  | integer i _ => .integer i
  | flag b => .flag b

/-- The items of a list. -/
def Value.items : Value → List (List (String × Value))
  | list items => items
  | _ => []

/-- The value of a field that was given by several values: a list goes on, and of anything else there is only one. -/
def Value.join : List Value → Value
  | [] => .absent
  | .list items :: later => .list (items ++ later.flatMap Value.items)
  | v :: _ => v

/-- The values that stand under a key. -/
def valuesOf (vs : List (String × Value)) (key : String) : List Value :=
  (vs.filter (·.1 == key)).map (·.2)

/-- Values of fields brought together, in the order in which their keys are first met. -/
def gather (vs : List (String × Value)) : List (String × Value) :=
  (vs.map (·.1)).eraseDups.map fun key => (key, .join (valuesOf vs key))

mutual

/-- The value of an element as a field of some shape. An element of a list is a list of one item. -/
def Node.value : Shape → Node → Value
  | _, .leaf _ _ content => content.value
  | .record _ fields, .branch _ _ children _ => .record (gather (Node.values fields children))
  | .list _ fields, .branch _ _ children _ => .list [gather (Node.values fields children)]
  | _, .branch .. => .absent

/-- The values of the elements that are fields, in order. -/
def Node.values (fields : List (String × Shape)) : List Node → List (String × Value)
  | [] => []
  | n :: ns =>
    match fields.lookup n.key with
    | none => Node.values fields ns
    | some shape => (n.key, n.value shape) :: Node.values fields ns

end

end FlowDiagram.Markup

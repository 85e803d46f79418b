import FlowDiagram.Markup.Tag

/-!
# Namespaces in scope

Namespaces matter for one thing only: an element that carries the attribute `nil` of the schema-instance namespace holds
no value (`Scope.marksNil`). A `Scope` follows the prefixes that the open elements bind. The bindings of an element stay
until the reader moves past its end tag (`Scope.settle`), so they still hold while the end tag itself is looked at.
-/

namespace FlowDiagram.Markup

/-- The namespace of the prefix `xml`. -/
def xmlNamespace : List Char := "http://www.w3.org/XML/1998/namespace".toList

/-- The namespace of the prefix `xmlns`. -/
def xmlnsNamespace : List Char := "http://www.w3.org/2000/xmlns/".toList

/-- The namespace of the attribute that marks an element as having no value. -/
def instanceNamespace : List Char := "http://www.w3.org/2001/XMLSchema-instance".toList

/-- A prefix bound to a namespace by an element at some depth. -/
structure Binding where
  name : List Char
  uri : List Char
  depth : Nat
  deriving DecidableEq, Repr

/-- The bindings in force, latest first, and the number of open elements. -/
structure Scope where
  depth : Nat
  leaving : Bool
  bindings : List Binding
  deriving DecidableEq, Repr

/-- Outside of all elements two prefixes are bound. -/
def Scope.outermost : Scope :=
  ⟨0, false, [⟨"xmlns".toList, xmlnsNamespace, 0⟩, ⟨"xml".toList, xmlNamespace, 0⟩]⟩

/-- Drops the bindings of the element that was left. -/
def Scope.settle (s : Scope) : Scope :=
  if s.leaving then
    let depth := s.depth - 1
    ⟨depth, false, s.bindings.dropWhile (fun b => depth < b.depth)⟩
  else s

/-- Binds a prefix. The two built-in prefixes keep their own namespaces, and no other prefix gets one of those. -/
def Scope.bind (s : Scope) (name uri : List Char) : Except BindingFault Scope :=
  if name == "xml".toList then
    if uri == xmlNamespace then .ok s else .error (.rebindsXml uri)
  else if name == "xmlns".toList then .error (.bindsXmlns uri)
  else if uri == xmlNamespace || uri == xmlnsNamespace then .error (.takesReserved name uri)
  else .ok { s with bindings := ⟨name, uri, s.depth⟩ :: s.bindings }

/-- Binds what the attributes of a start tag declare. The namespace of names without a prefix is of no interest. -/
def Scope.declare (s : Scope) : List Attribute → Except BindingFault Scope
  | [] => .ok s
  | a :: r =>
    if "xmlns:".toList.isPrefixOf a.key then do
      let s ← s.bind (a.key.drop 6) a.value
      s.declare r
    else s.declare r

/-- Enters an element. -/
def Scope.enter (s : Scope) (t : Tag) : Except Fault Scope :=
  ({ s with depth := s.depth + 1 }.declare t.attributes).mapError .binding

/-- Leaves an element; its bindings go when the next token is read. -/
def Scope.leave (s : Scope) : Scope :=
  { s with leaving := true }

/-- The namespace that a prefix stands for. -/
def Scope.lookup (s : Scope) (name : List Char) : Option (List Char) :=
  (s.bindings.find? (·.name == name)).map (·.uri)

/-- Whether a tag says that its element has no value. -/
def Scope.marksNil (s : Scope) (t : Tag) : Bool :=
  t.tolerated.any fun a =>
    match qualifier? a.key with
    | none => false
    | some name =>
      !name.isEmpty && localName a.key == "nil".toList && s.lookup name == some instanceNamespace &&
        (a.value == "1".toList || a.value == "true".toList)

end FlowDiagram.Markup

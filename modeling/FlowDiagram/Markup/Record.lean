import FlowDiagram.Markup.EventStream

/-!
# Records

A record is an element whose child elements are its fields. What the fields hold is said by a `Shape`: a text, a whole
number, a flag, another record, or a list of records whose items are the children of one name. `Value` is what is read.

Children are matched with fields by their local names. Children that are no fields are skipped, and so is text between
the children. Each field is given once, except that the items of a list may be spread over the element as long as they
are tagged alike. An element marked as having no value leaves its field empty, unless the field is a flag or a list.
-/

namespace FlowDiagram.Markup

open FlowDiagram.Text

/-- What a field holds. A record has a title, which only messages show. -/
inductive Shape where
  | text
  | integer
  | flag
  | record (title : String) (fields : List (String × Shape))
  | list (title : String) (fields : List (String × Shape))

/-- What was read for a field. The value of a field marked as having none is `absent`. -/
inductive Value where
  | absent
  | text (t : String)
  | integer (i : Int)
  | flag (b : Bool)
  | record (fields : List (String × Value))
  | list (items : List (List (String × Value)))

/-- The least whole number a field can hold. -/
def leastInteger : Int := -9223372036854775808

/-- The first whole number that a field cannot hold. -/
def integerLimit : Int := 9223372036854775808

/-- Whether a field can hold a whole number, which takes a sign and 63 bits. -/
def holdsInteger (i : Int) : Bool :=
  leastInteger ≤ i && i < integerLimit

/-- Reads a whole number that a field can hold. -/
def parseInteger (t : List Char) : Except Fault Int :=
  match readInt? t with
  | some i => if holdsInteger i then .ok i else .error (.notInteger t)
  | none => .error (.notInteger t)

/-- Reads a flag, which is a word or a bit. -/
def parseFlag (t : List Char) : Except Fault Bool :=
  if t == "true".toList || t == "1".toList then .ok true
  else if t == "false".toList || t == "0".toList then .ok false
  else .error (.notBoolean t)

/-- Whether a field of this shape can be marked as having no value. -/
def Shape.admitsNil : Shape → Bool
  | .flag => false
  | .list _ _ => false
  | _ => true

mutual

/-- Reads the fields of an element whose start tag has been read, up to and with its end tag; `known` are the fields
read so far. -/
def readFields (fields : List (String × Shape)) (tag : Tag) (known : List (String × Value)) (s : EventStream) :
    Except Fault { x : List (String × Value) × EventStream // x.2.size < s.size } := do
  match ← s.event? with
  | none => throw (.unfinished tag.name)
  | some ⟨(.close _, rest), lt⟩ => return ⟨(known, rest), lt⟩
  | some ⟨(.text _, rest), lt⟩ =>
    have lt : rest.size < s.size := lt
    let ⟨x, lt'⟩ ← readFields fields tag known rest
    return ⟨x, Nat.lt_trans lt' lt⟩
  | some ⟨(.start child, rest), lt⟩ =>
    have lt : rest.size < s.size := lt
    let key := String.ofList (localName child.name)
    match fields.lookup key with
    | none =>
      let ⟨rest', le⟩ ← rest.skipElement child.name
      have lt := Nat.lt_of_le_of_lt le lt
      let ⟨x, lt'⟩ ← readFields fields tag known rest'
      return ⟨x, Nat.lt_trans lt' lt⟩
    | some shape =>
      if (known.lookup key).isSome then throw (.duplicateField key)
      let ⟨(value, rest'), le⟩ ← readField shape tag child rest
      have lt : rest'.size < s.size := Nat.lt_of_le_of_lt le lt
      let ⟨x, lt'⟩ ← readFields fields tag (known ++ [(key, value)]) rest'
      return ⟨x, Nat.lt_trans lt' lt⟩
termination_by (s.size, 0)

/-- Reads an element whose start tag has been read as a record. -/
def readRecord (fields : List (String × Shape)) (tag : Tag) (s : EventStream) :
    Except Fault { x : List (String × Value) × EventStream // x.2.size < s.size } := do
  tag.check
  readFields fields tag [] s
termination_by (s.size, 1)

/-- Reads the value of a field from the element `child` of `parent`, whose start tag has been read. -/
def readField (shape : Shape) (parent child : Tag) (s : EventStream) :
    Except Fault { x : Value × EventStream // x.2.size ≤ s.size } := do
  if shape.admitsNil && (s.reader.scope.marksNil parent || s.reader.scope.marksNil child) then
    let ⟨rest, le⟩ ← s.skipElement child.name
    return ⟨(.absent, rest), le⟩
  match shape with
  | .text =>
    let ⟨(t, rest), lt⟩ ← s.content child.name
    return ⟨(.text (String.ofList t), rest), Nat.le_of_lt lt⟩
  | .integer =>
    let ⟨(t, rest), lt⟩ ← s.content child.name
    let i ← parseInteger t
    return ⟨(.integer i, rest), Nat.le_of_lt lt⟩
  | .flag =>
    let ⟨(t, rest), lt⟩ ← s.content child.name
    let b ← parseFlag t
    return ⟨(.flag b, rest), Nat.le_of_lt lt⟩
  | .record _ fields =>
    let ⟨(values, rest), lt⟩ ← readRecord fields child s
    return ⟨(.record values, rest), Nat.le_of_lt lt⟩
  | .list title fields =>
    let ⟨(first, rest), lt⟩ ← readRecord fields child s
    have lt : rest.size < s.size := lt
    let ⟨(items, rest'), le⟩ ← readItems title fields parent.name child.name [] rest
    return ⟨(.list (first :: items), rest'), by
      simp only [List.length_nil] at *
      omega⟩
termination_by (s.size, 2)

/-- Reads the items of a list up to the end tag of the element that holds them. That tag and everything between the
items is laid back; `skipped` is what was found between them so far. -/
def readItems (title : String) (fields : List (String × Shape)) (parent name : List Char) (skipped : List Event)
    (s : EventStream) :
    Except Fault { x : List (List (String × Value)) × EventStream // x.2.size ≤ skipped.length + s.size } := do
  match ← s.event? with
  | none => throw (.unfinished parent)
  | some ⟨(.text t, _), _⟩ => throw (.textForRecord t title)
  | some ⟨(.close n, rest), lt⟩ =>
    return ⟨([], rest.layBack (skipped ++ [.close n])), by
      simp only [EventStream.size_layBack, List.length_append, List.length_cons, List.length_nil] at *
      omega⟩
  | some ⟨(.start child, rest), lt⟩ =>
    have lt : rest.size < s.size := lt
    if child.name == name then
      let ⟨(item, rest'), lt'⟩ ← readRecord fields child rest
      have lt' : rest'.size < s.size := Nat.lt_trans lt' lt
      let ⟨(items, rest''), le⟩ ← readItems title fields parent name skipped rest'
      return ⟨(item :: items, rest''), by
        dsimp only at *
        omega⟩
    else
      let ⟨(events, rest'), le⟩ ← rest.element child.name 0
      have le : events.length + rest'.size ≤ rest.size := le
      have : rest'.size < s.size := Nat.lt_of_le_of_lt (Nat.le_trans (Nat.le_add_left _ _) le) lt
      let ⟨x, le'⟩ ← readItems title fields parent name (skipped ++ .start child :: events) rest'
      return ⟨x, by
        simp only [List.length_append, List.length_cons] at *
        omega⟩
termination_by (s.size, 0)

end

/-- What a document turns out to hold. -/
inductive Root where
  /-- There is no element. -/
  | missing
  /-- The outermost element has another name than the one looked for. -/
  | foreign (name : String)
  | found (fields : List (String × Value))

/-- The blanks that may stand before the root element: those of markup and the form feed. -/
def isOuterSpace (c : Char) : Bool :=
  isSpace c || c == '\x0c'

/-- The name of the first element among tokens. Only blank text may stand before it. -/
def rootName? (fault : Option Fault) : List Token → Except Fault (Option (List Char))
  | [] => match fault with
    | some f => .error f
    | none => .ok none
  | .start t :: _ => .ok (some (localName t.name))
  | .text t :: ts => if t.all isOuterSpace then rootName? fault ts else .error .textOutsideRoot
  | _ :: ts => rootName? fault ts

/-- Reads a document whose root element is a record of the given name, title and fields. If the root element has another
name the document only has to be sound, and its content is passed over. -/
def readDocument (name title : String) (fields : List (String × Shape)) (text : List Char) : Except Fault Root := do
  let tokens := Tokens.ofText text
  match ← rootName? tokens.fault tokens.list with
  | none => return .missing
  | some root =>
    if root == name.toList then
      match ← (EventStream.ofTokens tokens).event? with
      | some ⟨(.start tag, rest), _⟩ =>
        let ⟨(values, _), _⟩ ← readRecord fields tag rest
        return .found values
      | some ⟨(.text t, _), _⟩ => throw (.textForRecord t title)
      | _ => return .missing
    else
      match tokens.fault with
      | some f => throw f
      | none => return .foreign (String.ofList root)

end FlowDiagram.Markup

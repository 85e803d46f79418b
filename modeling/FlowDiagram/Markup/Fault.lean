import FlowDiagram.Text.Quoted

/-!
# What can be wrong with a document

A document is refused for one cause (`Fault`), the first that reading it meets. `Fault.message` words it. Positions
count bytes of UTF-8: inside a tag from the start of its name, inside a text from the first character that is not
blank.
-/

namespace FlowDiagram.Markup

/-- A kind of markup that has to be closed. -/
inductive Construct where
  | tag
  | instruction
  | comment
  | cdata
  | doctype
  deriving DecidableEq, Repr

/-- What is wrong with one attribute of a tag. -/
inductive AttributeFault where
  /-- The key is followed by something other than an equals sign. -/
  | noEquals
  /-- The key was used before, at this position. -/
  | duplicate (first : Nat)
  /-- The tag ends after the equals sign. -/
  | noValue
  /-- The value does not start with a quote. -/
  | unquoted
  /-- The tag ends before this quote closes the value. -/
  | unclosed (quote : Char)
  deriving DecidableEq, Repr

/-- What is wrong with a namespace declaration. The values are as written. -/
inductive BindingFault where
  /-- The prefix `xml` is bound to a name that is not its own. -/
  | rebindsXml (uri : List Char)
  /-- The prefix `xmlns` is bound. -/
  | bindsXmlns (uri : List Char)
  /-- Another prefix is bound to a name that belongs to `xml` or `xmlns`. -/
  | takesReserved (binder uri : List Char)
  deriving DecidableEq, Repr

/-- What is wrong with a character reference. -/
inductive CharRefFault where
  | signed
  | empty
  | notDigit
  | tooLarge
  | zero
  | notScalar (code : Nat)
  deriving DecidableEq, Repr

/-- Why a document is refused. -/
inductive Fault where
  /-- A construct is not closed, or is not the one it starts like. -/
  | unclosed (c : Construct)
  /-- What follows `<!` starts no construct. -/
  | unknownMarkup
  /-- A document type declaration names no type. -/
  | doctypeUnnamed
  /-- An end tag with no element open. -/
  | unopened (found : List Char)
  /-- An end tag that is not the one of the innermost open element. -/
  | crossed (expected found : List Char)
  /-- The input ends inside an element. -/
  | unfinished (name : List Char)
  | attribute (position : Nat) (cause : AttributeFault)
  | binding (cause : BindingFault)
  /-- An ampersand with no semicolon after it. -/
  | entityUnclosed (first last : Nat)
  | entityUnknown (first last : Nat) (name : List Char)
  | charRef (cause : CharRefFault)
  /-- A text that is not blank before the root element. -/
  | textOutsideRoot
  /-- A text where a record of this title was due. -/
  | textForRecord (text : List Char) (title : String)
  | notBoolean (text : List Char)
  | notInteger (text : List Char)
  /-- An element inside a field that holds text. -/
  | elementInText (name : List Char)
  /-- A field given twice. -/
  | duplicateField (name : String)
  deriving DecidableEq, Repr

/-- A construct that is not closed, in words. -/
def Construct.unclosedMessage : Construct → String
  | .tag => "tag not closed: `>` not found before end of input"
  | .instruction => "processing instruction or xml declaration not closed: `?>` not found before end of input"
  | .comment => "comment not closed: `-->` not found before end of input"
  | .cdata => "CDATA not closed: `]]>` not found before end of input"
  | .doctype => "DOCTYPE not closed: `>` not found before end of input"

def AttributeFault.message : AttributeFault → String
  | .noEquals => "attribute key must be directly followed by `=` or space"
  | .duplicate first => "duplicated attribute, previous declaration at position " ++ toString first
  | .noValue => "`=` must be followed by an attribute value"
  | .unquoted => "attribute value must be enclosed in `\"` or `'`"
  | .unclosed quote => "missing closing quote `" ++ quote.toString ++ "` in attribute value"

def BindingFault.message : BindingFault → String
  | .rebindsXml uri => "the namespace prefix 'xml' cannot be bound to '" ++ Text.quotedBytes uri ++ "'"
  | .bindsXmlns uri => "the namespace prefix 'xmlns' cannot be bound to '" ++ Text.quotedBytes uri ++ "'"
  | .takesReserved binder uri =>
    "the namespace prefix '" ++ Text.quotedBytes binder ++ "' cannot be bound to '" ++ String.ofList uri ++ "'"

def CharRefFault.message : CharRefFault → String
  | .signed => "unexpected number sign"
  | .empty => "cannot parse integer from empty string"
  | .notDigit => "invalid digit found in string"
  | .tooLarge => "number too large to fit in target type"
  | .zero => "0x0 character is not permitted in XML"
  | .notScalar code => "`" ++ toString code ++ "` is not a valid codepoint"

/-- The wording of a fault. -/
def Fault.message : Fault → String
  | .unclosed c => "syntax error: " ++ c.unclosedMessage
  | .unknownMarkup => "syntax error: unknown or missed symbol in markup"
  | .doctypeUnnamed =>
    "ill-formed document: `<!DOCTYPE>` declaration does not contain a name of a document type"
  | .unopened found =>
    "ill-formed document: close tag `</" ++ String.ofList found ++ ">` does not match any open tag"
  | .crossed expected found =>
    "ill-formed document: expected `</" ++ String.ofList expected ++ ">`, but `</" ++ String.ofList found ++
      ">` was found"
  | .unfinished name =>
    "ill-formed document: start tag not closed: `</" ++ String.ofList name ++ ">` not found before end of input"
  | .attribute position cause =>
    "error while parsing attribute: position " ++ toString position ++ ": " ++ cause.message
  | .binding cause => cause.message
  | .entityUnclosed first last =>
    "Error while escaping character at range " ++ toString first ++ ".." ++ toString last ++
      ": Cannot find ';' after '&'"
  | .entityUnknown first last name =>
    "at " ++ toString first ++ ".." ++ toString last ++ ": unrecognized entity `" ++ String.ofList name ++ "`"
  | .charRef cause => "invalid character reference: " ++ cause.message
  | .textOutsideRoot => "text content outside of the root element"
  | .textForRecord text title =>
    "invalid type: string " ++ Text.quoted text ++ ", expected struct " ++ title
  | .notBoolean text => "invalid type: string " ++ Text.quoted text ++ ", expected a boolean"
  | .notInteger text => "invalid type: string " ++ Text.quoted text ++ ", expected i64"
  | .elementInText name => "unexpected `Event::Start(" ++ Text.quotedBytes name ++ ")`"
  | .duplicateField name => "duplicate field `" ++ name ++ "`"

end FlowDiagram.Markup

namespace FlowDiagram

/-- If a sequence of two steps gives something, both steps do. -/
theorem exists_of_bind_eq_ok {ε α β : Type} {x : Except ε α} {f : α → Except ε β} {b : β} (h : x >>= f = .ok b) :
    ∃ a, x = .ok a ∧ f a = .ok b := by
  cases x with
  | error => cases h
  | ok a => exact ⟨a, rfl, h⟩

end FlowDiagram

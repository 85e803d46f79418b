import FlowDiagram.Markup.Fault
import FlowDiagram.Text.Blank
import FlowDiagram.Text.Cut

/-!
# Tags and their attributes

A start tag is its name and the raw text after the name (`Tag`). The attributes in that text are looked at twice, with
two degrees of patience. `Tag.check` refuses the first thing wrong with them. `Tag.tolerated` steps over what it cannot
read and keeps the rest; it is what a mark on an element is looked for in. Both read one attribute at a time
(`Tag.attempt`, then `readValue`).
-/

namespace FlowDiagram.Markup

open FlowDiagram.Text

/-- The blanks of markup: space, tab, carriage return and line feed. -/
def isSpace (c : Char) : Bool :=
  c == ' ' || c == '\t' || c == '\r' || c == '\n'

/-- A start tag: its name, then everything up to the bracket that closes it. -/
structure Tag where
  name : List Char
  rest : List Char
  deriving DecidableEq, Repr

/-- The tag with this text between its brackets. -/
def Tag.ofBody (body : List Char) : Tag :=
  ⟨body.takeWhile (!isSpace ·), body.dropWhile (!isSpace ·)⟩

/-- A name without the namespace before its first colon. -/
def localName (name : List Char) : List Char :=
  match name.dropWhile (· != ':') with
  | [] => name
  | _ :: r => r

/-- The namespace of a name: what stands before its first colon, if it has one. -/
def qualifier? (name : List Char) : Option (List Char) :=
  if name.contains ':' then some (name.takeWhile (· != ':')) else none

/-- The bytes from the start of the name to the closing bracket. -/
def Tag.size (t : Tag) : Nat :=
  byteLength t.name + byteLength t.rest

/-- Where in a tag the last part of its text starts. -/
def Tag.position (t : Tag) (r : List Char) : Nat :=
  t.size - byteLength r

/-- An attribute: its key, where the key starts, and its value as written. -/
structure Attribute where
  key : List Char
  start : Nat
  value : List Char
  deriving DecidableEq, Repr

/-- The value of an attribute as far as it can be read, out of `n` characters. -/
inductive ValueAttempt (n : Nat) where
  | missing
  /-- No quote opens the value, which starts `after`. -/
  | unquoted (after : List Char) (shorter : after.length ≤ n)
  | unclosed (quote : Char)
  | closed (value after : List Char) (shorter : after.length ≤ n)

/-- One attribute as far as it can be read without its value, out of `n` characters. -/
inductive Attempt (n : Nat) where
  /-- Nothing but blanks is left. -/
  | none
  /-- A key with no equals sign; `after` is what stands in its place. -/
  | bare (after : List Char) (shorter : after.length < n)
  /-- A key and its equals sign; `after` is what follows the sign. -/
  | assigned (key : List Char) (start : Nat) (after : List Char) (shorter : after.length < n)

/-- A character of a key that is not its first. -/
def isKeyChar (c : Char) : Bool :=
  c != '=' && !isSpace c

/-- A list is no longer when elements are dropped from its front. -/
theorem length_dropWhile_le {α : Type} (p : α → Bool) (s : List α) : (s.dropWhile p).length ≤ s.length :=
  (List.dropWhile_sublist p).length_le

/-- Reads the value after an equals sign. -/
def readValue (r : List Char) : ValueAttempt r.length :=
  match h : r.dropWhile isSpace with
  | [] => .missing
  | q :: s =>
    have hs : (q :: s).length ≤ r.length := h ▸ length_dropWhile_le isSpace r
    if q == '"' || q == '\'' then
      match hc : cut [q] s with
      | none => .unclosed q
      | some (v, after) => .closed v after (by
          have := length_of_cut hc
          simp only [List.length_cons, List.length_nil] at *
          omega)
    else .unquoted (q :: s) hs

/-- Reads one attribute at the front of the last part of a tag, up to its equals sign. The first character of a key may be
anything. -/
def Tag.attempt (t : Tag) (r : List Char) : Attempt r.length :=
  match h : r.dropWhile isSpace with
  | [] => .none
  | c :: s =>
    have hs : (c :: s).length ≤ r.length := h ▸ length_dropWhile_le isSpace r
    let key := c :: s.takeWhile isKeyChar
    match h2 : (s.dropWhile isKeyChar).dropWhile isSpace with
    | [] => .bare [] (by simp only [List.length_cons, List.length_nil] at *; omega)
    | d :: u =>
      have hu : (d :: u).length ≤ s.length := by
        have := length_dropWhile_le isSpace (s.dropWhile isKeyChar)
        have := length_dropWhile_le isKeyChar s
        rw [h2] at *
        omega
      if d == '=' then .assigned key (t.position (c :: s)) u (by simp only [List.length_cons] at *; omega)
      else .bare (d :: u) (by simp only [List.length_cons] at *; omega)

/-- What a key repeats: where it was used first. -/
def firstUse? (known : List Attribute) (key : List Char) : Option Nat :=
  (known.find? (·.key == key)).map (·.start)

/-- The attributes in the last part of a tag up to the first that is broken, and what is wrong with that one. A key that
is used again is a fault only if `unique` is set. -/
def Tag.scan (t : Tag) (unique : Bool) (known : List Attribute) (r : List Char) : List Attribute × Option Fault :=
  match t.attempt r with
  | .none => ([], none)
  | .bare after _ => ([], some (.attribute (t.position after) .noEquals))
  | .assigned key start text _ =>
    match if unique then firstUse? known key else none with
    | some first => ([], some (.attribute start (.duplicate first)))
    | none =>
      match readValue text with
      | .missing => ([], some (.attribute t.size .noValue))
      | .unquoted after _ => ([], some (.attribute (t.position after) .unquoted))
      | .unclosed quote => ([], some (.attribute t.size (.unclosed quote)))
      | .closed v after _ =>
        let a : Attribute := ⟨key, start, v⟩
        let (more, fault) := t.scan unique (a :: known) after
        (a :: more, fault)
termination_by r.length
decreasing_by omega

/-- Refuses a tag with a broken or repeated attribute. -/
def Tag.check (t : Tag) : Except Fault Unit :=
  match (t.scan true [] t.rest).2 with
  | some f => .error f
  | none => .ok ()

/-- The attributes of a tag up to the first that is broken. -/
def Tag.attributes (t : Tag) : List Attribute :=
  (t.scan false [] t.rest).1

/-- The text from its first blank on. -/
def toBlank (s : List Char) : List Char :=
  s.dropWhile (!isSpace ·)

/-- The attributes in the last part of a tag, stepping over what is not one. The value of a key that was used before is
not looked at, nor is one without quotes: reading goes on at the next blank, even between quotes. -/
def Tag.salvage (t : Tag) (known : List Attribute) (r : List Char) : List Attribute :=
  match t.attempt r with
  | .none => []
  | .bare after _ => t.salvage known after
  | .assigned key start text _ =>
    if (firstUse? known key).isSome then t.salvage known (toBlank text)
    else
      match readValue text with
      | .missing => []
      | .unclosed _ => []
      | .unquoted after _ => t.salvage (⟨key, start, []⟩ :: known) (toBlank after)
      | .closed v after _ =>
        let a : Attribute := ⟨key, start, v⟩
        a :: t.salvage (a :: known) after
termination_by r.length
decreasing_by
  · assumption
  · have := length_dropWhile_le (!isSpace ·) text
    simp only [toBlank] at *
    omega
  · have := length_dropWhile_le (!isSpace ·) after
    simp only [toBlank] at *
    omega
  · omega

/-- The attributes of a tag that can be read. -/
def Tag.tolerated (t : Tag) : List Attribute :=
  t.salvage [] t.rest

end FlowDiagram.Markup

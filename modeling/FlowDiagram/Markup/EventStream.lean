import FlowDiagram.Markup.Reader

/-!
# Events that can be read again

A list of a record may be spread over its element, with other fields between its items. It is read as a whole when its
first item is met: the rest of the element is read at once, and what does not belong to the list is laid back to be read
afterwards. An `EventStream` is a reader with the events that were laid back in front of it.
-/

namespace FlowDiagram.Markup

/-- A reader behind events that were read before and laid back. -/
structure EventStream where
  queue : List Event
  reader : Reader
  deriving DecidableEq, Repr

/-- How much there is to read. -/
def EventStream.size (s : EventStream) : Nat :=
  s.queue.length + s.reader.size

/-- The source at the start of a document. -/
def EventStream.ofTokens (ts : Tokens) : EventStream :=
  ⟨[], Reader.ofTokens ts⟩

/-- A source with events laid back in front of it. -/
def EventStream.layBack (s : EventStream) (events : List Event) : EventStream :=
  { s with queue := events ++ s.queue }

/-- Events that are laid back are there to be read again. -/
theorem EventStream.size_layBack (s : EventStream) (events : List Event) :
    (s.layBack events).size = events.length + s.size := by
  simp [EventStream.layBack, EventStream.size, Nat.add_assoc]

/-- The next event, or nothing at the end of the input. -/
def EventStream.event? (s : EventStream) : Except Fault (Option { x : Event × EventStream // x.2.size < s.size }) :=
  match s with
  | ⟨e :: queue, reader⟩ => .ok (some ⟨(e, ⟨queue, reader⟩), by simp [EventStream.size]⟩)
  | ⟨[], reader⟩ => do
    match ← reader.event? with
    | none => return none
    | some ⟨(e, reader'), lt⟩ => return some ⟨(e, ⟨[], reader'⟩), by simpa [EventStream.size] using lt⟩

/-- How many elements of a name are open after an event, or nothing if the event closes the outermost. -/
def Event.depth? (name : List Char) (depth : Nat) : Event → Option Nat
  | .start t => some (if t.name == name then depth + 1 else depth)
  | .close n =>
    if n == name then
      match depth with
      | 0 => none
      | depth + 1 => some depth
    else some depth
  | .text _ => some depth

/-- The events up to the end tag of an element that is open, that tag included, and what follows them. If the input ends
first, the events up to there. -/
def EventStream.element (s : EventStream) (name : List Char) (depth : Nat) :
    Except Fault { x : List Event × EventStream // x.1.length + x.2.size ≤ s.size } := do
  match ← s.event? with
  | none => return ⟨([], s), by simp⟩
  | some ⟨(e, rest), lt⟩ =>
    match e.depth? name depth with
    | none => return ⟨([e], rest), by simp only [List.length_cons, List.length_nil] at *; omega⟩
    | some depth => do
      let ⟨(more, rest), le⟩ ← rest.element name depth
      return ⟨(e :: more, rest), by simp only [List.length_cons] at *; omega⟩
termination_by s.size

/-- The events after the end tag of an element that is open, if the tag is among them. -/
def pastElement (name : List Char) : Nat → List Event → Option (List Event)
  | _, [] => none
  | depth, e :: r =>
    match e.depth? name depth with
    | none => some r
    | some depth => pastElement name depth r

/-- Behind the end tag of an element there are no more events than in front of it. -/
theorem length_pastElement {name : List Char} {depth : Nat} {es rest : List Event}
    (h : pastElement name depth es = some rest) : rest.length ≤ es.length := by
  fun_induction pastElement name depth es with
  | case1 => simp at h
  | case2 => simp_all
  | case3 _ _ _ _ _ ih => exact Nat.le_succ_of_le (ih h)

/-- Moves past the end tag of an element that is open. What was laid back in front of a source holds whole elements, so
the tag is either found there or not yet read. -/
def EventStream.skipElement (s : EventStream) (name : List Char) :
    Except Fault { x : EventStream // x.size ≤ s.size } :=
  match h : pastElement name 0 s.queue with
  | some queue => .ok ⟨{ s with queue }, Nat.add_le_add_right (length_pastElement h) _⟩
  | none => do
    let ⟨reader, le⟩ ← s.reader.skipElement name
    return ⟨⟨[], reader⟩, by simp only [EventStream.size, List.length_nil] at *; omega⟩

/-- The text of an element that is open, up to and with its end tag. It holds no element and at most one text. -/
def EventStream.content (s : EventStream) (name : List Char) :
    Except Fault { x : List Char × EventStream // x.2.size < s.size } := do
  match ← s.event? with
  | none => throw (.unfinished name)
  | some ⟨(.start t, _), _⟩ => throw (.elementInText t.name)
  | some ⟨(.close _, rest), lt⟩ => return ⟨([], rest), lt⟩
  | some ⟨(.text t, rest), lt⟩ =>
    match ← rest.event? with
    | some ⟨(.close _, rest), lt'⟩ => return ⟨(t, rest), Nat.lt_trans lt' lt⟩
    | some ⟨(.start t, _), _⟩ => throw (.elementInText t.name)
    | _ => throw (.unfinished name)

end FlowDiagram.Markup

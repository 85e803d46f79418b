import FlowDiagram.Markup.Record
import FlowDiagram.Proofs.Markup.Scanning

/-!
# Written elements as events

Tokens convey events if there is a tag for each tag and a text for each text, and only blanks besides (`Conveys`). A stream stands
at events if its queue holds the first of them and the tokens in front of its reader convey the others (`EventStream.Stands`).

Main statements: what each operation of a stream gives where it stands, and at which events it stands then: the next event
(`Stands.event?`), the text of an element (`Stands.content`), an element that is passed over (`Stands.skipElement`) or kept
(`Stands.inside`), and events that are laid back (`Stands.layBack`).
-/

namespace FlowDiagram.Markup

open FlowDiagram.Text

/-! ## Tokens and events -/

/-- The events that tokens stand for if blanks between tags are none. -/
inductive Conveys : List Token → List Event → Prop where
  | finished (g : Gap) : Conveys (tokens.gap g) []
  | start (g : Gap) (name : TagName) {ts : List Token} {es : List Event} (rest : Conveys ts es) :
    Conveys (tokens.gap g ++ .start name.tag :: ts) (.start name.tag :: es)
  | close (g : Gap) (name : List Char) {ts : List Token} {es : List Event} (rest : Conveys ts es) :
    Conveys (tokens.gap g ++ .close name :: ts) (.close name :: es)
  | text (c : Scalar) (name : List Char) {ts : List Token} {es : List Event} (rest : Conveys ts es) :
    Conveys (.text (c.said.flatMap escape) :: .close name :: ts) (.text c.said :: .close name :: es)

mutual

/-- The tokens of an element convey its events. -/
theorem conveys_spell (n : Node) {ts : List Token} {es : List Event} (h : Conveys ts es) :
    Conveys (n.spell tokens ++ ts) (n.spell events ++ es) := by
  cases n with
  | leaf gap name content =>
    simp only [Node.spell, List.append_assoc]
    exact .start gap name (.text content name.chars h)
  | branch gap name children last =>
    simp only [Node.spell, List.append_assoc]
    exact .start gap name (conveys_spellAll children (.close last name.chars h))

/-- The tokens of elements convey their events, one element after the other. -/
theorem conveys_spellAll (ns : List Node) {ts : List Token} {es : List Event} (h : Conveys ts es) :
    Conveys (Node.spellAll tokens ns ++ ts) (Node.spellAll events ns ++ es) := by
  cases ns with
  | nil => exact h
  | cons n ns =>
    simp only [Node.spellAll, List.append_assoc]
    exact conveys_spell n (conveys_spellAll ns h)

end

/-! ## Tags without attributes -/

/-- A tag without attributes passes the check of attributes. -/
@[simp] theorem TagName.check_tag (name : TagName) : name.tag.check = .ok () := by
  simp [tag, Tag.check, Tag.scan, Tag.attempt]

/-- A tag that is a name and nothing else has no attributes. -/
@[simp] theorem TagName.attributes_tag (name : TagName) : name.tag.attributes = [] := by
  simp [tag, Tag.attributes, Tag.scan, Tag.attempt]

@[simp] theorem TagName.marksNil_tag (s : Scope) (name : TagName) : s.marksNil name.tag = false := by
  simp [tag, Scope.marksNil, Tag.tolerated, Tag.salvage, Tag.attempt]

/-- A tag without attributes binds nothing. -/
theorem TagName.enter_tag (s : Scope) (name : TagName) :
    s.enter name.tag = .ok { s with depth := s.depth + 1 } := by
  rw [Scope.enter, attributes_tag, Scope.declare]
  rfl

/-- The name of an element is its local name. -/
theorem TagName.localName_chars (name : TagName) : localName name.chars = name.chars := by
  have h : ∀ c ∈ name.chars, (c != ':') = true := fun c hc => bne_iff_ne.2 (ne_of_mem (by decide) hc)
  have hdrop : (name.chars ++ []).dropWhile (· != ':') = [] := List.dropWhile_append_of_pos h
  rw [List.append_nil] at hdrop
  rw [localName, hdrop]

/-! ## Texts -/

/-- An entity that has a name of the table, and is not given by a number, stands for the character of that name. -/
theorem entity_of_named {name : List Char} {d : Char} (hhash : name.head? ≠ some '#') (hnamed : named? name = some d)
    (first last : Nat) : entity first last name = .ok d := by
  unfold entity
  split
  · exact absurd rfl hhash
  · rw [hnamed]

/-- A character that is written by its name. -/
theorem resolveFrom_named (name : List Char) {d : Char} (hname : name.all isEntityChar = true)
    (hhash : name.head? ≠ some '#') (hnamed : named? name = some d) (size : Nat) (s : List Char) :
    resolveFrom size ('&' :: (name ++ ';' :: s)) = (resolveFrom size s).map (d :: ·) := by
  have hin : ∀ c ∈ name, isEntityChar c = true := List.all_eq_true.1 hname
  have htake : (name ++ ';' :: s).takeWhile isEntityChar = name := by
    rw [List.takeWhile_append_of_pos hin, List.takeWhile_cons_of_neg (by decide), List.append_nil]
  have hdrop : (name ++ ';' :: s).dropWhile isEntityChar = ';' :: s := by
    rw [List.dropWhile_append_of_pos hin, List.dropWhile_cons_of_neg (by decide)]
  rw [resolveFrom, if_pos (by decide)]
  split
  · next rest h =>
    obtain rfl : rest = s := (List.cons.inj (h.symm.trans hdrop)).2
    rw [htake, entity_of_named hhash hnamed]
    cases resolveFrom size rest <;> rfl
  · next h => exact absurd hdrop (h s)

/-- What is written of a character stands for the character, whatever follows it. -/
theorem resolveFrom_escape (size : Nat) (c : Char) (s : List Char) :
    resolveFrom size (escape c ++ s) = (resolveFrom size s).map (c :: ·) := by
  unfold escape
  split
  · exact resolveFrom_named "amp".toList (by decide) (by decide) (by decide) size s
  · exact resolveFrom_named "lt".toList (by decide) (by decide) (by decide) size s
  · exact resolveFrom_named "gt".toList (by decide) (by decide) (by decide) size s
  · next hamp _ _ =>
    rw [List.singleton_append, resolveFrom, if_neg (by simpa using hamp)]
    cases resolveFrom size s <;> rfl

/-- What is written of a text stands for the text. -/
theorem resolve_flatMap_escape (s : List Char) : resolve (s.flatMap escape) = .ok s := by
  have h : ∀ size, resolveFrom size (s.flatMap escape) = .ok s := by
    intro size
    induction s with
    | nil => rw [List.flatMap_nil, resolveFrom]
    | cons c s ih => rw [List.flatMap_cons, resolveFrom_escape, ih]; rfl
  exact h _

/-- No character is written with a blank, unless it is one. -/
theorem isSpace_of_mem_escape {c d : Char} (hc : isSpace c = false) (hd : d ∈ escape c) : isSpace d = false := by
  rcases mem_escape hd with ⟨rfl, -⟩ | hname
  · exact hc
  · have hall : escapeChars.all (!isSpace ·) = true := by decide
    simpa using List.all_eq_true.1 hall d hname

/-- What is written of a text starts with a blank only if the text does. -/
theorem head?_flatMap_escape {s : List Char} (h : ∀ c ∈ s.head?, isSpace c = false) :
    ∀ d ∈ (s.flatMap escape).head?, isSpace d = false := by
  intro d hd
  cases s with
  | nil => cases hd
  | cons c s =>
    obtain ⟨x, t, ht⟩ := List.exists_cons_of_ne_nil (escape_spec c).1
    rw [List.flatMap_cons, ht] at hd
    obtain rfl : x = d := Option.some.inj hd
    exact isSpace_of_mem_escape (h c rfl) (ht ▸ List.mem_cons_self)

/-- What is written of a text ends with a blank only if the text does. -/
theorem getLast?_flatMap_escape {s : List Char} (h : ∀ c ∈ s.getLast?, isSpace c = false) :
    ∀ d ∈ (s.flatMap escape).getLast?, isSpace d = false := by
  intro d hd
  rcases List.eq_nil_or_concat s with rfl | ⟨t, c, rfl⟩
  · cases hd
  · rcases List.eq_nil_or_concat (escape c) with hnil | ⟨u, x, hu⟩
    · exact absurd hnil (escape_spec c).1
    · have hx : x ∈ escape c := by simp [hu]
      have hc : isSpace c = false := h c (by simp)
      simp [List.flatMap_append, hu] at hd
      exact hd ▸ isSpace_of_mem_escape hc hx

/-- Nothing is left of blanks when blanks are dropped. -/
theorem Gap.dropWhile_chars (g : Gap) : g.chars.dropWhile isSpace = [] := by
  have h : (g.chars ++ []).dropWhile isSpace = [] := List.dropWhile_append_of_pos fun _ => g.isSpace_of_mem
  rwa [List.append_nil] at h

theorem Gap.dropEnd_chars (g : Gap) : dropEnd isSpace g.chars = [] := by
  have h : (g.chars.reverse ++ []).dropWhile isSpace = [] :=
    List.dropWhile_append_of_pos fun _ hc => g.isSpace_of_mem (List.mem_reverse.mp hc)
  rw [List.append_nil] at h
  rw [dropEnd, h, List.reverse_nil]

/-! ## Readers -/

/-- A reader that has these tokens in front of it, the one it has looked at included, and no fault behind them. -/
def Reader.At (r : Reader) (ts : List Token) : Prop :=
  ∃ scope inText, r = Reader.look none scope inText ts

/-- A reader gives an event and has these tokens in front of it then. -/
def Reader.Passes (r : Reader) (e : Event) (ts : List Token) : Prop :=
  ∃ r' lt, r.event? = .ok (some ⟨(e, r'), lt⟩) ∧ r'.At ts

/-- A reader without a fault that goes on has its tokens in front of it. -/
theorem at_advance {r : Reader} (h : r.fault = none) : r.advance.At r.tokens :=
  ⟨r.scope, r.inText, by rw [Reader.advance, h]⟩

/-- A reader that has looked at a start tag gives it as an event. -/
theorem passes_start {r : Reader} {t : Tag} (hahead : r.ahead = .token (.start t)) (hfault : r.fault = none) :
    r.Passes (.start t) r.tokens := by
  refine ⟨r.advance, Reader.size_advance hahead, ?_, at_advance hfault⟩
  obtain ⟨ahead, ts, fault, scope, inText⟩ := r
  obtain rfl : ahead = _ := hahead
  rw [Reader.event?]

theorem passes_close {r : Reader} {name : List Char} (hahead : r.ahead = .token (.close name)) (hfault : r.fault = none) :
    r.Passes (.close name) r.tokens := by
  refine ⟨r.advance, Reader.size_advance hahead, ?_, at_advance hfault⟩
  obtain ⟨ahead, ts, fault, scope, inText⟩ := r
  obtain rfl : ahead = _ := hahead
  rw [Reader.event?]

/-- A text of which something is left when blanks are dropped is an event. -/
theorem passes_text {r : Reader} {s u : List Char} (hahead : r.ahead = .token (.text s)) (hfault : r.fault = none)
    (hafter : r.advance.textAhead = false) (hs : dropEnd isSpace s = s) (hne : s ≠ []) (hu : resolve s = .ok u) :
    r.Passes (.text u) r.tokens := by
  refine ⟨r.advance, Reader.size_advance hahead, ?_, at_advance hfault⟩
  obtain ⟨ahead, ts, fault, scope, inText⟩ := r
  obtain rfl : ahead = _ := hahead
  rw [Reader.event?]
  simp only [hafter, hs, hu, List.isEmpty_eq_false_iff.2 hne]
  rfl

/-- A text of which nothing is left when blanks are dropped is passed over. -/
theorem passes_blank {r : Reader} {s : List Char} {e : Event} {ts : List Token} (hahead : r.ahead = .token (.text s))
    (hafter : r.advance.textAhead = false) (hs : dropEnd isSpace s = []) (h : r.advance.Passes e ts) :
    r.Passes e ts := by
  obtain ⟨r', lt, hr, hat⟩ := h
  refine ⟨r', Nat.lt_trans lt (Reader.size_advance hahead), ?_, hat⟩
  obtain ⟨ahead, us, fault, scope, inText⟩ := r
  obtain rfl : ahead = _ := hahead
  rw [Reader.event?]
  simp only [hafter, hs, hr]
  rfl

/-- Tokens of which the first is a tag that stands for an event. -/
def Leads (e : Event) (ts us : List Token) : Prop :=
  ∀ r : Reader, r.At ts → r.textAhead = false ∧ r.Passes e us

/-- A reader at a start tag gives it as an event, and is at the tokens behind it then. -/
theorem leads_start (name : TagName) (ts : List Token) : Leads (.start name.tag) (.start name.tag :: ts) ts := by
  rintro _ ⟨scope, inText, rfl⟩
  rw [Reader.look, TagName.enter_tag]
  exact ⟨rfl, passes_start rfl rfl⟩

theorem leads_close (name : List Char) (ts : List Token) : Leads (.close name) (.close name :: ts) ts := by
  rintro _ ⟨scope, inText, rfl⟩
  rw [Reader.look]
  exact ⟨rfl, passes_close rfl rfl⟩

/-- Blanks before a tag are passed over, also when the reader takes them for the end of a text. -/
theorem Leads.passes_gap {e : Event} {ts us : List Token} (h : Leads e ts us) {r : Reader} {g : Gap}
    (hr : r.At (tokens.gap g ++ ts)) : r.Passes e us := by
  by_cases hg : g.chars = []
  · simp only [tokens, if_pos hg, List.nil_append] at hr
    exact (h r hr).2
  · simp only [tokens, if_neg hg] at hr
    obtain ⟨scope, inText, rfl⟩ := hr
    cases inText with
    | false =>
      refine (h _ ⟨scope.settle, false, ?_⟩).2
      simp [Reader.look, g.dropWhile_chars]
    | true =>
      have hlook : Reader.look none scope true ([.text g.chars] ++ ts) =
          ⟨.token (.text g.chars), ts, none, scope.settle, true⟩ := by
        simp [Reader.look, hg]
      rw [hlook]
      obtain ⟨hafter, hpass⟩ := h (Reader.look none scope.settle true ts) ⟨_, _, rfl⟩
      exact passes_blank rfl hafter g.dropEnd_chars hpass

/-- A reader in front of what an element holds has looked at all of it. -/
theorem look_content {r : Reader} {c : Scalar} {ts : List Token} (hr : r.At (.text (c.said.flatMap escape) :: ts)) :
    ∃ scope, r = ⟨.token (.text (c.said.flatMap escape)), ts, none, scope, true⟩ := by
  obtain ⟨hne, hfirst, -⟩ := c.said_spec
  obtain ⟨scope, inText, rfl⟩ := hr
  have hdrop := dropWhile_of_head? (head?_flatMap_escape hfirst)
  rw [Reader.look, hdrop, ite_self, List.isEmpty_eq_false_iff.2 (flatMap_escape_ne_nil hne)]
  exact ⟨_, rfl⟩

/-- A text is given out without its escapes. -/
theorem passes_content {r : Reader} {c : Scalar} {name : List Char} {ts : List Token}
    (hr : r.At (.text (c.said.flatMap escape) :: .close name :: ts)) : r.Passes (.text c.said) (.close name :: ts) := by
  obtain ⟨hne, -, hlast⟩ := c.said_spec
  obtain ⟨scope, rfl⟩ := look_content hr
  exact passes_text rfl rfl (leads_close name ts _ (at_advance rfl)).1
    (dropEnd_of_getLast? (getLast?_flatMap_escape hlast)) (flatMap_escape_ne_nil hne) (resolve_flatMap_escape _)

/-- An element that holds a scalar is skipped without looking at what it says. -/
theorem skipElement_content {r : Reader} {c : Scalar} {name : List Char} {ts : List Token}
    (hr : r.At (.text (c.said.flatMap escape) :: .close name :: ts)) :
    ∃ r' le, r.skipElement name = .ok ⟨r', le⟩ ∧ r'.At ts := by
  obtain ⟨scope, rfl⟩ := look_content hr
  have hpast : pastClose name 0 (.close name :: ts) = some ts := by simp [pastClose]
  have hsize := Reader.size_look none scope true ts
  refine ⟨Reader.look none scope true ts, ?_, ?_, scope, true, rfl⟩
  · simp only [Reader.size, List.length_cons] at *
    omega
  · simp only [Reader.skipElement]
    split
    · next h => rw [hpast] at h; cases h
    · next h =>
      rw [hpast] at h
      obtain rfl := Option.some.inj h
      rfl

/-- A reader gives the first of the events that its tokens convey. -/
theorem exists_passes {r : Reader} {ts : List Token} {e : Event} {es : List Event} (h : Conveys ts (e :: es))
    (hr : r.At ts) : ∃ us, r.Passes e us ∧ Conveys us es := by
  cases h with
  | start g name rest => exact ⟨_, (leads_start name _).passes_gap hr, rest⟩
  | close g name rest => exact ⟨_, (leads_close name _).passes_gap hr, rest⟩
  | text c name rest => exact ⟨_, passes_content hr, .close {} name rest⟩

/-! ## Streams -/

/-- Events that end with an end tag, or none. -/
def Whole (es : List Event) : Prop :=
  ∀ e ∈ es.getLast?, ∃ name, e = .close name

/-- Events that end with an end tag still do so without the first of them. -/
theorem Whole.of_cons {e : Event} {es : List Event} (h : Whole (e :: es)) : Whole es := by
  cases es with
  | nil => exact fun _ h => by cases h
  | cons d es => exact fun x hx => h x (by rwa [List.getLast?_cons_cons])

/-- Events that end with an end tag, put in front of others that do, make events that end with one. -/
theorem Whole.append {es later : List Event} (hes : Whole es) (h : Whole later) : Whole (es ++ later) := by
  intro e he
  rw [List.getLast?_append, Option.mem_def, Option.or_eq_some_iff] at he
  rcases he with he | ⟨-, he⟩
  · exact h e he
  · exact hes e he

theorem whole_concat (es : List Event) (name : List Char) : Whole (es ++ [.close name]) := by
  intro e he
  simp at he
  exact ⟨name, he.symm⟩

/-- A stream at these events: its queue, then what the tokens in front of its reader convey. -/
def EventStream.Stands (s : EventStream) (es : List Event) : Prop :=
  ∃ ts later, es = s.queue ++ later ∧ Whole s.queue ∧ s.reader.At ts ∧ Conveys ts later

/-- What is read in front of some events: a value, and the stream at them. -/
def Yields {α : Type} {P : α × EventStream → Prop} (x : Except Fault { y : α × EventStream // P y }) (a : α)
    (es : List Event) : Prop :=
  ∃ s h, x = .ok ⟨(a, s), h⟩ ∧ s.Stands es

namespace EventStream

/-- A stream gives the first of the events it stands at, and stands at the others then. -/
theorem Stands.event? {s : EventStream} {e : Event} {es : List Event} (h : s.Stands (e :: es)) :
    ∃ s' lt, s.event? = .ok (some ⟨(e, s'), lt⟩) ∧ s'.Stands es := by
  obtain ⟨queue, reader⟩ := s
  obtain ⟨ts, later, hes, hwhole, hat, hconveys⟩ := h
  cases queue with
  | cons d queue =>
    obtain ⟨rfl, rfl⟩ := List.cons.inj hes
    exact ⟨⟨queue, reader⟩, by simp [size], rfl, ts, later, rfl, hwhole.of_cons, hat, hconveys⟩
  | nil =>
    obtain rfl : e :: es = later := hes
    obtain ⟨us, ⟨reader', lt, hreader, hat'⟩, hconveys'⟩ := exists_passes hconveys hat
    refine ⟨⟨[], reader'⟩, by simpa [size] using lt, ?_, us, es, rfl, hwhole, hat', hconveys'⟩
    rw [EventStream.event?, hreader]
    rfl

/-- A stream at the text of an element gives the text, and stands behind the element then. -/
theorem Stands.content {s : EventStream} {x name : List Char} {es : List Event}
    (h : s.Stands (.text x :: .close name :: es)) : Yields (s.content name) x es := by
  obtain ⟨s', lt, htext, h'⟩ := h.event?
  obtain ⟨s'', lt', hclose, h''⟩ := h'.event?
  refine ⟨s'', Nat.lt_trans lt' lt, ?_, h''⟩
  rw [EventStream.content, htext]
  simp only [bind, Except.bind]
  rw [hclose]
  rfl

/-- An element whose end tag is in the queue is skipped by dropping it from there. -/
theorem skipElement_of_queue {queue rest : List Event} {reader : Reader} {name : List Char}
    (h : pastElement name 0 queue = some rest) :
    ∃ le, EventStream.skipElement ⟨queue, reader⟩ name = .ok ⟨⟨rest, reader⟩, le⟩ := by
  refine ⟨Nat.add_le_add_right (length_pastElement h) _, ?_⟩
  rw [EventStream.skipElement]
  split
  · next h' =>
    rw [h] at h'
    obtain rfl := Option.some.inj h'
    rfl
  · next h' => rw [h] at h'; cases h'

/-- Where the queue is empty an element is skipped as the reader skips it. -/
theorem skipElement_of_reader {reader reader' : Reader} {name : List Char} {le : reader'.size ≤ reader.size}
    (h : reader.skipElement name = .ok ⟨reader', le⟩) :
    ∃ le, EventStream.skipElement ⟨[], reader⟩ name = .ok ⟨⟨[], reader'⟩, le⟩ := by
  refine ⟨by simpa [size] using le, ?_⟩
  rw [EventStream.skipElement]
  split
  · next h' => cases h'
  · simp only [h]
    rfl

/-- A stream at the text of an element can skip the element, and stands behind it then. -/
theorem Stands.skipElement {s : EventStream} {x name : List Char} {es : List Event}
    (h : s.Stands (.text x :: .close name :: es)) : ∃ s' le, s.skipElement name = .ok ⟨s', le⟩ ∧ s'.Stands es := by
  obtain ⟨queue, reader⟩ := s
  obtain ⟨ts, later, hes, hwhole, hat, hconveys⟩ := h
  match queue with
  | [] =>
    obtain rfl : _ :: _ = later := hes
    cases hconveys with
    | text c name rest =>
      obtain ⟨reader', _, hreader, hat'⟩ := skipElement_content hat
      obtain ⟨le, hskip⟩ := skipElement_of_reader hreader
      exact ⟨_, le, hskip, _, es, rfl, hwhole, hat', rest⟩
  | [d] =>
    obtain ⟨_, rfl⟩ := hwhole d rfl
    cases hes
  | d :: d' :: queue =>
    cases hes
    have hpast : pastElement name 0 (.text x :: .close name :: queue) = some queue := by
      simp [pastElement, Event.depth?]
    obtain ⟨le, hskip⟩ := skipElement_of_queue hpast
    exact ⟨_, le, hskip, ts, later, rfl, hwhole.of_cons.of_cons, hat, hconveys⟩

/-- Events that are laid back come first again. -/
theorem Stands.layBack {s : EventStream} {es : List Event} (h : s.Stands es) {events : List Event}
    (hevents : Whole events) : (s.layBack events).Stands (events ++ es) := by
  obtain ⟨ts, later, rfl, hwhole, hat, hconveys⟩ := h
  exact ⟨ts, later, (List.append_assoc ..).symm, hevents.append hwhole, hat, hconveys⟩

/-- Events up to an end tag that closes what is open are taken as a whole. -/
theorem Stands.element {name : List Char} {taken es : List Event} {depth : Nat}
    (htaken : pastElement name depth taken = some []) {s : EventStream} (h : s.Stands (taken ++ es)) :
    Yields (s.element name depth) taken es := by
  induction taken generalizing depth s with
  | nil => cases htaken
  | cons e taken ih =>
    obtain ⟨s', lt, he, h'⟩ := h.event?
    rw [pastElement] at htaken
    cases hdepth : e.depth? name depth with
    | none =>
      rw [hdepth] at htaken
      obtain rfl : taken = [] := Option.some.inj htaken
      have le : [e].length + s'.size ≤ s.size := Nat.le_trans (Nat.le_of_eq (Nat.add_comm ..)) lt
      refine ⟨s', le, ?_, h'⟩
      rw [EventStream.element, he]
      simp only [bind, Except.bind, hdepth]
      rfl
    | some depth' =>
      rw [hdepth] at htaken
      obtain ⟨s'', le, hs'', h''⟩ := ih htaken h'
      have le' : (e :: taken).length + s''.size ≤ s.size := by
        have lt : s'.size < s.size := lt
        have le : taken.length + s''.size ≤ s'.size := le
        rw [List.length_cons]
        omega
      refine ⟨s'', le', ?_, h''⟩
      rw [EventStream.element, he]
      simp only [bind, Except.bind, hdepth, hs'']
      rfl

end EventStream

/-! ## Elements as events -/

/-- The events of an element after its start tag. -/
def Node.inside : Node → List Event
  | .leaf _ name content => events.content content ++ events.closing name
  | .branch _ name children _ => Node.spellAll events children ++ events.closing name

/-- The events of an element are its start tag, and then those of what is inside of it. -/
theorem spell_events (n : Node) : n.spell events = .start n.name.tag :: n.inside := by
  cases n <;> rfl

/-- A start tag of the name that is looked for leaves one more element of it open, and every other start tag as many as before. -/
theorem pastElement_start (name : List Char) (depth : Nat) (t : Tag) (es : List Event) :
    pastElement name depth (.start t :: es) = pastElement name (if t.name == name then depth + 1 else depth) es := by
  rw [pastElement]
  rfl

/-- An end tag takes back what the start tag of its element has counted. -/
theorem pastElement_close (name n : List Char) (depth : Nat) (es : List Event) :
    pastElement name (if n == name then depth + 1 else depth) (.close n :: es) = pastElement name depth es := by
  cases h : n == name <;> simp [pastElement, Event.depth?, h]

theorem pastElement_text (name x : List Char) (depth : Nat) (es : List Event) :
    pastElement name depth (.text x :: es) = pastElement name depth es := by
  rw [pastElement]
  rfl

mutual

/-- An element is passed over whatever end tag is looked for, since it closes what it opens. -/
theorem pastElement_spell (name : List Char) (depth : Nat) (n : Node) (es : List Event) :
    pastElement name depth (n.spell events ++ es) = pastElement name depth es := by
  rw [spell_events, List.cons_append, pastElement_start, TagName.tag, pastElement_inside name _ n, pastElement_close]

/-- What an element holds is passed over up to the end tag of the element. -/
theorem pastElement_inside (name : List Char) (depth : Nat) (n : Node) (es : List Event) :
    pastElement name depth (n.inside ++ es) = pastElement name depth (.close n.name.chars :: es) := by
  cases n with
  | leaf gap tag content => exact pastElement_text name _ depth _
  | branch gap tag children last =>
    rw [Node.inside, List.append_assoc]
    exact pastElement_spellAll name depth children _

/-- Elements are passed over whatever end tag is looked for. -/
theorem pastElement_spellAll (name : List Char) (depth : Nat) (ns : List Node) (es : List Event) :
    pastElement name depth (Node.spellAll events ns ++ es) = pastElement name depth es := by
  cases ns with
  | nil => rfl
  | cons n ns =>
    simp only [Node.spellAll, List.append_assoc]
    rw [pastElement_spell name depth n, pastElement_spellAll name depth ns]

end

/-- What an element holds is taken up to its end tag. -/
theorem EventStream.Stands.inside {n : Node} {es : List Event} {s : EventStream} (h : s.Stands (n.inside ++ es)) :
    Yields (s.element n.name.chars 0) n.inside es := by
  refine h.element ?_
  have hinside := pastElement_inside n.name.chars 0 n []
  rw [List.append_nil] at hinside
  rw [hinside]
  simp [pastElement, Event.depth?]

end FlowDiagram.Markup

import FlowDiagram.Markup.EventStream
import FlowDiagram.Proofs.Markup.Nesting

/-!
# Where a stream stands among nested elements

A stream tracks the elements that are open if what is queued in front of it closes the innermost of them and what its reader has
not given out yet stands inside the others (`EventStream.Tracks`).

Main statements: every operation of a stream that succeeds inside an open element keeps track. An event opens an element or closes
the innermost (`Tracks.event?`); skipping an element, reading its text and keeping its events close it (`Tracks.skipElement`,
`Tracks.content`, `Tracks.element`); laying back whole elements and an end tag opens the element again (`Tracks.layBack`).
-/

namespace FlowDiagram.Markup

/-! ## Borders of tokens and events -/

/-- The border that a token is. -/
def Token.border? : Token → Option Border
  | .start t => some (.opening t.name)
  | .close name => some (.closing name)
  | _ => none

/-- The border that an event is. -/
def Event.border? : Event → Option Border
  | .start t => some (.opening t.name)
  | .close name => some (.closing name)
  | .text _ => none

/-- The borders among tokens. -/
def borders (ts : List Token) : List Border :=
  ts.filterMap Token.border?

/-- The borders among events. -/
def eventBorders (es : List Event) : List Border :=
  es.filterMap Event.border?

theorem borders_cons (t : Token) (ts : List Token) : borders (t :: ts) = t.border?.toList ++ borders ts := by
  cases t <;> rfl

theorem eventBorders_cons (e : Event) (es : List Event) : eventBorders (e :: es) = e.border?.toList ++ eventBorders es := by
  cases e <;> rfl

theorem eventBorders_append (es es' : List Event) : eventBorders (es ++ es') = eventBorders es ++ eventBorders es' :=
  List.filterMap_append

/-- The end tag that is looked for among tokens is looked for among their borders. -/
theorem borders_pastClose (name : List Char) (depth : Nat) (ts : List Token) :
    (pastClose name depth ts).map borders = pastBorder name depth (borders ts) := by
  induction ts generalizing depth with
  | nil => rfl
  | cons t ts ih =>
    cases t with
    | start t => exact ih _
    | close n =>
      simp only [borders_cons, Token.border?, Option.toList, List.singleton_append, pastClose, pastBorder, Border.depth?]
      split
      · cases depth with
        | zero => rfl
        | succ depth => exact ih depth
      · exact ih depth
    | _ => exact ih depth

/-- Events are counted by their borders. -/
theorem Event.depth?_eq (name : List Char) (depth : Nat) (e : Event) :
    e.depth? name depth = e.border?.elim (some depth) (Border.depth? name depth) := by
  cases e <;> rfl

/-- The end tag that is looked for among events is looked for among their borders. -/
theorem eventBorders_pastElement (name : List Char) (depth : Nat) (es : List Event) :
    (pastElement name depth es).map eventBorders = pastBorder name depth (eventBorders es) := by
  induction es generalizing depth with
  | nil => rfl
  | cons e es ih =>
    rw [pastElement, e.depth?_eq, eventBorders_cons]
    cases e.border? with
    | none => exact ih depth
    | some b =>
      simp only [Option.elim, Option.toList, List.singleton_append, pastBorder]
      cases b.depth? name depth with
      | none => rfl
      | some depth => exact ih depth

/-! ## Readers -/

/-- A reader with these borders in front of it, unless it has met a fault. -/
def Reader.Carries (r : Reader) (bs : List Border) : Prop :=
  match r.ahead with
  | .token t => bs = t.border?.toList ++ borders r.tokens
  | .fault _ => True
  | .finished => bs = [] ∧ r.tokens = []

/-- A reader that looks at tokens carries their borders. -/
theorem Reader.carries_look (fault : Option Fault) (scope : Scope) (inText : Bool) (ts : List Token) :
    (Reader.look fault scope inText ts).Carries (borders ts) := by
  fun_induction Reader.look fault scope inText ts with
  | case1 => cases fault <;> simp [Reader.Carries, borders]
  | case2 _ _ ih | case3 _ _ ih => exact ih
  | case4 _ _ _ _ _ ih => exact ih
  | _ => simp [Reader.Carries, borders_cons, Token.border?]

/-- A reader that goes on carries the borders behind the token that it had ahead. -/
theorem Reader.Carries.advance {r : Reader} {bs : List Border} {t : Token} (h : r.Carries bs) (ht : r.ahead = .token t) :
    ∃ bs', bs = t.border?.toList ++ bs' ∧ r.advance.Carries bs' := by
  rw [Reader.Carries, ht] at h
  exact ⟨borders r.tokens, h, Reader.carries_look _ _ _ _⟩

/-- A token that is no border leaves the borders as they are. -/
theorem Reader.Carries.advance_inner {r : Reader} {bs : List Border} {t : Token} (h : r.Carries bs)
    (ht : r.ahead = .token t) (hinner : t.border? = none) : r.advance.Carries bs := by
  obtain ⟨bs', rfl, h⟩ := h.advance ht
  rwa [hinner]

/-- A text has no borders. -/
theorem Reader.Carries.text {r : Reader} {bs : List Border} (h : r.Carries bs)
    {y : { x : List Char × Reader // x.2.size ≤ r.size }} (hy : r.text = .ok y) : y.1.2.Carries bs := by
  rw [Reader.text] at hy
  split at hy
  · next s ht =>
    have shorter := Reader.size_advance ht
    obtain ⟨s, -, hy⟩ := exists_of_bind_eq_ok hy
    obtain ⟨more, hmore, hy⟩ := exists_of_bind_eq_ok hy
    obtain rfl := Except.ok.inj hy
    exact (h.advance_inner ht rfl).text hmore
  · next s ht =>
    have shorter := Reader.size_advance ht
    obtain ⟨more, hmore, hy⟩ := exists_of_bind_eq_ok hy
    obtain rfl := Except.ok.inj hy
    exact (h.advance_inner ht rfl).text hmore
  · obtain rfl := Except.ok.inj hy
    exact h
termination_by r.size

/-- What a step gives is the first of the borders or a text before it. -/
def Reader.Gives (bs : List Border) {r : Reader} : r.Step Event → Prop
  | none => bs = []
  | some ⟨(e, r'), _⟩ => ∃ bs', bs = e.border?.toList ++ bs' ∧ r'.Carries bs'

/-- What a step gives does not depend on how much there was to read. -/
theorem Reader.Gives.weaken {bs : List Border} {r r' : Reader} {step : r'.Step Event} (h : Reader.Gives bs step)
    (le : r'.size ≤ r.size) : Reader.Gives bs (step.weaken le) := by
  cases step with
  | none => exact h
  | some x => exact h

/-- The events of a reader are the borders that it carries, with texts between them. -/
theorem Reader.Carries.event? {r : Reader} {bs : List Border} (h : r.Carries bs) {y : r.Step Event}
    (hy : r.event? = .ok y) : Reader.Gives bs y := by
  rw [Reader.event?] at hy
  split at hy
  · cases hy
  · next ht =>
    obtain rfl := Except.ok.inj hy
    rw [Reader.Carries, ht] at h
    exact h.1
  · next t ht =>
    have shorter := Reader.size_advance ht
    cases t with
    | start t =>
      obtain rfl := Except.ok.inj hy
      exact h.advance ht
    | close name =>
      obtain rfl := Except.ok.inj hy
      exact h.advance ht
    | cdata s =>
      obtain ⟨more, hmore, hy⟩ := exists_of_bind_eq_ok hy
      obtain rfl := Except.ok.inj hy
      exact ⟨bs, rfl, (h.advance_inner ht rfl).text hmore⟩
    | text s =>
      dsimp only at hy
      split at hy
      · obtain ⟨s, -, hy⟩ := exists_of_bind_eq_ok hy
        obtain ⟨more, hmore, hy⟩ := exists_of_bind_eq_ok hy
        obtain rfl := Except.ok.inj hy
        exact ⟨bs, rfl, (h.advance_inner ht rfl).text hmore⟩
      · split at hy
        · obtain ⟨step, hstep, hy⟩ := exists_of_bind_eq_ok hy
          obtain rfl := Except.ok.inj hy
          exact ((h.advance_inner ht rfl).event? hstep).weaken _
        · obtain ⟨s, -, hy⟩ := exists_of_bind_eq_ok hy
          obtain rfl := Except.ok.inj hy
          exact ⟨bs, rfl, h.advance_inner ht rfl⟩
    | comment | instruction | doctype =>
      obtain ⟨step, hstep, hy⟩ := exists_of_bind_eq_ok hy
      obtain rfl := Except.ok.inj hy
      exact ((h.advance_inner ht rfl).event? hstep).weaken _
termination_by r.size

/-- A reader that moves past the end tag of the innermost open element stands behind it. -/
theorem Reader.Carries.skipElement {r : Reader} {bs : List Border} {name : List Char} {opened : List (List Char)}
    (h : r.Carries bs) (hsome : (opened? (name :: opened) bs).isSome) {y : { s : Reader // s.size ≤ r.size }}
    (hy : r.skipElement name = .ok y) :
    ∃ bs', y.1.Carries bs' ∧ behind? (name :: opened) bs = behind? opened bs' ∧ (opened? opened bs').isSome := by
  have hpassed : ∀ {depth ts}, pastClose name depth r.tokens = some ts →
      pastBorder name 0 bs = pastBorder name depth (borders r.tokens) →
      ∃ bs', (Reader.look r.fault r.scope r.inText ts).Carries bs' ∧
        behind? (name :: opened) bs = behind? opened bs' ∧ (opened? opened bs').isSome := by
    intro depth ts hts hdepth
    rw [← borders_pastClose, hts] at hdepth
    exact ⟨borders ts, Reader.carries_look _ _ _ ts, behind?_of_pastBorder [] hsome hdepth⟩
  simp only [Reader.skipElement] at hy
  split at hy
  · cases hy
  · next n ht =>
    obtain ⟨bs', rfl, hbs'⟩ := h.advance ht
    obtain ⟨opened', hclosed, -⟩ := Option.bind_eq_some_iff.1 (Option.some_get hsome).symm
    obtain ⟨rfl, rfl⟩ := List.cons.inj (after?_closing hclosed)
    rw [if_pos (beq_self_eq_true _)] at hy
    obtain rfl := Except.ok.inj hy
    exact ⟨bs', hbs', behind?_of_pastBorder [] hsome (by simp [pastBorder, Token.border?, Border.depth?])⟩
  · next t ht =>
    rw [Reader.Carries, ht] at h
    subst h
    split at hy
    · cases hy
    · next hts =>
      obtain rfl := Except.ok.inj hy
      exact hpassed hts rfl
  · next hfault hclose hstart =>
    have hbs : bs = borders r.tokens := by
      rw [Reader.Carries] at h
      split at h
      · next t ht =>
        cases t with
        | start t => exact absurd ht (hstart t)
        | close n => exact absurd ht (hclose n)
        | _ => exact h
      · next f hf => exact absurd hf (hfault f)
      · rw [h.1, h.2]; rfl
    split at hy
    · cases hy
    · next hts =>
      obtain rfl := Except.ok.inj hy
      exact hpassed hts (by rw [hbs])

/-! ## Streams -/

/-- The elements that are open behind an event. -/
def Event.after? (opened : List (List Char)) (e : Event) : Option (List (List Char)) :=
  e.border?.elim (some opened) (Border.after? opened)

/-- A stream inside elements that are open, innermost first. Its queue closes the first of them and holds nothing more. Its reader
has still to close the others; `rest` is what stands behind them. -/
def EventStream.Tracks (s : EventStream) (opened : List (List Char)) (rest : Option (List Border)) : Prop :=
  ∃ inner outer bs, opened = inner ++ outer ∧ behind? inner (eventBorders s.queue) = some [] ∧ s.reader.Carries bs ∧
    (opened? outer bs).isSome ∧ behind? outer bs = rest

section Events

variable {e : Event} {opened opened' above : List (List Char)} {bs : List Border} {rest : Option (List Border)}

/-- An event says nothing about elements that are open around the ones it is met in. -/
theorem Event.after?_append (h : e.after? above = some opened') : e.after? (above ++ opened) = some (opened' ++ opened) := by
  unfold Event.after? at *
  cases hb : e.border? with
  | none =>
    rw [hb] at h
    obtain rfl := Option.some.inj h
    rfl
  | some b =>
    rw [hb] at h
    exact Markup.after?_append h

/-- An event that no wrong end tag follows is none itself. -/
theorem Event.exists_after? (h : (opened? opened (e.border?.toList ++ bs)).isSome) :
    ∃ opened', e.after? opened = some opened' ∧ (opened? opened' bs).isSome := by
  unfold Event.after?
  cases hb : e.border? with
  | none =>
    rw [hb] at h
    exact ⟨opened, rfl, h⟩
  | some b =>
    rw [hb] at h
    obtain ⟨last, hlast⟩ := Option.isSome_iff_exists.1 h
    obtain ⟨opened', ho, hlast⟩ := Option.bind_eq_some_iff.1 hlast
    exact ⟨opened', ho, Option.isSome_iff_exists.2 ⟨last, hlast⟩⟩

/-- Behind an event inside an element, what was open around the element is open still. -/
theorem Event.exists_after?_of_append {name : List Char} (h : e.after? (above ++ name :: opened) = some opened') :
    ∃ above', e.after? (above ++ [name]) = some above' ∧ opened' = above' ++ opened := by
  unfold Event.after? at *
  cases hb : e.border? with
  | none =>
    rw [hb] at h
    obtain rfl := Option.some.inj h
    exact ⟨above ++ [name], rfl, by simp⟩
  | some b =>
    rw [hb] at h
    exact Markup.exists_after?_of_append h

/-- An element is closed, or the count follows the elements of its name that are open inside it. -/
theorem Event.depth?_of_after? {name : List Char} (h : e.after? (above ++ [name]) = some opened') :
    (e.depth? name (above.count name) = none ∧ opened' = []) ∨
      ∃ above', opened' = above' ++ [name] ∧ e.depth? name (above.count name) = some (above'.count name) := by
  rw [Event.depth?_eq]
  unfold Event.after? at h
  cases hb : e.border? with
  | none =>
    rw [hb] at h
    exact .inr ⟨above, (Option.some.inj h).symm, rfl⟩
  | some b =>
    rw [hb] at h
    exact Markup.depth?_of_after? h

/-- An event inside an open element leaves the same behind. -/
theorem Event.behind?_after? (hne : opened ≠ []) (h : e.after? opened = some opened') :
    behind? opened (e.border?.toList ++ bs) = behind? opened' bs := by
  unfold Event.after? at h
  cases hb : e.border? with
  | none =>
    rw [hb] at h
    obtain rfl := Option.some.inj h
    rfl
  | some b =>
    rw [hb] at h
    obtain ⟨n, opened, rfl⟩ := List.exists_cons_of_ne_nil hne
    exact congrArg (·.bind (behind? · bs)) h

/-- The first of events that close what is open. -/
theorem Event.exists_after?_of_behind? (h : behind? opened (e.border?.toList ++ bs) = some []) :
    ∃ opened', e.after? opened = some opened' ∧ behind? opened' bs = some [] := by
  unfold Event.after?
  cases hb : e.border? with
  | none =>
    rw [hb] at h
    exact ⟨opened, rfl, h⟩
  | some b =>
    rw [hb] at h
    cases opened with
    | nil => cases h
    | cons n opened => exact Option.bind_eq_some_iff.1 h

end Events

/-- With nothing queued, what a stream gives is the first of the borders in front of its reader or a text before it. -/
theorem EventStream.event?_of_carries {r : Reader} {bs : List Border} (h : r.Carries bs)
    {step : Option { x : Event × EventStream // x.2.size < (EventStream.mk [] r).size }}
    (hstep : (EventStream.mk [] r).event? = .ok step) :
    match step with
    | none => bs = []
    | some ⟨(e, s), _⟩ => ∃ bs', bs = e.border?.toList ++ bs' ∧ s.queue = [] ∧ s.reader.Carries bs' := by
  obtain ⟨given, hgiven, hstep⟩ := exists_of_bind_eq_ok hstep
  have hgives := h.event? hgiven
  cases given with
  | none =>
    obtain rfl := Except.ok.inj hstep
    exact hgives
  | some x =>
    obtain rfl := Except.ok.inj hstep
    obtain ⟨bs', hbs, hr⟩ := hgives
    exact ⟨bs', hbs, rfl, hr⟩

namespace EventStream.Tracks

variable {s s' : EventStream} {name : List Char} {opened : List (List Char)} {rest : Option (List Border)}

/-- A stream behind all that was open has something in front of it, if only the end. -/
theorem exists_of_nil (h : s.Tracks [] rest) :
    ∃ later, rest = some later := by
  obtain ⟨inner, outer, bs, hopened, -, -, -, rfl⟩ := h
  obtain ⟨-, rfl⟩ := List.append_eq_nil_iff.1 hopened.symm
  exact ⟨bs, behind?_nil⟩

/-- What a stream gives inside an open element opens an element, closes the innermost or does neither. Where nothing is queued,
the reader stands inside all that is open. -/
theorem event? {e : Event} {lt : s'.size < s.size} (h : s.Tracks opened rest) (hne : opened ≠ [])
    (hy : s.event? = .ok (some ⟨(e, s'), lt⟩)) : ∃ opened', e.after? opened = some opened' ∧ s'.Tracks opened' rest := by
  obtain ⟨inner, outer, bs, rfl, hqueue, hreader, hsome, rfl⟩ := h
  obtain ⟨queue, reader⟩ := s
  cases queue with
  | nil =>
    obtain rfl : inner = [] := by
      cases inner with
      | nil => rfl
      | cons n inner => cases hqueue
    obtain ⟨bs', rfl, hqueue', hreader'⟩ := EventStream.event?_of_carries hreader hy
    obtain ⟨opened', hafter, hsome⟩ := Event.exists_after? hsome
    have hbehind : behind? outer (e.border?.toList ++ bs') = behind? opened' bs' := Event.behind?_after? hne hafter
    exact ⟨opened', hafter, [], opened', bs', rfl, by rw [hqueue']; rfl, hreader', hsome, hbehind.symm⟩
  | cons d queue =>
    obtain ⟨rfl, rfl⟩ := Prod.mk.inj (Subtype.mk.inj (Option.some.inj (Except.ok.inj hy)))
    obtain ⟨inner', hafter, hqueue⟩ := Event.exists_after?_of_behind? (eventBorders_cons d queue ▸ hqueue)
    exact ⟨inner' ++ outer, Event.after?_append hafter, inner', outer, bs, rfl, hqueue, hreader, hsome, rfl⟩

/-- A start tag opens its element inside of all that is open. -/
theorem event?_start {t : Tag} {lt : s'.size < s.size} (h : s.Tracks (name :: opened) rest)
    (hy : s.event? = .ok (some ⟨(.start t, s'), lt⟩)) : s'.Tracks (t.name :: name :: opened) rest := by
  obtain ⟨opened', ho, h⟩ := h.event? (List.cons_ne_nil _ _) hy
  exact Option.some.inj ho ▸ h

/-- An end tag has the name of the innermost open element and closes it. -/
theorem event?_close {n : List Char} {lt : s'.size < s.size} (h : s.Tracks (name :: opened) rest)
    (hy : s.event? = .ok (some ⟨(.close n, s'), lt⟩)) : n = name ∧ s'.Tracks opened rest := by
  obtain ⟨opened', ho, h⟩ := h.event? (List.cons_ne_nil _ _) hy
  obtain ⟨rfl, rfl⟩ := List.cons.inj (after?_closing ho)
  exact ⟨rfl, h⟩

theorem event?_text {t : List Char} {lt : s'.size < s.size} (h : s.Tracks (name :: opened) rest)
    (hy : s.event? = .ok (some ⟨(.text t, s'), lt⟩)) : s'.Tracks (name :: opened) rest := by
  obtain ⟨opened', ho, h⟩ := h.event? (List.cons_ne_nil _ _) hy
  exact Option.some.inj ho ▸ h

/-- A stream that moves past the end tag of the innermost open element stands behind it. If the queue does not close the element,
the reader has its end tag. -/
theorem skipElement (h : s.Tracks (name :: opened) rest) {y : { x : EventStream // x.size ≤ s.size }}
    (hy : s.skipElement name = .ok y) : y.1.Tracks opened rest := by
  obtain ⟨inner, outer, bs, hopened, hqueue, hreader, hsome, rfl⟩ := h
  have hpast := eventBorders_pastElement name 0 s.queue
  cases inner with
  | nil =>
    obtain rfl : name :: opened = outer := hopened
    rw [Option.some.inj (behind?_nil.symm.trans hqueue)] at hpast
    unfold EventStream.skipElement at hy
    split at hy
    · next hfound => rw [hfound] at hpast; cases hpast
    · obtain ⟨r, hr, hy⟩ := exists_of_bind_eq_ok hy
      obtain rfl := Except.ok.inj hy
      obtain ⟨bs', hbs', hbehind, hsome⟩ := hreader.skipElement hsome hr
      exact ⟨[], opened, bs', rfl, rfl, hbs', hsome, hbehind.symm⟩
  | cons n inner =>
    obtain ⟨rfl, rfl⟩ := List.cons.inj hopened
    obtain ⟨cs, hcs, hqueue⟩ := pastBorder_of_behind? [] hqueue
    rw [List.count_nil] at hcs
    rw [hcs] at hpast
    obtain ⟨queue, hfound, rfl⟩ := Option.map_eq_some_iff.1 hpast
    unfold EventStream.skipElement at hy
    split at hy
    · next hfound' =>
      obtain rfl := Except.ok.inj hy
      obtain rfl := Option.some.inj (hfound.symm.trans hfound')
      exact ⟨inner, outer, bs, rfl, hqueue, hreader, hsome, rfl⟩
    · next hnone => rw [hfound] at hnone; cases hnone

/-- The text of an element is read up to and with its end tag. -/
theorem content (h : s.Tracks (name :: opened) rest) {y : { x : List Char × EventStream // x.2.size < s.size }}
    (hy : s.content name = .ok y) : y.1.2.Tracks opened rest := by
  obtain ⟨step, hstep, hy⟩ := exists_of_bind_eq_ok hy
  split at hy
  · cases hy
  · cases hy
  · obtain rfl := Except.ok.inj hy
    exact (h.event?_close hstep).2
  · have h := h.event?_text hstep
    obtain ⟨step, hstep, hy⟩ := exists_of_bind_eq_ok hy
    split at hy
    · obtain rfl := Except.ok.inj hy
      exact (h.event?_close hstep).2
    · cases hy
    · cases hy

/-- The events of an open element close it, or the input ends first. -/
theorem element {s : EventStream} (above : List (List Char)) (h : s.Tracks (above ++ name :: opened) rest)
    {y : { x : List Event × EventStream // x.1.length + x.2.size ≤ s.size }}
    (hy : s.element name (above.count name) = .ok y) :
    (behind? (above ++ [name]) (eventBorders y.1.1) = some [] ∧ y.1.2.Tracks opened rest) ∨ y.1.2.event? = .ok none := by
  have hne : above ++ name :: opened ≠ [] := by simp
  rw [EventStream.element] at hy
  obtain ⟨step, hstep, hy⟩ := exists_of_bind_eq_ok hy
  split at hy
  · obtain rfl := Except.ok.inj hy
    exact .inr hstep
  · next e s' lt =>
    obtain ⟨opened', ho, h⟩ := h.event? hne hstep
    obtain ⟨above', ha, rfl⟩ := Event.exists_after?_of_append ho
    have hbehind : ∀ es, behind? (above ++ [name]) (eventBorders (e :: es)) = behind? above' (eventBorders es) := by
      intro es
      rw [eventBorders_cons, Event.behind?_after? (by simp) ha]
    rcases Event.depth?_of_after? ha with ⟨hdepth, rfl⟩ | ⟨above', rfl, hdepth⟩
    · rw [hdepth] at hy
      obtain rfl := Except.ok.inj hy
      exact .inl ⟨hbehind [], h⟩
    · rw [hdepth] at hy
      obtain ⟨more, hmore, hy⟩ := exists_of_bind_eq_ok hy
      obtain rfl := Except.ok.inj hy
      rw [List.append_assoc] at h
      rcases h.element above' hmore with ⟨hclosed, h⟩ | hnone
      · exact .inl ⟨(hbehind more.1.1).trans hclosed, h⟩
      · exact .inr hnone
termination_by s.size

/-- Whole elements and an end tag may be laid back where the end tag was read. -/
theorem layBack (h : s.Tracks opened rest) {es : List Event} (hes : Nested (eventBorders es)) :
    (s.layBack (es ++ [.close name])).Tracks (name :: opened) rest := by
  obtain ⟨inner, outer, bs, rfl, hqueue, hreader, hsome, rfl⟩ := h
  refine ⟨name :: inner, outer, bs, rfl, ?_, hreader, hsome, rfl⟩
  rw [EventStream.layBack, List.append_assoc, eventBorders_append, hes.behind?]
  simpa [eventBorders_cons, Event.border?, Markup.behind?] using hqueue

end EventStream.Tracks

end FlowDiagram.Markup

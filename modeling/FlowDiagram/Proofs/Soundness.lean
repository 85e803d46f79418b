import FlowDiagram.Document.Reading
import FlowDiagram.Proofs.Markup.Records
import FlowDiagram.Proofs.Markup.Tracking

/-!
# What is known of a document that is read

A document is sound if it can be cut into tokens to its end, every start tag is closed by an end tag of its name, and there is no
other end tag (`Sound`). Every reader of a record takes a stream from inside an element to behind its end tag
(`readFields_tracks`).

Main statement: a document that is read is known to be sound up to the end tag of its root element if it is a flow document, and
to have no wrong end tag if it is about something else (`Document.sound_read_iff`). Both fall short of soundness. Nothing that
follows the root element of a flow document is looked at, and elements of another document need not end (`not_sound_read`).
-/

namespace FlowDiagram.Markup

/-! ## Records -/

section Records

variable {rest : Option (List Border)}

mutual

/-- The fields of an element are read up to and with its end tag. -/
theorem readFields_tracks {fields : List (String × Shape)} {tag : Tag} {known : List (String × Value)} {s : EventStream}
    {opened : List (List Char)} (h : s.Tracks (tag.name :: opened) rest)
    {y : { x : List (String × Value) × EventStream // x.2.size < s.size }} (hy : readFields fields tag known s = .ok y) :
    y.1.2.Tracks opened rest := by
  rw [readFields] at hy
  obtain ⟨step, hstep, hy⟩ := exists_of_bind_eq_ok hy
  split at hy
  · cases hy
  · obtain rfl := Except.ok.inj hy
    exact (h.event?_close hstep).2
  · next s' lt =>
    obtain ⟨x, hx, hy⟩ := exists_of_bind_eq_ok hy
    obtain rfl := Except.ok.inj hy
    exact readFields_tracks (h.event?_text hstep) hx
  · next child s' lt =>
    have h := h.event?_start hstep
    have shorter : s'.size < s.size := lt
    dsimp only at hy
    split at hy
    · obtain ⟨s'', hskip, hy⟩ := exists_of_bind_eq_ok hy
      obtain ⟨x, hx, hy⟩ := exists_of_bind_eq_ok hy
      obtain rfl := Except.ok.inj hy
      have shorter := Nat.lt_of_le_of_lt s''.2 shorter
      exact readFields_tracks (h.skipElement hskip) hx
    · split at hy
      · cases hy
      · obtain ⟨s'', hfield, hy⟩ := exists_of_bind_eq_ok hy
        obtain ⟨x, hx, hy⟩ := exists_of_bind_eq_ok hy
        obtain rfl := Except.ok.inj hy
        have shorter' := Nat.lt_of_le_of_lt s''.2 shorter
        exact readFields_tracks (readField_tracks h hfield) hx
termination_by (s.size, 0)

/-- The fields of a record are read up to and with the end tag of its element. -/
theorem readRecord_tracks {fields : List (String × Shape)} {tag : Tag} {s : EventStream} {opened : List (List Char)}
    (h : s.Tracks (tag.name :: opened) rest)
    {y : { x : List (String × Value) × EventStream // x.2.size < s.size }} (hy : readRecord fields tag s = .ok y) :
    y.1.2.Tracks opened rest := by
  rw [readRecord] at hy
  obtain ⟨_, -, hy⟩ := exists_of_bind_eq_ok hy
  exact readFields_tracks h hy
termination_by (s.size, 1)

/-- The value of a field is read up to and with its end tag. -/
theorem readField_tracks {shape : Shape} {parent child : Tag} {s : EventStream} {n : List Char} {opened : List (List Char)}
    (h : s.Tracks (child.name :: n :: opened) rest) {y : { x : Value × EventStream // x.2.size ≤ s.size }}
    (hy : readField shape parent child s = .ok y) : y.1.2.Tracks (n :: opened) rest := by
  unfold readField at hy
  split at hy
  · obtain ⟨s', hskip, hy⟩ := exists_of_bind_eq_ok hy
    obtain rfl := Except.ok.inj hy
    exact h.skipElement hskip
  · cases shape with
    | text =>
      obtain ⟨x, hx, hy⟩ := exists_of_bind_eq_ok hy
      obtain rfl := Except.ok.inj hy
      exact h.content hx
    | integer | flag =>
      obtain ⟨x, hx, hy⟩ := exists_of_bind_eq_ok hy
      obtain ⟨_, -, hy⟩ := exists_of_bind_eq_ok hy
      obtain rfl := Except.ok.inj hy
      exact h.content hx
    | record title fields =>
      obtain ⟨x, hx, hy⟩ := exists_of_bind_eq_ok hy
      obtain rfl := Except.ok.inj hy
      exact readRecord_tracks h hx
    | list title fields =>
      obtain ⟨x, hx, hy⟩ := exists_of_bind_eq_ok hy
      obtain ⟨items, hitems, hy⟩ := exists_of_bind_eq_ok hy
      obtain rfl := Except.ok.inj hy
      have shorter := x.2
      exact readItems_tracks (show Nested (eventBorders []) from .nil) (readRecord_tracks h hx) hitems
termination_by (s.size, 2)

/-- The items of a list are read, and what else stands in front of the end tag of the element is laid back. -/
theorem readItems_tracks {title : String} {fields : List (String × Shape)} {parent name : List Char} {skipped : List Event}
    {s : EventStream} {n : List Char} {opened : List (List Char)} (hskipped : Nested (eventBorders skipped))
    (h : s.Tracks (n :: opened) rest)
    {y : { x : List (List (String × Value)) × EventStream // x.2.size ≤ skipped.length + s.size }}
    (hy : readItems title fields parent name skipped s = .ok y) : y.1.2.Tracks (n :: opened) rest := by
  rw [readItems] at hy
  obtain ⟨step, hstep, hy⟩ := exists_of_bind_eq_ok hy
  split at hy
  · cases hy
  · cases hy
  · next m s' lt =>
    obtain rfl := Except.ok.inj hy
    obtain ⟨rfl, hclosed⟩ := h.event?_close hstep
    exact hclosed.layBack hskipped
  · next child s' lt =>
    have h := h.event?_start hstep
    have shorter : s'.size < s.size := lt
    dsimp only at hy
    split at hy
    · obtain ⟨item, hitem, hy⟩ := exists_of_bind_eq_ok hy
      obtain ⟨items, hitems, hy⟩ := exists_of_bind_eq_ok hy
      obtain rfl := Except.ok.inj hy
      have shorter' := Nat.lt_trans item.2 shorter
      exact readItems_tracks hskipped (readRecord_tracks h hitem) hitems
    · obtain ⟨events, hevents, hy⟩ := exists_of_bind_eq_ok hy
      obtain ⟨x, hx, hy⟩ := exists_of_bind_eq_ok hy
      obtain rfl := Except.ok.inj hy
      rcases h.element [] hevents with ⟨hclosed, h⟩ | hnone
      · obtain ⟨inside, later, hin, hinside, hlater⟩ := exists_of_behind? hclosed
        obtain rfl : later = [] := Option.some.inj (behind?_nil.symm.trans hlater)
        have shorter' : events.1.2.size < s.size :=
          Nat.lt_of_le_of_lt (Nat.le_trans (Nat.le_add_left _ _) events.2) shorter
        refine readItems_tracks ?_ h hx
        rw [eventBorders_append, eventBorders_cons, hin]
        exact hskipped.append (.element child.name hinside .nil)
      · rw [readItems, hnone] at hx
        cases hx
termination_by (s.size, 0)

end

end Records

/-! ## Documents -/

/-- A document without the byte order mark at its start. -/
def withoutMark : List Char → List Char
  | '\uFEFF' :: r => r
  | r => r

/-- What stands in the way of cutting a document into tokens to its end. -/
def scanFault? (text : List Char) : Option Fault :=
  (scan (withoutMark text)).fault

/-- The start and end tags of a document as far as it can be cut into tokens. -/
def tags (text : List Char) : List Border :=
  borders (scan (withoutMark text)).list

/-- The name of the root element: the first tag of a document, if it is a start tag. -/
def root? (text : List Char) : Option (List Char) :=
  match tags text with
  | .opening name :: _ => some name
  | _ => none

/-- A document that can be cut into tokens to its end and whose start tags are closed by end tags of their names, with no end tag
besides. -/
def Sound (text : List Char) : Prop :=
  scanFault? text = none ∧ Nested (tags text)

instance (text : List Char) : Decidable (Sound text) :=
  inferInstanceAs (Decidable (_ ∧ _))

theorem ofText_eq (text : List Char) :
    Tokens.ofText text = balance (scan (withoutMark text)).fault [] (scan (withoutMark text)).list := by
  unfold Tokens.ofText withoutMark
  rfl

/-- What is left of tokens when their end tags are matched: all of them, or those before the first wrong end tag. -/
structure Tokens.Matched (fault : Option Fault) (opened : List (List Char)) (ts : List Token) (kept : Tokens) : Prop where
  part : kept.list <+: ts
  matched : (opened? opened (borders kept.list)).isSome
  whole : kept.fault = none → kept.list = ts ∧ fault = none

section Matched

variable {fault : Option Fault} {opened opened' : List (List Char)} {t : Token} {ts : List Token} {kept : Tokens}

theorem Tokens.Matched.stop (f : Fault) : Tokens.Matched fault opened ts ⟨[], some f⟩ :=
  ⟨List.nil_prefix, rfl, fun h => by cases h⟩

/-- A token in front of what is left is matched if what it leaves open is. -/
theorem Tokens.Matched.cons (h : Tokens.Matched fault opened' ts kept) (ht : opened? opened t.border?.toList = some opened') :
    Tokens.Matched fault opened (t :: ts) ⟨t :: kept.list, kept.fault⟩ where
  part := List.cons_prefix_cons.2 ⟨rfl, h.part⟩
  matched := by
    rw [borders_cons, opened?_append, ht]
    exact h.matched
  whole hfault := ⟨congrArg (t :: ·) (h.whole hfault).1, (h.whole hfault).2⟩

/-- Matching end tags leaves tokens whose end tags match. A token that is no tag leaves the elements that are open as they
are. -/
theorem matched_balance (fault : Option Fault) (opened : List (List Char)) (ts : List Token) :
    Tokens.Matched fault opened ts (balance fault opened ts) := by
  fun_induction balance fault opened ts with
  | case1 => exact ⟨List.nil_prefix, rfl, fun h => ⟨rfl, h⟩⟩
  | case2 opened t r _ ih => exact ih.cons rfl
  | case3 => exact .stop _
  | case4 expected opened name r hname _ ih =>
    obtain rfl := eq_of_beq hname
    exact ih.cons (by simp [Token.border?])
  | case5 => exact .stop _
  | case6 opened t r hstart hunopened hclose _ ih =>
    refine ih.cons ?_
    cases t with
    | start t => exact (hstart t rfl).elim
    | close name =>
      cases opened with
      | nil => exact (hunopened name rfl rfl).elim
      | cons n opened => exact (hclose n opened name rfl rfl).elim
    | _ => rfl

end Matched

/-- What is taken for the root element is the first tag. -/
theorem rootName?_eq {fault : Option Fault} {ts : List Token} {root : Option (List Char)}
    (hsome : (opened? [] (borders ts)).isSome) (h : rootName? fault ts = .ok root) :
    (root = none ∧ fault = none ∧ borders ts = []) ∨
      ∃ name later, root = some (localName name) ∧ borders ts = .opening name :: later := by
  induction ts with
  | nil =>
    cases fault with
    | none => exact .inl ⟨(Except.ok.inj h).symm, rfl, rfl⟩
    | some f => cases h
  | cons t ts ih =>
    cases t with
    | start t => exact .inr ⟨t.name, borders ts, (Except.ok.inj h).symm, rfl⟩
    | close name => cases hsome
    | text s =>
      rw [rootName?] at h
      split at h
      · exact ih hsome h
      · cases h
    | _ => exact ih hsome h

/-- The tokens of a document are matched, so its tags are those of its tokens and what was not matched. -/
theorem exists_tags_eq (text : List Char) : ∃ dropped, tags text = borders (Tokens.ofText text).list ++ dropped := by
  have hpart := (matched_balance (scan (withoutMark text)).fault [] (scan (withoutMark text)).list).part
  rw [← ofText_eq] at hpart
  obtain ⟨dropped, hdropped⟩ := hpart
  exact ⟨borders dropped, by rw [tags, ← hdropped, borders, List.filterMap_append]; rfl⟩

/-- The tokens of a text have no wrong end tag. -/
theorem opened?_ofText (text : List Char) : (opened? [] (borders (Tokens.ofText text).list)).isSome :=
  ofText_eq text ▸ (matched_balance _ _ _).matched

/-- A document whose tokens have no fault is cut into tokens to its end, and none of its end tags is wrong. -/
theorem tags_of_fault_eq_none {text : List Char} (h : (Tokens.ofText text).fault = none) :
    scanFault? text = none ∧ tags text = borders (Tokens.ofText text).list := by
  rw [ofText_eq] at h ⊢
  obtain ⟨hlist, hfault⟩ := (matched_balance _ _ _).whole h
  exact ⟨hfault, by rw [tags, hlist]⟩

section Reading

variable {name title : String} {fields : List (String × Shape)} {text : List Char} {result : Root} {root : List Char}

/-- The root element that reading goes by is the one of the first tag. -/
theorem rootName?_ofText {r : Option (List Char)} (hroot : root? text = some root)
    (h : rootName? (Tokens.ofText text).fault (Tokens.ofText text).list = .ok r) :
    r = some (localName root) ∧ ∃ later, borders (Tokens.ofText text).list = .opening root :: later := by
  rcases rootName?_eq (opened?_ofText text) h with ⟨-, hfault, hnil⟩ | ⟨n, later, rfl, hborders⟩
  · rw [root?, (tags_of_fault_eq_none hfault).2, hnil] at hroot
    cases hroot
  · obtain ⟨dropped, htags⟩ := exists_tags_eq text
    rw [root?, htags, hborders] at hroot
    obtain rfl : n = root := Option.some.inj hroot
    exact ⟨rfl, later, hborders⟩

/-- A document whose root element is the one looked for is read up to the end tag of the root element. -/
theorem nested_of_readDocument (hread : readDocument name title fields text = .ok result) (hroot : root? text = some root)
    (hname : localName root = name.toList) :
    ∃ inside later, tags text = .opening root :: (inside ++ .closing root :: later) ∧ Nested inside := by
  rw [readDocument] at hread
  obtain ⟨r, hr, hread⟩ := exists_of_bind_eq_ok hread
  obtain ⟨rfl, later, hborders⟩ := rootName?_ofText hroot hr
  dsimp only at hread
  rw [if_pos (beq_iff_eq.2 hname)] at hread
  obtain ⟨step, hstep, hread⟩ := exists_of_bind_eq_ok hread
  have hgives := EventStream.event?_of_carries (Reader.carries_look _ _ _ _) hstep
  rw [hborders] at hgives
  split at hread
  · next tag s lt =>
    obtain ⟨bs, hbs, hqueue, hreader⟩ := hgives
    obtain ⟨hstart, rfl⟩ := List.cons.inj hbs
    obtain rfl : root = tag.name := Border.opening.inj hstart
    have hsome := opened?_ofText text
    rw [hborders] at hsome
    have htracks : s.Tracks [tag.name] (behind? [tag.name] later) :=
      ⟨[], [tag.name], later, rfl, by rw [hqueue]; rfl, hreader, hsome, rfl⟩
    obtain ⟨x, hx, -⟩ := exists_of_bind_eq_ok hread
    obtain ⟨rest, hrest⟩ := (readRecord_tracks htracks hx).exists_of_nil
    obtain ⟨inside, later', hlater, hinside, -⟩ := exists_of_behind? hrest
    obtain ⟨dropped, htags⟩ := exists_tags_eq text
    refine ⟨inside, later' ++ dropped, ?_, hinside⟩
    rw [htags, hborders, hlater]
    simp
  · cases hread
  · next hstart htext =>
    cases step with
    | none => cases hgives
    | some x =>
      obtain ⟨⟨e, s⟩, lt⟩ := x
      obtain ⟨bs, hbs, -⟩ := hgives
      cases e with
      | start t => exact (hstart t s lt rfl).elim
      | text t => exact (htext t s lt rfl).elim
      | close n => cases hbs

/-- A document about something else is cut into tokens to its end, and none of its end tags is wrong. -/
theorem opened?_of_readDocument (hread : readDocument name title fields text = .ok result)
    (hroot : root? text = some root) (hname : localName root ≠ name.toList) :
    scanFault? text = none ∧ (opened? [] (tags text)).isSome := by
  rw [readDocument] at hread
  obtain ⟨r, hr, hread⟩ := exists_of_bind_eq_ok hread
  obtain ⟨rfl, -⟩ := rootName?_ofText hroot hr
  dsimp only at hread
  rw [if_neg (mt eq_of_beq hname)] at hread
  split at hread
  · cases hread
  · next hfault =>
    obtain ⟨hscan, htags⟩ := tags_of_fault_eq_none hfault
    exact ⟨hscan, htags ▸ opened?_ofText text⟩

end Reading

end FlowDiagram.Markup

namespace FlowDiagram.Document

open Markup

/-- If a text is read as a document, so is its root element. -/
theorem exists_of_read {text : String} {d : Document} (h : (read text).value = .ok d) :
    ∃ result, readDocument rootName title fields text.toList = .ok result := by
  unfold read at h
  split at h
  · cases h
  · next hread => exact ⟨_, hread⟩
  · next hread => exact ⟨_, hread⟩
  · next hread => exact ⟨_, hread⟩

/-- What is known of a document with a root element that is read. If it is a flow document, its root element is closed and holds
nested elements, and it is sound exactly if what follows the root element is. If it is about something else, it can be cut into
tokens and has no wrong end tag, and it is sound exactly if no element is left open. -/
theorem sound_read_iff {text : String} {d : Document} {root : List Char} (hread : (read text).value = .ok d)
    (hroot : root? text.toList = some root) :
    (localName root = rootName.toList → ∃ inside later,
      tags text.toList = .opening root :: (inside ++ .closing root :: later) ∧ Nested inside ∧
        (Sound text.toList ↔ scanFault? text.toList = none ∧ Nested later)) ∧
    (localName root ≠ rootName.toList → scanFault? text.toList = none ∧
      ∃ opened, opened? [] (tags text.toList) = some opened ∧ (Sound text.toList ↔ opened = [])) := by
  obtain ⟨result, hresult⟩ := exists_of_read hread
  constructor
  · intro hname
    obtain ⟨inside, later, htags, hinside⟩ := nested_of_readDocument hresult hroot hname
    refine ⟨inside, later, htags, hinside, ?_⟩
    rw [Sound, htags, nested_element_iff hinside]
  · intro hname
    obtain ⟨hscan, hsome⟩ := opened?_of_readDocument hresult hroot hname
    obtain ⟨opened, hopened⟩ := Option.isSome_iff_exists.1 hsome
    refine ⟨hscan, opened, hopened, ?_⟩
    rw [Sound, nested_iff, hopened, Option.some.injEq]
    exact and_iff_right hscan

/-- A flow document behind which an element starts that does not end. -/
def trailing : String := "<Flow><label>A</label></Flow><Flow>"

/-- The text is read as a document. -/
theorem exists_read_trailing : ∃ d, (read trailing).value = .ok d := by
  have htokens : Tokens.ofText trailing.toList =
      ⟨(Node.branch {} { chars := "Flow".toList } [.leaf {} { chars := "label".toList } (.text { chars := ['A'] })] {}).spell
        tokens ++ [.start ⟨"Flow".toList, []⟩], none⟩ := by
    decide +kernel
  have hread := readDocument_of_ofText (by decide : Node.allFit fields _ = true) _ title _ _ htokens
    (.start {} { chars := "Flow".toList } (.finished {}))
  rw [show String.ofList "Flow".toList = rootName from String.ofList_toList] at hread
  rw [read, hread]
  exact ⟨_, rfl⟩

/-- The element that starts behind the flow makes the document unsound, and the document is read all the same. -/
theorem sound_read_iff_trailing :
    ∃ d inside later, (read trailing).value = .ok d ∧ root? trailing.toList = some "Flow".toList ∧
      tags trailing.toList = .opening "Flow".toList :: (inside ++ .closing "Flow".toList :: later) ∧ Nested inside ∧
        (Sound trailing.toList ↔ scanFault? trailing.toList = none ∧ Nested later) ∧ ¬Sound trailing.toList := by
  obtain ⟨d, hread⟩ := exists_read_trailing
  have hroot : root? trailing.toList = some "Flow".toList := by decide +kernel
  obtain ⟨inside, later, htags, hinside, hsound⟩ := (sound_read_iff hread hroot).1 (by decide)
  exact ⟨d, inside, later, hread, hroot, htags, hinside, hsound, by decide +kernel⟩

/-- A document about something else is read although its root element does not end. -/
theorem not_sound_read :
    ¬∀ (text : String) (d : Document) (root : List Char), (read text).value = .ok d → root? text.toList = some root →
      Sound text.toList := by
  intro h
  have hread : (read "<Other>").value.isOk = true := by decide +kernel
  cases hvalue : (read "<Other>").value with
  | error f =>
    rw [hvalue] at hread
    cases hread
  | ok d =>
    have hsound := h "<Other>" d "Other".toList hvalue (by decide +kernel)
    exact absurd hsound (by decide +kernel)

end FlowDiagram.Document

import FlowDiagram.Proofs.Markup.Streaming

/-!
# Reading fields, step by step

What the readers of a record do with the next events of a stream, as rules about the events that are taken, the value that is
given and the events that are left (`Takes`). There is a rule for each kind of event that can be met in written elements, and
one for each shape of a field. Scalars read back from how they are written (`parseInteger_decimal`, `parseFlag_said`).
-/

namespace FlowDiagram.Markup

open FlowDiagram.Text

/-! ## Scalars -/

theorem parseInteger_decimal {i : Int} (held : holdsInteger i = true) : parseInteger (decimal i) = .ok i := by
  rw [parseInteger, readInt?_decimal]
  simp only [held, if_true]

/-- A flag is read back from what it says. -/
theorem parseFlag_said (b : Bool) : parseFlag (Scalar.flag b).said = .ok b := by
  cases b with
  | false =>
    show parseFlag "false".toList = .ok false
    rw [parseFlag, if_neg (by decide), if_pos (by decide)]
  | true =>
    show parseFlag "true".toList = .ok true
    rw [parseFlag, if_pos (by decide)]

/-! ## What a reading step takes -/

/-- A reading step that takes some events and gives a value, wherever a stream stands at these events. -/
def Takes {α : Type} {P : EventStream → α × EventStream → Prop}
    (f : ∀ s, Except Fault { y : α × EventStream // P s y }) (es : List Event) (a : α) (es' : List Event) : Prop :=
  ∀ s : EventStream, s.Stands es → Yields (f s) a es'

variable {fields : List (String × Shape)} {known : List (String × Value)} {es es' es'' : List Event}

/-! ## Fields -/

/-- The end tag of a record ends it. -/
theorem readFields_close {tag : Tag} (name : List Char) :
    Takes (readFields fields tag known) (.close name :: es) known es := by
  intro s h
  obtain ⟨s', lt, he, h'⟩ := h.event?
  refine ⟨s', lt, ?_, h'⟩
  rw [readFields, he]
  rfl

/-- An element that is no field is skipped. -/
theorem readFields_unknown {tag : Tag} {name : TagName} {x : List Char} {v : List (String × Value)}
    (hlookup : fields.lookup (String.ofList name.chars) = none) (hrest : Takes (readFields fields tag known) es v es') :
    Takes (readFields fields tag known) (.start name.tag :: .text x :: .close name.chars :: es) v es' := by
  intro s h
  obtain ⟨s₁, lt, he, h⟩ := h.event?
  obtain ⟨s₂, le, hskip, h⟩ := h.skipElement
  obtain ⟨s₃, lt', hfields, h⟩ := hrest s₂ h
  refine ⟨s₃, Nat.lt_trans lt' (Nat.lt_of_le_of_lt le lt), ?_, h⟩
  have hkey : fields.lookup (String.ofList (localName name.tag.name)) = none := by
    rwa [TagName.tag, name.localName_chars]
  rw [readFields, he]
  simp only [bind, Except.bind]
  split
  · simp only [TagName.tag, hskip, hfields]
    rfl
  · next shape hshape => rw [hkey] at hshape; cases hshape

/-- An element that is a field not met before gives its value to the fields known. -/
theorem readFields_known {tag : Tag} {name : TagName} {shape : Shape} {value : Value} {v : List (String × Value)}
    (hlookup : fields.lookup (String.ofList name.chars) = some shape)
    (hknown : known.lookup (String.ofList name.chars) = none)
    (hvalue : Takes (readField shape tag name.tag) es value es')
    (hrest : Takes (readFields fields tag (known ++ [(String.ofList name.chars, value)])) es' v es'') :
    Takes (readFields fields tag known) (.start name.tag :: es) v es'' := by
  intro s h
  obtain ⟨s₁, lt, he, h⟩ := h.event?
  obtain ⟨s₂, le, hfield, h⟩ := hvalue s₁ h
  obtain ⟨s₃, lt', hfields, h⟩ := hrest s₂ h
  refine ⟨s₃, Nat.lt_trans lt' (Nat.lt_of_le_of_lt le lt), ?_, h⟩
  have hkey : String.ofList (localName name.tag.name) = String.ofList name.chars := by
    rw [TagName.tag, name.localName_chars]
  rw [readFields, he]
  simp only [bind, Except.bind]
  split
  · next hshape => rw [hkey, hlookup] at hshape; cases hshape
  · next shape' hshape =>
    rw [hkey, hlookup] at hshape
    obtain rfl := Option.some.inj hshape
    simp only [hkey, hknown, hfield, hfields]
    rfl

/-- A tag without attributes starts a record. -/
theorem readRecord_tag {name : TagName} {v : List (String × Value)} (h : Takes (readFields fields name.tag []) es v es') :
    Takes (readRecord fields name.tag) es v es' := by
  intro s hs
  obtain ⟨s₁, lt, hfields, h⟩ := h s hs
  refine ⟨s₁, lt, ?_, h⟩
  rw [readRecord, TagName.check_tag]
  exact hfields

/-- Elements without attributes are not marked as having no value. -/
theorem marksNil_tags (shape : Shape) (scope : Scope) (parent name : TagName) :
    (shape.admitsNil && (scope.marksNil parent.tag || scope.marksNil name.tag)) = false := by
  rw [TagName.marksNil_tag, TagName.marksNil_tag, Bool.or_self, Bool.and_false]

/-- A scalar is read as its value if it is what the field asks for. -/
theorem readField_scalar {parent name : TagName} {c : Scalar} {shape : Shape} (hfits : c.fits shape = true) :
    Takes (readField shape parent.tag name.tag) (.text c.said :: .close name.chars :: es) c.value es := by
  intro s h
  obtain ⟨s₁, lt, hcontent, h⟩ : Yields (s.content name.tag.name) c.said es := h.content
  refine ⟨s₁, Nat.le_of_lt lt, ?_, h⟩
  unfold Scalar.fits at hfits
  split at hfits
  · rw [readField]
    simp only [marksNil_tags]
    simp only [bind, Except.bind, hcontent]
    rfl
  · next i held =>
    have hparse : parseInteger (Scalar.integer i held).said = .ok i := parseInteger_decimal held
    rw [readField]
    simp only [marksNil_tags]
    simp only [bind, Except.bind, hcontent, hparse]
    rfl
  · next b =>
    have hparse := parseFlag_said b
    rw [readField]
    simp only [marksNil_tags]
    simp only [bind, Except.bind, hcontent, hparse]
    rfl
  · cases hfits

/-- The value of a field for a record is what the record is read as. -/
theorem readField_record {parent name : TagName} {title : String} {v : List (String × Value)}
    (h : Takes (readRecord fields name.tag) es v es') :
    Takes (readField (.record title fields) parent.tag name.tag) es (.record v) es' := by
  intro s hs
  obtain ⟨s₁, lt, hrecord, h⟩ := h s hs
  refine ⟨s₁, Nat.le_of_lt lt, ?_, h⟩
  rw [readField]
  simp only [marksNil_tags]
  simp only [bind, Except.bind, hrecord]
  rfl

/-- A list is read as its first item and the items after it. -/
theorem readField_list {parent name : TagName} {title : String} {v : List (String × Value)}
    {items : List (List (String × Value))} (hfirst : Takes (readRecord fields name.tag) es v es')
    (hitems : Takes (readItems title fields parent.chars name.chars []) es' items es'') :
    Takes (readField (.list title fields) parent.tag name.tag) es (.list (v :: items)) es'' := by
  intro s h
  obtain ⟨s₁, lt, hrecord, h⟩ := hfirst s h
  obtain ⟨s₂, le, hitems, h⟩ := hitems s₁ h
  have le' : s₂.size ≤ s.size := by
    have lt : s₁.size < s.size := lt
    have le : s₂.size ≤ [].length + s₁.size := le
    simp only [List.length_nil] at le
    omega
  refine ⟨s₂, le', ?_, h⟩
  have hitems : readItems title fields parent.tag.name name.tag.name [] s₁ = _ := hitems
  rw [readField]
  simp only [marksNil_tags]
  simp only [bind, Except.bind, hrecord, hitems]
  rfl

/-! ## Items -/

section Items

variable {title : String} {parent : List Char} {skipped : List Event} {items : List (List (String × Value))}

/-- What was found between the items is laid back in front of the end tag. -/
theorem readItems_close {name : List Char} (n : List Char) :
    Takes (readItems title fields parent name skipped) (.close n :: es) [] (skipped ++ .close n :: es) := by
  intro s h
  obtain ⟨s₁, lt, he, h⟩ := h.event?
  have hback := h.layBack (whole_concat skipped n)
  have le : (s₁.layBack (skipped ++ [.close n])).size ≤ skipped.length + s.size := by
    have lt : s₁.size < s.size := lt
    rw [EventStream.size_layBack, List.length_append, List.length_singleton]
    omega
  rw [List.append_assoc, List.singleton_append] at hback
  refine ⟨_, le, ?_, hback⟩
  rw [readItems, he]
  rfl

/-- An item of a list is read in front of those that follow it. -/
theorem readItems_item {name : TagName} {item : List (String × Value)}
    (hitem : Takes (readRecord fields name.tag) es item es')
    (hrest : Takes (readItems title fields parent name.chars skipped) es' items es'') :
    Takes (readItems title fields parent name.chars skipped) (.start name.tag :: es) (item :: items) es'' := by
  intro s h
  obtain ⟨s₁, lt, he, h⟩ := h.event?
  obtain ⟨s₂, lt', hrecord, h⟩ := hitem s₁ h
  obtain ⟨s₃, le, hitems, h⟩ := hrest s₂ h
  have le' : s₃.size ≤ skipped.length + s.size := by
    have lt : s₁.size < s.size := lt
    have lt' : s₂.size < s₁.size := lt'
    have le : s₃.size ≤ skipped.length + s₂.size := le
    omega
  refine ⟨s₃, le', ?_, h⟩
  have hname : (name.tag.name == name.chars) = true := beq_self_eq_true name.chars
  rw [readItems, he]
  simp only [bind, Except.bind]
  simp only [hname, hrecord, hitems]
  rfl

/-- An element of another name is kept to be laid back. -/
theorem readItems_other {name : List Char} {n : Node} (hname : (n.name.chars == name) = false)
    (hrest : Takes (readItems title fields parent name (skipped ++ n.spell events)) es items es') :
    Takes (readItems title fields parent name skipped) (n.spell events ++ es) items es' := by
  intro s h
  rw [spell_events] at h hrest
  obtain ⟨s₁, lt, he, h⟩ := h.event?
  obtain ⟨s₂, le, helement, h⟩ := h.inside
  obtain ⟨s₃, le', hitems, h⟩ := hrest s₂ h
  have le'' : s₃.size ≤ skipped.length + s.size := by
    have lt : s₁.size < s.size := lt
    have le : n.inside.length + s₂.size ≤ s₁.size := le
    have le' : s₃.size ≤ (skipped ++ .start n.name.tag :: n.inside).length + s₂.size := le'
    simp only [List.length_append, List.length_cons] at le'
    omega
  refine ⟨s₃, le'', ?_, h⟩
  have hname : (n.name.tag.name == name) = false := hname
  have helement : s₁.element n.name.tag.name 0 = _ := helement
  rw [readItems, he]
  simp only [bind, Except.bind]
  simp only [hname, helement, hitems]
  rfl

end Items

end FlowDiagram.Markup

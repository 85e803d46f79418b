import FlowDiagram.Proofs.ChartText

/-!
# What the outline of a node tells

A node is drawn as a label between the marks of an outline (`Kind.drawn`). Some outlines hold the marks of another with
further marks inside of them (`Outline.around`): a cylinder is a box with parentheses at the ends of its label. No label keeps
a bracket or a brace (`not_mem_plainLabel`), but it keeps parentheses and slashes, and brackets even become parentheses. So a
label can bring the further marks itself, and a box or a rounded node is then drawn as a node of another kind
(`Kind.Disguised`).

Main statement: nothing else can confuse two nodes. They are drawn alike just if they have the same outline and the same
label, or one of them is disguised as the other (`drawn_eq_iff`). That a node can be disguised at all is
`not_drawn_injective`.
-/

namespace FlowDiagram.Diagram

/-! ## What a label does not keep -/

/-- The characters that no label keeps. -/
def structural : List Char :=
  ['"', '[', ']', '\x7b', '\x7d', '<', '>']

/-- What stands in a label for a character holds none of these, whatever the character is. One that stands for itself is none
of the seven. -/
theorem not_mem_labelChars {x : Char} (hx : x ∈ structural) (c : Char) : x ∉ labelChars c := by
  unfold labelChars
  split
  case h_8 =>
    rw [List.mem_singleton]
    rintro rfl
    simp_all [structural]
  all_goals
    simp only [structural, List.mem_cons, List.not_mem_nil, or_false] at hx
    rcases hx with rfl | rfl | rfl | rfl | rfl | rfl | rfl <;> decide

/-- No label has a structural character, whatever it is made of. -/
theorem not_mem_plainLabel {x : Char} (hx : x ∈ structural) (label : String) : x ∉ (plainLabel label).toList := by
  rw [plainLabel, String.toList_ofList, List.mem_flatMap]
  rintro ⟨c, -, hc⟩
  exact not_mem_labelChars hx c hc

/-! ## Outlines inside of outlines -/

/-- The outline of a node with round ends. -/
def rounded : Outline :=
  ⟨"(", ")"⟩

namespace Outline

/-- An outline with further marks inside of its own. -/
def around (o : Outline) (opening closing : String) : Outline :=
  ⟨o.opening ++ opening, closing ++ o.closing⟩

/-- The marks that an outline has inside of those of another. -/
def added (o p : Outline) : String × String :=
  (String.ofList (p.opening.toList.drop o.opening.toList.length),
    String.ofList (p.closing.toList.take (p.closing.toList.length - o.closing.toList.length)))

/-- The marks that make another outline of an outline when a label has them at its ends. -/
def disguises (o : Outline) : List (String × String) :=
  if o = box then [("(", ")"), ("/", "/"), ("\\", "\\"), ("/", "\\"), ("\\", "/")]
  else if o = rounded then [("(", ")")]
  else []

/-- The marks that an outline has inside of those of another are the ones it was made with. -/
theorem added_around (o : Outline) (a b : String) : o.added (o.around a b) = (a, b) := by
  simp [added, around]

/-- An outline has another around it if it starts and ends with its marks. -/
theorem exists_around {o p : Outline} (hopening : o.opening.toList <+: p.opening.toList)
    (hclosing : o.closing.toList <:+ p.closing.toList) : ∃ a b, p = o.around a b := by
  obtain ⟨a, ha⟩ := hopening
  obtain ⟨b, hb⟩ := hclosing
  refine ⟨String.ofList a, String.ofList b, ?_⟩
  obtain ⟨opening, closing⟩ := p
  simp only [around, mk.injEq, ← String.toList_inj, String.toList_append, String.toList_ofList]
  exact ⟨ha.symm, hb.symm⟩

end Outline

end FlowDiagram.Diagram

namespace FlowDiagram.Kind

open Diagram

/-- No two outlines cross: one that opens with the marks of another and more does not close with fewer. -/
theorem outline_eq_of_crossing (j k : Kind) (hopening : j.outline.opening.toList <+: k.outline.opening.toList)
    (hclosing : k.outline.closing.toList <:+ j.outline.closing.toList) : j.outline = k.outline := by
  have hall : ∀ j ∈ all, ∀ k ∈ all, j.outline.opening.toList <+: k.outline.opening.toList →
      k.outline.closing.toList <:+ j.outline.closing.toList → j.outline = k.outline := by
    decide +kernel
  exact hall j j.mem_all k k.mem_all hopening hclosing

/-- The marks that an outline adds to another are some that a label can bring, or hold a character that no label keeps. -/
theorem mem_disguises_of_around {j k : Kind} {a b : String} (h : k.outline = j.outline.around a b) :
    j.outline = k.outline ∨ (a, b) ∈ j.outline.disguises ∨ ∃ x ∈ structural, x ∈ a.toList := by
  have hall : ∀ j ∈ all, ∀ k ∈ all,
      k.outline = j.outline.around (j.outline.added k.outline).1 (j.outline.added k.outline).2 →
        j.outline = k.outline ∨ j.outline.added k.outline ∈ j.outline.disguises ∨
          structural.any (j.outline.added k.outline).1.toList.contains = true := by
    decide +kernel
  have hadded : j.outline.added k.outline = (a, b) := by
    rw [h, Outline.added_around]
  have := hall j j.mem_all k k.mem_all
  rw [hadded] at this
  simpa only [List.any_eq_true, List.contains_iff_mem] using this h

/-! ## Nodes that are drawn alike -/

/-- A label in the outline of a kind. -/
def drawn (k : Kind) (label : String) : String :=
  k.outline.opening ++ plainLabel label ++ k.outline.closing

/-- A node that its label makes look like a node of another kind: at its ends the label has the marks that the other outline
adds, around the label of the other node. -/
def Disguised (j : Kind) (s : String) (k : Kind) (t : String) : Prop :=
  ∃ m ∈ j.outline.disguises, k.outline = j.outline.around m.1 m.2 ∧ plainLabel s = m.1 ++ plainLabel t ++ m.2

/-- The line of a node is its identifier and what is drawn. -/
theorem line_ofElement (o : DrawOptions) (e : Element) :
    (Node.ofElement o e).line = indent ++ identifier e.name ++ e.kind.drawn (e.shown o) := by
  simp only [Node.line, Node.ofElement, drawn, Element.shown, String.append_assoc]

/-- Inside of the marks that two outlines share, the label of the one holds what the other outline adds. -/
theorem drawn_eq_iff_of_around {j k : Kind} {a b : String} (h : k.outline = j.outline.around a b) (s t : String) :
    j.drawn s = k.drawn t ↔ plainLabel s = a ++ plainLabel t ++ b := by
  simp only [drawn, h, Outline.around, ← String.toList_inj, String.toList_append, List.append_assoc,
    List.append_cancel_left_eq]
  rw [← List.append_assoc a.toList, ← List.append_assoc _ b.toList, ← List.append_assoc, List.append_cancel_right_eq]

/-- Two nodes can be drawn alike only if the outline of one is around that of the other: no outline opens with more than another
and closes with less. -/
theorem around_of_drawn_eq {j k : Kind} {s t : String} (h : j.drawn s = k.drawn t) :
    (∃ a b, k.outline = j.outline.around a b) ∨ ∃ a b, j.outline = k.outline.around a b := by
  have hlist : j.outline.opening.toList ++ (plainLabel s).toList ++ j.outline.closing.toList =
      k.outline.opening.toList ++ (plainLabel t).toList ++ k.outline.closing.toList := by
    simpa [drawn] using congrArg String.toList h
  have hopening : j.outline.opening.toList <+: k.outline.opening.toList ∨
      k.outline.opening.toList <+: j.outline.opening.toList := by
    rw [List.append_assoc, List.append_assoc] at hlist
    exact List.prefix_or_prefix_of_prefix (List.prefix_append _ _) ⟨_, hlist.symm⟩
  have hclosing : j.outline.closing.toList <:+ k.outline.closing.toList ∨
      k.outline.closing.toList <:+ j.outline.closing.toList :=
    List.suffix_or_suffix_of_suffix (List.suffix_append _ _) ⟨_, hlist.symm⟩
  have hsame : j.outline = k.outline → ∃ a b, k.outline = j.outline.around a b := by
    intro heq
    rw [heq]
    exact Outline.exists_around List.prefix_rfl List.suffix_rfl
  rcases hopening with hopening | hopening <;> rcases hclosing with hclosing | hclosing
  · exact Or.inl (Outline.exists_around hopening hclosing)
  · exact Or.inl (hsame (outline_eq_of_crossing j k hopening hclosing))
  · exact Or.inl (hsame (outline_eq_of_crossing k j hopening hclosing).symm)
  · exact Or.inr (Outline.exists_around hopening hclosing)

/-- Where the outline of one node is around that of another and both are drawn alike, they are the same or the one is
disguised. -/
theorem same_or_disguised_of_around {j k : Kind} {a b s t : String} (hout : k.outline = j.outline.around a b)
    (h : j.drawn s = k.drawn t) :
    j.outline = k.outline ∧ plainLabel s = plainLabel t ∨ j.Disguised s k t := by
  have hlabel := (drawn_eq_iff_of_around hout s t).1 h
  rcases mem_disguises_of_around hout with heq | hmem | ⟨x, hx, hxa⟩
  · refine Or.inl ⟨heq, ?_⟩
    have hempty : k.outline = j.outline.around "" "" := by
      simp [← heq, Outline.around]
    simpa using (drawn_eq_iff_of_around hempty s t).1 h
  · exact Or.inr ⟨(a, b), hmem, hout, hlabel⟩
  · have hbracket : x ∈ (plainLabel s).toList := by
      simp [hlabel, hxa]
    exact absurd hbracket (not_mem_plainLabel hx s)

/-- A node that is disguised as another is drawn like it. -/
theorem Disguised.drawn_eq {j k : Kind} {s t : String} (h : j.Disguised s k t) : j.drawn s = k.drawn t := by
  obtain ⟨m, -, hout, hlabel⟩ := h
  exact (drawn_eq_iff_of_around hout s t).2 hlabel

/-- Two nodes are drawn alike just if they have the same outline and the same label, or one of them is disguised as the
other. Only a box and a rounded node can be disguised: a label brings the parentheses of a cylinder or of a circle, or the
slashes of a slanted box, and nothing else. -/
theorem drawn_eq_iff (j k : Kind) (s t : String) :
    j.drawn s = k.drawn t ↔
      j.outline = k.outline ∧ plainLabel s = plainLabel t ∨ j.Disguised s k t ∨ k.Disguised t j s := by
  constructor
  · intro h
    rcases around_of_drawn_eq h with ⟨a, b, hout⟩ | ⟨a, b, hout⟩
    · exact (same_or_disguised_of_around hout h).imp_right Or.inl
    · rcases same_or_disguised_of_around hout h.symm with ⟨hout, hlabel⟩ | hdisguised
      · exact Or.inl ⟨hout.symm, hlabel.symm⟩
      · exact Or.inr (Or.inr hdisguised)
  · rintro (⟨hout, hlabel⟩ | h | h)
    · rw [drawn, drawn, hout, hlabel]
    · exact h.drawn_eq
    · exact h.drawn_eq.symm

/-- A label can change the outline of its node: an assignment with a label in parentheses is drawn as the creation of a
record. -/
theorem not_drawn_injective :
    ¬∀ (j k : Kind) (s t : String), j.drawn s = k.drawn t → j.outline = k.outline ∧ plainLabel s = plainLabel t := by
  intro h
  have hdrawn : assignment.drawn "(x)" = recordCreate.drawn "x" := by decide
  exact absurd (h _ _ _ _ hdrawn).1 (by decide)

end FlowDiagram.Kind

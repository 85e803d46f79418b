/-!
# Cutting a text at a mark

`cut` finds the first place where a mark stands and gives the text on either side of it. Main statements: nothing but
the mark is lost (`eq_append_of_cut`), so what is left to read is shorter (`length_of_cut`).
-/

namespace FlowDiagram.Text

/-- The text before the first occurrence of a mark and the text after it, if the mark occurs. A mark has at least one
character. -/
def cut (mark : List Char) : List Char → Option (List Char × List Char)
  | [] => none
  | c :: r =>
    if mark.isPrefixOf (c :: r) then some ([], (c :: r).drop mark.length)
    else (cut mark r).map fun p => (c :: p.1, p.2)

/-- The two sides with the mark between them are the text. -/
theorem eq_append_of_cut {mark s a b : List Char} (h : cut mark s = some (a, b)) : s = a ++ (mark ++ b) := by
  induction s generalizing a with
  | nil => simp [cut] at h
  | cons c r ih =>
    rw [cut] at h
    split at h
    · next hp =>
      obtain ⟨t, ht⟩ := List.isPrefixOf_iff_prefix.1 hp
      simp only [Option.some.injEq, Prod.mk.injEq] at h
      obtain ⟨rfl, rfl⟩ := h
      simp [← ht]
    · obtain ⟨⟨a', b'⟩, hc, he⟩ := Option.map_eq_some_iff.1 h
      simp only [Prod.mk.injEq] at he
      obtain ⟨rfl, rfl⟩ := he
      rw [ih hc, List.cons_append]

/-- The mark is what the two sides are shorter by. -/
theorem length_of_cut {mark s a b : List Char} (h : cut mark s = some (a, b)) :
    s.length = a.length + (mark.length + b.length) := by
  rw [eq_append_of_cut h, List.length_append, List.length_append]

/-- What follows the mark is no longer than the text. -/
theorem length_le_of_cut {mark s a b : List Char} (h : cut mark s = some (a, b)) : b.length ≤ s.length := by
  rw [length_of_cut h]
  exact Nat.le_trans (Nat.le_add_left _ _) (Nat.le_add_left _ _)

end FlowDiagram.Text

/-!
# Blanks at the ends of a text

What counts as white space is a table of the Unicode standard: the property White_Space holds of 25 code points
(`isBlank`). A field of a flow is stored with these removed from both of its ends (`trim`), and a field of which nothing
is left is not stored at all (`nonblank`).

The ends of a list are cut by a predicate (`dropBoth`), so that the markup reader can cut its own smaller set of blanks
with the same function. Main statements: what is cut is cut for good (`dropBoth_dropBoth`), and what remains neither
starts nor ends with a blank (`head?_dropBoth`, `getLast?_dropBoth`).
-/

namespace FlowDiagram.Text

/-- The code points of the Unicode property White_Space. -/
def isBlank (c : Char) : Bool :=
  let n := c.toNat
  (9 ≤ n && n ≤ 13) || n == 0x20 || n == 0x85 || n == 0xA0 || n == 0x1680 || (0x2000 ≤ n && n ≤ 0x200A) ||
    n == 0x2028 || n == 0x2029 || n == 0x202F || n == 0x205F || n == 0x3000

/-- What remains after the elements of a class are cut from the end of a list. -/
def dropEnd {α : Type} (p : α → Bool) (s : List α) : List α :=
  (s.reverse.dropWhile p).reverse

/-- What remains after the elements of a class are cut from both ends of a list. -/
def dropBoth {α : Type} (p : α → Bool) (s : List α) : List α :=
  dropEnd p (s.dropWhile p)

/-- A text without the blanks at its ends. -/
def trim (s : String) : String :=
  String.ofList (dropBoth isBlank s.toList)

/-- A text without the blanks at its ends, or nothing if it holds only blanks. -/
def nonblank (s : String) : Option String :=
  let t := trim s
  if t.isEmpty then none else some t

/-- Where a list starts after the cut, it starts outside the class. -/
theorem head?_dropWhile {α : Type} {p : α → Bool} {s : List α} {x : α} (h : (s.dropWhile p).head? = some x) :
    p x = false := by
  induction s with
  | nil => simp at h
  | cons a r ih =>
    rw [List.dropWhile_cons] at h
    split at h
    · exact ih h
    · next hp =>
      simp only [List.head?_cons, Option.some.injEq] at h
      subst h
      simpa using hp

/-- A list that starts outside the class loses nothing at its start. -/
theorem dropWhile_of_head? {α : Type} {p : α → Bool} {s : List α} (h : ∀ x, s.head? = some x → p x = false) :
    s.dropWhile p = s := by
  cases s with
  | nil => rfl
  | cons a r => simp [h a rfl]

/-- What the class takes of a list ends where the first element outside the class follows. -/
theorem takeWhile_append_of_head? {α : Type} {p : α → Bool} {s r : List α} (hs : ∀ x ∈ s, p x = true)
    (hr : ∀ x, r.head? = some x → p x = false) : (s ++ r).takeWhile p = s := by
  rw [List.takeWhile_append_of_pos hs]
  cases r with
  | nil => exact List.append_nil s
  | cons a r => simp [hr a rfl]

/-- The end of a list after the cut is outside the class. -/
theorem getLast?_dropEnd {α : Type} {p : α → Bool} {s : List α} {x : α} (h : (dropEnd p s).getLast? = some x) :
    p x = false := by
  rw [dropEnd, List.getLast?_reverse] at h
  exact head?_dropWhile h

/-- A list that ends outside the class loses nothing at its end. -/
theorem dropEnd_of_getLast? {α : Type} {p : α → Bool} {s : List α} (h : ∀ x, s.getLast? = some x → p x = false) :
    dropEnd p s = s := by
  have hs : s.reverse.dropWhile p = s.reverse :=
    dropWhile_of_head? fun x hx => h x (by rwa [List.head?_reverse] at hx)
  rw [dropEnd, hs, List.reverse_reverse]

/-- Cutting the end leaves an initial part of the list. -/
theorem exists_dropEnd_append {α : Type} (p : α → Bool) (s : List α) : ∃ t, s = dropEnd p s ++ t :=
  ⟨(s.reverse.takeWhile p).reverse, by
    rw [dropEnd, ← List.reverse_append, List.takeWhile_append_dropWhile, List.reverse_reverse]⟩

/-- After both cuts a list starts outside the class. -/
theorem head?_dropBoth {α : Type} {p : α → Bool} {s : List α} {x : α} (h : (dropBoth p s).head? = some x) :
    p x = false := by
  obtain ⟨t, ht⟩ := exists_dropEnd_append p (s.dropWhile p)
  apply head?_dropWhile (s := s)
  rw [ht, List.head?_append]
  rw [dropBoth] at h
  simp [h]

/-- After both cuts a list ends outside the class. -/
theorem getLast?_dropBoth {α : Type} {p : α → Bool} {s : List α} {x : α} (h : (dropBoth p s).getLast? = some x) :
    p x = false :=
  getLast?_dropEnd h

/-- A list with neither end in the class is left as it is. -/
theorem dropBoth_of_ends {α : Type} {p : α → Bool} {s : List α} (hs : ∀ x, s.head? = some x → p x = false)
    (he : ∀ x, s.getLast? = some x → p x = false) : dropBoth p s = s := by
  rw [dropBoth, dropWhile_of_head? hs, dropEnd_of_getLast? he]

/-- What is cut is cut for good. -/
@[simp] theorem dropBoth_dropBoth {α : Type} (p : α → Bool) (s : List α) :
    dropBoth p (dropBoth p s) = dropBoth p s :=
  dropBoth_of_ends (fun _ => head?_dropBoth) (fun _ => getLast?_dropBoth)

/-- A trimmed text stays as it is when it is trimmed again. -/
@[simp] theorem trim_trim (s : String) : trim (trim s) = trim s := by
  simp [trim]

end FlowDiagram.Text

/-!
# Nested elements

Elements are nested if every start tag is closed by an end tag of its name and nothing else is closed (`Nested`). The same is said
by a walk over the tags with the names of the open elements, innermost first (`opened?`, `nested_iff`). `behind?` is what such a
walk leaves when it stops as soon as nothing is open any more.

Main statements: what is left behind an open element is what follows its end tag (`exists_of_behind?`); an end tag that is found
by counting the elements of its name is the one that the walk finds (`pastBorder_of_behind?`, `behind?_of_pastBorder`).
-/

namespace FlowDiagram.Markup

/-- Where an element starts or ends. -/
inductive Border where
  | opening (name : List Char)
  | closing (name : List Char)
  deriving DecidableEq, Repr

/-- Borders of elements that are closed in the order in which they were opened, the last first. -/
inductive Nested : List Border → Prop where
  | nil : Nested []
  | element (name : List Char) {inside later : List Border} (hinside : Nested inside) (hlater : Nested later) :
    Nested (.opening name :: (inside ++ .closing name :: later))

/-- The elements that are open behind a border. Only the innermost can be closed. -/
def Border.after? : List (List Char) → Border → Option (List (List Char))
  | opened, .opening name => some (name :: opened)
  | [], .closing _ => none
  | n :: opened, .closing name => if n = name then some opened else none

/-- The elements that are open behind some borders. -/
def opened? (opened : List (List Char)) (bs : List Border) : Option (List (List Char)) :=
  bs.foldlM Border.after? opened

/-- The borders that are left as soon as every open element is closed. -/
def behind? : List (List Char) → List Border → Option (List Border)
  | [], bs => some bs
  | _ :: _, [] => none
  | n :: opened, b :: bs => (b.after? (n :: opened)).bind (behind? · bs)

variable {name : List Char} {opened above : List (List Char)} {b : Border} {bs cs rest : List Border}

/-! ## Walking over nested elements -/

/-- An end tag closes the innermost of what is open. -/
theorem after?_closing {opened' : List (List Char)} (h : (Border.closing name).after? opened = some opened') :
    opened = name :: opened' := by
  cases opened with
  | nil => cases h
  | cons n opened =>
    rw [Border.after?] at h
    split at h
    · next hn => rw [hn, Option.some.inj h]
    · cases h

@[simp] theorem after?_closing_self : (Border.closing name).after? (name :: opened) = some opened :=
  if_pos rfl

/-- A border says nothing about elements that are open around the ones it is met in. -/
theorem after?_append {above' : List (List Char)} (h : b.after? above = some above') :
    b.after? (above ++ opened) = some (above' ++ opened) := by
  cases b with
  | opening name => exact Option.some.inj h ▸ rfl
  | closing name =>
    rw [after?_closing h]
    exact after?_closing_self

/-- Behind a border inside an element, what was open around the element is open still. -/
theorem exists_after?_of_append {opened' : List (List Char)} (h : b.after? (above ++ name :: opened) = some opened') :
    ∃ above', b.after? (above ++ [name]) = some above' ∧ opened' = above' ++ opened := by
  cases b with
  | opening n =>
    obtain rfl := Option.some.inj h
    exact ⟨n :: (above ++ [name]), rfl, by simp⟩
  | closing n =>
    have h := after?_closing h
    cases above with
    | nil =>
      obtain ⟨rfl, rfl⟩ := List.cons.inj h
      exact ⟨[], after?_closing_self, rfl⟩
    | cons m above =>
      obtain ⟨rfl, rfl⟩ := List.cons.inj h
      exact ⟨above ++ [name], after?_closing_self, by simp⟩

@[simp] theorem opened?_nil : opened? opened [] = some opened := rfl

@[simp] theorem opened?_cons : opened? opened (b :: bs) = (b.after? opened).bind (opened? · bs) :=
  List.foldlM_cons

/-- What is open behind some borders and some more is what the others leave open of what those leave open. -/
theorem opened?_append : opened? opened (bs ++ cs) = (opened? opened bs).bind (opened? · cs) :=
  List.foldlM_append

@[simp] theorem behind?_nil : behind? [] bs = some bs := by
  rw [behind?]

/-- Nested elements with nested elements behind them are nested. -/
theorem Nested.append (hbs : Nested bs) (hcs : Nested cs) : Nested (bs ++ cs) := by
  induction hbs with
  | nil => exact hcs
  | element name hinside _ _ ih =>
    rw [List.cons_append, List.append_assoc, List.cons_append]
    exact .element name hinside ih

/-- Nested elements leave open what was open. -/
theorem Nested.opened? (h : Nested bs) : opened? opened bs = some opened := by
  induction h generalizing opened with
  | nil => rfl
  | element name _ _ ihinside ihlater => simp [Border.after?, opened?_append, ihinside, ihlater]

/-- Nested elements are passed over where something is open around them. -/
theorem Nested.behind? {n : List Char} (h : Nested bs) : behind? (n :: opened) (bs ++ cs) = behind? (n :: opened) cs := by
  induction h generalizing n opened cs with
  | nil => rfl
  | element name _ _ ihinside ihlater =>
    rw [List.cons_append, List.append_assoc, List.cons_append]
    simp only [Markup.behind?, Border.after?, Option.bind_some]
    rw [ihinside]
    simp only [Markup.behind?, after?_closing_self, Option.bind_some]
    exact ihlater

/-- What is left behind an open element follows its end tag, and what it holds is nested. An element that is opened inside of it
is closed first. -/
theorem exists_of_behind? {n : List Char} {opened : List (List Char)} {bs : List Border}
    (h : behind? (n :: opened) bs = some rest) :
    ∃ inside later, bs = inside ++ .closing n :: later ∧ Nested inside ∧ behind? opened later = some rest := by
  match bs with
  | [] => cases h
  | .closing name :: bs =>
    obtain ⟨opened', ho, h⟩ := Option.bind_eq_some_iff.1 h
    obtain ⟨rfl, rfl⟩ := List.cons.inj (after?_closing ho)
    exact ⟨[], bs, rfl, .nil, h⟩
  | .opening name :: bs =>
    have h : behind? (name :: n :: opened) bs = some rest := h
    obtain ⟨child, bs', hbs, hchild, h⟩ := exists_of_behind? h
    have shorter : bs'.length < bs.length := by
      rw [hbs, List.length_append, List.length_cons]
      omega
    obtain ⟨inside, later, hbs', hinside, h⟩ := exists_of_behind? h
    refine ⟨.opening name :: (child ++ .closing name :: inside), later, ?_, .element name hchild hinside, h⟩
    rw [hbs, hbs', List.cons_append, List.append_assoc, List.cons_append]
termination_by bs.length

/-- A walk that closes everything passes the place where nothing is open for the first time. -/
theorem exists_behind?_of_opened? (h : opened? opened bs = some []) :
    ∃ rest, behind? opened bs = some rest ∧ opened? [] rest = some [] := by
  induction bs generalizing opened with
  | nil =>
    obtain rfl := Option.some.inj h
    exact ⟨[], rfl, rfl⟩
  | cons b bs ih =>
    cases opened with
    | nil => exact ⟨b :: bs, rfl, h⟩
    | cons n opened =>
      obtain ⟨opened', ho, h⟩ := Option.bind_eq_some_iff.1 (opened?_cons ▸ h)
      obtain ⟨rest, hrest, h⟩ := ih h
      exact ⟨rest, by rw [behind?, ho, Option.bind_some, hrest], h⟩

/-- Elements are nested if a walk over their borders never meets a wrong end tag and leaves nothing open. -/
theorem nested_of_opened? {bs : List Border} (h : opened? [] bs = some []) : Nested bs := by
  match bs with
  | [] => exact .nil
  | .closing _ :: _ => cases h
  | .opening name :: bs =>
    have h : opened? [name] bs = some [] := h
    obtain ⟨rest, hrest, h⟩ := exists_behind?_of_opened? h
    obtain ⟨inside, later, hbs, hinside, hlater⟩ := exists_of_behind? hrest
    obtain rfl : later = rest := Option.some.inj (behind?_nil.symm.trans hlater)
    have shorter : later.length < bs.length := by
      rw [hbs, List.length_append, List.length_cons]
      omega
    rw [hbs]
    exact .element name hinside (nested_of_opened? h)
termination_by bs.length

/-- Elements are nested exactly if a walk over their borders never meets a wrong end tag and leaves nothing open. -/
theorem nested_iff : Nested bs ↔ opened? [] bs = some [] :=
  ⟨Nested.opened?, nested_of_opened?⟩

instance : Decidable (Nested bs) :=
  decidable_of_iff _ nested_iff.symm

example : ¬Nested [.opening ['a'], .opening ['b'], .closing ['a'], .closing ['b']] := by
  decide

/-- What follows a nested element decides whether all is nested. -/
theorem nested_element_iff (h : Nested bs) : Nested (.opening name :: (bs ++ .closing name :: cs)) ↔ Nested cs := by
  rw [nested_iff, nested_iff]
  simp [Border.after?, opened?_append, h.opened?]

/-! ## Counting the elements of one name -/

/-- How many elements of a name are open behind a border, or nothing if it closes the outermost. -/
def Border.depth? (name : List Char) (depth : Nat) : Border → Option Nat
  | .opening n => some (if n == name then depth + 1 else depth)
  | .closing n =>
    if n == name then
      match depth with
      | 0 => none
      | depth + 1 => some depth
    else some depth

/-- The borders behind the one that closes an element of a name, found by counting the elements of that name. -/
def pastBorder (name : List Char) : Nat → List Border → Option (List Border)
  | _, [] => none
  | depth, b :: bs =>
    match b.depth? name depth with
    | none => some bs
    | some depth => pastBorder name depth bs

/-- An element is closed, or the count follows the elements of its name that are open inside it. -/
theorem depth?_of_after? {opened' : List (List Char)} (h : b.after? (above ++ name :: opened) = some opened') :
    (b.depth? name (above.count name) = none ∧ opened' = opened) ∨
      ∃ above', opened' = above' ++ name :: opened ∧ b.depth? name (above.count name) = some (above'.count name) := by
  cases b with
  | opening n =>
    obtain rfl := Option.some.inj h
    refine .inr ⟨n :: above, rfl, ?_⟩
    simp only [Border.depth?, List.count_cons]
    split <;> simp
  | closing n =>
    have h := after?_closing h
    cases above with
    | nil =>
      obtain ⟨rfl, rfl⟩ := List.cons.inj h
      exact .inl ⟨by simp [Border.depth?], rfl⟩
    | cons m above =>
      obtain ⟨rfl, rfl⟩ := List.cons.inj h
      refine .inr ⟨above, rfl, ?_⟩
      by_cases hn : m = name <;> simp [Border.depth?, hn]

/-- The end tag of an open element is found by counting. -/
theorem pastBorder_of_behind? (above : List (List Char)) (h : behind? (above ++ name :: opened) bs = some rest) :
    ∃ cs, pastBorder name (above.count name) bs = some cs ∧ behind? opened cs = some rest := by
  induction bs generalizing above with
  | nil => cases above <;> cases h
  | cons b bs ih =>
    obtain ⟨opened', ho, hrest⟩ :
        ∃ opened', b.after? (above ++ name :: opened) = some opened' ∧ behind? opened' bs = some rest := by
      cases above <;> exact Option.bind_eq_some_iff.1 h
    rw [pastBorder]
    rcases depth?_of_after? ho with ⟨hdepth, rfl⟩ | ⟨above', rfl, hdepth⟩
    · exact ⟨bs, by rw [hdepth], hrest⟩
    · rw [hdepth]
      exact ih above' hrest

/-- What is found by counting is the end tag of the open element, if there is no wrong end tag. -/
theorem behind?_of_pastBorder (above : List (List Char)) (hsome : (opened? (above ++ name :: opened) bs).isSome)
    (h : pastBorder name (above.count name) bs = some cs) :
    behind? (above ++ name :: opened) bs = behind? opened cs ∧ (opened? opened cs).isSome := by
  induction bs generalizing above with
  | nil => cases h
  | cons b bs ih =>
    obtain ⟨opened', ho, hrest⟩ :
        ∃ opened', b.after? (above ++ name :: opened) = some opened' ∧ (opened? opened' bs).isSome := by
      obtain ⟨last, hlast⟩ := Option.isSome_iff_exists.1 hsome
      obtain ⟨opened', ho, hlast⟩ := Option.bind_eq_some_iff.1 (opened?_cons ▸ hlast)
      exact ⟨opened', ho, by rw [hlast]; rfl⟩
    have hbehind : behind? (above ++ name :: opened) (b :: bs) = behind? opened' bs := by
      cases above <;> exact congrArg (·.bind (behind? · bs)) ho
    rw [pastBorder] at h
    rw [hbehind]
    rcases depth?_of_after? ho with ⟨hdepth, rfl⟩ | ⟨above', rfl, hdepth⟩
    · rw [hdepth] at h
      obtain rfl := Option.some.inj h
      exact ⟨rfl, hrest⟩
    · rw [hdepth] at h
      exact ih above' hrest h

end FlowDiagram.Markup

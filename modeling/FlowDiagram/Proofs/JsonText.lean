import FlowDiagram.Json.Basic
import FlowDiagram.Text.Blank

/-!
# What the text of a JSON value tells

A value is written so that its text can be told from what follows it, whatever that is, as long as no numeral goes on there
(`Ends`). The first character tells the form of a value (`form_eq_of_write_append_eq`). A text ends at the first quote that no
escape holds, a numeral with its last digit, and a list or an object where no comma follows.

Main statement: values have the same text only if they are the same, the fields of objects in order (`pretty_inj`).
-/

namespace FlowDiagram.Json

open FlowDiagram.Text

/-! ## Texts between quotes -/

/-- What an escape stands for, after its backslash, and what follows it. -/
def unescapeRest : List Char → Option (Char × List Char)
  | 'n' :: r => some ('\n', r)
  | 'r' :: r => some ('\r', r)
  | 't' :: r => some ('\t', r)
  | 'b' :: r => some ('\x08', r)
  | 'f' :: r => some ('\x0c', r)
  | 'u' :: _ :: _ :: a :: b :: r =>
    (digitValue? a).bind fun x => (digitValue? b).map fun y => (Char.ofNat (16 * x + y), r)
  | c :: r => some (c, r)
  | [] => none

/-- The character that an escaped text starts with, and what follows it. -/
def unescape : List Char → Option (Char × List Char)
  | '\\' :: r => unescapeRest r
  | c :: r => some (c, r)
  | [] => none

/-- A digit below sixteen is read back from the character that it is written as. -/
theorem digitValue?_digitChar {d : Nat} (h : d < 16) : digitValue? (digitChar .lower d) = some d := by
  have : ∀ d < 16, digitValue? (digitChar .lower d) = some d := by decide
  exact this d h

/-- Every character can be read back from how it is escaped, whatever follows. -/
theorem unescape_escape (c : Char) (r : List Char) : unescape (escape c ++ r) = some (c, r) := by
  unfold escape
  split
  case h_8 =>
    split
    · next hc =>
      have hvalue : 16 * (c.toNat / 16) + c.toNat % 16 = c.toNat := Nat.div_add_mod _ 16
      simp only [List.cons_append, List.nil_append, unescape, unescapeRest]
      rw [digitValue?_digitChar (by omega), digitValue?_digitChar (by omega), Option.bind_some, Option.map_some, hvalue,
        Char.ofNat_toNat]
    · rw [List.singleton_append, unescape]
      assumption
  all_goals rfl

/-- The escape of a character tells the character, whatever follows it. -/
theorem escape_append_inj {c d : Char} {r s : List Char} (h : escape c ++ r = escape d ++ s) : c = d ∧ r = s := by
  have hread := congrArg unescape h
  rw [unescape_escape, unescape_escape] at hread
  simpa using hread

/-- No escape starts with a quote. -/
theorem exists_escape (c : Char) : ∃ x r, escape c = x :: r ∧ x ≠ '"' := by
  unfold escape
  split
  case h_8 =>
    split
    · exact ⟨_, _, rfl, by decide⟩
    · exact ⟨_, _, rfl, by assumption⟩
  all_goals exact ⟨_, _, rfl, by decide⟩

/-- A text between quotes can be told from what follows it. -/
theorem quote_append_inj {s t r u : List Char} (h : quote s ++ r = quote t ++ u) : s = t ∧ r = u := by
  simp only [quote, List.cons_append, List.append_assoc, List.cons.injEq, true_and, List.nil_append] at h
  induction s generalizing t with
  | nil =>
    cases t with
    | nil => exact ⟨rfl, (List.cons.inj h).2⟩
    | cons d t =>
      obtain ⟨x, v, hx, hne⟩ := exists_escape d
      rw [List.flatMap_cons, hx] at h
      exact absurd (List.cons.inj h).1.symm hne
  | cons c s ih =>
    cases t with
    | nil =>
      obtain ⟨x, v, hx, hne⟩ := exists_escape c
      rw [List.flatMap_cons, hx] at h
      exact absurd (List.cons.inj h).1 hne
    | cons d t =>
      rw [List.flatMap_cons, List.flatMap_cons, List.append_assoc, List.append_assoc] at h
      obtain ⟨hfirst, hrest⟩ := escape_append_inj h
      obtain ⟨hlater, hend⟩ := ih hrest
      exact ⟨by rw [hfirst, hlater], hend⟩

/-! ## Numerals -/

/-- A character that a numeral can hold. -/
def isNumeralChar (c : Char) : Bool :=
  c.isDigit || c == '-'

/-- A text with which no numeral goes on. -/
def Ends (r : List Char) : Prop :=
  ∀ c ∈ r.head?, isNumeralChar c = false

theorem ends_nil : Ends [] :=
  fun _ h => nomatch h

/-- A numeral may be followed by a character that no numeral holds. -/
theorem ends_cons {c : Char} {r : List Char} (h : isNumeralChar c = false) : Ends (c :: r) := by
  intro d hd
  obtain rfl : c = d := Option.some.inj hd
  exact h

theorem decimal_ne_nil (i : Int) : decimal i ≠ [] := by
  unfold decimal
  split
  · exact List.cons_ne_nil _ _
  · exact natDecimal_ne_nil _

/-- A number is written with characters of numerals only. -/
theorem isNumeralChar_of_mem_decimal {i : Int} {c : Char} (hc : c ∈ decimal i) : isNumeralChar c = true := by
  have hdigit : ∀ d ∈ natDecimal i.natAbs, isNumeralChar d = true := by
    intro d hd
    rw [isNumeralChar, isDigit_of_mem_natDecimal hd, Bool.true_or]
  unfold decimal at hc
  split at hc
  · rcases List.mem_cons.mp hc with rfl | hc
    · rfl
    · exact hdigit c hc
  · exact hdigit c hc

/-- An integer can be told from a text with which it does not go on. -/
theorem decimal_append_inj {i j : Int} {r s : List Char} (hr : Ends r) (hs : Ends s)
    (h : decimal i ++ r = decimal j ++ s) : i = j ∧ r = s := by
  have hcut : ∀ {k : Int} {t : List Char}, Ends t → (decimal k ++ t).takeWhile isNumeralChar = decimal k :=
    fun ht => takeWhile_append_of_head? (fun _ => isNumeralChar_of_mem_decimal) ht
  have hsame : decimal i = decimal j := by
    rw [← hcut hr, h, hcut hs]
  have hread := congrArg readInt? hsame
  rw [readInt?_decimal, readInt?_decimal] at hread
  obtain rfl := Option.some.inj hread
  exact ⟨rfl, List.append_cancel_left h⟩

/-! ## Values -/

/-- The forms of values. -/
inductive Form where
  | null
  | bool
  | int
  | str
  | arr
  | obj
  deriving DecidableEq

/-- The form of a value. -/
def form : Json → Form
  | null => .null
  | bool _ => .bool
  | int _ => .int
  | str _ => .str
  | arr _ => .arr
  | obj _ => .obj

/-- The form of the values that start with a character. -/
def formOf (c : Char) : Form :=
  match c with
  | 'n' => .null
  | 't' => .bool
  | 'f' => .bool
  | '"' => .str
  | '[' => .arr
  | '\x7b' => .obj
  | _ => .int

/-- A character that a numeral holds starts no value but a number. -/
theorem formOf_of_isNumeralChar {c : Char} (h : isNumeralChar c = true) : formOf c = .int := by
  unfold formOf
  split
  case h_7 => rfl
  all_goals exact absurd h (by decide)

/-- The first character of a text tells the form of its value. -/
theorem exists_write (a : Json) (depth : Nat) : ∃ c r, a.write depth = c :: r ∧ formOf c = a.form := by
  cases a with
  | null => exact ⟨'n', ['u', 'l', 'l'], rfl, rfl⟩
  | bool b =>
    cases b with
    | false => exact ⟨'f', ['a', 'l', 's', 'e'], rfl, rfl⟩
    | true => exact ⟨'t', ['r', 'u', 'e'], rfl, rfl⟩
  | int i =>
    obtain ⟨c, r, hc⟩ := List.exists_cons_of_ne_nil (decimal_ne_nil i)
    exact ⟨c, r, by rw [write, hc], formOf_of_isNumeralChar (isNumeralChar_of_mem_decimal (hc ▸ List.mem_cons_self))⟩
  | str s =>
    rw [write]
    exact ⟨'"', _, rfl, rfl⟩
  | arr xs =>
    cases xs <;> exact ⟨'[', _, by rw [write], rfl⟩
  | obj fs =>
    cases fs <;> exact ⟨'\x7b', _, by rw [write], rfl⟩

/-- Values that are written alike, whatever follows them, have the same form: values of different forms start with different
characters. -/
theorem form_eq_of_write_append_eq {a b : Json} {depth : Nat} {r s : List Char}
    (h : a.write depth ++ r = b.write depth ++ s) : a.form = b.form := by
  obtain ⟨c, t, hc, hform⟩ := a.exists_write depth
  obtain ⟨d, u, hd, hform'⟩ := b.exists_write depth
  rw [hc, hd] at h
  rw [← hform, ← hform', (List.cons.inj h).1]

/-- Where the items of a list are written, no numeral goes on: a comma or the line of the bracket follows. -/
theorem ends_writeItems (depth : Nat) (xs : List Json) {r : List Char} (hr : Ends r) : Ends (writeItems depth xs ++ r) := by
  cases xs with
  | nil => exact hr
  | cons x xs =>
    rw [writeItems]
    exact ends_cons rfl

/-- Where the fields of an object are written, no numeral goes on: a comma or the line of the bracket follows. -/
theorem ends_writeFields (depth : Nat) (fs : List (String × Json)) {r : List Char} (hr : Ends r) :
    Ends (writeFields depth fs ++ r) := by
  cases fs with
  | nil => exact hr
  | cons f fs =>
    rw [writeFields]
    exact ends_cons rfl

mutual

/-- The text of a value can be told from what follows it, and tells the value. Its first character tells the form, so that only
values of one form have to be compared. The items of a list are compared by what they are written as after a comma, and so
are the fields of an object. -/
theorem write_append_inj {a b : Json} {depth : Nat} {r s : List Char} (hr : Ends r) (hs : Ends s)
    (h : a.write depth ++ r = b.write depth ++ s) : a = b ∧ r = s := by
  have hform := form_eq_of_write_append_eq h
  match a, b, hform with
  | null, null, _ => exact ⟨rfl, List.append_cancel_left h⟩
  | bool x, bool y, _ =>
    cases x <;> cases y
    case false.false => exact ⟨rfl, List.append_cancel_left h⟩
    case true.true => exact ⟨rfl, List.append_cancel_left h⟩
    all_goals exact absurd (List.cons.inj h).1 (by decide)
  | int i, int j, _ =>
    rw [write, write] at h
    obtain ⟨rfl, hrest⟩ := decimal_append_inj hr hs h
    exact ⟨rfl, hrest⟩
  | str t, str u, _ =>
    rw [write, write] at h
    obtain ⟨htext, hrest⟩ := quote_append_inj h
    exact ⟨by rw [String.toList_inj.mp htext], hrest⟩
  | arr [], arr [], _ => exact ⟨rfl, List.append_cancel_left h⟩
  | arr [], arr (y :: ys), _ =>
    rw [write, write] at h
    exact absurd (List.cons.inj (List.cons.inj h).2).1 (by decide)
  | arr (x :: xs), arr [], _ =>
    rw [write, write] at h
    exact absurd (List.cons.inj (List.cons.inj h).2).1 (by decide)
  | arr (x :: xs), arr (y :: ys), _ =>
    rw [write, write] at h
    simp only [List.cons_append, List.append_assoc, List.nil_append, List.cons.injEq, true_and] at h
    have hitems : writeItems (depth + 1) (x :: xs) ++ (newline depth ++ ']' :: r) =
        writeItems (depth + 1) (y :: ys) ++ (newline depth ++ ']' :: s) := by
      simp only [writeItems, List.cons_append, List.append_assoc, h]
    obtain ⟨hsame, hrest⟩ := writeItems_append_inj hitems
    exact ⟨by rw [hsame], (List.cons.inj (List.append_cancel_left hrest)).2⟩
  | obj [], obj [], _ => exact ⟨rfl, List.append_cancel_left h⟩
  | obj [], obj ((l, w) :: gs), _ =>
    rw [write, write] at h
    exact absurd (List.cons.inj (List.cons.inj h).2).1 (by decide)
  | obj ((k, v) :: fs), obj [], _ =>
    rw [write, write] at h
    exact absurd (List.cons.inj (List.cons.inj h).2).1 (by decide)
  | obj ((k, v) :: fs), obj ((l, w) :: gs), _ =>
    rw [write, write] at h
    simp only [List.cons_append, List.append_assoc, List.nil_append, List.cons.injEq, true_and] at h
    have hfields : writeFields (depth + 1) ((k, v) :: fs) ++ (newline depth ++ '\x7d' :: r) =
        writeFields (depth + 1) ((l, w) :: gs) ++ (newline depth ++ '\x7d' :: s) := by
      simp only [writeFields, List.cons_append, List.append_assoc, List.nil_append, h]
    obtain ⟨hsame, hrest⟩ := writeFields_append_inj hfields
    exact ⟨by rw [hsame], (List.cons.inj (List.append_cancel_left hrest)).2⟩

/-- The items of a list are told by their text up to the line of the bracket, where no comma stands. -/
theorem writeItems_append_inj {xs ys : List Json} {depth : Nat} {r s : List Char}
    (h : writeItems depth xs ++ '\n' :: r = writeItems depth ys ++ '\n' :: s) : xs = ys ∧ r = s := by
  match xs, ys with
  | [], [] => exact ⟨rfl, (List.cons.inj h).2⟩
  | [], y :: ys =>
    rw [writeItems, writeItems] at h
    exact absurd (List.cons.inj h).1 (by decide)
  | x :: xs, [] =>
    rw [writeItems, writeItems] at h
    exact absurd (List.cons.inj h).1 (by decide)
  | x :: xs, y :: ys =>
    rw [writeItems, writeItems] at h
    simp only [List.cons_append, List.append_assoc, List.cons.injEq, true_and, List.append_cancel_left_eq] at h
    have hline : ∀ t, Ends ('\n' :: t) := fun t => ends_cons rfl
    obtain ⟨rfl, hitems⟩ := write_append_inj (ends_writeItems _ xs (hline r)) (ends_writeItems _ ys (hline s)) h
    obtain ⟨rfl, hrest⟩ := writeItems_append_inj hitems
    exact ⟨rfl, hrest⟩

/-- The fields of an object are told by their text up to the line of the bracket, where no comma stands. -/
theorem writeFields_append_inj {fs gs : List (String × Json)} {depth : Nat} {r s : List Char}
    (h : writeFields depth fs ++ '\n' :: r = writeFields depth gs ++ '\n' :: s) : fs = gs ∧ r = s := by
  match fs, gs with
  | [], [] => exact ⟨rfl, (List.cons.inj h).2⟩
  | [], (l, w) :: gs =>
    rw [writeFields, writeFields] at h
    exact absurd (List.cons.inj h).1 (by decide)
  | (k, v) :: fs, [] =>
    rw [writeFields, writeFields] at h
    exact absurd (List.cons.inj h).1 (by decide)
  | (k, v) :: fs, (l, w) :: gs =>
    rw [writeFields, writeFields] at h
    simp only [List.cons_append, List.append_assoc, List.nil_append, List.cons.injEq, true_and,
      List.append_cancel_left_eq] at h
    have hline : ∀ t, Ends ('\n' :: t) := fun t => ends_cons rfl
    obtain ⟨hkey, hvalue⟩ := quote_append_inj h
    obtain rfl := String.toList_inj.mp hkey
    simp only [List.cons.injEq, true_and] at hvalue
    obtain ⟨rfl, hfields⟩ := write_append_inj (ends_writeFields _ fs (hline r)) (ends_writeFields _ gs (hline s)) hvalue
    obtain ⟨rfl, hrest⟩ := writeFields_append_inj hfields
    exact ⟨rfl, hrest⟩

end

/-- Values have the same text only if they are the same. -/
theorem pretty_inj {a b : Json} : a.pretty = b.pretty ↔ a = b := by
  constructor
  · intro h
    have htext : a.write 0 ++ [] = b.write 0 ++ [] := by
      rw [List.append_nil, List.append_nil, String.ofList_inj.mp h]
    exact (write_append_inj ends_nil ends_nil htext).1
  · rintro rfl
    rfl

end FlowDiagram.Json

/-!
# Numerals

Natural numbers written in a base with no leading zeros (`digits`), read back by Horner's rule (`value`), and integers
in decimal with a minus sign (`decimal`). Main statements: what is written reads back, digit by digit (`value_digits`) and as
an integer (`readInt?_decimal`).
-/

namespace FlowDiagram.Text

/-- The digits of a number, most significant first. A base below two has no positions, so there the number is its own
only digit. -/
def digits (base n : Nat) : List Nat :=
  if n < base ∨ base < 2 then [n] else digits base (n / base) ++ [n % base]
termination_by n
decreasing_by exact Nat.div_lt_self (by omega) (by omega)

/-- The number that a list of digits stands for. -/
def value (base : Nat) (ds : List Nat) : Nat :=
  ds.foldl (fun n d => n * base + d) 0

/-- One more digit at the end multiplies what the digits stand for by the base and adds the digit. -/
theorem value_append_singleton (base : Nat) (ds : List Nat) (d : Nat) :
    value base (ds ++ [d]) = value base ds * base + d := by
  simp [value]

/-- The digits of a number stand for it. -/
theorem value_digits (base n : Nat) : value base (digits base n) = n := by
  induction n using Nat.strongRecOn with
  | ind n ih =>
    unfold digits
    split
    · simp [value]
    · next h =>
      rw [value_append_singleton, ih _ (Nat.div_lt_self (by omega) (by omega))]
      exact Nat.div_add_mod' n base

/-- No digit reaches the base. -/
theorem lt_of_mem_digits {base n d : Nat} (hb : 2 ≤ base) (h : d ∈ digits base n) : d < base := by
  induction n using Nat.strongRecOn with
  | ind n ih =>
    unfold digits at h
    split at h
    · simp at h
      omega
    · rcases List.mem_append.1 h with h | h
      · exact ih _ (Nat.div_lt_self (by omega) (by omega)) h
      · have : d = n % base := by simpa using h
        exact this ▸ Nat.mod_lt _ (by omega)

/-- The letter case of the digits above nine. -/
inductive LetterCase where
  | lower
  | upper
  deriving DecidableEq, Repr

/-- The character of a digit below sixteen. -/
def digitChar (letters : LetterCase) (d : Nat) : Char :=
  if d < 10 then Char.ofNat (48 + d)
  else match letters with
    | .lower => Char.ofNat (87 + d)
    | .upper => Char.ofNat (55 + d)

/-- The digit that a character stands for, in either letter case. -/
def digitValue? (c : Char) : Option Nat :=
  let n := c.toNat
  if 48 ≤ n ∧ n ≤ 57 then some (n - 48)
  else if 97 ≤ n ∧ n ≤ 102 then some (n - 87)
  else if 65 ≤ n ∧ n ≤ 70 then some (n - 55)
  else none

/-- A natural number in decimal. -/
def natDecimal (n : Nat) : List Char :=
  (digits 10 n).map (digitChar .lower)

/-- A number in hexadecimal. -/
def hexadecimal (letters : LetterCase) (n : Nat) : List Char :=
  (digits 16 n).map (digitChar letters)

/-- An integer in decimal. -/
def decimal (i : Int) : List Char :=
  if i < 0 then '-' :: natDecimal i.natAbs else natDecimal i.natAbs

/-- A run of decimal digits as a number. -/
def readNat? (s : List Char) : Option Nat :=
  if s.isEmpty ∨ s.any (fun c => !c.isDigit) then none
  else some (value 10 (s.map fun c => c.toNat - 48))

/-- An integer in decimal: a sign or none, then digits. -/
def readInt? : List Char → Option Int
  | '-' :: ds => (readNat? ds).map fun n => -(n : Int)
  | '+' :: ds => (readNat? ds).map fun n => (n : Int)
  | ds => (readNat? ds).map fun n => (n : Int)

/-- A number has at least one digit. -/
theorem digits_ne_nil (base n : Nat) : digits base n ≠ [] := by
  unfold digits
  split <;> simp

/-- A natural number has a decimal digit. -/
theorem natDecimal_ne_nil (n : Nat) : natDecimal n ≠ [] :=
  fun h => digits_ne_nil 10 n (List.map_eq_nil_iff.mp h)

/-- A natural number is written in decimal digits and nothing else. -/
theorem isDigit_of_mem_natDecimal {n : Nat} {c : Char} (hc : c ∈ natDecimal n) : c.isDigit = true := by
  have hdigit : ∀ d < 10, (digitChar .lower d).isDigit = true := by decide
  obtain ⟨d, hd, rfl⟩ := List.mem_map.mp hc
  exact hdigit d (lt_of_mem_digits (by decide) hd)

/-- A natural number reads back from its decimal form. -/
theorem readNat?_natDecimal (n : Nat) : readNat? (natDecimal n) = some n := by
  have hdigit : ∀ d < 10, (digitChar .lower d).toNat - 48 = d := by decide
  have hdigits : (natDecimal n).map (fun c => c.toNat - 48) = digits 10 n := by
    rw [natDecimal, List.map_map]
    exact (List.map_congr_left fun d hd => hdigit d (lt_of_mem_digits (by decide) hd)).trans (List.map_id _)
  have hany : (natDecimal n).any (fun c => !c.isDigit) = false :=
    List.any_eq_false.2 fun c hc => by simp [isDigit_of_mem_natDecimal hc]
  rw [readNat?, List.isEmpty_eq_false_iff.2 (natDecimal_ne_nil n), hany, hdigits, value_digits]
  rfl

/-- An integer reads back from its decimal form. -/
theorem readInt?_decimal (i : Int) : readInt? (decimal i) = some i := by
  unfold decimal
  split
  · next h =>
    have hi : -(i.natAbs : Int) = i := by omega
    rw [readInt?, readNat?_natDecimal]
    exact congrArg some hi
  · next h =>
    obtain ⟨c, t, hct⟩ := List.exists_cons_of_ne_nil (natDecimal_ne_nil i.natAbs)
    have hc : c.isDigit = true := isDigit_of_mem_natDecimal (hct ▸ List.mem_cons_self)
    have hread : readInt? (natDecimal i.natAbs) = (readNat? (natDecimal i.natAbs)).map fun n => (n : Int) := by
      rw [hct]
      unfold readInt?
      split
      · next h => exact absurd ((List.cons.inj h).1 ▸ hc) (by decide)
      · next h => exact absurd ((List.cons.inj h).1 ▸ hc) (by decide)
      · rfl
    have hi : (i.natAbs : Int) = i := by omega
    rw [hread, readNat?_natDecimal]
    exact congrArg some hi

end FlowDiagram.Text

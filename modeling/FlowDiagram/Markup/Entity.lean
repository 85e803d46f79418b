import FlowDiagram.Markup.Fault
import FlowDiagram.Text.Blank

/-!
# Entities

A text may name a character instead of holding it: by one of five names (`named?`) or by code point (`charRef`).
`resolve` replaces each name by its character.
-/

namespace FlowDiagram.Markup

open FlowDiagram.Text

/-- The characters that have names of their own. -/
def named? (name : List Char) : Option Char :=
  match String.ofList name with
  | "lt" => some '<'
  | "gt" => some '>'
  | "amp" => some '&'
  | "apos" => some '\''
  | "quot" => some '"'
  | _ => none

/-- The number that a code point may not reach while it is read: it has to fit into 32 bits. -/
def codeLimit : Nat := 4294967296

/-- Reads the digits of a code point after those that gave `n`. -/
def readCode (base : Nat) (n : Nat) : List Char → Except CharRefFault Nat
  | [] => .ok n
  | c :: r =>
    match digitValue? c with
    | none => .error .notDigit
    | some d =>
      if base ≤ d then .error .notDigit
      else if codeLimit ≤ n * base + d then .error .tooLarge
      else readCode base (n * base + d) r

/-- The character of a reference, which is what stands after `#`: decimal digits, or `x` and hexadecimal digits. -/
def charRef (t : List Char) : Except CharRefFault Char :=
  let (base, ds) := match t with
    | 'x' :: r => (16, r)
    | r => (10, r)
  match ds with
  | [] => .error .empty
  | c :: _ =>
    if c == '+' || c == '-' then .error .signed
    else match readCode base 0 ds with
    | .error f => .error f
    | .ok n =>
      if n = 0 then .error .zero
      else if n.isValidChar then .ok (Char.ofNat n)
      else .error (.notScalar n)

/-- The character that a name between ampersand and semicolon stands for. The range is where the name was found. -/
def entity (first last : Nat) (name : List Char) : Except Fault Char :=
  match name with
  | '#' :: r => (charRef r).mapError .charRef
  | name =>
    match named? name with
    | some c => .ok c
    | none => .error (.entityUnknown first last name)

/-- A character that does not end the name of an entity. -/
def isEntityChar (c : Char) : Bool :=
  c != '&' && c != ';'

/-- The characters that the last part of a text of `size` bytes stands for. -/
def resolveFrom (size : Nat) (s : List Char) : Except Fault (List Char) :=
  match s with
  | [] => .ok []
  | c :: r =>
    if c == '&' then
      match h : r.dropWhile isEntityChar with
      | ';' :: rest => do
        have : (';' :: rest).length ≤ r.length := h ▸ (List.dropWhile_sublist isEntityChar).length_le
        let d ← entity (size - byteLength r) (size - byteLength (';' :: rest)) (r.takeWhile isEntityChar)
        let more ← resolveFrom size rest
        return d :: more
      | _ => .error (.entityUnclosed (size - byteLength (c :: r)) size)
    else do
      let more ← resolveFrom size r
      return c :: more
termination_by s.length
decreasing_by
  · simp only [List.length_cons] at *
    omega
  · exact Nat.lt_succ_self _

/-- The characters that a text stands for. -/
def resolve (s : List Char) : Except Fault (List Char) :=
  resolveFrom (byteLength s) s

end FlowDiagram.Markup

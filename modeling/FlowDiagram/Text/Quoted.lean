import FlowDiagram.Text.Numeral
import FlowDiagram.Text.Printable

/-!
# Texts quoted in messages

A message shows a text it speaks about in one of two quoted forms. `quoted` keeps every printable character, escapes the
quote, the backslash and the usual control characters, and writes the rest by code point. `quotedBytes` is the form for
raw markup: it works byte by byte and writes every byte outside printable ASCII in hexadecimal.
-/

namespace FlowDiagram.Text

/-- The number of bytes a text takes in UTF-8. -/
def byteLength : List Char → Nat
  | [] => 0
  | c :: r => c.utf8Size + byteLength r

/-- How one character stands in a quoted text. -/
def escapeQuoted (c : Char) : List Char :=
  match c with
  | '"' => ['\\', '"']
  | '\\' => ['\\', '\\']
  | '\n' => ['\\', 'n']
  | '\r' => ['\\', 'r']
  | '\t' => ['\\', 't']
  | '\x00' => ['\\', '0']
  | c => if isPrintable c then [c] else ['\\', 'u', '{'] ++ hexadecimal .lower c.toNat ++ ['}']

/-- A text in double quotes, with what cannot be shown written by code point. -/
def quoted (s : List Char) : String :=
  String.ofList ('"' :: (s.flatMap escapeQuoted ++ ['"']))

/-- How one byte stands in the byte form. -/
def escapeByte (b : Nat) : List Char :=
  if b = 34 then ['\\', '"']
  else if 32 ≤ b ∧ b ≤ 126 then [Char.ofNat b]
  else '0' :: 'x' :: hexadecimal .upper b

/-- A text in double quotes, byte by byte, with the bytes outside printable ASCII in hexadecimal. -/
def quotedBytes (s : List Char) : String :=
  let bytes := s.flatMap fun c => (String.utf8EncodeChar c).map UInt8.toNat
  String.ofList ('"' :: (bytes.flatMap escapeByte ++ ['"']))

end FlowDiagram.Text

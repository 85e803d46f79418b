import FlowDiagram.Text.Numeral

/-!
# JSON values and their text

`Json.pretty` writes a value with every item of a list and every field of an object on a line of its own, two blanks
deeper than what holds it. Fields are written in the order in which they are listed.
-/

namespace FlowDiagram

/-- A JSON value. The numbers are whole. -/
inductive Json where
  | null
  | bool (b : Bool)
  | int (i : Int)
  | str (s : String)
  | arr (items : List Json)
  | obj (fields : List (String × Json))

namespace Json

/-- A text, or null if there is none. -/
def ofOption : Option String → Json
  | none => null
  | some s => str s

/-- How a character stands in a text between quotes. -/
def escape (c : Char) : List Char :=
  match c with
  | '"' => ['\\', '"']
  | '\\' => ['\\', '\\']
  | '\n' => ['\\', 'n']
  | '\r' => ['\\', 'r']
  | '\t' => ['\\', 't']
  | '\x08' => ['\\', 'b']
  | '\x0c' => ['\\', 'f']
  | c =>
    if c.toNat < 0x20 then
      ['\\', 'u', '0', '0', Text.digitChar .lower (c.toNat / 16), Text.digitChar .lower (c.toNat % 16)]
    else [c]

/-- A text between quotes. -/
def quote (s : List Char) : List Char :=
  '"' :: (s.flatMap escape ++ ['"'])

/-- A new line with the blanks of its depth. -/
def newline (depth : Nat) : List Char :=
  '\n' :: List.replicate (2 * depth) ' '

mutual

/-- Writes a value whose first line is at some depth. -/
def write (depth : Nat) : Json → List Char
  | null => "null".toList
  | bool true => "true".toList
  | bool false => "false".toList
  | int i => Text.decimal i
  | str s => quote s.toList
  | arr [] => ['[', ']']
  | arr (x :: xs) =>
    '[' :: (newline (depth + 1) ++ x.write (depth + 1) ++ writeItems (depth + 1) xs ++ newline depth ++ [']'])
  | obj [] => ['\x7b', '\x7d']
  | obj ((k, v) :: fs) =>
    '\x7b' :: (newline (depth + 1) ++ quote k.toList ++ [':', ' '] ++ v.write (depth + 1) ++
      writeFields (depth + 1) fs ++ newline depth ++ ['\x7d'])

/-- Writes the items of a list after the first. -/
def writeItems (depth : Nat) : List Json → List Char
  | [] => []
  | x :: xs => ',' :: (newline depth ++ x.write depth ++ writeItems depth xs)

/-- Writes the fields of an object after the first. -/
def writeFields (depth : Nat) : List (String × Json) → List Char
  | [] => []
  | (k, v) :: fs =>
    ',' :: (newline depth ++ quote k.toList ++ [':', ' '] ++ v.write depth ++ writeFields depth fs)

end

/-- A value as a text. -/
def pretty (j : Json) : String :=
  String.ofList (j.write 0)

end Json

end FlowDiagram

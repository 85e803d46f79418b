import FlowDiagram.Markup.Entity
import FlowDiagram.Markup.Scope
import FlowDiagram.Markup.Token

/-!
# Reading tokens one ahead

A reader holds the next token and what is behind it (`Reader`). It has always looked one token further than it has given
out, so that it knows whether a text goes on; a fault that it sees there counts only once that token is asked for.
Comments and instructions are passed over and do not interrupt a text.

`Reader.event?` gives the next start tag, end tag or whole text. Every step that gives something leaves less to read
(`Reader.size`).
-/

namespace FlowDiagram.Markup

open FlowDiagram.Text

/-- What an element is made of. -/
inductive Event where
  | start (t : Tag)
  | close (name : List Char)
  | text (t : List Char)
  deriving DecidableEq, Repr

/-- What stands next: a token, a fault, or the end of the input. -/
inductive Ahead where
  | token (t : Token)
  | fault (f : Fault)
  | finished
  deriving DecidableEq, Repr

/-- A reader: the token it has looked at, the tokens and the fault behind it, the namespaces in force, and whether the
token it has looked at belongs to a text. -/
structure Reader where
  ahead : Ahead
  tokens : List Token
  fault : Option Fault
  scope : Scope
  inText : Bool
  deriving DecidableEq, Repr

/-- How much there is to read. -/
def Reader.size (r : Reader) : Nat :=
  r.tokens.length + match r.ahead with
    | .token _ => 1
    | _ => 0

/-- Looks at the next token that says something. Blanks at the start of a text are dropped, and with them a text that is
nothing else. -/
def Reader.look (fault : Option Fault) (scope : Scope) (inText : Bool) : List Token → Reader
  | [] => ⟨match fault with
      | some f => .fault f
      | none => .finished, [], fault, scope.settle, inText⟩
  | .comment :: ts => look fault scope.settle inText ts
  | .instruction :: ts => look fault scope.settle inText ts
  | .text s :: ts =>
    let s := if inText then s else s.dropWhile isSpace
    if s.isEmpty then look fault scope.settle inText ts
    else ⟨.token (.text s), ts, fault, scope.settle, true⟩
  | .cdata s :: ts => ⟨.token (.cdata s), ts, fault, scope.settle, true⟩
  | .doctype :: ts => ⟨.token .doctype, ts, fault, scope.settle, false⟩
  | .close name :: ts => ⟨.token (.close name), ts, fault, scope.settle.leave, false⟩
  | .start t :: ts =>
    match scope.settle.enter t with
    | .error f => ⟨.fault f, ts, fault, scope.settle, inText⟩
    | .ok scope => ⟨.token (.start t), ts, fault, scope, false⟩

/-- A reader that looks at tokens has no more to read than these. -/
theorem Reader.size_look (fault : Option Fault) (scope : Scope) (inText : Bool) (ts : List Token) :
    (Reader.look fault scope inText ts).size ≤ ts.length := by
  fun_induction Reader.look fault scope inText ts with
  | case1 => cases fault <;> simp [Reader.size]
  | case2 _ _ ih | case3 _ _ ih => exact Nat.le_succ_of_le ih
  | case4 _ _ _ _ _ ih => exact Nat.le_succ_of_le ih
  | _ => simp [Reader.size]

/-- The reader at the start of a document. -/
def Reader.ofTokens (ts : Tokens) : Reader :=
  Reader.look ts.fault .outermost false ts.list

/-- Moves on by one token. -/
def Reader.advance (r : Reader) : Reader :=
  Reader.look r.fault r.scope r.inText r.tokens

/-- A reader with a token ahead has less to read when it goes on. -/
theorem Reader.size_advance {r : Reader} {t : Token} (h : r.ahead = .token t) : r.advance.size < r.size := by
  have := Reader.size_look r.fault r.scope r.inText r.tokens
  simp only [Reader.advance, Reader.size, h] at *
  omega

/-- Whether the next token belongs to a text. -/
def Reader.textAhead (r : Reader) : Bool :=
  match r.ahead with
  | .token (.text _) => true
  | .token (.cdata _) => true
  | _ => false

/-- The text that starts with the next token, up to the first token that does not belong to it. Blanks at its end are
dropped, and entities resolved, except in what is quoted as character data. -/
def Reader.text (r : Reader) : Except Fault { x : List Char × Reader // x.2.size ≤ r.size } :=
  match h : r.ahead with
  | .token (.text s) => do
    have shorter := Reader.size_advance h
    let s ← resolve (if r.advance.textAhead then s else dropEnd isSpace s)
    let ⟨(more, rest), le⟩ ← r.advance.text
    return ⟨(s ++ more, rest), Nat.le_of_lt (Nat.lt_of_le_of_lt le shorter)⟩
  | .token (.cdata s) => do
    have shorter := Reader.size_advance h
    let ⟨(more, rest), le⟩ ← r.advance.text
    return ⟨(s ++ more, rest), Nat.le_of_lt (Nat.lt_of_le_of_lt le shorter)⟩
  | _ => .ok ⟨([], r), Nat.le_refl _⟩
termination_by r.size

/-- What a step from a reader gives, if there is something to give: a value and a reader with less to read. -/
abbrev Reader.Step (r : Reader) (α : Type) :=
  Option { x : α × Reader // x.2.size < r.size }

/-- A step from a later reader is one from an earlier reader. -/
def Reader.Step.weaken {r s : Reader} {α : Type} (h : s.size ≤ r.size) : s.Step α → r.Step α
  | none => none
  | some ⟨x, lt⟩ => some ⟨x, Nat.lt_of_lt_of_le lt h⟩

/-- The next event, or nothing at the end of the input. -/
def Reader.event? (r : Reader) : Except Fault (r.Step Event) :=
  match h : r.ahead with
  | .fault f => .error f
  | .finished => .ok none
  | .token t =>
    have shorter := Reader.size_advance h
    match t with
    | .start t => .ok (some ⟨(.start t, r.advance), shorter⟩)
    | .close name => .ok (some ⟨(.close name, r.advance), shorter⟩)
    | .cdata s => do
      let ⟨(more, rest), le⟩ ← r.advance.text
      return some ⟨(.text (s ++ more), rest), Nat.lt_of_le_of_lt le shorter⟩
    | .text s =>
      if r.advance.textAhead then do
        let s ← resolve s
        let ⟨(more, rest), le⟩ ← r.advance.text
        return some ⟨(.text (s ++ more), rest), Nat.lt_of_le_of_lt le shorter⟩
      else
        let s := dropEnd isSpace s
        if s.isEmpty then do
          let step ← r.advance.event?
          return step.weaken (Nat.le_of_lt shorter)
        else do
          let s ← resolve s
          return some ⟨(.text s, r.advance), shorter⟩
    | _ => do
      let step ← r.advance.event?
      return step.weaken (Nat.le_of_lt shorter)
termination_by r.size

/-- The tokens after the end tag of an element that is open, with `depth` more elements of its name open inside it. -/
def pastClose (name : List Char) : Nat → List Token → Option (List Token)
  | _, [] => none
  | depth, .start t :: ts => pastClose name (if t.name == name then depth + 1 else depth) ts
  | depth, .close n :: ts =>
    if n == name then
      match depth with
      | 0 => some ts
      | depth + 1 => pastClose name depth ts
    else pastClose name depth ts
  | depth, _ :: ts => pastClose name depth ts

/-- Behind the end tag of an element there are no more tokens than in front of it. -/
theorem length_pastClose {name : List Char} {depth : Nat} {ts rest : List Token}
    (h : pastClose name depth ts = some rest) : rest.length ≤ ts.length := by
  fun_induction pastClose name depth ts with
  | case1 => simp at h
  | case3 => simp_all
  | case2 _ _ _ ih | case4 _ _ _ _ ih | case5 _ _ _ _ ih | case6 _ _ _ _ _ ih => exact Nat.le_succ_of_le (ih h)

/-- Moves past the end tag of the innermost open element without looking at what it holds: its texts are not resolved
and its namespaces not followed. -/
def Reader.skipElement (r : Reader) (name : List Char) : Except Fault { s : Reader // s.size ≤ r.size } :=
  let passed (depth : Nat) : Except Fault { s : Reader // s.size ≤ r.size } :=
    match h : pastClose name depth r.tokens with
    | none => .error (r.fault.getD (.unfinished name))
    | some ts => .ok ⟨Reader.look r.fault r.scope r.inText ts, by
        have := length_pastClose h
        have := Reader.size_look r.fault r.scope r.inText ts
        have : r.tokens.length ≤ r.size := Nat.le_add_right _ _
        omega⟩
  match h : r.ahead with
  | .fault f => .error f
  | .token (.close n) => if n == name then .ok ⟨r.advance, Nat.le_of_lt (Reader.size_advance h)⟩ else passed 0
  | .token (.start t) => passed (if t.name == name then 1 else 0)
  | _ => passed 0

end FlowDiagram.Markup

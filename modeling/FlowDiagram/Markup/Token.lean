import FlowDiagram.Markup.Tag

/-!
# Tokens

A document is cut into tokens in one pass, and end tags are matched with start tags in a second. Each pass stops at the
first thing it cannot accept, so a document is a list of tokens and perhaps the fault that stands after them (`Tokens`).
A tag that is closed at once becomes a start token and an end token.
-/

namespace FlowDiagram.Markup

open FlowDiagram.Text

/-- A token. What a comment, an instruction or a document type says is of no use here. -/
inductive Token where
  | text (t : List Char)
  | start (t : Tag)
  | close (name : List Char)
  | cdata (t : List Char)
  | comment
  | instruction
  | doctype
  deriving DecidableEq, Repr

/-- Tokens and what stops them before the end of the input. -/
structure Tokens where
  list : List Token
  fault : Option Fault
  deriving DecidableEq, Repr

/-- The body of a tag and what follows its closing bracket. A bracket between quotes does not close the tag. -/
def cutTag : Option Char → List Char → Option (List Char × List Char)
  | _, [] => none
  | some q, c :: r => (cutTag (if c == q then none else some q) r).map fun p => (c :: p.1, p.2)
  | none, c :: r =>
    if c == '>' then some ([], r)
    else (cutTag (if c == '"' || c == '\'' then some c else none) r).map fun p => (c :: p.1, p.2)

/-- The body of a declaration and what follows its closing bracket. Brackets inside it nest. -/
def cutNested : Nat → List Char → Option (List Char × List Char)
  | _, [] => none
  | n, c :: r =>
    if c == '>' then
      match n with
      | 0 => some ([], r)
      | n + 1 => (cutNested n r).map fun p => (c :: p.1, p.2)
    else (cutNested (if c == '<' then n + 1 else n) r).map fun p => (c :: p.1, p.2)

/-- What follows a tag is shorter than the text that the tag is cut from. -/
theorem length_of_cutTag {q : Option Char} {s a b : List Char} (h : cutTag q s = some (a, b)) :
    b.length < s.length := by
  fun_induction cutTag q s generalizing a b with
  | case1 => simp at h
  | case2 q c r ih =>
    obtain ⟨p, hp, he⟩ := Option.map_eq_some_iff.1 h
    obtain ⟨rfl, rfl⟩ := Prod.mk.inj he
    exact Nat.lt_succ_of_lt (ih hp)
  | case3 c r hc =>
    obtain ⟨rfl, rfl⟩ := Prod.mk.inj (Option.some.inj h)
    exact Nat.lt_succ_self _
  | case4 c r hc ih =>
    obtain ⟨p, hp, he⟩ := Option.map_eq_some_iff.1 h
    obtain ⟨rfl, rfl⟩ := Prod.mk.inj he
    exact Nat.lt_succ_of_lt (ih hp)

/-- What follows a declaration is shorter than the text that the declaration is cut from. -/
theorem length_of_cutNested {n : Nat} {s a b : List Char} (h : cutNested n s = some (a, b)) :
    b.length < s.length := by
  fun_induction cutNested n s generalizing a b with
  | case1 => simp at h
  | case2 c r hc =>
    obtain ⟨rfl, rfl⟩ := Prod.mk.inj (Option.some.inj h)
    exact Nat.lt_succ_self _
  | case3 c r hc n ih =>
    obtain ⟨p, hp, he⟩ := Option.map_eq_some_iff.1 h
    obtain ⟨rfl, rfl⟩ := Prod.mk.inj he
    exact Nat.lt_succ_of_lt (ih hp)
  | case4 n c r hc ih =>
    obtain ⟨p, hp, he⟩ := Option.map_eq_some_iff.1 h
    obtain ⟨rfl, rfl⟩ := Prod.mk.inj he
    exact Nat.lt_succ_of_lt (ih hp)

/-- The tokens of a tag: an end tag, a tag that is closed at once, or a start tag. Blanks after the name of an end tag
do not belong to it, unless there is nothing else. -/
def tagTokens (body : List Char) : List Token :=
  match body with
  | '/' :: name =>
    let trimmed := dropEnd isSpace name
    [.close (if trimmed.isEmpty then name else trimmed)]
  | body =>
    if body.getLast? == some '/' then
      let t := Tag.ofBody body.dropLast
      [.start t, .close t.name]
    else [.start (Tag.ofBody body)]

/-- What the scanner gives for one piece of markup: its tokens and a rest that is shorter than `n`. -/
abbrev Scanned (n : Nat) :=
  Except Fault { r : List Token × List Char // r.2.length < n }

/-- Reads up to a closing mark, or reports the construct as unclosed. -/
def scanTo (c : Construct) (mark r : List Char) (token : List Char → Token) : Scanned (r.length + 1) :=
  match h : cut mark r with
  | none => .error (.unclosed c)
  | some (body, rest) => .ok ⟨([token body], rest), Nat.lt_succ_of_le (length_le_of_cut h)⟩

/-- The letters that a document type declaration starts with, in any case. -/
def isDoctype (body : List Char) : Bool :=
  (body.take 7).map Char.toUpper == "DOCTYPE".toList

/-- Reads the document type declaration that stands after `<!`. -/
def scanDoctype (r : List Char) : Scanned (r.length + 1) :=
  match h : cutNested 0 r with
  | none => .error (.unclosed .doctype)
  | some (body, rest) =>
    if !isDoctype body then .error (.unclosed .doctype)
    else if ((body.drop 7).dropWhile isSpace).isEmpty then .error .doctypeUnnamed
    else .ok ⟨([.doctype], rest), Nat.lt_succ_of_lt (length_of_cutNested h)⟩

/-- Weakens the bound on the rest. -/
def Scanned.weaken {n m : Nat} (h : n ≤ m) : Scanned n → Scanned m
  | .error f => .error f
  | .ok r => .ok ⟨r.1, Nat.lt_of_lt_of_le r.2 h⟩

/-- Reads the comment, section or declaration that stands after `<!`. -/
def scanDeclaration (r : List Char) : Scanned (r.length + 1) :=
  match r with
  | '-' :: '-' :: s =>
    (scanTo .comment "-->".toList s fun _ => .comment).weaken (by simp only [List.length_cons]; omega)
  | '-' :: _ => .error (.unclosed .comment)
  | '[' :: 'C' :: 'D' :: 'A' :: 'T' :: 'A' :: '[' :: s =>
    (scanTo .cdata "]]>".toList s .cdata).weaken (by simp only [List.length_cons]; omega)
  | '[' :: _ => .error (.unclosed .cdata)
  | c :: s => if c == 'D' || c == 'd' then scanDoctype (c :: s) else .error .unknownMarkup
  | [] => .error .unknownMarkup

/-- Reads the markup that stands after `<`. -/
def scanMarkup (r : List Char) : Scanned (r.length + 1) :=
  match r with
  | [] => .error (.unclosed .tag)
  | '!' :: s => (scanDeclaration s).weaken (by simp only [List.length_cons]; omega)
  | '?' :: '>' :: _ => .error (.unclosed .instruction)
  | '?' :: s =>
    (scanTo .instruction "?>".toList s fun _ => .instruction).weaken (by simp only [List.length_cons]; omega)
  | r =>
    match h : cutTag none r with
    | none => .error (.unclosed .tag)
    | some (body, rest) => .ok ⟨(tagTokens body, rest), Nat.lt_succ_of_lt (length_of_cutTag h)⟩

/-- Cuts a text into tokens. -/
def scan (s : List Char) : Tokens :=
  match s with
  | [] => ⟨[], none⟩
  | c :: r =>
    if c == '<' then
      match scanMarkup r with
      | .error f => ⟨[], some f⟩
      | .ok ⟨(tokens, rest), shorter⟩ =>
        have : rest.length < (c :: r).length := shorter
        let more := scan rest
        ⟨tokens ++ more.list, more.fault⟩
    else
      let more := scan (r.dropWhile (· != '<'))
      ⟨.text (c :: r.takeWhile (· != '<')) :: more.list, more.fault⟩
termination_by s.length
decreasing_by
  · assumption
  · exact Nat.lt_succ_of_le (length_dropWhile_le _ _)

/-- Matches end tags with the names of the elements that are open, innermost first, up to the first that does not
match. -/
def balance (fault : Option Fault) : List (List Char) → List Token → Tokens
  | _, [] => ⟨[], fault⟩
  | opened, .start t :: r =>
    let more := balance fault (t.name :: opened) r
    ⟨.start t :: more.list, more.fault⟩
  | [], .close name :: _ => ⟨[], some (.unopened name)⟩
  | expected :: opened, .close name :: r =>
    if name == expected then
      let more := balance fault opened r
      ⟨.close name :: more.list, more.fault⟩
    else ⟨[], some (.crossed expected name)⟩
  | opened, t :: r =>
    let more := balance fault opened r
    ⟨t :: more.list, more.fault⟩

/-- The tokens of a document. A byte order mark at its start is not part of it. -/
def Tokens.ofText (s : List Char) : Tokens :=
  let body := match s with
    | '\uFEFF' :: r => r
    | r => r
  let scanned := scan body
  balance scanned.fault [] scanned.list

end FlowDiagram.Markup

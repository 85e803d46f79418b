import FlowDiagram.Document.Reading
import FlowDiagram.Proofs.Markup.Records

/-!
# What a written document is read as

What a flow document says can be read off its elements: a field of a block is what the element of that name holds, and a list
has what the elements of its name hold, in the order of the document and whatever stands between them (`Document.ofElements`).
The blocks read from values are those read off the elements (`Agree`, one theorem for each kind of field and each block). Main
statement: reading the text of a flow document gives what its elements say (`Document.read_written`).
-/

namespace FlowDiagram

open Markup

/-! ## Blocks from elements -/

/-- The elements that an element holds. -/
abbrev Elements := List Markup.Node

namespace Elements

/-- The elements of a name, in order. -/
def named (ns : Elements) (key : String) : Elements :=
  ns.filter (·.key == key)

/-- The scalar under a name. -/
def scalar? (ns : Elements) (key : String) : Option Scalar :=
  match ns.named key with
  | .leaf _ _ c :: _ => some c
  | _ => none

/-- The text under a name. -/
def text? (ns : Elements) (key : String) : Option String :=
  match ns.scalar? key with
  | some (.text t) => some (String.ofList t.chars)
  | _ => none

/-- The number under a name. -/
def integer? (ns : Elements) (key : String) : Option Int :=
  match ns.scalar? key with
  | some (.integer i _) => some i
  | _ => none

/-- The flag under a name, which is off if there is none. -/
def flag (ns : Elements) (key : String) : Bool :=
  match ns.scalar? key with
  | some (.flag b) => b
  | _ => false

/-- What the element of a name holds. -/
def record? (ns : Elements) (key : String) : Option Elements :=
  (ns.named key).head?.map (·.children)

/-- What the elements of a name hold, one after the other. -/
def list (ns : Elements) (key : String) : List Elements :=
  (ns.named key).map (·.children)

end Elements

/-- The transition that elements describe. -/
def Jump.ofElements (ns : Elements) : Jump where
  target := ns.text? "targetReference"

/-- The value that elements describe, in each way in which it is written. -/
def Literal.ofElements (ns : Elements) : Literal where
  string := ns.text? "stringValue"
  number := ns.text? "numberValue"
  boolean := ns.text? "booleanValue"
  date := ns.text? "dateValue"
  dateTime := ns.text? "dateTimeValue"
  reference := ns.text? "elementReference"

/-- The condition that elements describe. -/
def ConditionBlock.ofElements (ns : Elements) : ConditionBlock where
  left := ns.text? "leftValueReference"
  operator := ns.text? "operator"
  right := (ns.record? "rightValue").map Literal.ofElements

/-- The rule that elements describe. -/
def RuleBlock.ofElements (ns : Elements) : RuleBlock where
  name := ns.text? "name"
  label := ns.text? "label"
  logic := ns.text? "conditionLogic"
  conditions := (ns.list "conditions").map ConditionBlock.ofElements
  connector := (ns.record? "connector").map Jump.ofElements

/-- The wait event that elements describe. -/
def WaitBlock.ofElements (ns : Elements) : WaitBlock where
  name := ns.text? "name"
  label := ns.text? "label"
  eventType := ns.text? "eventType"
  logic := ns.text? "conditionLogic"
  conditions := (ns.list "conditions").map ConditionBlock.ofElements
  connector := (ns.record? "connector").map Jump.ofElements

/-- The path that elements describe. -/
def PathBlock.ofElements (ns : Elements) : PathBlock where
  name := ns.text? "name"
  label := ns.text? "label"
  offset := ns.integer? "offsetNumber"
  offsetUnit := ns.text? "offsetUnit"
  timeSource := ns.text? "timeSource"
  pathType := ns.text? "pathType"
  connector := (ns.record? "connector").map Jump.ofElements

/-- The start that elements describe. -/
def StartBlock.ofElements (ns : Elements) : StartBlock where
  connector := (ns.record? "connector").map Jump.ofElements
  scheduledPaths := (ns.list "scheduledPaths").map PathBlock.ofElements
  triggerType := ns.text? "triggerType"
  object := ns.text? "object"
  recordTriggerType := ns.text? "recordTriggerType"

/-- The step that elements describe. -/
def StepBlock.ofElements (ns : Elements) : StepBlock where
  name := ns.text? "name"
  label := ns.text? "label"
  description := ns.text? "description"
  next := (ns.record? "connector").map Jump.ofElements
  onFault := (ns.record? "faultConnector").map Jump.ofElements
  byDefault := (ns.record? "defaultConnector").map Jump.ofElements
  defaultLabel := ns.text? "defaultConnectorLabel"
  rules := (ns.list "rules").map RuleBlock.ofElements
  waitEvents := (ns.list "waitEvents").map WaitBlock.ofElements
  eachItem := (ns.record? "nextValueConnector").map Jump.ofElements
  afterLast := (ns.record? "noMoreValuesConnector").map Jump.ofElements

/-- The variable that elements describe. -/
def VariableBlock.ofElements (ns : Elements) : VariableBlock where
  name := ns.text? "name"
  dataType := ns.text? "dataType"
  objectType := ns.text? "objectType"
  description := ns.text? "description"
  isInput := ns.flag "isInput"
  isOutput := ns.flag "isOutput"
  isCollection := ns.flag "isCollection"

/-- What a flow document says: the texts of its fields, and under each tag the blocks of that tag in order. -/
def Document.ofElements (ns : Elements) : Document where
  label := ns.text? "label"
  description := ns.text? "description"
  processType := ns.text? "processType"
  status := ns.text? "status"
  start := (ns.record? "start").map StartBlock.ofElements
  startReference := ns.text? "startElementReference"
  vars := (ns.list "variables").map VariableBlock.ofElements
  steps := fun t => (ns.list t.name).map StepBlock.ofElements

/-! ## Values of elements -/

/-- In a list that pairs keys with what a function gives for them, a key is found with its own, if it is there. -/
theorem lookup_map_pair {α : Type} (f : String → α) (keys : List String) (key : String) :
    (keys.map fun k => (k, f k)).lookup key = if key ∈ keys then some (f key) else none := by
  induction keys with
  | nil => rfl
  | cons k keys ih =>
    rw [List.map_cons, List.lookup_cons, ih]
    by_cases hk : key = k
    · simp [hk]
    · simp [hk, beq_eq_false_iff_ne.2 hk]

/-- There are no values of a key just if nothing stands under it. -/
theorem valuesOf_eq_nil_iff {vs : List (String × Value)} {key : String} :
    valuesOf vs key = [] ↔ key ∉ vs.map (·.1) := by
  rw [valuesOf, List.map_eq_nil_iff, List.filter_eq_nil_iff, List.mem_map]
  constructor
  · rintro h ⟨p, hp, rfl⟩
    exact h p hp (beq_self_eq_true _)
  · intro h p hp hkey
    exact h ⟨p, hp, by simpa using hkey⟩

/-- What is under a key of values brought together. -/
theorem lookup_gather (vs : List (String × Value)) (key : String) :
    (gather vs).lookup key = if valuesOf vs key = [] then none else some (.join (valuesOf vs key)) := by
  rw [gather, lookup_map_pair fun key => Value.join (valuesOf vs key)]
  split
  · next h => rw [if_neg fun hnil => valuesOf_eq_nil_iff.1 hnil (List.mem_eraseDups.mp h)]
  · next h => rw [if_pos (valuesOf_eq_nil_iff.2 (mt List.mem_eraseDups.mpr h))]

section Agreement

variable {fields : List (String × Shape)} {key : String} {ns : Elements}

/-- A field without elements is missing. -/
theorem lookup_of_named_nil {shape : Shape} (hshape : fields.lookup key = some shape) (h : ns.named key = []) :
    (gather (Node.values fields ns)).lookup key = none := by
  have hvalues : valuesOf (Node.values fields ns) key = [] := by
    rw [valuesOf_values hshape]
    exact List.map_eq_nil_iff.2 h
  rw [lookup_gather, if_pos hvalues]

/-- A field with one element has its value. -/
theorem lookup_of_named_singleton {shape : Shape} {n : Markup.Node} (hshape : fields.lookup key = some shape)
    (h : ns.named key = [n]) : (gather (Node.values fields ns)).lookup key = some (n.value shape) := by
  have hvalues : valuesOf (Node.values fields ns) key = [n.value shape] := by
    rw [valuesOf_values hshape]
    exact congrArg (List.map (·.value shape)) h
  rw [lookup_gather, hvalues, if_neg (List.cons_ne_nil _ _), join_singleton]

/-- A field that is no list has at most one element. -/
theorem named_of_once {shape : Shape} (hshape : fields.lookup key = some shape) (hlist : shape.isList = false)
    (hfit : Node.allFit fields ns = true) : ns.named key = [] ∨ ∃ n, ns.named key = [n] ∧ n.fits shape = true := by
  induction ns with
  | nil => exact .inl rfl
  | cons n ns ih =>
    obtain ⟨hsome, -, hns⟩ := allFit_cons hfit
    by_cases hkey : n.key = key
    · subst hkey
      obtain ⟨hfits, honce⟩ := hsome shape hshape
      have honce := honce.resolve_left (by simp [hlist])
      refine .inr ⟨n, ?_, hfits⟩
      rw [Elements.named, List.filter_cons_of_pos (by simp), filter_key_eq_nil honce]
    · rw [Elements.named, List.filter_cons_of_neg (by simpa using hkey)]
      exact ih hns

/-- Under the name of a field that holds a scalar stands the value of that scalar. -/
theorem lookup_scalar {shape : Shape} (hshape : fields.lookup key = some shape) (hscalar : shape.isScalar = true)
    (hfit : Node.allFit fields ns = true) :
    (gather (Node.values fields ns)).lookup key = (ns.scalar? key).map Scalar.value := by
  have hlist : shape.isList = false := by cases shape <;> simp [Shape.isScalar, Shape.isList] at *
  rw [Elements.scalar?]
  obtain hnil | ⟨n, hn, hfits⟩ := named_of_once hshape hlist hfit
  · rw [hnil, lookup_of_named_nil hshape hnil]
    rfl
  · rw [hn, lookup_of_named_singleton hshape hn]
    cases n with
    | leaf gap name content => rfl
    | branch gap name children last => cases shape <;> simp [Shape.isScalar, Node.fits] at *

/-- Something that can be said of values and of elements is the same of both, for all elements that are what a record asks
for. -/
def Agree {α : Type} (fields : List (String × Shape)) (f : FieldValues → α) (g : Elements → α) : Prop :=
  ∀ ns : Elements, Node.allFit fields ns = true → f (gather (Node.values fields ns)) = g ns

/-- A text is the same read from values and off elements; so with the other kinds of fields. -/
theorem agree_text (hshape : fields.lookup key = some .text) : Agree fields (·.text? key) (·.text? key) := by
  intro ns hfit
  dsimp only
  rw [FieldValues.text?, Elements.text?, lookup_scalar hshape rfl hfit]
  rcases ns.scalar? key with _ | ⟨_ | _ | _⟩ <;> rfl

/-- The number of a field is the one that the element of its name holds. -/
theorem agree_integer (hshape : fields.lookup key = some .integer) : Agree fields (·.integer? key) (·.integer? key) := by
  intro ns hfit
  dsimp only
  rw [FieldValues.integer?, Elements.integer?, lookup_scalar hshape rfl hfit]
  rcases ns.scalar? key with _ | ⟨_ | _ | _⟩ <;> rfl

/-- The flag of a field is the one that the element of its name holds. -/
theorem agree_flag (hshape : fields.lookup key = some .flag) : Agree fields (·.flag key) (·.flag key) := by
  intro ns hfit
  dsimp only
  rw [FieldValues.flag, Elements.flag, lookup_scalar hshape rfl hfit]
  rcases ns.scalar? key with _ | ⟨_ | _ | _⟩ <;> rfl

/-- The record of a field agrees with what the element of its name holds if the two are made from the same fields. -/
theorem agree_record {α : Type} {title : String} {fields' : List (String × Shape)} {f : FieldValues → α}
    {g : Elements → α} (hshape : fields.lookup key = some (.record title fields')) (h : Agree fields' f g) :
    Agree fields (fun fs => (fs.record? key).map f) (fun ns => (ns.record? key).map g) := by
  intro ns hfit
  dsimp only
  rw [FieldValues.record?, Elements.record?]
  obtain hnil | ⟨n, hn, hfits⟩ := named_of_once hshape rfl hfit
  · rw [hnil, lookup_of_named_nil hshape hnil]
    rfl
  · rw [hn, lookup_of_named_singleton hshape hn]
    cases n with
    | leaf gap name content => cases content <;> simp [Node.fits, Scalar.fits] at hfits
    | branch gap name children last => exact congrArg some (h children hfits)

/-- The items of a field agree with what the elements of its name hold, one by one and in order. -/
theorem agree_list {α : Type} {title : String} {fields' : List (String × Shape)} {f : FieldValues → α}
    {g : Elements → α} (hshape : fields.lookup key = some (.list title fields')) (h : Agree fields' f g) :
    Agree fields (fun fs => (fs.list key).map f) (fun ns => (ns.list key).map g) := by
  intro ns hfit
  have hitem : ∀ n ∈ ns.named key, n.value (.list title fields') = .list [gather (Node.values fields' n.children)] ∧
      f (gather (Node.values fields' n.children)) = g n.children := by
    intro n hn
    obtain ⟨hmem, hkey⟩ := List.mem_filter.mp hn
    have hkey : n.key = key := by simpa using hkey
    obtain ⟨gap, name, children, last, rfl, hchildren⟩ := allFit_of_fits_list (fits_of_mem hfit hmem (hkey ▸ hshape))
    exact ⟨rfl, h children hchildren⟩
  have hvalues : valuesOf (Node.values fields ns) key =
      (ns.named key).map fun n => .list [gather (Node.values fields' n.children)] := by
    rw [valuesOf_values hshape]
    exact List.map_congr_left fun n hn => (hitem n hn).1
  have hlist : FieldValues.list (gather (Node.values fields ns)) key =
      (ns.named key).map fun n => gather (Node.values fields' n.children) := by
    rw [FieldValues.list, lookup_gather, hvalues]
    cases ns.named key with
    | nil => rfl
    | cons n more => rw [List.map_cons, join_lists, if_neg (List.cons_ne_nil _ _)]; rfl
  dsimp only
  rw [hlist, Elements.list, List.map_map, List.map_map]
  exact List.map_congr_left fun n hn => (hitem n hn).2

end Agreement

/-! ## Blocks

Field by field, the blocks made of values are those made of elements. -/

/-- A transition read from values is the one that the elements describe; so with the other blocks. -/
theorem Jump.agree : Agree Jump.shape.fields Jump.ofFields Jump.ofElements := by
  intro ns hfit
  rw [Jump.ofFields, Jump.ofElements, Jump.mk.injEq]
  exact agree_text rfl ns hfit

theorem Literal.agree : Agree Literal.shape.fields Literal.ofFields Literal.ofElements := by
  intro ns hfit
  rw [Literal.ofFields, Literal.ofElements, Literal.mk.injEq]
  exact ⟨agree_text rfl ns hfit, agree_text rfl ns hfit, agree_text rfl ns hfit, agree_text rfl ns hfit,
    agree_text rfl ns hfit, agree_text rfl ns hfit⟩

/-- A condition read from values is the one that the elements describe. -/
theorem ConditionBlock.agree :
    Agree ConditionBlock.shape.fields ConditionBlock.ofFields ConditionBlock.ofElements := by
  intro ns hfit
  rw [ConditionBlock.ofFields, ConditionBlock.ofElements, ConditionBlock.mk.injEq]
  exact ⟨agree_text rfl ns hfit, agree_text rfl ns hfit, agree_record rfl Literal.agree ns hfit⟩

theorem RuleBlock.agree : Agree RuleBlock.shape.fields RuleBlock.ofFields RuleBlock.ofElements := by
  intro ns hfit
  rw [RuleBlock.ofFields, RuleBlock.ofElements, RuleBlock.mk.injEq]
  exact ⟨agree_text rfl ns hfit, agree_text rfl ns hfit, agree_text rfl ns hfit,
    agree_list rfl ConditionBlock.agree ns hfit, agree_record rfl Jump.agree ns hfit⟩

theorem WaitBlock.agree : Agree WaitBlock.shape.fields WaitBlock.ofFields WaitBlock.ofElements := by
  intro ns hfit
  rw [WaitBlock.ofFields, WaitBlock.ofElements, WaitBlock.mk.injEq]
  exact ⟨agree_text rfl ns hfit, agree_text rfl ns hfit, agree_text rfl ns hfit, agree_text rfl ns hfit,
    agree_list rfl ConditionBlock.agree ns hfit, agree_record rfl Jump.agree ns hfit⟩

theorem PathBlock.agree : Agree PathBlock.shape.fields PathBlock.ofFields PathBlock.ofElements := by
  intro ns hfit
  rw [PathBlock.ofFields, PathBlock.ofElements, PathBlock.mk.injEq]
  exact ⟨agree_text rfl ns hfit, agree_text rfl ns hfit, agree_integer rfl ns hfit, agree_text rfl ns hfit,
    agree_text rfl ns hfit, agree_text rfl ns hfit, agree_record rfl Jump.agree ns hfit⟩

/-- A start read from values is the one that the elements describe. -/
theorem StartBlock.agree : Agree StartBlock.shape.fields StartBlock.ofFields StartBlock.ofElements := by
  intro ns hfit
  rw [StartBlock.ofFields, StartBlock.ofElements, StartBlock.mk.injEq]
  exact ⟨agree_record rfl Jump.agree ns hfit, agree_list rfl PathBlock.agree ns hfit, agree_text rfl ns hfit,
    agree_text rfl ns hfit, agree_text rfl ns hfit⟩

/-- A step read from values is the one that the elements describe. -/
theorem StepBlock.agree : Agree StepBlock.shape.fields StepBlock.ofFields StepBlock.ofElements := by
  intro ns hfit
  rw [StepBlock.ofFields, StepBlock.ofElements, StepBlock.mk.injEq]
  exact ⟨agree_text rfl ns hfit, agree_text rfl ns hfit, agree_text rfl ns hfit, agree_record rfl Jump.agree ns hfit,
    agree_record rfl Jump.agree ns hfit, agree_record rfl Jump.agree ns hfit, agree_text rfl ns hfit,
    agree_list rfl RuleBlock.agree ns hfit, agree_list rfl WaitBlock.agree ns hfit, agree_record rfl Jump.agree ns hfit,
    agree_record rfl Jump.agree ns hfit⟩

theorem VariableBlock.agree : Agree VariableBlock.shape.fields VariableBlock.ofFields VariableBlock.ofElements := by
  intro ns hfit
  rw [VariableBlock.ofFields, VariableBlock.ofElements, VariableBlock.mk.injEq]
  exact ⟨agree_text rfl ns hfit, agree_text rfl ns hfit, agree_text rfl ns hfit, agree_text rfl ns hfit,
    agree_flag rfl ns hfit, agree_flag rfl ns hfit, agree_flag rfl ns hfit⟩

/-- The field of a tag is a list of steps. -/
theorem Document.lookup_fields (t : StepTag) : Document.fields.lookup t.name = some StepBlock.shape := by
  cases t <;> rfl

/-- A document read from values is the one that the elements describe, with the steps of each tag in order. -/
theorem Document.agree : Agree Document.fields Document.ofFields Document.ofElements := by
  intro ns hfit
  rw [Document.ofFields, Document.ofElements, Document.mk.injEq]
  exact ⟨agree_text rfl ns hfit, agree_text rfl ns hfit, agree_text rfl ns hfit, agree_text rfl ns hfit,
    agree_record rfl StartBlock.agree ns hfit, agree_text rfl ns hfit, agree_list rfl VariableBlock.agree ns hfit,
    funext fun t => agree_list (Document.lookup_fields t) StepBlock.agree ns hfit⟩

/-! ## Documents -/

/-- The name of the root element of a flow document. -/
def rootTag : TagName where
  chars := "Flow".toList

/-- The text of a flow document whose root element holds these elements, with the blanks before the root element, before its
end tag and after it. -/
def Elements.document (ns : Elements) (before last after : Gap) : String :=
  String.ofList ((Markup.Node.branch before rootTag ns last).spell written ++ written.gap after)

/-- A flow document is read as what its elements say, if they are what a flow document asks for: in any order, with the blocks
of a list spread among other elements, with elements between them that are not known, and with any blanks between the tags. -/
theorem Document.read_written {ns : Elements} (hfit : Node.allFit Document.fields ns = true) (before last after : Gap) :
    (Document.read (ns.document before last after)).value = .ok (Document.ofElements ns) := by
  have hread : readDocument Document.rootName Document.title Document.fields (ns.document before last after).toList =
      .ok (.found (gather (Node.values Document.fields ns))) := by
    rw [Elements.document, String.toList_ofList]
    have h := readDocument_written hfit rootTag Document.title before last after
    rwa [show String.ofList rootTag.chars = Document.rootName from String.ofList_toList] at h
  rw [Document.read, hread, ← Document.agree ns hfit]
  rfl

/-- A line feed and two blanks. -/
def indented : Gap where
  chars := ['\n', ' ', ' ']

/-- Elements of a flow document: a tag that is met twice with other elements between, a label that needs escapes, an element
that is not known, and a start with paths on both sides of a text. -/
def interleaved : Elements :=
  [.branch indented { chars := "decisions".toList }
      [.leaf {} { chars := "name".toList } (.text { chars := "First".toList })] {},
    .leaf indented { chars := "label".toList } (.text { chars := "A < B & C".toList }),
    .leaf indented { chars := "apiVersion".toList } (.text { chars := "60.0".toList }),
    .branch indented { chars := "start".toList }
      [.branch {} { chars := "scheduledPaths".toList }
          [.leaf {} { chars := "offsetNumber".toList } (.integer (-5) (by decide))] {},
        .leaf {} { chars := "object".toList } (.text { chars := "Account".toList }),
        .branch indented { chars := "scheduledPaths".toList } [] {}]
      {},
    .branch indented { chars := "decisions".toList }
      [.leaf {} { chars := "name".toList } (.text { chars := "Second".toList })] indented]

/-- Both steps are read, in order, and so are both paths; the element that is not known is passed over. -/
theorem Document.read_written_interleaved :
    Node.allFit Document.fields interleaved = true ∧
      ∃ d, (Document.read (interleaved.document {} indented {})).value = .ok d ∧ d.label = some "A < B & C" ∧
        d.steps .decisions = [{ name := some "First" }, { name := some "Second" }] ∧
        d.start = some { scheduledPaths := [{ offset := some (-5) }, {}], object := some "Account" } := by
  have hfit : Node.allFit Document.fields interleaved = true := by decide
  refine ⟨hfit, _, Document.read_written hfit {} indented {}, ?_, ?_, ?_⟩
  · decide
  · decide
  · decide

end FlowDiagram

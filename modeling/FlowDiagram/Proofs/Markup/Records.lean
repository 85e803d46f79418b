import FlowDiagram.Proofs.Markup.Fields

/-!
# Written elements as records

Elements that are the fields of a record are read as the values of the fields, brought together by name (`reads`). The induction
is on how many elements there are in all: when an item of a list is met, the later items are read at once, and reading goes on
with what is left without them. Main statement: a document is read as the record that its root element holds
(`readDocument_written`).
-/

namespace FlowDiagram.Markup

open FlowDiagram.Text

/-! ## Counting elements -/

mutual

/-- The number of elements in an element, itself included. -/
def Node.weight : Node → Nat
  | .leaf .. => 1
  | .branch _ _ children _ => 1 + Node.weightAll children

/-- The number of elements in a list of elements. -/
def Node.weightAll : List Node → Nat
  | [] => 0
  | n :: ns => n.weight + Node.weightAll ns

end

theorem weight_pos (n : Node) : 0 < n.weight := by
  cases n <;> simp only [Node.weight] <;> omega

/-- An element holds fewer elements than it counts. -/
theorem weightAll_children_lt (n : Node) : Node.weightAll n.children < n.weight := by
  cases n <;> simp [Node.weight, Node.weightAll, Node.children]

/-- An element of a list counts no more elements than the list. -/
theorem weight_le_of_mem {n : Node} {ns : List Node} (h : n ∈ ns) : n.weight ≤ Node.weightAll ns := by
  induction h with
  | head => exact Nat.le_add_right _ _
  | tail _ _ ih => exact Nat.le_trans ih (Nat.le_add_left _ _)

/-- Leaving elements out leaves no more elements. -/
theorem weightAll_filter_le (p : Node → Bool) (ns : List Node) : Node.weightAll (ns.filter p) ≤ Node.weightAll ns := by
  induction ns with
  | nil => exact Nat.le_refl _
  | cons n ns ih =>
    rw [List.filter_cons]
    split
    · exact Nat.add_le_add_left ih _
    · exact Nat.le_trans ih (Nat.le_add_left _ _)

/-! ## Elements that fit -/

theorem Node.key_eq_iff {m n : Node} : m.key = n.key ↔ m.name.chars = n.name.chars :=
  String.ofList_inj

/-- No element has a name that every element differs from. -/
theorem filter_key_eq_nil {key : String} {ns : List Node} (h : ∀ n ∈ ns, n.key ≠ key) :
    ns.filter (·.key == key) = [] :=
  List.filter_eq_nil_iff.2 fun n hn => by simpa using h n hn

section Fit

variable {fields : List (String × Shape)} {ns : List Node}

/-- What it means that the first element is what a record asks for. -/
theorem allFit_cons {n : Node} (h : Node.allFit fields (n :: ns) = true) :
    (∀ shape, fields.lookup n.key = some shape →
      n.fits shape = true ∧ (shape.isList = true ∨ ∀ m ∈ ns, m.key ≠ n.key)) ∧
    (fields.lookup n.key = none → n.isLeaf = true) ∧ Node.allFit fields ns = true := by
  rw [Node.allFit, Bool.and_eq_true] at h
  obtain ⟨hn, hns⟩ := h
  refine ⟨fun shape hshape => ?_, fun hnone => ?_, hns⟩
  · rw [hshape] at hn
    simpa using hn
  · rw [hnone] at hn
    exact hn

/-- An element among those that a record asks for fits the shape of its name. -/
theorem fits_of_mem (h : Node.allFit fields ns = true) {n : Node} (hn : n ∈ ns) {shape : Shape}
    (hshape : fields.lookup n.key = some shape) : n.fits shape = true := by
  induction hn with
  | head => exact ((allFit_cons h).1 shape hshape).1
  | tail _ _ ih => exact ih (allFit_cons h).2.2

/-- Elements fit whichever of them are left out. -/
theorem allFit_filter (p : Node → Bool) (h : Node.allFit fields ns = true) : Node.allFit fields (ns.filter p) = true := by
  induction ns with
  | nil => exact h
  | cons n ns ih =>
    obtain ⟨hsome, hnone, hns⟩ := allFit_cons h
    rw [List.filter_cons]
    split
    · rw [Node.allFit, ih hns, Bool.and_true]
      cases hshape : fields.lookup n.key with
      | none => exact hnone hshape
      | some shape =>
        obtain ⟨hfits, honce⟩ := hsome shape hshape
        simp only [hfits, Bool.true_and, Bool.or_eq_true, List.all_eq_true, bne_iff_ne]
        exact honce.imp_right fun h m hm => h m ((List.mem_filter.mp hm).1)
    · exact ih hns

/-- An element of a list holds the fields of an item. -/
theorem allFit_of_fits_list {title : String} {n : Node} (h : n.fits (.list title fields) = true) :
    ∃ gap name children last, n = .branch gap name children last ∧ Node.allFit fields children = true := by
  cases n with
  | leaf gap name content => cases content <;> simp [Node.fits, Scalar.fits] at h
  | branch gap name children last => exact ⟨gap, name, children, last, rfl, h⟩

end Fit

/-! ## Values brought together -/

theorem join_singleton (v : Value) : Value.join [v] = v := by
  cases v <;> simp [Value.join]

/-- Lists of one item are joined to the list of the items. -/
theorem join_lists {α : Type} (item : List (String × Value)) (items : α → List (String × Value)) (as : List α) :
    Value.join (.list [item] :: as.map fun a => .list [items a]) = .list (item :: as.map items) := by
  rw [Value.join, List.flatMap_map, List.singleton_append, List.map_eq_flatMap]
  rfl

/-- The values under a key are the first one, if it has the key, and then those of the others. -/
theorem valuesOf_cons (key : String) (v : Value) (vs : List (String × Value)) (k : String) :
    valuesOf ((key, v) :: vs) k = if key = k then v :: valuesOf vs k else valuesOf vs k := by
  simp only [valuesOf, List.filter_cons, beq_iff_eq]
  split <;> rfl

/-- The first key is met first, and everything under it goes there. -/
theorem gather_cons (key : String) (v : Value) (vs : List (String × Value)) :
    gather ((key, v) :: vs) = (key, .join (v :: valuesOf vs key)) :: gather (vs.filter (·.1 != key)) := by
  have hkeys : (vs.map (·.1)).filter (fun k => !k == key) = (vs.filter (·.1 != key)).map (·.1) := by
    rw [List.filter_map]
    rfl
  rw [gather, List.map_cons, List.eraseDups_cons, List.map_cons, valuesOf_cons, if_pos rfl, hkeys, gather]
  refine congrArg _ (List.map_congr_left fun k hk => ?_)
  have hne : k ≠ key := by
    obtain ⟨p, hp, rfl⟩ := List.mem_map.mp (List.mem_eraseDups.mp hk)
    simpa using (List.mem_filter.mp hp).2
  have hvalues : valuesOf (vs.filter (·.1 != key)) k = valuesOf vs k := by
    rw [valuesOf, List.filter_filter]
    refine congrArg _ (List.filter_congr fun p _ => ?_)
    by_cases hp : p.1 = k
    · simp [hp, hne]
    · simp [hp]
  rw [valuesOf_cons, if_neg hne.symm, hvalues]

/-- An element of a name that is not asked for has no value. -/
theorem values_cons_of_none {fields : List (String × Shape)} {n : Node} (h : fields.lookup n.key = none)
    (ns : List Node) : Node.values fields (n :: ns) = Node.values fields ns := by
  rw [Node.values, h]

/-- An element of a name that is asked for has its value in front of the others. -/
theorem values_cons_of_some {fields : List (String × Shape)} {n : Node} {shape : Shape}
    (h : fields.lookup n.key = some shape) (ns : List Node) :
    Node.values fields (n :: ns) = (n.key, n.value shape) :: Node.values fields ns := by
  rw [Node.values, h]

/-- Leaving out the elements of a name leaves out the values under it. -/
theorem values_filter (fields : List (String × Shape)) (key : String) (ns : List Node) :
    (Node.values fields ns).filter (·.1 != key) = Node.values fields (ns.filter (·.key != key)) := by
  induction ns with
  | nil => rfl
  | cons n ns ih =>
    cases hshape : fields.lookup n.key with
    | none =>
      rw [values_cons_of_none hshape, ih, List.filter_cons]
      split
      · rw [values_cons_of_none hshape]
      · rfl
    | some shape =>
      rw [values_cons_of_some hshape, List.filter_cons, ih, List.filter_cons]
      split
      · rw [values_cons_of_some hshape]
      · rfl

/-- The values under the name of a field are those of the elements of that name. -/
theorem valuesOf_values {fields : List (String × Shape)} {key : String} {shape : Shape}
    (hshape : fields.lookup key = some shape) (ns : List Node) :
    valuesOf (Node.values fields ns) key = (ns.filter (·.key == key)).map (·.value shape) := by
  induction ns with
  | nil => rfl
  | cons n ns ih =>
    by_cases hkey : n.key = key
    · have hn : fields.lookup n.key = some shape := hkey ▸ hshape
      rw [values_cons_of_some hn, valuesOf_cons, if_pos hkey, ih, List.filter_cons_of_pos (by simpa using hkey),
        List.map_cons]
    · rw [List.filter_cons_of_neg (by simpa using hkey), ← ih]
      cases hn : fields.lookup n.key with
      | none => rw [values_cons_of_none hn]
      | some shape' => rw [values_cons_of_some hn, valuesOf_cons, if_neg hkey]

/-! ## Reading the fields of a record -/

section Reading

variable {fields : List (String × Shape)}

/-- The items of a list after the first are read from among other elements, and these are laid back. -/
theorem takes_readItems {title : String} {parent : List Char} {n : Node} {ns : List Node}
    {item : Node → List (String × Value)}
    (hitem : ∀ m ∈ ns, m.key = n.key → ∀ es, Takes (readRecord fields n.name.tag) (m.inside ++ es) (item m) es)
    (skipped : List Event) (closing : List Char) (es : List Event) :
    Takes (readItems title fields parent n.name.chars skipped) (Node.spellAll events ns ++ .close closing :: es)
      ((ns.filter (·.key == n.key)).map item)
      (skipped ++ (Node.spellAll events (ns.filter (·.key != n.key)) ++ .close closing :: es)) := by
  induction ns generalizing skipped with
  | nil => exact readItems_close closing
  | cons m ns ih =>
    have hrest := ih fun m' hm' => hitem m' (List.mem_cons_of_mem m hm')
    rw [Node.spellAll, List.append_assoc]
    by_cases hkey : m.key = n.key
    · have htag : m.name.tag = n.name.tag := by rw [TagName.tag, TagName.tag, Node.key_eq_iff.1 hkey]
      rw [List.filter_cons_of_pos (by simpa using hkey), List.filter_cons_of_neg (by simpa using hkey), spell_events,
        htag]
      exact readItems_item (hitem m List.mem_cons_self hkey _) (hrest skipped)
    · have hname : (m.name.chars == n.name.chars) = false := beq_eq_false_iff_ne.2 (mt Node.key_eq_iff.2 hkey)
      rw [List.filter_cons_of_neg (by simpa using hkey), List.filter_cons_of_pos (by simpa using hkey), Node.spellAll,
        List.append_assoc]
      refine readItems_other hname ?_
      have := hrest (skipped ++ m.spell events)
      rwa [List.append_assoc] at this

/-- A field that is no list is read from its only element. -/
theorem takes_of_once {parent : TagName} {n : Node} {ns : List Node} {shape : Shape} {es : List Event}
    (hshape : fields.lookup n.key = some shape) (honce : ∀ m ∈ ns, m.key ≠ n.key)
    (h : Takes (readField shape parent.tag n.name.tag) (n.inside ++ (Node.spellAll events ns ++ es)) (n.value shape)
      (Node.spellAll events ns ++ es)) :
    Takes (readField shape parent.tag n.name.tag) (n.inside ++ (Node.spellAll events ns ++ es))
      (.join (n.value shape :: valuesOf (Node.values fields ns) n.key))
      (Node.spellAll events (ns.filter (·.key != n.key)) ++ es) := by
  have hall : ns.filter (·.key != n.key) = ns :=
    List.filter_eq_self.2 fun m hm => by simpa using honce m hm
  rwa [valuesOf_values hshape, filter_key_eq_nil honce, hall, List.map_nil, join_singleton]

/-- Elements are read as the values of fields, brought together, wherever they are what a record asks for. -/
def Reads (ns : List Node) : Prop :=
  ∀ (fields : List (String × Shape)) (known : List (String × Value)) (name : TagName) (closing : List Char)
    (es : List Event), Node.allFit fields ns = true → (∀ n ∈ ns, known.lookup n.key = none) →
    Takes (readFields fields name.tag known) (Node.spellAll events ns ++ .close closing :: es)
      (known ++ gather (Node.values fields ns)) es

/-- A record is read as its fields are. -/
theorem Reads.takes_readRecord {ns : List Node} (h : Reads ns) (hfit : Node.allFit fields ns = true) (name : TagName)
    (closing : List Char) (es : List Event) :
    Takes (readRecord fields name.tag) (Node.spellAll events ns ++ .close closing :: es)
      (gather (Node.values fields ns)) es :=
  readRecord_tag (h fields [] name closing es hfit fun _ _ => rfl)

/-- A field is read from all elements of its name. -/
theorem takes_readField {parent : TagName} {n : Node} {ns : List Node} {shape : Shape}
    (hshape : fields.lookup n.key = some shape) (hfit : Node.allFit fields (n :: ns) = true)
    (hreads : ∀ m ∈ n :: ns, Reads m.children) (closing : List Char) (es : List Event) :
    Takes (readField shape parent.tag n.name.tag) (n.inside ++ (Node.spellAll events ns ++ .close closing :: es))
      (.join (n.value shape :: valuesOf (Node.values fields ns) n.key))
      (Node.spellAll events (ns.filter (·.key != n.key)) ++ .close closing :: es) := by
  obtain ⟨hfits, honce⟩ := (allFit_cons hfit).1 shape hshape
  cases shape with
  | text | integer | flag =>
    refine takes_of_once hshape (honce.resolve_left (by simp [Shape.isList])) ?_
    cases n with
    | leaf gap name content => exact readField_scalar hfits
    | branch gap name children last => simp [Node.fits] at hfits
  | record title fields' =>
    refine takes_of_once hshape (honce.resolve_left (by simp [Shape.isList])) ?_
    cases n with
    | leaf gap name content => exact readField_scalar hfits
    | branch gap name children last =>
      refine readField_record ?_
      rw [Node.inside, List.append_assoc]
      exact (hreads _ List.mem_cons_self).takes_readRecord hfits name name.chars _
  | list title fields' =>
    have hvalue : ∀ m ∈ n :: ns, m.key = n.key →
        m.value (.list title fields') = .list [gather (Node.values fields' m.children)] ∧
          ∀ es', Takes (readRecord fields' n.name.tag) (m.inside ++ es') (gather (Node.values fields' m.children)) es' := by
      intro m hm hkey
      obtain ⟨gap, name, children, last, rfl, hchildren⟩ :=
        allFit_of_fits_list (fits_of_mem hfit hm (hkey ▸ hshape))
      refine ⟨rfl, fun es' => ?_⟩
      rw [Node.inside, List.append_assoc]
      exact (hreads _ hm).takes_readRecord hchildren n.name name.chars es'
    obtain ⟨hn, hfirst⟩ := hvalue n List.mem_cons_self rfl
    have hlater : (ns.filter (·.key == n.key)).map (·.value (.list title fields')) =
        (ns.filter (·.key == n.key)).map fun m => .list [gather (Node.values fields' m.children)] := by
      refine List.map_congr_left fun m hm => ?_
      obtain ⟨hm, hkey⟩ := List.mem_filter.mp hm
      exact (hvalue m (List.mem_cons_of_mem n hm) (by simpa using hkey)).1
    rw [valuesOf_values hshape, hn, hlater, join_lists]
    exact readField_list (hfirst _)
      (takes_readItems (fun m hm hkey => (hvalue m (List.mem_cons_of_mem n hm) hkey).2) [] closing es)

/-- The fields of a record are read if those of its elements are, those behind the first element, and those that are left
when some are left out. What is left after the first field has no element of its name. -/
theorem reads_cons {n : Node} {ns : List Node} (hchildren : ∀ m ∈ n :: ns, Reads m.children) (hns : Reads ns)
    (hfilter : ∀ p, Reads (ns.filter p)) : Reads (n :: ns) := by
  intro fields known name closing es hfit hknown
  obtain ⟨-, hleaf, hrest⟩ := allFit_cons hfit
  rw [Node.spellAll, List.append_assoc, spell_events]
  cases hshape : fields.lookup n.key with
  | none =>
    have hrest := hns fields known name closing es hrest fun m hm => hknown m (List.mem_cons_of_mem n hm)
    rw [values_cons_of_none hshape]
    cases n with
    | leaf gap tag content => exact readFields_unknown hshape hrest
    | branch gap tag children last => cases hleaf hshape
  | some shape =>
    have hlater : ∀ m ∈ ns.filter (·.key != n.key),
        (known ++ [(n.key, Value.join (n.value shape :: valuesOf (Node.values fields ns) n.key))]).lookup m.key = none := by
      intro m hm
      obtain ⟨hm, hkey⟩ := List.mem_filter.mp hm
      have hkey : (m.key == n.key) = false := by simpa using hkey
      rw [List.lookup_append, hknown m (List.mem_cons_of_mem n hm), Option.none_or, List.lookup_cons, hkey, List.lookup_nil]
    have hrest := hfilter (·.key != n.key) fields _ name closing es (allFit_filter _ hrest) hlater
    rw [List.append_assoc, List.singleton_append] at hrest
    rw [values_cons_of_some hshape, gather_cons, values_filter]
    exact readFields_known hshape (hknown n List.mem_cons_self) (takes_readField hshape hfit hchildren closing es) hrest

/-- The fields of a record are read as their values brought together. -/
theorem reads (ns : List Node) : Reads ns := by
  induction hw : Node.weightAll ns using Nat.strongRecOn generalizing ns with
  | ind w ih =>
    subst hw
    cases ns with
    | nil =>
      intro fields known name closing es hfit hknown
      have h : Takes (readFields fields name.tag known) (.close closing :: es) known es := readFields_close closing
      simpa [gather, Node.values, Node.spellAll] using h
    | cons n ns =>
      have hlt : Node.weightAll ns < Node.weightAll (n :: ns) := Nat.lt_add_of_pos_left (weight_pos n)
      refine reads_cons (fun m hm => ?_) (ih _ hlt ns rfl) fun p => ?_
      · exact ih _ (Nat.lt_of_lt_of_le (weightAll_children_lt m) (weight_le_of_mem hm)) _ rfl
      · exact ih _ (Nat.lt_of_le_of_lt (weightAll_filter_le p ns) hlt) _ rfl

end Reading

/-! ## Documents -/

/-- The root element is found behind blanks. -/
theorem rootName?_gap (g : Gap) (name : TagName) (fault : Option Fault) (ts : List Token) :
    rootName? fault (tokens.gap g ++ .start name.tag :: ts) = .ok (some name.chars) := by
  have hstart : rootName? fault (.start name.tag :: ts) = .ok (some name.chars) := by
    rw [rootName?, TagName.tag, name.localName_chars]
  by_cases hg : g.chars = []
  · simpa only [tokens, if_pos hg, List.nil_append] using hstart
  · have hall : g.chars.all isOuterSpace = true :=
      List.all_eq_true.2 fun c hc => by rw [isOuterSpace, g.isSpace_of_mem hc]; rfl
    simp only [tokens, if_neg hg, List.singleton_append]
    rw [rootName?, if_pos hall, hstart]

/-- A stream at the start of a document stands at the events of its root element and at those of what follows it. -/
theorem stands_ofTokens (n : Node) {ts : List Token} {es : List Event} (h : Conveys ts es) :
    (EventStream.ofTokens ⟨n.spell tokens ++ ts, none⟩).Stands (n.spell events ++ es) :=
  ⟨_, _, rfl, fun _ h => by (cases h), ⟨.outermost, false, rfl⟩, conveys_spell n h⟩

/-- A document that starts with an element is read as the record that the element is, whatever tags follow it. -/
theorem readDocument_of_ofText {fields : List (String × Shape)} {children : List Node} {text : List Char} {ts : List Token}
    {es : List Event} (hfit : Node.allFit fields children = true) (name : TagName) (title : String) (before last : Gap)
    (htokens : Tokens.ofText text = ⟨(Node.branch before name children last).spell tokens ++ ts, none⟩)
    (hconveys : Conveys ts es) :
    readDocument (String.ofList name.chars) title fields text = .ok (.found (gather (Node.values fields children))) := by
  have hroot : rootName? none ((Node.branch before name children last).spell tokens ++ ts) = .ok (some name.chars) := by
    rw [Node.spell, List.append_assoc]
    exact rootName?_gap before name none _
  have hstands := stands_ofTokens (.branch before name children last) hconveys
  rw [spell_events, List.cons_append] at hstands
  obtain ⟨s₁, lt, he, h⟩ := hstands.event?
  rw [Node.inside, List.append_assoc] at h
  obtain ⟨s₂, lt', hrecord, -⟩ := (reads children).takes_readRecord hfit name name.chars _ s₁ h
  rw [readDocument, htokens]
  simp only [hroot, bind, Except.bind, String.toList_ofList]
  rw [if_pos (beq_self_eq_true _)]
  simp only [he, Node.name, hrecord]
  rfl

/-- A document that consists of one element with blanks around it is read as the record that the element is. -/
theorem readDocument_written {fields : List (String × Shape)} {children : List Node}
    (hfit : Node.allFit fields children = true) (name : TagName) (title : String) (before last after : Gap) :
    readDocument (String.ofList name.chars) title fields
      ((Node.branch before name children last).spell written ++ written.gap after) =
      .ok (.found (gather (Node.values fields children))) :=
  readDocument_of_ofText hfit name title before last (ofText_written _ after) (.finished after)

end FlowDiagram.Markup

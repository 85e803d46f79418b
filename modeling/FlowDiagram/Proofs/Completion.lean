import FlowDiagram.Graph.Completion

/-!
# What completing a flow gives

`Flow.complete` goes over the connectors and then over the dangling elements, and may add the end in the midst of either.
What it has done at any point is told by three things alone: the connectors so far, how many elements were joined to the
end and how many connectors were led to it (`Progress.after`). One step keeps that form (`value_carry_after`,
`join_after`), so a whole pass has a closed form (`complete_value`).

Main statements: one pass is enough. A complete flow is left as it is by a second pass, and the flows that a pass leaves as
they are, are the settled ones (`complete_settles_in_one_pass`). What a pass makes of a flow and what it reports is told by the
keys and the connectors of the flow alone (`Flow.CompletesTo`, `Flow.complete_value_eq_iff`).
-/

namespace FlowDiagram

/-- The elements with the end among them: it is added last unless an element has its name. -/
def withEnd (m : OrderedMap String Element) : OrderedMap String Element :=
  if m.contains endName then m else m.insert endName endElement

/-- A connector as a complete flow has it: led to the end if its target is not declared, and otherwise as it was. -/
def Connector.resolve (declared : String → Bool) (c : Connector) : Connector :=
  if declared c.target then c else { c with target := endName }

/-- How many connectors of a flow lead nowhere. -/
def Flow.unresolved (f : Flow) : Nat :=
  f.connectors.countP fun c => !f.elements.contains c.target

/-- The flow that completing a flow gives. -/
def Flow.completed (f : Flow) : Flow :=
  f.complete.value.1

/-- A flow in which every path has an end: every connector leads to an element, and a connector leaves every element but the
start and the end. -/
structure Flow.Settled (f : Flow) : Prop where
  targets : ∀ c ∈ f.connectors, c.target ∈ f.elements.keys
  sources : ∀ k ∈ f.elements.keys, k ≠ startName → k ≠ endName → ∃ c ∈ f.connectors, c.source = k

/-! ## Elements and the end -/

/-- Adding the end leaves the names of elements as they are, with that of the end behind them if it is new. -/
theorem keys_withEnd (m : OrderedMap String Element) :
    (withEnd m).keys = if endName ∈ m.keys then m.keys else m.keys ++ [endName] := by
  unfold withEnd
  by_cases h : endName ∈ m.keys
  · rw [if_pos (OrderedMap.contains_iff.2 h), if_pos h]
  · rw [if_neg (fun h' => h (OrderedMap.contains_iff.1 h')), OrderedMap.keys_insert]

theorem mem_keys_withEnd {m : OrderedMap String Element} {k : String} :
    k ∈ (withEnd m).keys ↔ k ∈ m.keys ∨ k = endName := by
  rw [keys_withEnd]
  split
  · next h => exact ⟨Or.inl, fun hk => hk.elim id (fun hk => hk ▸ h)⟩
  · rw [List.mem_append, List.mem_singleton]

theorem contains_withEnd (m : OrderedMap String Element) : (withEnd m).contains endName = true :=
  OrderedMap.contains_iff.2 (mem_keys_withEnd.2 (Or.inr rfl))

/-- The end, where it is added, is the last entry. -/
theorem entries_withEnd (m : OrderedMap String Element) :
    (withEnd m).entries = if endName ∈ m.keys then m.entries else m.entries ++ [(endName, endElement)] := by
  unfold withEnd
  by_cases h : endName ∈ m.keys
  · rw [if_pos (OrderedMap.contains_iff.2 h), if_pos h]
  · rw [if_neg (fun h' => h (OrderedMap.contains_iff.1 h')), if_neg h, OrderedMap.entries_insert_of_not_mem _ h]

/-! ## Resolved connectors -/

/-- Resolving a connector leaves its source as it was. -/
@[simp] theorem Connector.source_resolve (declared : String → Bool) (c : Connector) :
    (c.resolve declared).source = c.source := by
  unfold Connector.resolve
  split <;> rfl

/-- Resolving a connector leaves it a fault transition or not, as it was. -/
@[simp] theorem Connector.isFault_resolve (declared : String → Bool) (c : Connector) :
    (c.resolve declared).isFault = c.isFault := by
  unfold Connector.resolve
  split <;> rfl

/-! ## A pass, step by step -/

namespace Progress

/-- What a pass over elements has done once the connectors are `cs`, `joined` elements were joined to the end and `moved`
connectors were led to it. The end is there as soon as either happened. -/
def after (m : OrderedMap String Element) (cs : List Connector) (joined moved : Nat) : Progress where
  elements := if joined + moved = 0 then m else withEnd m
  connectors := cs
  report :=
    { endAdded := decide (0 < joined + moved) && !m.contains endName
      terminalEdges := joined
      redirected := moved }

/-- The end is added at most once: whether it was added before makes no difference to what there is afterwards. -/
theorem ensureEnd_after (m : OrderedMap String Element) (cs : List Connector) (joined moved : Nat) :
    (after m cs joined moved).ensureEnd = ⟨withEnd m, cs, ⟨!m.contains endName, joined, moved⟩⟩ := by
  unfold ensureEnd after
  by_cases h : joined + moved = 0
  · rw [if_pos h, h]
    by_cases he : m.contains endName = true <;> simp [he, withEnd]
  · rw [if_neg h, if_pos (contains_withEnd m), decide_eq_true (Nat.pos_of_ne_zero h), Bool.true_and]

/-- Once something was joined or led to the end, the end is there. -/
theorem after_of_pos (m : OrderedMap String Element) (cs : List Connector) {joined moved : Nat} (h : 0 < joined + moved) :
    after m cs joined moved = ⟨withEnd m, cs, ⟨!m.contains endName, joined, moved⟩⟩ := by
  unfold after
  rw [if_neg (Nat.ne_of_gt h), decide_eq_true h, Bool.true_and]

/-- Carrying one more connector over resolves it, and counts it if its target is not declared. -/
theorem value_carry_after (declared : String → Bool) (m : OrderedMap String Element) (cs : List Connector)
    (joined moved : Nat) (c : Connector) :
    ((after m cs joined moved).carry declared c).value =
      after m (cs ++ [c.resolve declared]) joined (moved + if declared c.target then 0 else 1) := by
  unfold carry Connector.resolve
  by_cases h : declared c.target = true
  · simp [h, after]
  · rw [if_neg h, if_neg h, if_neg h]
    simp only [Logged.value_bind, Logged.value_pure, ensureEnd_after]
    rw [after_of_pos m _ (Nat.succ_pos _)]

/-- Joining one more element to the end adds a plain connector, and counts the element. -/
theorem join_after (m : OrderedMap String Element) (cs : List Connector) (joined moved : Nat) (name : String) :
    (after m cs joined moved).join name = after m (cs ++ [.plain name endName]) (joined + 1) moved := by
  unfold join
  rw [ensureEnd_after, after_of_pos m _ (by omega)]

/-- A run over connectors keeps them in order, each resolved, and counts those that were led to the end. -/
theorem value_foldlM_carry_after (declared : String → Bool) (m : OrderedMap String Element) (joined : Nat)
    (xs : List Connector) (cs : List Connector) (moved : Nat) :
    (xs.foldlM (carry declared) (after m cs joined moved)).value =
      after m (cs ++ xs.map (·.resolve declared)) joined (moved + xs.countP fun c => !declared c.target) := by
  rw [Logged.value_foldlM]
  induction xs generalizing cs moved with
  | nil => simp
  | cons x xs ih =>
    rw [List.foldl_cons, value_carry_after, ih, List.map_cons, List.append_assoc, List.singleton_append,
      List.countP_cons, Nat.add_assoc]
    congr 2
    cases declared x.target <;> simp [Nat.add_comm]

/-- A run over names joins each to the end, in order. -/
theorem foldl_join_after (m : OrderedMap String Element) (moved : Nat) (names : List String) (cs : List Connector)
    (joined : Nat) :
    names.foldl join (after m cs joined moved) =
      after m (cs ++ names.map (.plain · endName)) (joined + names.length) moved := by
  induction names generalizing cs joined with
  | nil => simp
  | cons n names ih =>
    rw [List.foldl_cons, join_after, ih, List.map_cons, List.append_assoc, List.singleton_append, List.length_cons,
      Nat.add_assoc, Nat.add_comm 1]

end Progress

/-! ## The whole pass -/

namespace Flow

/-- The elements that are joined to the end: all but the start and the end that no connector leaves. -/
theorem mem_dangling {f : Flow} {k : String} :
    k ∈ f.dangling ↔
      k ∈ f.elements.keys ∧ k ≠ startName ∧ k ≠ endName ∧ ∀ c ∈ f.connectors, c.source ≠ k := by
  simp [dangling, and_assoc]

/-- A name dangles at most once. -/
theorem nodup_dangling (f : Flow) : f.dangling.Nodup :=
  List.filter_sublist.nodup f.elements.nodup

/-- What completing a flow gives, in closed form. -/
theorem complete_value (f : Flow) :
    f.complete.value =
      let p := Progress.after f.elements
        (f.connectors.map (·.resolve f.elements.contains) ++ f.dangling.map (.plain · endName))
        f.dangling.length f.unresolved
      ({ f with elements := p.elements, connectors := p.connectors }, p.report) := by
  have start : (⟨f.elements, [], {}⟩ : Progress) = .after f.elements [] 0 0 := rfl
  unfold complete
  simp only [Logged.value_bind, Logged.value_pure, start, Progress.value_foldlM_carry_after,
    Progress.foldl_join_after, List.nil_append, Nat.zero_add, unresolved]

/-- The connectors of a completed flow are those of the flow, resolved, and then one to the end from each element that
dangled. -/
theorem completed_connectors (f : Flow) :
    f.completed.connectors =
      f.connectors.map (·.resolve f.elements.contains) ++ f.dangling.map (.plain · endName) := by
  rw [completed, complete_value]
  rfl

/-- The elements of a completed flow are those of the flow, with the end if anything had to be joined or led to it. -/
theorem completed_elements (f : Flow) :
    f.completed.elements = if f.dangling.length + f.unresolved = 0 then f.elements else withEnd f.elements := by
  rw [completed, complete_value]
  rfl

/-- An element that does not dangle, the start and the end apart, has a connector that leaves it. -/
theorem exists_source_of_not_mem_dangling {f : Flow} {k : String} (hk : k ∈ f.elements.keys) (hs : k ≠ startName)
    (he : k ≠ endName) (hd : k ∉ f.dangling) : ∃ c ∈ f.connectors, c.source = k := by
  by_cases hex : ∃ c ∈ f.connectors, c.source = k
  · exact hex
  · exact absurd (mem_dangling.2 ⟨hk, hs, he, fun c hc hck => hex ⟨c, hc, hck⟩⟩) hd

/-- No element of a settled flow dangles. -/
theorem Settled.not_mem_dangling {f : Flow} (h : f.Settled) (k : String) : k ∉ f.dangling := by
  intro hd
  obtain ⟨hk, hs, he, hno⟩ := mem_dangling.1 hd
  obtain ⟨c, hc, hck⟩ := h.sources k hk hs he
  exact hno c hc hck

/-- A flow is settled just if nothing has to be joined or led to the end. -/
theorem settled_iff {f : Flow} : f.Settled ↔ f.dangling.length + f.unresolved = 0 := by
  rw [Nat.add_eq_zero_iff, List.length_eq_zero_iff, List.eq_nil_iff_forall_not_mem, unresolved, List.countP_eq_zero]
  constructor
  · intro h
    refine ⟨h.not_mem_dangling, fun c hc => ?_⟩
    simpa [OrderedMap.contains_iff] using h.targets c hc
  · rintro ⟨hd, hu⟩
    refine ⟨fun c hc => ?_, fun k hk hs he => exists_source_of_not_mem_dangling hk hs he (hd k)⟩
    simpa [OrderedMap.contains_iff] using hu c hc

/-- Completing a flow leaves its elements as they are, or adds the end after them. -/
theorem completed_entries_cases (f : Flow) :
    f.completed.elements.entries = f.elements.entries ∨
      f.completed.elements.entries = f.elements.entries ++ [(endName, endElement)] := by
  rw [completed_elements]
  split
  · exact Or.inl rfl
  · rw [entries_withEnd]
    split
    · exact Or.inl rfl
    · exact Or.inr rfl

/-- Every declared element stays. -/
theorem mem_keys_completed_of_mem {f : Flow} {k : String} (hk : k ∈ f.elements.keys) :
    k ∈ f.completed.elements.keys := by
  rw [completed_elements]
  split
  · exact hk
  · exact mem_keys_withEnd.2 (Or.inl hk)

/-- No element but the end is added. -/
theorem mem_keys_of_mem_completed {f : Flow} {k : String} (hk : k ∈ f.completed.elements.keys) (he : k ≠ endName) :
    k ∈ f.elements.keys := by
  rw [completed_elements] at hk
  split at hk
  · exact hk
  · exact (mem_keys_withEnd.1 hk).resolve_right he

/-- The end is an element as soon as something had to be led or joined to it. -/
theorem endName_mem_keys_completed {f : Flow} (h : ¬f.Settled) : endName ∈ f.completed.elements.keys := by
  rw [completed_elements, if_neg (fun h' => h (settled_iff.2 h'))]
  exact mem_keys_withEnd.2 (Or.inr rfl)

/-- A connector of a complete flow is one of the flow, resolved, or joins a dangling element to the end. -/
theorem mem_completed_connectors {f : Flow} {c : Connector} :
    c ∈ f.completed.connectors ↔
      (∃ d ∈ f.connectors, d.resolve f.elements.contains = c) ∨ ∃ k ∈ f.dangling, .plain k endName = c := by
  rw [completed_connectors, List.mem_append, List.mem_map, List.mem_map]

/-- The names that dangle are those, but for the start and the end, that no connector leaves. -/
theorem dangling_eq (f : Flow) :
    f.dangling = f.elements.keys.filter fun k => k != startName && k != endName && (f.outgoing k).isEmpty := by
  unfold dangling outgoing
  apply List.filter_congr
  intro k _
  rw [Bool.eq_iff_iff]
  simp [List.filter_eq_nil_iff]

/-- An element dangles just if it needs a connector and none leaves it. -/
theorem mem_dangling_iff_outgoing {f : Flow} {k : String} :
    k ∈ f.dangling ↔ k ∈ f.elements.keys ∧ k ≠ startName ∧ k ≠ endName ∧ f.outgoing k = [] := by
  rw [dangling_eq, List.mem_filter]
  simp [and_assoc]

/-- What leaves an element of a complete flow: its own connectors, resolved, and one to the end if it dangled. -/
theorem outgoing_completed (f : Flow) (k : String) :
    f.completed.outgoing k =
      (f.outgoing k).map (·.resolve f.elements.contains) ++ if k ∈ f.dangling then [.plain k endName] else [] := by
  have hold : (f.connectors.map (·.resolve f.elements.contains)).filter (·.source == k) =
      (f.outgoing k).map (·.resolve f.elements.contains) := by
    rw [List.filter_map, outgoing]
    simp only [Function.comp_def, Connector.source_resolve]
  have hnew : (f.dangling.map (Connector.plain · endName)).filter (·.source == k) =
      if k ∈ f.dangling then [Connector.plain k endName] else [] := by
    rw [List.filter_map]
    have hcount : f.dangling.filter (· == k) = if k ∈ f.dangling then [k] else [] := by
      rw [List.filter_beq, f.nodup_dangling.count]
      split <;> rfl
    simp only [Function.comp_def, Connector.plain, hcount]
    split <;> rfl
  rw [outgoing, completed_connectors, List.filter_append, hold, hnew]

/-! ## The elements of a completed flow -/

/-- Completing a flow leaves its elements as they are, and adds the end after them just if it reports so. -/
theorem entries_completed (f : Flow) :
    f.completed.elements.entries =
      f.elements.entries ++ if f.complete.value.2.endAdded then [(endName, endElement)] else [] := by
  have hreport : f.complete.value.2.endAdded =
      (decide (0 < f.dangling.length + f.unresolved) && !f.elements.contains endName) := by
    rw [complete_value]
    rfl
  rw [hreport, completed_elements]
  by_cases h : f.dangling.length + f.unresolved = 0
  · simp [h]
  · rw [if_neg h, entries_withEnd, decide_eq_true (Nat.pos_of_ne_zero h), Bool.true_and]
    by_cases hend : endName ∈ f.elements.keys
    · simp [hend, OrderedMap.contains_iff.2 hend]
    · have hc : f.elements.contains endName = false := by
        rw [← Bool.not_eq_true, OrderedMap.contains_iff]
        exact hend
      simp [hend, hc]

theorem keys_completed (f : Flow) :
    f.completed.elements.keys = f.elements.keys ++ if f.complete.value.2.endAdded then [endName] else [] := by
  rw [OrderedMap.keys, entries_completed, List.map_append]
  split <;> rfl

/-- An element of a completed flow is one of the flow, or the end that completing it added. -/
theorem element?_completed (f : Flow) (k : String) :
    f.completed.element? k =
      (f.element? k).or (if f.complete.value.2.endAdded ∧ k = endName then some endElement else none) := by
  simp only [element?, OrderedMap.get?, entries_completed, List.find?_append, Option.map_or]
  congr 1
  by_cases hadded : f.complete.value.2.endAdded = true
  · by_cases hk : endName = k
    · simp [hadded, hk]
    · simp [hadded, hk, Ne.symm hk]
  · simp [hadded]

/-- The end is reported as added just if it is an element afterwards and was none before. -/
theorem endAdded_complete_iff (f : Flow) :
    f.complete.value.2.endAdded = true ↔ endName ∈ f.completed.elements.keys ∧ endName ∉ f.elements.keys := by
  have hnodup : f.completed.elements.keys.Nodup := f.completed.elements.nodup
  rw [keys_completed] at hnodup ⊢
  by_cases hadded : f.complete.value.2.endAdded = true
  · rw [if_pos hadded] at hnodup ⊢
    have hnew : endName ∉ f.elements.keys := fun h =>
      (List.nodup_append.mp hnodup).2.2 endName h endName (List.mem_singleton.mpr rfl) rfl
    exact ⟨fun _ => ⟨List.mem_append_right _ (List.mem_singleton.mpr rfl), hnew⟩, fun _ => hadded⟩
  · rw [if_neg hadded, List.append_nil]
    exact ⟨fun h => absurd h hadded, fun h => absurd h.1 h.2⟩

/-! ## One pass is enough -/

/-- What is led or joined to the end reaches it: the end is then an element, and needs no connector itself. -/
theorem completed_settled (f : Flow) : f.completed.Settled := by
  refine ⟨fun c hc => ?_, fun k hk hs he => ?_⟩
  · rcases mem_completed_connectors.1 hc with ⟨d, hd, rfl⟩ | ⟨k, hk, rfl⟩
    · unfold Connector.resolve
      split
      · next ht => exact mem_keys_completed_of_mem (OrderedMap.contains_iff.1 ht)
      · next ht => exact endName_mem_keys_completed fun h => ht (OrderedMap.contains_iff.2 (h.targets d hd))
    · exact endName_mem_keys_completed fun h => h.not_mem_dangling k hk
  · by_cases hd : k ∈ f.dangling
    · exact ⟨_, mem_completed_connectors.2 (Or.inr ⟨k, hd, rfl⟩), rfl⟩
    · obtain ⟨c, hc, hck⟩ := exists_source_of_not_mem_dangling (mem_keys_of_mem_completed hk he) hs he hd
      exact ⟨_, mem_completed_connectors.2 (Or.inl ⟨c, hc, rfl⟩), by rw [Connector.source_resolve, hck]⟩

/-- A settled flow is left as it is, and nothing is reported. -/
theorem complete_value_of_settled {f : Flow} (h : f.Settled) : f.complete.value = (f, {}) := by
  obtain ⟨hd, hu⟩ := Nat.add_eq_zero_iff.1 (settled_iff.1 h)
  have hmap : f.connectors.map (·.resolve f.elements.contains) = f.connectors := by
    rw [List.map_congr_left (g := id), List.map_id]
    intro c hc
    rw [Connector.resolve, if_pos (OrderedMap.contains_iff.2 (h.targets c hc)), id]
  rw [complete_value, hmap, hd, hu, List.length_eq_zero_iff.1 hd, List.map_nil, List.append_nil]
  rfl

/-- A pass reports nothing just if the flow is settled. -/
theorem isNoop_complete_iff {f : Flow} : f.complete.value.2.isNoop = true ↔ f.Settled := by
  rw [settled_iff, complete_value]
  simp only [Completion.isNoop, Progress.after, Bool.and_eq_true, beq_iff_eq]
  constructor
  · rintro ⟨⟨-, hd⟩, hu⟩
    rw [hd, hu]
  · intro h
    obtain ⟨hd, hu⟩ := Nat.add_eq_zero_iff.1 h
    rw [hd, hu]
    exact ⟨⟨rfl, rfl⟩, rfl⟩

/-- One pass is enough: a second pass leaves the flow that the first gave exactly as it is, and reports nothing. A pass
reports nothing, and leaves the flow as it is, just if the flow is settled. -/
theorem complete_settles_in_one_pass (f : Flow) :
    f.completed.complete.value.1 = f.completed ∧ f.completed.complete.value.2.isNoop = true ∧
      (f.complete.value.2.isNoop = true ↔ f.Settled) ∧ (f.complete.value.1 = f ↔ f.Settled) := by
  have hc := complete_value_of_settled f.completed_settled
  refine ⟨by rw [hc], by rw [hc]; rfl, isNoop_complete_iff, fun h => ?_, fun h => by rw [complete_value_of_settled h]⟩
  have hs := f.completed_settled
  rwa [completed, h] at hs

/-! ## What a pass changes and reports -/

/-- The elements that a pass joins to the end, said of the flow: those that are neither the start nor the end and that no
connector leaves. -/
theorem dangling_eq_filter (f : Flow) :
    f.dangling = f.elements.keys.filter fun k =>
      k ≠ startName ∧ k ≠ endName ∧ ∀ c ∈ f.connectors, c.source ≠ k := by
  unfold dangling
  apply List.filter_congr
  intro k _
  rw [Bool.eq_iff_iff]
  simp [and_assoc]

/-- A flow, the flow that a pass makes of it, and what the pass reports. -/
structure CompletesTo (f g : Flow) (r : Completion) : Prop where
  /-- Nothing but elements and connectors is touched. -/
  frame : g = { f with elements := g.elements, connectors := g.connectors }
  /-- Every connector keeps its place and is led to the end if its target is no element. Behind them stands a plain connector
  to the end for each element, in order, that is neither the start nor the end and that no connector leaves. -/
  connectors : g.connectors =
    (f.connectors.map fun c => if c.target ∈ f.elements.keys then c else { c with target := endName }) ++
      (f.elements.keys.filter fun k =>
        k ≠ startName ∧ k ≠ endName ∧ ∀ c ∈ f.connectors, c.source ≠ k).map (.plain · endName)
  /-- Every element keeps its place. Behind them stands the end if there was none and a connector leads to it now that did
  not before. -/
  elements : g.elements.entries =
    f.elements.entries ++
      if endName ∉ f.elements.keys ∧ 0 < r.redirected + r.terminalEdges then
        [(endName, { name := endName, kind := .finish, label := some "End" })]
      else []
  redirected : r.redirected = f.connectors.countP fun c => c.target ∉ f.elements.keys
  terminalEdges : g.connectors.length = f.connectors.length + r.terminalEdges
  endAdded : r.endAdded = true ↔ endName ∈ g.elements.keys ∧ endName ∉ f.elements.keys

/-- Two passes over one flow make the same flow of it and report the same. -/
theorem CompletesTo.unique {f g g' : Flow} {r r' : Completion} (h : f.CompletesTo g r) (h' : f.CompletesTo g' r') :
    g = g' ∧ r = r' := by
  have hconnectors : g.connectors = g'.connectors := h.connectors.trans h'.connectors.symm
  have hredirected : r.redirected = r'.redirected := h.redirected.trans h'.redirected.symm
  have hterminal : r.terminalEdges = r'.terminalEdges := by
    have hlength := h.terminalEdges
    rw [hconnectors, h'.terminalEdges] at hlength
    omega
  have helements : g.elements = g'.elements := by
    apply OrderedMap.ext
    rw [h.elements, h'.elements, hredirected, hterminal]
  have hadded : r.endAdded = r'.endAdded := by
    rw [Bool.eq_iff_iff, h.endAdded, h'.endAdded, helements]
  refine ⟨?_, ?_⟩
  · rw [h.frame, h'.frame, helements, hconnectors]
  · cases r
    cases r'
    simp only at hredirected hterminal hadded
    rw [hredirected, hterminal, hadded]

/-- The completion of a flow is a completion of it in every respect. -/
theorem completesTo_complete (f : Flow) : f.CompletesTo f.complete.value.1 f.complete.value.2 where
  frame := by
    rw [complete_value]
  connectors := by
    have hresolve : ∀ c ∈ f.connectors, c.resolve f.elements.contains =
        if c.target ∈ f.elements.keys then c else { c with target := endName } := by
      intro c _
      unfold Connector.resolve
      simp only [OrderedMap.contains_iff]
    rw [← dangling_eq_filter, ← List.map_congr_left hresolve]
    exact f.completed_connectors
  elements := by
    have hadded : f.complete.value.2.endAdded = true ↔
        endName ∉ f.elements.keys ∧ 0 < f.complete.value.2.redirected + f.complete.value.2.terminalEdges := by
      rw [complete_value]
      simp [Progress.after, ← OrderedMap.contains_iff, Nat.add_comm, and_comm]
    simp only [← hadded]
    exact f.entries_completed
  redirected := by
    rw [complete_value]
    simp [Progress.after, unresolved, ← OrderedMap.contains_iff]
  terminalEdges := by
    rw [complete_value]
    simp [Progress.after]
  endAdded := f.endAdded_complete_iff

/-- What a pass makes of a flow and what it reports is exactly this: the flow `g` and the report `r` that `CompletesTo`
describes, and there is only one such flow and one such report. -/
theorem complete_value_eq_iff {f g : Flow} {r : Completion} : f.complete.value = (g, r) ↔ f.CompletesTo g r := by
  constructor
  · intro h
    have hpass := f.completesTo_complete
    rw [h] at hpass
    exact hpass
  · intro h
    obtain ⟨hg, hr⟩ := f.completesTo_complete.unique h
    exact Prod.ext hg hr

end Flow

end FlowDiagram

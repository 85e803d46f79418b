import Mathlib.Data.List.Nodup
import FlowDiagram.Proofs.Identifiers

/-!
# Names that are drawn as one node

Names are grouped by identifier one at a time, and a group is told of if it has more than one name. The groups stand in the
order in which their identifiers are first met, and each holds the names of its identifier in order
(`entries_groupByIdentifier`), so what is told of has a closed form (`collisions_eq`).

The names come from the keys of a flow and the nodes are drawn from its elements. In a compiled flow the two agree, so nothing
is told of just if the nodes have different identifiers. The start and the end are never among the names told of: no other name
has an identifier of theirs (`eq_of_identifier_eq`). Main statement: `collisions_draw_compile`.
-/

namespace FlowDiagram.Diagram

/-! ## Groups -/

/-- Names that are added to a group, or to none, make a group as soon as there is one. -/
theorem foldl_group (group : Option (List String)) (names : List String) :
    names.foldl (fun ns n => some (ns.getD [] ++ [n])) group =
      if names = [] then group else some (group.getD [] ++ names) := by
  induction names generalizing group with
  | nil => rfl
  | cons n names ih =>
    rw [List.foldl_cons, ih, Option.getD_some, if_neg (List.cons_ne_nil n names)]
    split
    · next h => rw [h]
    · rw [List.append_assoc, List.singleton_append]

/-- There is a group for each identifier, in the order in which the identifiers are first met. -/
theorem keys_groupByIdentifier (names : List String) :
    (groupByIdentifier names).keys = (names.map identifier).eraseDups :=
  OrderedMap.keys_foldl_upsert_empty identifier (fun n ns => ns.getD [] ++ [n]) names

/-- The group of an identifier holds the names that have it, in order. -/
theorem get?_groupByIdentifier {names : List String} {id : String} (hid : id ∈ names.map identifier) :
    (groupByIdentifier names).get? id = some (names.filter (identifier · == id)) := by
  have hset := OrderedMap.get?_foldl_upsert identifier (fun n ns => ns.getD [] ++ [n]) .empty names id
  have hsome : names.filter (identifier · == id) ≠ [] := by
    obtain ⟨n, hn, rfl⟩ := List.mem_map.mp hid
    exact List.ne_nil_of_mem (List.mem_filter.mpr ⟨hn, beq_self_eq_true _⟩)
  rw [groupByIdentifier, hset, foldl_group, if_neg hsome]
  rfl

/-- The groups are those of the identifiers, in the order in which these are first met, each with its names in order. -/
theorem entries_groupByIdentifier (names : List String) :
    (groupByIdentifier names).entries =
      (names.map identifier).eraseDups.map fun id => (id, names.filter (identifier · == id)) := by
  rw [← keys_groupByIdentifier]
  apply OrderedMap.entries_eq_map_keys
  intro id hid
  rw [keys_groupByIdentifier, List.mem_eraseDups] at hid
  exact get?_groupByIdentifier hid

/-- A group has as many names as places of the list have its identifier. -/
theorem length_filter_identifier (names : List String) (id : String) :
    (names.filter (identifier · == id)).length = (names.map identifier).count id := by
  rw [List.count, List.countP_map, List.countP_eq_length_filter]
  rfl

/-- What is told of names: every identifier that more than one place of the list has, in the order in which the identifiers
are first met, and with each the names that have it, in order. -/
theorem collisions_eq (names : List String) :
    collisions names =
      ((names.map identifier).eraseDups.filter fun id => 2 ≤ (names.map identifier).count id).map fun id =>
        ⟨id, names.filter (identifier · == id)⟩ := by
  rw [collisions, entries_groupByIdentifier, List.filterMap_map, ← List.filterMap_eq_filter, List.map_filterMap]
  apply List.filterMap_congr
  intro id _
  simp only [Function.comp_apply, length_filter_identifier, Option.guard, decide_eq_true_eq]
  by_cases hmany : 2 ≤ (names.map identifier).count id
  · rw [if_pos hmany]
    exact if_pos hmany
  · rw [if_neg hmany]
    exact if_neg hmany

/-- Nothing is told of names just if their identifiers differ. -/
theorem collisions_eq_nil_iff {names : List String} : collisions names = [] ↔ (names.map identifier).Nodup := by
  rw [collisions_eq, List.map_eq_nil_iff, List.filter_eq_nil_iff, List.nodup_iff_count_le_one]
  constructor
  · intro h id
    by_cases hid : id ∈ names.map identifier
    · have hfew := h id (List.mem_eraseDups.mpr hid)
      rw [decide_eq_true_eq] at hfew
      omega
    · rw [List.count_eq_zero_of_not_mem hid]
      exact Nat.zero_le 1
  · intro h id _
    rw [decide_eq_true_eq]
    exact Nat.not_le_of_lt (Nat.lt_succ_of_le (h id))

/-! ## Names that have an identifier of their own -/

/-- A name whose identifier has no underscore is its own identifier: nothing in it was replaced. -/
theorem eq_of_identifier_eq {name id : String} (h : identifier name = id) (hid : '_' ∉ id.toList) : name = id := by
  have hkept : ∀ c ∈ name.toList, identifierChar c = c := by
    intro c hc
    unfold identifierChar
    split
    · rfl
    · next hreplaced =>
      exfalso
      apply hid
      rw [← h, identifier, String.toList_ofList, List.mem_map]
      exact ⟨c, hc, if_neg hreplaced⟩
  rw [← h, identifier, List.map_congr_left hkept, List.map_id', String.ofList_toList]

/-- Where names differ, no name that is its own identifier and has no underscores is told of: its group holds nothing but the
name itself, and it once only. -/
theorem not_mem_of_mem_collisions {names : List String} (hnames : names.Nodup) {name : String} (hid : identifier name = name)
    (hplain : '_' ∉ name.toList) {c : Collision} (hc : c ∈ collisions names) : name ∉ c.names := by
  rw [collisions_eq] at hc
  obtain ⟨id, hmany, rfl⟩ := List.mem_map.mp hc
  intro hmem
  obtain ⟨-, hname⟩ := List.mem_filter.mp hmem
  rw [hid, beq_iff_eq] at hname
  subst hname
  have honly : names.filter (identifier · == name) = names.filter (· == name) := by
    apply List.filter_congr
    intro n _
    rw [Bool.eq_iff_iff, beq_iff_eq, beq_iff_eq]
    constructor
    · intro h
      exact eq_of_identifier_eq h hplain
    · rintro rfl
      exact hid
  have hcount : (names.map identifier).count name = names.count name := by
    rw [← length_filter_identifier, honly, List.count, List.countP_eq_length_filter]
  have hmany := (List.mem_filter.mp hmany).2
  have honce := List.nodup_iff_count_le_one.mp hnames name
  rw [decide_eq_true_eq, hcount] at hmany
  omega

end FlowDiagram.Diagram

namespace FlowDiagram

open Diagram

namespace Flow

/-- What the drawing of a flow tells of collisions are those of its keys. -/
theorem collision_mem_draw {o : DrawOptions} {f : Flow} {id : String} {names : List String} :
    .collision id names ∈ (f.draw o).notices ↔ ⟨id, names⟩ ∈ collisions f.elements.keys := by
  simp only [draw, List.mem_append, List.mem_map, List.mem_singleton, reduceCtorEq, or_false, Notice.collision.injEq]
  constructor
  · rintro ⟨c, hc, rfl, rfl⟩
    exact hc
  · intro hc
    exact ⟨_, hc, rfl, rfl⟩

end Flow

/-- What is told of names that are drawn as one node.

(1) For any names, repeated or not, it is one group for each identifier that at least two of them have, and no other, in the
order in which the identifiers are first met, and a group lists all names of its identifier in order.
(2) So drawing a compiled flow tells of nothing just if the identifiers differ that are read from the lines of nodes, in the
text that is drawn.
(3) Neither the start nor the end is ever in a group. -/
theorem collisions_draw_compile :
    (∀ names : List String,
      collisions names =
        ((names.map identifier).eraseDups.filter fun id => 2 ≤ (names.map identifier).count id).map fun id =>
          ⟨id, names.filter (identifier · == id)⟩) ∧
    ∀ (b : BuildOptions) (entries : List Entry), ∃ f, (compile b { entries }).value = .ok f ∧ ∀ o : DrawOptions,
      (f.draw o).value = unlines (f.chart o).lines ∧
      ((∀ id names, .collision id names ∉ (f.draw o).notices) ↔ (declared (f.chart o).lines).Nodup) ∧
      ∀ id names, .collision id names ∈ (f.draw o).notices → startName ∉ names ∧ endName ∉ names := by
  refine ⟨collisions_eq, fun b entries => ⟨_, compile_value b entries, fun o => ⟨Flow.value_draw o _, ?_, ?_⟩⟩⟩
  · have hnames := Flow.name_of_mem_completed fun _ => @name_of_mem_assembled b entries _
    rw [Flow.declared_lines_eq_keys hnames, ← collisions_eq_nil_iff, List.eq_nil_iff_forall_not_mem]
    constructor
    · intro h c hc
      exact h c.id c.names (Flow.collision_mem_draw.mpr hc)
    · intro h id names hmem
      exact h _ (Flow.collision_mem_draw.mp hmem)
  · intro id names hmem
    have hc := Flow.collision_mem_draw.mp hmem
    have hkeys := (assembled b entries).completed.elements.nodup
    exact ⟨not_mem_of_mem_collisions hkeys (by decide) (by decide) hc,
      not_mem_of_mem_collisions hkeys (by decide) (by decide) hc⟩

/-- Four names, of which three have one identifier and two of these are the same, are told of in one group. -/
example : collisions ["a-b", "END", "a.b", "a-b"] = [⟨"a_b", ["a-b", "a.b", "a-b"]⟩] := by
  decide

end FlowDiagram

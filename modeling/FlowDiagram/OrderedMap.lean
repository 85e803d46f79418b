/-!
# Ordered maps

A map that keeps the order in which its keys were first added. Its keys are distinct, which is part of the type. A
value is added or replaced by `upsert`, which is told the value that the key had: the key keeps its place if it has
one and goes to the end otherwise.

Main statements: what `upsert` and `erase` do to the keys (`keys_upsert`, `keys_erase`), to the value of the key
(`get?_upsert_self`) and to all others (`get?_upsert_of_ne`). The order decides nothing about values (`get?_eq_of_perm`).
Replacing all values goes along with an insertion (`mapWithKey_insert`). After keys were set one after another they stand in
the order in which they were first met (`keys_foldl_upsert`), each with what was made of its value (`get?_foldl_upsert`).
-/

namespace FlowDiagram

/-- A map that keeps the order in which its keys were first added. -/
structure OrderedMap (κ α : Type) where
  entries : List (κ × α)
  nodup : (entries.map (·.1)).Nodup

namespace OrderedMap

variable {κ α β : Type}

/-- The map with no entries. -/
def empty : OrderedMap κ α :=
  ⟨[], List.nodup_nil⟩

instance : EmptyCollection (OrderedMap κ α) :=
  ⟨empty⟩

instance : Inhabited (OrderedMap κ α) :=
  ⟨empty⟩

/-- Maps with the same entries in the same order are equal. -/
@[ext] theorem ext {m n : OrderedMap κ α} (h : m.entries = n.entries) : m = n := by
  cases m
  cases n
  cases h
  rfl

/-- The keys, in order. -/
def keys (m : OrderedMap κ α) : List κ :=
  m.entries.map (·.1)

/-- The values, in the order of their keys. -/
def values (m : OrderedMap κ α) : List α :=
  m.entries.map (·.2)

/-- The number of entries. -/
def size (m : OrderedMap κ α) : Nat :=
  m.entries.length

/-- Whether a map has no entries. -/
def isEmpty (m : OrderedMap κ α) : Bool :=
  m.entries.isEmpty

/-- A map with each value replaced by what a function gives for its entry. -/
def mapWithKey (f : κ → α → β) (m : OrderedMap κ α) : OrderedMap κ β :=
  ⟨m.entries.map fun e => (e.1, f e.1 e.2), by simpa [Function.comp_def] using m.nodup⟩

/-- A map has the same keys in the same order when its values are changed. -/
@[simp] theorem keys_mapWithKey (f : κ → α → β) (m : OrderedMap κ α) : (m.mapWithKey f).keys = m.keys := by
  simp [keys, mapWithKey, Function.comp_def]

variable [DecidableEq κ]

/-- The value of a key. -/
def get? (m : OrderedMap κ α) (k : κ) : Option α :=
  (m.entries.find? fun e => decide (e.1 = k)).map (·.2)

/-- Whether a map has a key. -/
def contains (m : OrderedMap κ α) (k : κ) : Bool :=
  decide (k ∈ m.keys)

/-- The entries after the value of a key was set to what a function makes of the value it had. -/
def upsertEntries (k : κ) (f : Option α → α) : List (κ × α) → List (κ × α)
  | [] => [(k, f none)]
  | e :: r => if e.1 = k then (e.1, f (some e.2)) :: r else e :: upsertEntries k f r

/-- Setting the value of a key leaves the keys of entries as they are, with the key at the end if it is new. -/
theorem map_fst_upsertEntries (k : κ) (f : Option α → α) (es : List (κ × α)) :
    (upsertEntries k f es).map (·.1) =
      if k ∈ es.map (·.1) then es.map (·.1) else es.map (·.1) ++ [k] := by
  induction es with
  | nil => rfl
  | cons e r ih =>
    by_cases h : e.1 = k
    · simp [upsertEntries, h]
    · rw [upsertEntries, if_neg h, List.map_cons, ih]
      have hk : k ≠ e.1 := fun h' => h h'.symm
      by_cases hr : k ∈ r.map (·.1) <;> simp_all

theorem nodup_upsertEntries (k : κ) (f : Option α → α) {es : List (κ × α)} (h : (es.map (·.1)).Nodup) :
    ((upsertEntries k f es).map (·.1)).Nodup := by
  rw [map_fst_upsertEntries]
  split
  · exact h
  · next hk =>
    rw [List.nodup_append]
    refine ⟨h, by simp, fun a ha b hb => ?_⟩
    rw [List.mem_singleton] at hb
    exact fun e => hk (hb ▸ e ▸ ha)

/-- Sets the value of a key to what a function makes of the value it had. -/
def upsert (m : OrderedMap κ α) (k : κ) (f : Option α → α) : OrderedMap κ α :=
  ⟨upsertEntries k f m.entries, nodup_upsertEntries k f m.nodup⟩

/-- Sets the value of a key. -/
def insert (m : OrderedMap κ α) (k : κ) (v : α) : OrderedMap κ α :=
  m.upsert k fun _ => v

/-- Removes a key. The others keep their order. -/
def erase (m : OrderedMap κ α) (k : κ) : OrderedMap κ α :=
  ⟨m.entries.filter fun e => decide (e.1 ≠ k), (List.filter_sublist.map _).nodup m.nodup⟩

/-- A map contains a key just if it is among the keys of the map. -/
theorem contains_iff {m : OrderedMap κ α} {k : κ} : m.contains k = true ↔ k ∈ m.keys :=
  decide_eq_true_iff

/-- Setting the value of a key leaves the keys of a map as they are, with the key at the end if it is new. -/
theorem keys_upsert (m : OrderedMap κ α) (k : κ) (f : Option α → α) :
    (m.upsert k f).keys = if k ∈ m.keys then m.keys else m.keys ++ [k] :=
  map_fst_upsertEntries k f m.entries

/-- Inserting a value leaves the keys of a map as they are, with the key of the value at the end if it is new. -/
theorem keys_insert (m : OrderedMap κ α) (k : κ) (v : α) :
    (m.insert k v).keys = if k ∈ m.keys then m.keys else m.keys ++ [k] :=
  keys_upsert m k _

/-- A map grows by one with a new key, and not with one it has. -/
theorem size_insert (m : OrderedMap κ α) (k : κ) (v : α) :
    (m.insert k v).size = if m.contains k then m.size else m.size + 1 := by
  have hlength : ∀ n : OrderedMap κ α, n.size = n.keys.length := fun n => (List.length_map _).symm
  rw [hlength, hlength, keys_insert]
  by_cases h : k ∈ m.keys
  · rw [if_pos h, if_pos (contains_iff.2 h)]
  · rw [if_neg h, if_neg (fun h' => h (contains_iff.1 h')), List.length_append, List.length_singleton]

/-- Setting the value of a key makes it a key of the map, and no other. -/
theorem mem_keys_upsert {m : OrderedMap κ α} {k j : κ} {f : Option α → α} :
    j ∈ (m.upsert k f).keys ↔ j ∈ m.keys ∨ j = k := by
  rw [keys_upsert]
  split
  · next hk => exact ⟨Or.inl, fun h => h.elim id (· ▸ hk)⟩
  · rw [List.mem_append, List.mem_singleton]

theorem mem_keys_insert {m : OrderedMap κ α} {k j : κ} {v : α} :
    j ∈ (m.insert k v).keys ↔ j ∈ m.keys ∨ j = k :=
  mem_keys_upsert

/-- A new key goes to the end. -/
theorem entries_insert_of_not_mem {m : OrderedMap κ α} {k : κ} (v : α) (hk : k ∉ m.keys) :
    (m.insert k v).entries = m.entries ++ [(k, v)] := by
  obtain ⟨es, h⟩ := m
  simp only [keys] at hk
  simp only [insert, upsert]
  clear h
  induction es with
  | nil => rfl
  | cons e r ih =>
    rw [List.map_cons, List.mem_cons, not_or] at hk
    rw [upsertEntries, if_neg (Ne.symm hk.1), ih hk.2, List.cons_append]

/-- An entry after `insert` was there before, or is the one added. -/
theorem mem_entries_of_mem_insert {m : OrderedMap κ α} {k : κ} {v : α} {p : κ × α}
    (hp : p ∈ (m.insert k v).entries) : p ∈ m.entries ∨ p = (k, v) := by
  obtain ⟨es, h⟩ := m
  simp only [insert, upsert] at hp ⊢
  clear h
  induction es with
  | nil => exact Or.inr (List.mem_singleton.mp hp)
  | cons e r ih =>
    rw [upsertEntries] at hp
    split at hp
    · next he =>
      rcases List.mem_cons.mp hp with rfl | hp
      · exact Or.inr (by rw [he])
      · exact Or.inl (List.mem_cons_of_mem e hp)
    · rcases List.mem_cons.mp hp with rfl | hp
      · exact Or.inl List.mem_cons_self
      · exact (ih hp).imp (List.mem_cons_of_mem e) id

/-- Erasing a key takes it from the keys of a map and leaves the others in order. -/
theorem keys_erase (m : OrderedMap κ α) (k : κ) : (m.erase k).keys = m.keys.filter fun a => decide (a ≠ k) := by
  simp [keys, erase, List.filter_map, Function.comp_def]

/-- After `upsert` the key has the value made of its former one. -/
theorem get?_upsert_self (m : OrderedMap κ α) (k : κ) (f : Option α → α) :
    (m.upsert k f).get? k = some (f (m.get? k)) := by
  obtain ⟨es, h⟩ := m
  simp only [get?, upsert]
  clear h
  induction es with
  | nil => simp [upsertEntries]
  | cons e r ih =>
    by_cases he : e.1 = k
    · simp [upsertEntries, he]
    · simp [upsertEntries, he, ih]

/-- After `upsert` every other key has the value it had. -/
theorem get?_upsert_of_ne (m : OrderedMap κ α) {k j : κ} (f : Option α → α) (hj : j ≠ k) :
    (m.upsert k f).get? j = m.get? j := by
  obtain ⟨es, h⟩ := m
  simp only [get?, upsert]
  clear h
  induction es with
  | nil => simp [upsertEntries, hj.symm]
  | cons e r ih =>
    by_cases he : e.1 = k
    · have : e.1 ≠ j := fun h => hj (h ▸ he)
      simp [upsertEntries, he, hj.symm]
    · rw [upsertEntries, if_neg he]
      by_cases hej : e.1 = j <;> simp [hej, ih]

/-- The value of a key is the one that stands with it in an entry. -/
theorem get?_eq_some_iff {m : OrderedMap κ α} {k : κ} {v : α} : m.get? k = some v ↔ (k, v) ∈ m.entries := by
  obtain ⟨es, h⟩ := m
  simp only [get?]
  induction es with
  | nil => simp
  | cons e r ih =>
    obtain ⟨hfirst, hrest⟩ := List.nodup_cons.mp h
    rw [List.mem_cons]
    by_cases he : e.1 = k
    · simp only [List.find?_cons, decide_eq_true he, Option.map_some, Option.some.injEq]
      constructor
      · rintro rfl
        exact Or.inl (by rw [← he])
      · rintro (hv | hv)
        · rw [← hv]
        · have hagain : e.1 ∈ r.map (·.1) := List.mem_map.mpr ⟨(k, v), hv, he.symm⟩
          exact absurd hagain hfirst
    · simp only [List.find?_cons, decide_eq_false he, ih hrest]
      constructor
      · exact Or.inr
      · rintro (hv | hv)
        · exact absurd (congrArg Prod.fst hv).symm he
        · exact hv

/-- Maps with the same entries in any order have the same values. -/
theorem get?_eq_of_perm {m n : OrderedMap κ α} (h : m.entries.Perm n.entries) (k : κ) : m.get? k = n.get? k := by
  apply Option.ext
  intro v
  rw [get?_eq_some_iff, get?_eq_some_iff, h.mem_iff]

@[simp] theorem contains_mapWithKey (f : κ → α → β) (m : OrderedMap κ α) : (m.mapWithKey f).contains = m.contains := by
  funext k
  rw [contains, contains, keys_mapWithKey]

/-- Replacing values and adding an entry can be done in either order. -/
theorem mapWithKey_insert (f : κ → α → β) (m : OrderedMap κ α) (k : κ) (v : α) :
    (m.insert k v).mapWithKey f = (m.mapWithKey f).insert k (f k v) := by
  apply ext
  obtain ⟨es, h⟩ := m
  simp only [insert, upsert, mapWithKey]
  clear h
  induction es with
  | nil => rfl
  | cons e r ih =>
    rw [List.map_cons, upsertEntries, upsertEntries]
    by_cases he : e.1 = k
    · rw [if_pos he, if_pos he, List.map_cons, he]
    · rw [if_neg he, if_neg he, List.map_cons, ih]

/-- A map whose keys have the values that a function gives them holds them in the order of its keys. -/
theorem entries_eq_map_keys {m : OrderedMap κ α} {g : κ → α} (h : ∀ k ∈ m.keys, m.get? k = some (g k)) :
    m.entries = m.keys.map fun k => (k, g k) := by
  have hself : ∀ p ∈ m.entries, (p.1, g p.1) = p := by
    intro p hp
    have hvalue : m.get? p.1 = some p.2 := get?_eq_some_iff.mpr hp
    rw [h p.1 (List.mem_map_of_mem hp)] at hvalue
    rw [Option.some.inj hvalue]
  rw [keys, List.map_map]
  exact ((List.map_congr_left hself).trans (List.map_id m.entries)).symm

/-! ## Keys set one after another -/

/-- Keys that are set one after another go behind those that a map has, in the order in which they are first met. -/
theorem keys_foldl_upsert (key : β → κ) (f : β → Option α → α) (m : OrderedMap κ α) (xs : List β) :
    (xs.foldl (fun m x => m.upsert (key x) (f x)) m).keys =
      m.keys ++ ((xs.map key).filter fun k => !m.contains k).eraseDups := by
  induction xs generalizing m with
  | nil => simp
  | cons x xs ih =>
    have hcontains : ∀ k, (m.upsert (key x) (f x)).contains k = (m.contains k || k == key x) := by
      intro k
      rw [Bool.eq_iff_iff, contains_iff, mem_keys_upsert, Bool.or_eq_true, contains_iff, beq_iff_eq]
    rw [List.foldl_cons, ih, keys_upsert, List.map_cons]
    by_cases hx : key x ∈ m.keys
    · have hsame : ∀ k, (m.upsert (key x) (f x)).contains k = m.contains k := by
        intro k
        rw [hcontains, Bool.or_eq_left_iff_imp, beq_iff_eq]
        rintro rfl
        exact contains_iff.2 hx
      rw [if_pos hx, List.filter_cons, if_neg (by simpa using contains_iff.2 hx)]
      simp only [hsame]
    · have hnew : (!m.contains (key x)) = true := by
        rw [Bool.not_eq_true', ← Bool.not_eq_true, contains_iff]
        exact hx
      rw [if_neg hx, List.filter_cons, if_pos hnew, List.eraseDups_cons, List.filter_filter, List.append_assoc,
        List.singleton_append]
      simp only [hcontains, Bool.not_or, Bool.and_comm]

/-- Keys that are set in a map without entries stand in the order in which they are first met. -/
theorem keys_foldl_upsert_empty (key : β → κ) (f : β → Option α → α) (xs : List β) :
    (xs.foldl (fun m x => m.upsert (key x) (f x)) (empty : OrderedMap κ α)).keys = (xs.map key).eraseDups := by
  rw [keys_foldl_upsert]
  exact congrArg List.eraseDups (List.filter_eq_self.mpr fun _ _ => rfl)

/-- The value of a key after keys were set one after another: what those that set it make of the value it had. -/
theorem get?_foldl_upsert (key : β → κ) (f : β → Option α → α) (m : OrderedMap κ α) (xs : List β) (k : κ) :
    (xs.foldl (fun m x => m.upsert (key x) (f x)) m).get? k =
      (xs.filter (key · == k)).foldl (fun v x => some (f x v)) (m.get? k) := by
  induction xs generalizing m with
  | nil => rfl
  | cons x xs ih =>
    rw [List.foldl_cons, ih]
    by_cases hx : key x = k
    · rw [← hx, get?_upsert_self, List.filter_cons, if_pos (beq_self_eq_true _), List.foldl_cons]
    · rw [get?_upsert_of_ne m _ (Ne.symm hx), List.filter_cons, if_neg (fun h => hx (beq_iff_eq.1 h))]

end OrderedMap

end FlowDiagram

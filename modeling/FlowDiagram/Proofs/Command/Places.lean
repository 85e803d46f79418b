import Mathlib.Data.List.Induction
import FlowDiagram.Command.FileTree

/-!
# What paths lead to

A path is its segments with slashes between them (`Path.intercalate_segments`), and an initial part of the segments is a path
again (`Path.segments_join`). What a path leads to in a file tree (`FileTree.spot`) is found one segment at a time
(`FileTree.lead_append_singleton`), so statements on it go by induction on the segments, the last one first.

Where the directories of a tree stay, a path leads to the same place as before, whatever is at the place now
(`FileTree.Keeps.spot_target`). A file tree is within another if it has the same files and no directories that the other does not
have (`FileTree.Within`). Main statement: segments lead to the same in both, or they stop short in the smaller one because a
directory is missing (`FileTree.Within.lead_cases`).
-/

namespace FlowDiagram

/-! ## Paths and their segments -/

namespace Path

/-- Cutting a path apart is splitting its characters. -/
theorem split_eq_splitOn (c : Char) (s : List Char) : split c s = s.splitOn c := by
  induction s with
  | nil => rfl
  | cons d r ih =>
    rw [split, List.splitOn_cons_eq_if_modifyHead, ih]
    split
    · rfl
    · cases hr : r.splitOn c with
      | nil => exact absurd hr (List.splitOn_ne_nil c r)
      | cons p ps => rfl

/-- Slashes stand between segments, never in one. -/
theorem not_mem_of_mem_split {c : Char} {s p : List Char} (hp : p ∈ split c s) : c ∉ p := by
  induction s generalizing p with
  | nil =>
    rw [split, List.mem_singleton] at hp
    rw [hp]
    exact List.not_mem_nil
  | cons d r ih =>
    rw [split] at hp
    split at hp
    · rcases List.mem_cons.mp hp with rfl | hp
      · exact List.not_mem_nil
      · exact ih hp
    · next hd =>
      have hfirst : c ≠ d := by
        rintro rfl
        exact hd (beq_self_eq_true c)
      split at hp
      · rw [List.mem_singleton] at hp
        rw [hp, List.mem_singleton]
        exact hfirst
      · next q qs hr =>
        rcases List.mem_cons.mp hp with rfl | hp
        · rw [List.mem_cons, not_or]
          exact ⟨hfirst, ih (hr ▸ List.mem_cons_self)⟩
        · exact ih (hr ▸ List.mem_cons_of_mem q hp)

/-- No segment of a path has a slash. -/
theorem not_mem_of_mem_segments {path s : String} (hs : s ∈ segments path) : '/' ∉ s.toList := by
  obtain ⟨p, hp, rfl⟩ := List.mem_map.mp hs
  rw [String.toList_ofList]
  exact not_mem_of_mem_split hp

/-- A path is its segments with slashes between them. -/
theorem intercalate_segments (path : String) : "/".intercalate (segments path) = path := by
  have hlists : (segments path).map String.toList = path.toList.splitOn '/' := by
    rw [segments, split_eq_splitOn, List.map_map]
    exact (List.map_congr_left fun _ _ => String.toList_ofList).trans (List.map_id _)
  apply String.toList_inj.mp
  rw [String.toList_intercalate, hlists]
  exact List.intercalate_splitOn '/'

/-- Segments without slashes are read back from the path that they make with slashes between them. -/
theorem segments_intercalate {ss : List String} (hne : ss ≠ []) (hss : ∀ s ∈ ss, '/' ∉ s.toList) :
    segments ("/".intercalate ss) = ss := by
  have hlists : ("/".intercalate ss).toList.splitOn '/' = ss.map String.toList := by
    rw [String.toList_intercalate]
    apply List.splitOn_intercalate
    · intro l hl
      obtain ⟨s, hs, rfl⟩ := List.mem_map.mp hl
      exact hss s hs
    · exact fun h => hne (List.map_eq_nil_iff.mp h)
  rw [segments, split_eq_splitOn, hlists, List.map_map]
  exact (List.map_congr_left fun _ _ => String.ofList_toList).trans (List.map_id _)

theorem segments_ne_nil (path : String) : segments path ≠ [] := by
  rw [segments, split_eq_splitOn]
  exact fun h => List.splitOn_ne_nil _ _ (List.map_eq_nil_iff.mp h)

/-- What some of its first segments make is the beginning of a path. -/
theorem exists_intercalate_append (separator : String) {ss : List String} (hne : ss ≠ []) (later : List String) :
    ∃ r, separator.intercalate (ss ++ later) = separator.intercalate ss ++ r := by
  cases later with
  | nil => exact ⟨"", by rw [List.append_nil, String.append_empty]⟩
  | cons l later =>
    induction ss with
    | nil => exact absurd rfl hne
    | cons s ss ih =>
      cases ss with
      | nil => exact ⟨separator ++ separator.intercalate (l :: later), by simp [String.append_assoc]⟩
      | cons s' ss =>
        obtain ⟨r, hr⟩ := ih (List.cons_ne_nil s' ss)
        refine ⟨r, ?_⟩
        rw [List.cons_append, List.cons_append, String.intercalate_cons_cons, String.intercalate_cons_cons,
          ← List.cons_append, hr, String.append_assoc, String.append_assoc, String.append_assoc]

/-- The first segments of a path, as a path, are these segments again. For the root alone there is one segment more. -/
theorem segments_join {first : String} {rest : List String} (hslash : ∀ s ∈ first :: rest, '/' ∉ s.toList)
    (hroot : first :: rest ≠ [""]) : segments (join (first :: rest)) = first :: rest := by
  rw [join, if_neg (fun h => hroot (eq_of_beq h))]
  exact segments_intercalate (List.cons_ne_nil first rest) hslash

/-- The first segments of a path, as a path, are not the empty path. -/
theorem join_ne_empty {first : String} {rest : List String} (hslash : ∀ s ∈ first :: rest, '/' ∉ s.toList) :
    join (first :: rest) ≠ "" := by
  by_cases hroot : first :: rest = [""]
  · rw [hroot]
    decide
  · intro h
    have hsegments := segments_join hslash hroot
    rw [h] at hsegments
    exact hroot hsegments.symm

/-- No path to a directory on the way is longer than the whole path. -/
theorem utf8ByteSize_join_le {path first : String} {rest later : List String} (hne : path ≠ "")
    (hsegments : segments path = first :: (rest ++ later)) : (join (first :: rest)).utf8ByteSize ≤ path.utf8ByteSize := by
  rw [join]
  split
  · have hsize : path.utf8ByteSize ≠ 0 := by
      intro h
      exact hne (String.utf8ByteSize_eq_zero_iff.mp h)
    have hone : "/".utf8ByteSize = 1 := rfl
    omega
  · obtain ⟨r, hr⟩ := exists_intercalate_append "/" (List.cons_ne_nil first rest) later
    have hpath : path = "/".intercalate (first :: rest) ++ r := by
      rw [← hr, ← intercalate_segments path, hsegments]
      rfl
    rw [hpath, String.utf8ByteSize_append]
    exact Nat.le_add_right _ _

/-- The directories on the way to a name are those that the segments before it go through. -/
theorem enclosing_eq_stations {path first s : String} {rest : List String}
    (hsegments : segments path = first :: (rest ++ [s])) (hs : ¬isFiller s = true) :
    enclosing path = stations first rest.reverse := by
  rw [enclosing, hsegments]
  dsimp only
  rw [List.reverse_append, List.reverse_singleton, List.singleton_append, stations, if_neg hs, List.drop_one, List.tail_cons]

end Path

/-! ## Following segments -/

namespace FileTree

/-- Follows one more segment from the place that the segments before it lead to. -/
def enter (t : FileTree) (segment : String) : Spot → Except FileFault Spot
  | .directory path => t.step path segment
  | .file .. => .error .notDirectory
  | .vacant _ => .error .missing

/-- What the segments of a path lead to. A first segment that is empty stands for the root. -/
def lead (t : FileTree) (first : String) (rest : List String) : Except FileFault Spot :=
  if first = "" then t.follow [] rest else t.follow t.workingDirectory (first :: rest)

/-- What a path leads to. -/
def spot (t : FileTree) (path : String) : Except FileFault Spot := do
  let (base, segments) ← t.route path
  t.follow base segments

theorem follow_singleton (t : FileTree) (base : List String) (s : String) : t.follow base [s] = t.step base s := by
  rw [follow]
  cases h : t.step base s with
  | error e => rfl
  | ok x => cases x <;> rfl

/-- Following segments and one more is entering, with that one, what the others lead to. -/
theorem follow_append_singleton (t : FileTree) (base : List String) (ss : List String) (s : String) :
    t.follow base (ss ++ [s]) = t.follow base ss >>= t.enter s := by
  induction ss generalizing base with
  | nil =>
    rw [List.nil_append, follow_singleton]
    rfl
  | cons s' ss ih =>
    rw [List.cons_append, follow, follow]
    cases h : t.step base s' with
    | error e => rfl
    | ok x =>
      cases x with
      | directory path => exact ih path
      | file path content => cases ss <;> rfl
      | vacant path => cases ss <;> rfl

/-- A path is followed one segment at a time. -/
theorem lead_append_singleton (t : FileTree) (first : String) (rest : List String) (s : String) :
    t.lead first (rest ++ [s]) = t.lead first rest >>= t.enter s := by
  unfold lead
  split
  · exact t.follow_append_singleton [] rest s
  · exact t.follow_append_singleton t.workingDirectory (first :: rest) s

/-- The first segment alone leads to the root or one step from the working directory. -/
theorem lead_nil (t : FileTree) (first : String) :
    t.lead first [] = if first = "" then .ok (.directory []) else t.step t.workingDirectory first := by
  unfold lead
  split
  · rfl
  · exact t.follow_singleton t.workingDirectory first

/-- What segments with one more behind them lead to, if they lead anywhere. -/
theorem lead_append_singleton_eq_ok_iff {t : FileTree} {first : String} {rest : List String} {s : String} {x : Spot} :
    t.lead first (rest ++ [s]) = .ok x ↔
      ∃ path, t.lead first rest = .ok (.directory path) ∧ t.step path s = .ok x := by
  rw [lead_append_singleton]
  constructor
  · intro h
    obtain ⟨y, hrest, hstep⟩ := exists_of_bind_eq_ok h
    cases y with
    | directory path => exact ⟨path, hrest, hstep⟩
    | file path content => cases hstep
    | vacant path => cases hstep
  · rintro ⟨path, hrest, hstep⟩
    rw [hrest]
    exact hstep

/-- A path leads to something just if its segments do from where it starts. -/
theorem spot_eq_ok_iff {t : FileTree} {path : String} {x : Spot} :
    t.spot path = .ok x ↔ ∃ base ss, t.route path = .ok (base, ss) ∧ t.follow base ss = .ok x := by
  rw [spot]
  constructor
  · intro h
    obtain ⟨⟨base, ss⟩, hroute, hfollow⟩ := exists_of_bind_eq_ok h
    exact ⟨base, ss, hroute, hfollow⟩
  · rintro ⟨base, ss, hroute, hfollow⟩
    rw [hroute]
    exact hfollow

/-- Where a path starts from, and its segments from there. -/
theorem route_eq {t : FileTree} {path first : String} {rest : List String}
    (hsegments : Path.segments path = first :: rest) (hne : path ≠ "") (hsize : path.utf8ByteSize ≤ maxPathSize) :
    t.route path = .ok (if first = "" then ([], rest) else (t.workingDirectory, first :: rest)) := by
  rw [route, if_neg (fun h => hne (String.isEmpty_iff.mp h)), if_neg (Nat.not_lt.mpr hsize), hsegments]
  split
  · next r h =>
    obtain ⟨rfl, rfl⟩ := List.cons.inj h
    rw [if_pos rfl]
  · next hfirst =>
    have hfirst : first ≠ "" := by
      rintro rfl
      exact hfirst rest rfl
    rw [if_neg hfirst]

/-- What a path leads to, in terms of its segments. A path that is empty or too long leads nowhere. -/
theorem spot_eq_lead {t : FileTree} {path first : String} {rest : List String}
    (hsegments : Path.segments path = first :: rest) (hne : path ≠ "") (hsize : path.utf8ByteSize ≤ maxPathSize) :
    t.spot path = t.lead first rest := by
  rw [spot, route_eq hsegments hne hsize, lead]
  split <;> rfl

/-- A path that leads somewhere is neither empty nor too long. -/
theorem exists_of_spot_eq_ok {t : FileTree} {path : String} {x : Spot} (h : t.spot path = .ok x) :
    path ≠ "" ∧ path.utf8ByteSize ≤ maxPathSize := by
  rw [spot, route] at h
  split at h
  · cases h
  · next hne =>
    split at h
    · cases h
    · next hsize => exact ⟨fun h' => hne (String.isEmpty_iff.mpr h'), Nat.not_lt.mp hsize⟩

/-! ## One step -/

/-- Where what is found at a place is no directory, the place: something can be written there. -/
def Spot.target? : Spot → Option (List String)
  | .directory _ => none
  | .file path _ => some path
  | .vacant path => some path

/-- What is at a place. -/
def occupant (t : FileTree) (path : List String) : Spot :=
  match t.file? path with
  | some content => .file path content
  | none => if t.isDirectory path then .directory path else .vacant path

/-- A segment either stays among the directories, whatever the tree, or is too long, or names a place. -/
theorem step_cases (base : List String) (s : String) :
    (∃ path, ∀ t : FileTree, t.step base s = .ok (.directory path)) ∨
      (∀ t : FileTree, t.step base s = .error .nameTooLong) ∨
      ∀ t : FileTree, t.step base s = .ok (t.occupant (base ++ [s])) := by
  unfold step
  by_cases hfiller : Path.isFiller s = true
  · exact Or.inl ⟨base, fun _ => if_pos hfiller⟩
  · by_cases hup : (s == "..") = true
    · refine Or.inl ⟨base.dropLast, fun _ => ?_⟩
      rw [if_neg hfiller, if_pos hup]
    · by_cases hlong : maxNameSize < s.utf8ByteSize
      · refine Or.inr (Or.inl fun _ => ?_)
        rw [if_neg hfiller, if_neg hup, if_pos hlong]
      · refine Or.inr (Or.inr fun t => ?_)
        rw [if_neg hfiller, if_neg hup, if_neg hlong, occupant]
        dsimp only
        cases t.file? (base ++ [s]) <;> rfl

/-- Whatever is at the end of one step, nothing is missing on the way. -/
theorem step_ne_missing (t : FileTree) (base : List String) (s : String) : t.step base s ≠ .error .missing := by
  intro h
  rcases step_cases base s with ⟨path, hpath⟩ | hlong | hnamed
  · rw [hpath] at h
    cases h
  · rw [hlong] at h
    cases h
  · rw [hnamed] at h
    cases h

/-- A directory is at a place just if there is no file but a directory. -/
theorem occupant_eq_directory_iff {t : FileTree} {path p : List String} :
    t.occupant path = .directory p ↔ path = p ∧ t.file? path = none ∧ t.isDirectory path = true := by
  unfold occupant
  cases hfile : t.file? path with
  | some content => simp
  | none => by_cases hd : t.isDirectory path = true <;> simp [hd]

/-- A place is vacant just if there is neither a file nor a directory. -/
theorem occupant_eq_vacant_iff {t : FileTree} {path p : List String} :
    t.occupant path = .vacant p ↔ path = p ∧ t.file? path = none ∧ t.isDirectory path = false := by
  unfold occupant
  cases hfile : t.file? path with
  | some content => simp
  | none => by_cases hd : t.isDirectory path = true <;> simp [hd]

theorem occupant_eq_file_iff {t : FileTree} {path p : List String} {content : ByteArray} :
    t.occupant path = .file p content ↔ path = p ∧ t.file? path = some content := by
  unfold occupant
  cases hfile : t.file? path with
  | some c => simp
  | none => by_cases hd : t.isDirectory path = true <;> simp [hd]

/-- What is at a place tells the place. -/
theorem eq_of_occupant_eq {t : FileTree} {path path' : List String} (h : t.occupant path = t.occupant path') :
    path = path' := by
  cases hx : t.occupant path' with
  | directory p =>
    rw [hx] at h
    exact (occupant_eq_directory_iff.mp h).1.trans (occupant_eq_directory_iff.mp hx).1.symm
  | file p content =>
    rw [hx] at h
    exact (occupant_eq_file_iff.mp h).1.trans (occupant_eq_file_iff.mp hx).1.symm
  | vacant p =>
    rw [hx] at h
    exact (occupant_eq_vacant_iff.mp h).1.trans (occupant_eq_vacant_iff.mp hx).1.symm

/-- Where something can be written to what is at a place, it is written to that place. -/
theorem target?_occupant {t : FileTree} {path p : List String} (h : (t.occupant path).target? = some p) : path = p := by
  cases hx : t.occupant path with
  | directory q =>
    rw [hx] at h
    cases h
  | file q content =>
    rw [hx, Spot.target?, Option.some.injEq] at h
    exact (occupant_eq_file_iff.mp hx).1.trans h
  | vacant q =>
    rw [hx, Spot.target?, Option.some.injEq] at h
    exact (occupant_eq_vacant_iff.mp hx).1.trans h

/-! ## Trees in which directories stay -/

/-- Every directory of a tree is one in another tree. -/
structure Keeps (t u : FileTree) : Prop where
  workingDirectory : t.workingDirectory = u.workingDirectory
  directories : ∀ path, t.occupant path = .directory path → u.occupant path = .directory path

/-- Where directories stay, segments that lead to one lead there still. -/
theorem Keeps.lead_directory {t u : FileTree} (h : t.Keeps u) {first : String} {rest path : List String}
    (hlead : t.lead first rest = .ok (.directory path)) : u.lead first rest = .ok (.directory path) := by
  have hstep : ∀ {base : List String} {s : String} {path : List String},
      t.step base s = .ok (.directory path) → u.step base s = .ok (.directory path) := by
    intro base s path hs
    rcases step_cases base s with ⟨q, hq⟩ | hlong | hnamed
    · rw [hq] at hs ⊢
      exact hs
    · rw [hlong] at hs
      cases hs
    · rw [hnamed, Except.ok.injEq] at hs
      obtain ⟨rfl, -, -⟩ := occupant_eq_directory_iff.mp hs
      rw [hnamed, h.directories _ hs]
  induction rest using List.reverseRecOn generalizing path with
  | nil =>
    rw [lead_nil] at hlead ⊢
    split at hlead
    · next hfirst => exact (if_pos hfirst).trans hlead
    · next hfirst =>
      rw [if_neg hfirst, ← h.workingDirectory]
      exact hstep hlead
  | append_singleton rest s ih =>
    obtain ⟨base, hrest, hs⟩ := lead_append_singleton_eq_ok_iff.mp hlead
    exact lead_append_singleton_eq_ok_iff.mpr ⟨base, ih hrest, hstep hs⟩

/-- Where directories stay, segments that lead to a place lead to the same place, whatever is there now. -/
theorem Keeps.lead_target {t u : FileTree} (h : t.Keeps u) {first : String} {rest path : List String} {x : Spot}
    (hlead : t.lead first rest = .ok x) (hx : x.target? = some path) :
    t.occupant path = x ∧ u.lead first rest = .ok (u.occupant path) := by
  have hstep : ∀ {base : List String} {s : String},
      t.step base s = .ok x → t.occupant path = x ∧ u.step base s = .ok (u.occupant path) := by
    intro base s hs
    rcases step_cases base s with ⟨q, hq⟩ | hlong | hnamed
    · rw [hq, Except.ok.injEq] at hs
      rw [← hs] at hx
      cases hx
    · rw [hlong] at hs
      cases hs
    · rw [hnamed, Except.ok.injEq] at hs
      rw [← hs] at hx
      have hpath := target?_occupant hx
      rw [hnamed, hpath]
      exact ⟨hpath ▸ hs, rfl⟩
  cases rest using List.reverseRecOn with
  | nil =>
    rw [lead_nil] at hlead ⊢
    split at hlead
    · rw [Except.ok.injEq] at hlead
      rw [← hlead] at hx
      cases hx
    · next hfirst =>
      rw [if_neg hfirst, ← h.workingDirectory]
      exact hstep hlead
  | append_singleton rest s =>
    obtain ⟨base, hrest, hs⟩ := lead_append_singleton_eq_ok_iff.mp hlead
    obtain ⟨hoccupant, hs⟩ := hstep hs
    exact ⟨hoccupant, lead_append_singleton_eq_ok_iff.mpr ⟨base, h.lead_directory hrest, hs⟩⟩

/-- Where directories stay, a path that leads to a place leads to the same place, whatever is there now. -/
theorem Keeps.spot_target {t u : FileTree} (h : t.Keeps u) {path : String} {place : List String} {x : Spot}
    (hspot : t.spot path = .ok x) (hx : x.target? = some place) :
    t.occupant place = x ∧ u.spot path = .ok (u.occupant place) := by
  obtain ⟨hne, hsize⟩ := exists_of_spot_eq_ok hspot
  cases hsegments : Path.segments path with
  | nil => exact absurd hsegments (Path.segments_ne_nil path)
  | cons first rest =>
    rw [spot_eq_lead hsegments hne hsize] at hspot ⊢
    exact h.lead_target hspot hx

/-! ## Trees with more directories -/

/-- What is above a directory is a directory. Its path is shorter than that of whatever the directory holds. -/
theorem isDirectory_of_prefix {t : FileTree} {path below : List String} (habove : path <+: below)
    (h : t.isDirectory below = true) : t.isDirectory path = true := by
  unfold isDirectory at h ⊢
  rw [Bool.or_eq_true, Bool.or_eq_true] at h ⊢
  rcases h with (h | h) | h
  · have hbelow : below = [] := List.isEmpty_iff.mp h
    rw [hbelow, List.prefix_nil] at habove
    exact Or.inl (Or.inl (List.isEmpty_iff.mpr habove))
  · obtain ⟨d, hd, hpre⟩ := List.any_eq_true.mp h
    refine Or.inl (Or.inr (List.any_eq_true.mpr ⟨d, hd, ?_⟩))
    rw [List.isPrefixOf_iff_prefix] at hpre ⊢
    exact habove.trans hpre
  · obtain ⟨f, hf, hpre⟩ := List.any_eq_true.mp h
    refine Or.inr (List.any_eq_true.mpr ⟨f, hf, ?_⟩)
    rw [Bool.and_eq_true, List.isPrefixOf_iff_prefix, bne_iff_ne] at hpre ⊢
    obtain ⟨hpre, hne⟩ := hpre
    refine ⟨habove.trans hpre, ?_⟩
    rintro rfl
    exact hne (hpre.eq_of_length_le habove.length_le)

/-- A tree has the files of another and no directory that the other does not have. -/
structure Within (t u : FileTree) : Prop where
  files : t.files = u.files
  workingDirectory : t.workingDirectory = u.workingDirectory
  directories : ∀ path, t.isDirectory path = true → u.isDirectory path = true

theorem Within.refl (t : FileTree) : t.Within t :=
  ⟨rfl, rfl, fun _ => id⟩

theorem Within.file? {t u : FileTree} (h : t.Within u) : t.file? = u.file? := by
  funext path
  rw [FileTree.file?, FileTree.file?, h.files]

/-- The directories of a tree stay in one that it is within. -/
theorem Within.keeps {t u : FileTree} (h : t.Within u) : t.Keeps u where
  workingDirectory := h.workingDirectory
  directories := by
    intro path hpath
    obtain ⟨-, hfile, hdirectory⟩ := occupant_eq_directory_iff.mp hpath
    exact occupant_eq_directory_iff.mpr ⟨rfl, h.file? ▸ hfile, h.directories path hdirectory⟩

/-- The tree with some more directories. -/
def withDirectories (t : FileTree) (made : List (List String)) : FileTree :=
  { t with directories := made ++ t.directories }

/-- With some more directories, the directories of a tree are those, what is above them, and its own. -/
theorem isDirectory_withDirectories {t : FileTree} {made : List (List String)} {path : List String} :
    (t.withDirectories made).isDirectory path = true ↔ (∃ d ∈ made, path <+: d) ∨ t.isDirectory path = true := by
  simp only [isDirectory, withDirectories, List.any_append, Bool.or_eq_true, List.any_eq_true, List.isPrefixOf_iff_prefix]
  constructor
  · rintro ((h | h | h) | h)
    · exact Or.inr (Or.inl (Or.inl h))
    · exact Or.inl h
    · exact Or.inr (Or.inl (Or.inr h))
    · exact Or.inr (Or.inr h)
  · rintro (h | (h | h) | h)
    · exact Or.inl (Or.inr (Or.inl h))
    · exact Or.inl (Or.inl h)
    · exact Or.inl (Or.inr (Or.inr h))
    · exact Or.inr h

/-- A tree is within itself with some more directories. -/
theorem within_withDirectories (t : FileTree) (made : List (List String)) : t.Within (t.withDirectories made) :=
  ⟨rfl, rfl, fun _ h => isDirectory_withDirectories.mpr (Or.inr h)⟩

/-- A tree stays within another when directories are made that the other has. -/
theorem Within.withDirectories {t u : FileTree} (h : t.Within u) {made : List (List String)}
    (hmade : ∀ d ∈ made, u.isDirectory d = true) : (t.withDirectories made).Within u where
  files := h.files
  workingDirectory := h.workingDirectory
  directories := by
    intro path hpath
    rcases isDirectory_withDirectories.mp hpath with ⟨d, hd, habove⟩ | hpath
    · exact isDirectory_of_prefix habove (hmade d hd)
    · exact h.directories path hpath

/-- What a tree has at a place, a tree within it has there too, but for a directory that is not there: its place is vacant. -/
theorem Within.occupant_cases {t u : FileTree} (h : t.Within u) (path : List String) :
    t.occupant path = u.occupant path ∨
      u.occupant path = .directory path ∧ t.occupant path = .vacant path ∧ u.isDirectory path = true := by
  unfold occupant
  rw [h.file?]
  cases u.file? path with
  | some content => exact Or.inl rfl
  | none =>
    dsimp only
    by_cases ht : t.isDirectory path = true
    · rw [if_pos ht, if_pos (h.directories path ht)]
      exact Or.inl rfl
    · rw [if_neg ht]
      by_cases hu : u.isDirectory path = true
      · rw [if_pos hu]
        exact Or.inr ⟨rfl, rfl, hu⟩
      · rw [if_neg hu]
        exact Or.inl rfl

/-- A step in a tree leads to the same in a tree within it, or to a vacant place where the other has a directory. -/
theorem Within.step_cases {t u : FileTree} (h : t.Within u) {base : List String} {s : String} {x : Spot}
    (hstep : u.step base s = .ok x) :
    t.step base s = .ok x ∨
      ∃ path, x = .directory path ∧ t.step base s = .ok (.vacant path) ∧ u.isDirectory path = true := by
  rcases FileTree.step_cases base s with ⟨q, hq⟩ | hlong | hnamed
  · rw [hq] at hstep ⊢
    exact Or.inl hstep
  · rw [hlong] at hstep
    cases hstep
  · rw [hnamed, Except.ok.injEq] at hstep
    rw [hnamed, ← hstep]
    rcases h.occupant_cases (base ++ [s]) with hsame | ⟨hu, ht, hdirectory⟩
    · rw [hsame]
      exact Or.inl rfl
    · exact Or.inr ⟨_, hu, congrArg Except.ok ht, hdirectory⟩

/-- A step in a tree that leads to a place for a file leads there in a tree within it. -/
theorem Within.step_target {t u : FileTree} (h : t.Within u) {base place : List String} {s : String} {x : Spot}
    (hstep : u.step base s = .ok x) (hx : x.target? = some place) : t.step base s = .ok x := by
  rcases h.step_cases hstep with hsame | ⟨path, rfl, -⟩
  · exact hsame
  · cases hx

/-- Segments that lead somewhere in a tree lead to the same place in a tree within it, or to a vacant place where the other
has a directory, or a directory on the way is missing. -/
theorem Within.lead_cases {t u : FileTree} (h : t.Within u) {first : String} {rest : List String} {x : Spot}
    (hlead : u.lead first rest = .ok x) :
    t.lead first rest = .ok x ∨
      (∃ path, x = .directory path ∧ t.lead first rest = .ok (.vacant path) ∧ u.isDirectory path = true) ∨
      t.lead first rest = .error .missing := by
  induction rest using List.reverseRecOn generalizing x with
  | nil =>
    rw [lead_nil] at hlead ⊢
    split at hlead
    · next hfirst => exact Or.inl ((if_pos hfirst).trans hlead)
    · next hfirst =>
      rw [if_neg hfirst, h.workingDirectory]
      exact (h.step_cases hlead).imp id Or.inl
  | append_singleton rest s ih =>
    obtain ⟨path, hrest, hstep⟩ := lead_append_singleton_eq_ok_iff.mp hlead
    rw [lead_append_singleton]
    rcases ih hrest with hrest | ⟨path, -, hrest, -⟩ | hrest
    · rw [hrest]
      exact (h.step_cases hstep).imp id Or.inl
    · rw [hrest]
      exact Or.inr (Or.inr rfl)
    · rw [hrest]
      exact Or.inr (Or.inr rfl)

end FileTree

end FlowDiagram

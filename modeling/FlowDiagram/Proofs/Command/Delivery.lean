import FlowDiagram.Command.Run
import FlowDiagram.Proofs.Command.Places

/-!
# Putting a text at a path

Directories are made for a path, then the text is written. Making directories changes no file, whether it succeeds or not
(`FileTree.run_makeDirectories`), and it succeeds for every path that leads to a place once some directories are there
(`FileTree.Within.run_makeDirectories_enclosing`). Such a path is usable (`FileTree.Usable`), which says nothing on how the
directories are found, nor does the place depend on them (`FileTree.Reaches.unique`).

Main statements: a text is delivered to the paths that are usable (`Command.run_deliver_of_usable`). It is then all that is read
from the one file, and every other file is as it was (`FileTree.Rewrites`). To no other path is it delivered, and all files are
then as they were (`Command.run_deliver_of_not_usable`).
-/

namespace FlowDiagram

namespace FileTree

/-! ## Making a directory -/

/-- Makes a directory at a place that segments lead to. -/
def makeAt (t : FileTree) : Spot → Except FileFault FileTree
  | .directory _ => .ok t
  | .vacant path => .ok (t.withDirectories [path])
  | .file .. => .error .occupied

/-- Segments of which the last is not empty lose nothing when empty ones are dropped from the end. -/
theorem dropEnd_isEmpty {ss : List String} (hlast : "" ∉ ss.getLast?) : Text.dropEnd String.isEmpty ss = ss := by
  apply Text.dropEnd_of_getLast?
  intro s hs
  refine Bool.eq_false_iff.mpr fun hempty => hlast ?_
  rw [← String.isEmpty_iff.mp hempty]
  exact hs

/-- Making a directory at a path that does not end with a slash is making it where the segments lead. -/
theorem makeDirectory_eq {t : FileTree} {path : String} {base ss : List String} (hroute : t.route path = .ok (base, ss))
    (hlast : "" ∉ ss.getLast?) : t.makeDirectory path = t.follow base ss >>= t.makeAt := by
  rw [makeDirectory, hroute]
  change (t.follow base (Text.dropEnd String.isEmpty ss) >>= _) = _
  rw [dropEnd_isEmpty hlast]
  rfl

/-- Making a directory on the way is making one where its segments lead. -/
theorem makeDirectory_join {t : FileTree} {first : String} {rest : List String}
    (hslash : ∀ s ∈ first :: rest, '/' ∉ s.toList) (hlast : "" ∉ rest.getLast?)
    (hsize : (Path.join (first :: rest)).utf8ByteSize ≤ maxPathSize) :
    t.makeDirectory (Path.join (first :: rest)) = t.lead first rest >>= t.makeAt := by
  by_cases hroot : first :: rest = [""]
  · obtain ⟨rfl, rfl⟩ := List.cons.inj hroot
    rfl
  · have hroute := @route_eq t _ _ _ (Path.segments_join hslash hroot) (Path.join_ne_empty hslash) hsize
    rw [lead]
    split
    · next hfirst =>
      rw [if_pos hfirst] at hroute
      exact makeDirectory_eq hroute hlast
    · next hfirst =>
      rw [if_neg hfirst] at hroute
      apply makeDirectory_eq hroute
      rw [List.getLast?_cons]
      cases hrest : rest.getLast? with
      | none => exact fun h => hfirst (Option.some.inj h)
      | some s => exact hrest ▸ hlast

/-! ## Making the directories on the way -/

theorem run_bind {α β : Type} (t : FileTree) (x : StateM FileTree α) (f : α → StateM FileTree β) :
    (x >>= f).run t = (f (x.run t).1).run (x.run t).2 :=
  rfl

/-- An operation that succeeds leaves the tree that it makes. -/
theorem run_commit_ok {t made : FileTree} {operation : FileTree → Except FileFault FileTree} (h : operation t = .ok made) :
    (commit operation).run t = (.ok (), made) := by
  change commit operation t = _
  rw [commit, h]

theorem run_commit_error {t : FileTree} {operation : FileTree → Except FileFault FileTree} {e : FileFault}
    (h : operation t = .error e) : (commit operation).run t = (.error e, t) := by
  change commit operation t = _
  rw [commit, h]

/-- Of directories the innermost is tried first. If the way to it is missing, those above it are made, and it is tried once
more. -/
theorem run_makeDirectories_cons (t : FileTree) (directory : String) (above : List String) :
    (operations.makeDirectories (directory :: above)).run t =
      match t.makeDirectory directory with
      | .ok made => (.ok (), made)
      | .error .missing =>
        match (operations.makeDirectories above).run t with
        | (.ok (), made) => (commit (·.makeDirectory directory)).run made
        | (.error e, made) => (.error e, made)
      | .error e => (.error e, t) := by
  rw [FileOperations.makeDirectories, run_bind]
  cases h : t.makeDirectory directory with
  | ok made =>
    rw [show (operations.makeDirectory directory).run t = (.ok (), made) from run_commit_ok h]
    rfl
  | error e =>
    rw [show (operations.makeDirectory directory).run t = (.error e, t) from run_commit_error h]
    cases e with
    | missing =>
      dsimp only
      rw [run_bind]
      rcases (operations.makeDirectories above).run t with ⟨_ | _, made⟩ <;> rfl
    | _ => rfl

/-- Making a directory leaves the tree with some more directories, or as it was. -/
theorem exists_withDirectories_of_makeDirectory {t made : FileTree} {path : String} (h : t.makeDirectory path = .ok made) :
    ∃ new, made = t.withDirectories new := by
  rw [makeDirectory] at h
  obtain ⟨⟨base, ss⟩, -, h⟩ := exists_of_bind_eq_ok h
  obtain ⟨x, -, h⟩ := exists_of_bind_eq_ok h
  cases x with
  | directory p => exact ⟨[], (Except.ok.inj h).symm⟩
  | vacant p => exact ⟨[p], (Except.ok.inj h).symm⟩
  | file p content => cases h

/-- Making directories makes directories, and nothing else, whether it succeeds or not. -/
theorem run_makeDirectories (t : FileTree) (directories : List String) :
    ∃ new, ((operations.makeDirectories directories).run t).2 = t.withDirectories new := by
  induction directories with
  | nil => exact ⟨[], rfl⟩
  | cons directory above ih =>
    rw [run_makeDirectories_cons]
    cases h : t.makeDirectory directory with
    | ok made => exact exists_withDirectories_of_makeDirectory h
    | error e =>
      cases e with
      | missing =>
        obtain ⟨new, hnew⟩ := ih
        dsimp only
        rcases habove : (operations.makeDirectories above).run t with ⟨_ | _, made⟩
        · exact ⟨new, by rw [← hnew, habove]⟩
        · rw [habove] at hnew
          dsimp only at hnew ⊢
          cases hmake : made.makeDirectory directory with
          | error e =>
            rw [run_commit_error hmake]
            exact ⟨new, hnew⟩
          | ok made' =>
            rw [run_commit_ok hmake]
            obtain ⟨new', hnew'⟩ := exists_withDirectories_of_makeDirectory hmake
            refine ⟨new' ++ new, ?_⟩
            dsimp only
            rw [hnew', hnew, withDirectories, withDirectories, withDirectories, List.append_assoc]
      | _ => exact ⟨[], rfl⟩

/-- A directory that is there in a tree with more directories can be made unless one is missing on the way. -/
theorem Within.makeDirectory_join {t u : FileTree} (hwithin : t.Within u) {first : String} {rest path : List String}
    (hslash : ∀ s ∈ first :: rest, '/' ∉ s.toList) (hlast : "" ∉ rest.getLast?)
    (hsize : (Path.join (first :: rest)).utf8ByteSize ≤ maxPathSize) (hlead : u.lead first rest = .ok (.directory path))
    (hway : t.lead first rest ≠ .error .missing) :
    ∃ made, t.makeDirectory (Path.join (first :: rest)) = .ok made ∧ made.Within u ∧
      made.lead first rest = .ok (.directory path) := by
  rw [FileTree.makeDirectory_join hslash hlast hsize]
  rcases hwithin.lead_cases hlead with hsame | ⟨q, hq, hvacant, hdirectory⟩ | hmissing
  · exact ⟨t, by rw [hsame]; rfl, hwithin, hsame⟩
  · obtain rfl := Spot.directory.inj hq
    refine ⟨t.withDirectories [path], by rw [hvacant]; rfl, ?_, ?_⟩
    · apply hwithin.withDirectories
      intro d hd
      rw [List.mem_singleton.mp hd]
      exact hdirectory
    · obtain ⟨hoccupant, hmade⟩ := (within_withDirectories t [path]).keeps.lead_target hvacant rfl
      obtain ⟨-, hfile, -⟩ := occupant_eq_vacant_iff.mp hoccupant
      rw [hmade, Except.ok.injEq]
      refine occupant_eq_directory_iff.mpr ⟨rfl, hfile, ?_⟩
      exact isDirectory_withDirectories.mpr (Or.inl ⟨path, List.mem_singleton_self path, List.prefix_rfl⟩)
  · exact absurd hmissing hway

/-- If segments lead to a directory in a tree with more directories, making those on the way succeeds and the segments lead
there. A segment that stands for nothing leads from a directory to the same one, so nothing is made for it. -/
theorem Within.run_makeDirectories_stations {t u : FileTree} (hwithin : t.Within u) {first : String} {rest path : List String}
    (hslash : ∀ s ∈ first :: rest, '/' ∉ s.toList)
    (hsize : ∀ ss, ss <+: rest → (Path.join (first :: ss)).utf8ByteSize ≤ maxPathSize)
    (hlead : u.lead first rest = .ok (.directory path)) :
    ∃ made, (operations.makeDirectories (Path.stations first rest.reverse)).run t = (.ok (), made) ∧ made.Within u ∧
      made.lead first rest = .ok (.directory path) := by
  induction rest using List.reverseRecOn generalizing path with
  | nil =>
    have hway : t.lead first [] ≠ .error .missing := by
      rw [lead_nil]
      split
      · nofun
      · exact t.step_ne_missing t.workingDirectory first
    obtain ⟨made, hmake, hmade⟩ := hwithin.makeDirectory_join hslash nofun (hsize [] List.nil_prefix) hlead hway
    refine ⟨made, ?_, hmade⟩
    rw [List.reverse_nil, Path.stations, run_makeDirectories_cons, hmake]
  | append_singleton rest s ih =>
    obtain ⟨base, hrest, hstep⟩ := lead_append_singleton_eq_ok_iff.mp hlead
    have habove := ih
      (fun s' hs' => hslash s' (by rw [← List.cons_append]; exact List.mem_append_left [s] hs'))
      (fun ss hss => hsize ss (hss.trans (List.prefix_append rest [s]))) hrest
    obtain ⟨made, hrun, hmade, hlead'⟩ := habove
    rw [List.reverse_append, List.reverse_singleton, List.singleton_append, Path.stations]
    split
    · next hfiller =>
      refine ⟨made, hrun, hmade, lead_append_singleton_eq_ok_iff.mpr ⟨base, hlead', ?_⟩⟩
      rw [← hstep, step, step, if_pos hfiller, if_pos hfiller]
    · next hfiller =>
      have hlast : "" ∉ (rest ++ [s]).getLast? := by
        rw [List.getLast?_concat]
        intro h
        rw [Option.some.inj h] at hfiller
        exact hfiller rfl
      rw [List.reverse_cons, List.reverse_reverse, run_makeDirectories_cons]
      by_cases hway : t.lead first (rest ++ [s]) = .error .missing
      · have hway' : made.lead first (rest ++ [s]) ≠ .error .missing := by
          rw [lead_append_singleton, hlead']
          exact made.step_ne_missing base s
        obtain ⟨made', hmake, hmade'⟩ := hmade.makeDirectory_join hslash hlast (hsize _ List.prefix_rfl) hlead hway'
        refine ⟨made', ?_, hmade'⟩
        rw [FileTree.makeDirectory_join hslash hlast (hsize _ List.prefix_rfl), hway, hrun]
        exact run_commit_ok hmake
      · obtain ⟨made', hmake, hmade'⟩ := hwithin.makeDirectory_join hslash hlast (hsize _ List.prefix_rfl) hlead hway
        refine ⟨made', ?_, hmade'⟩
        rw [hmake]

/-- If a path leads to a place in a tree with more directories, making those on the way succeeds and the path leads there. -/
theorem Within.run_makeDirectories_enclosing {t u : FileTree} (hwithin : t.Within u) {path : String} {place : List String}
    {x : Spot} (hspot : u.spot path = .ok x) (hx : x.target? = some place) :
    ∃ made, (operations.makeDirectories (Path.enclosing path)).run t = (.ok (), made) ∧ made.spot path = .ok x := by
  obtain ⟨hne, hsize⟩ := exists_of_spot_eq_ok hspot
  cases hsegments : Path.segments path with
  | nil => exact absurd hsegments (Path.segments_ne_nil path)
  | cons first rest =>
    simp only [spot_eq_lead hsegments hne hsize] at hspot ⊢
    cases rest using List.reverseRecOn with
    | nil =>
      refine ⟨t, by rw [Path.enclosing, hsegments]; rfl, ?_⟩
      rw [lead_nil] at hspot ⊢
      split at hspot
      · next hfirst => exact (if_pos hfirst).trans hspot
      · next hfirst =>
        rw [if_neg hfirst, hwithin.workingDirectory]
        exact hwithin.step_target hspot hx
    | append_singleton rest s =>
      obtain ⟨base, hrest, hstep⟩ := lead_append_singleton_eq_ok_iff.mp hspot
      have hfiller : ¬Path.isFiller s = true := by
        intro hfiller
        rw [step, if_pos hfiller, Except.ok.injEq] at hstep
        rw [← hstep] at hx
        cases hx
      have hmem : ∀ s' ∈ first :: rest, s' ∈ Path.segments path := by
        intro s' hs'
        rw [hsegments, ← List.cons_append]
        exact List.mem_append_left [s] hs'
      have hlengths : ∀ ss, ss <+: rest → (Path.join (first :: ss)).utf8ByteSize ≤ maxPathSize := by
        rintro ss ⟨later, rfl⟩
        rw [List.append_assoc] at hsegments
        exact Nat.le_trans (Path.utf8ByteSize_join_le hne hsegments) hsize
      obtain ⟨made, hrun, hmade, hlead⟩ := hwithin.run_makeDirectories_stations
        (fun s' hs' => Path.not_mem_of_mem_segments (hmem s' hs')) hlengths hrest
      rw [Path.enclosing_eq_stations hsegments hfiller]
      exact ⟨made, hrun, lead_append_singleton_eq_ok_iff.mpr ⟨base, hlead, hmade.step_target hstep hx⟩⟩

/-! ## Writing -/

/-- Puts bytes at a place that a path leads to. -/
def put (t : FileTree) (content : ByteArray) : Spot → FileTree
  | .directory _ => t
  | .vacant place => { t with files := t.files ++ [(place, content)] }
  | .file place _ => { t with files := t.files.map fun f => if f.1 == place then (place, content) else f }

/-- Segments of which the last is empty lead to no place for a file. -/
theorem getLast?_ne_of_follow {t : FileTree} {base ss place : List String} {x : Spot} (hfollow : t.follow base ss = .ok x)
    (hx : x.target? = some place) : "" ∉ ss.getLast? := by
  intro hlast
  obtain ⟨init, rfl⟩ := List.getLast?_eq_some_iff.mp hlast
  rw [follow_append_singleton] at hfollow
  obtain ⟨y, -, hstep⟩ := exists_of_bind_eq_ok hfollow
  cases y with
  | directory path =>
    obtain rfl : Spot.directory path = x := Except.ok.inj hstep
    cases hx
  | file path content => cases hstep
  | vacant path => cases hstep

/-- Writing succeeds for the paths that lead to a place for a file, and changes what is there. -/
theorem write_eq_ok_iff {t after : FileTree} {path : String} {content : ByteArray} :
    t.write path content = .ok after ↔
      ∃ x place, t.spot path = .ok x ∧ x.target? = some place ∧ after = t.put content x := by
  constructor
  · intro h
    rw [write] at h
    obtain ⟨⟨base, ss⟩, hroute, h⟩ := exists_of_bind_eq_ok h
    dsimp only at h
    split at h
    · obtain ⟨_, -, h⟩ := exists_of_bind_eq_ok h
      cases h
    · obtain ⟨x, hfollow, h⟩ := exists_of_bind_eq_ok h
      have hspot := spot_eq_ok_iff.mpr ⟨base, ss, hroute, hfollow⟩
      cases x with
      | directory p => cases h
      | vacant p => exact ⟨_, p, hspot, rfl, (Except.ok.inj h).symm⟩
      | file p old => exact ⟨_, p, hspot, rfl, (Except.ok.inj h).symm⟩
  · rintro ⟨x, place, hspot, hx, rfl⟩
    obtain ⟨base, ss, hroute, hfollow⟩ := spot_eq_ok_iff.mp hspot
    rw [write, hroute]
    change (if _ then _ else _) = _
    rw [dropEnd_isEmpty (getLast?_ne_of_follow hfollow hx), bne_self_eq_false, Bool.false_and,
      if_neg Bool.false_ne_true, hfollow]
    cases x with
    | directory p => cases hx
    | vacant p => rfl
    | file p old => rfl

/-- Replacing the content of the file at one place changes what is found at that place, if there is a file, and at no other.
-/
theorem lookup_replace (files : List (List String × ByteArray)) (place other : List String) (content : ByteArray) :
    (files.map fun f => if f.1 == place then (place, content) else f).lookup other =
      (files.lookup other).map fun old => if other = place then content else old := by
  induction files with
  | nil => rfl
  | cons f files ih =>
    obtain ⟨path, old⟩ := f
    have hhead : (if path == place then (place, content) else (path, old)) =
        (path, if path = place then content else old) := by
      by_cases hpath : path = place
      · rw [hpath, if_pos (beq_self_eq_true place), if_pos rfl]
      · rw [if_neg (fun h => hpath (eq_of_beq h)), if_neg hpath]
    rw [List.map_cons, hhead, List.lookup_cons, List.lookup_cons, ih]
    cases hother : other == path with
    | true =>
      rw [eq_of_beq hother]
      rfl
    | false => rfl

/-- Putting bytes at a place changes no other file. -/
theorem file?_put {t : FileTree} {place : List String} {x : Spot} (hoccupant : t.occupant place = x)
    (hx : x.target? = some place) (content : ByteArray) (other : List String) :
    (t.put content x).file? other = if other = place then some content else t.file? other := by
  cases x with
  | directory path => cases hx
  | vacant path =>
    obtain rfl := Option.some.inj hx
    obtain ⟨-, hfile, -⟩ := occupant_eq_vacant_iff.mp hoccupant
    have hput : (t.put content (.vacant path)).file? other = (t.file? other).or ([(path, content)].lookup other) :=
      List.lookup_append
    rw [hput]
    by_cases hother : other = path
    · rw [hother, hfile, Option.none_or, List.lookup_cons_self, if_pos rfl]
    · have hnot : [(path, content)].lookup other = none := by
        rw [List.lookup_cons, beq_false_of_ne hother, List.lookup_nil]
      rw [hnot, Option.or_none, if_neg hother]
  | file path old =>
    obtain rfl := Option.some.inj hx
    obtain ⟨-, hfile⟩ := occupant_eq_file_iff.mp hoccupant
    rw [put, file?, lookup_replace]
    change (t.file? other).map _ = _
    by_cases hother : other = path
    · rw [hother, hfile, if_pos rfl, Option.map_some, if_pos rfl]
    · simp only [if_neg hother, Option.map_id']

/-- What is a directory of a tree is one of a tree with the same directories and no fewer files. -/
theorem isDirectory_mono {t u : FileTree} (hdirectories : t.directories = u.directories)
    (hfiles : ∀ f ∈ t.files, f.1 ∈ u.files.map Prod.fst) {path : List String} (h : t.isDirectory path = true) :
    u.isDirectory path = true := by
  unfold isDirectory at h ⊢
  rw [Bool.or_eq_true] at h ⊢
  rcases h with h | h
  · exact Or.inl (hdirectories ▸ h)
  · obtain ⟨f, hf, hpath⟩ := List.any_eq_true.mp h
    obtain ⟨g, hg, hname⟩ := List.mem_map.mp (hfiles f hf)
    refine Or.inr (List.any_eq_true.mpr ⟨g, hg, ?_⟩)
    rw [hname]
    exact hpath

/-- Where a file is or can be, putting bytes there leaves all directories of the tree. -/
theorem keeps_put {t : FileTree} {place : List String} {x : Spot} (hoccupant : t.occupant place = x)
    (hx : x.target? = some place) (content : ByteArray) : t.Keeps (t.put content x) where
  workingDirectory := by cases x <;> rfl
  directories := by
    intro path hpath
    obtain ⟨-, hfile, hdirectory⟩ := occupant_eq_directory_iff.mp hpath
    have hne : path ≠ place := by
      rintro rfl
      rw [← hoccupant, hpath] at hx
      cases hx
    refine occupant_eq_directory_iff.mpr ⟨rfl, ?_, isDirectory_mono ?_ ?_ hdirectory⟩
    · rw [file?_put hoccupant hx, if_neg hne]
      exact hfile
    · cases x <;> rfl
    · intro f hf
      cases x with
      | directory p => cases hx
      | vacant p =>
        rw [put, List.map_append]
        exact List.mem_append_left _ (List.mem_map_of_mem hf)
      | file p old =>
        rw [put, List.map_map]
        refine List.mem_map.mpr ⟨f, hf, ?_⟩
        by_cases hp : f.1 = p <;> simp [hp]

/-- Where bytes are put, the path leads to them. -/
theorem spot_put {t : FileTree} {path : String} {place : List String} {x : Spot} (hspot : t.spot path = .ok x)
    (hx : x.target? = some place) (content : ByteArray) :
    t.occupant place = x ∧ (t.put content x).spot path = .ok (.file place content) := by
  obtain ⟨hoccupant, -⟩ := (Within.refl t).keeps.spot_target hspot hx
  obtain ⟨-, hafter⟩ := (keeps_put hoccupant hx content).spot_target hspot hx
  refine ⟨hoccupant, ?_⟩
  rw [hafter, Except.ok.injEq]
  refine occupant_eq_file_iff.mpr ⟨rfl, ?_⟩
  rw [file?_put hoccupant hx, if_pos rfl]

/-! ## What a path can be used for -/

/-- A path leads to a place where a file is or can be, once some directories are made. -/
def Reaches (t : FileTree) (path : String) (place : List String) : Prop :=
  ∃ made x, (t.withDirectories made).spot path = .ok x ∧ x.target? = some place

/-- A file can be written at a path. -/
def Usable (t : FileTree) (path : String) : Prop :=
  ∃ place, t.Reaches path place

/-- Another tree differs from this one in a single file, the one that a path leads to, which has this content. -/
def Rewrites (t after : FileTree) (path : String) (content : ByteArray) : Prop :=
  ∃ place, t.Reaches path place ∧ after.spot path = .ok (.file place content) ∧
    ∀ other, other ≠ place → after.file? other = t.file? other

/-- A file that holds a text is read as that text. -/
theorem read_of_spot {t : FileTree} {path text : String} {place : List String}
    (h : t.spot path = .ok (.file place text.toUTF8)) : t.read path = .ok text := by
  have hdecoded : String.fromUTF8? text.toUTF8 = some text := dif_pos text.isValidUTF8
  obtain ⟨base, ss, hroute, hfollow⟩ := spot_eq_ok_iff.mp h
  simp only [read, hroute, hfollow, bind, Except.bind, hdecoded]

/-- It does not matter which directories are made: a path leads to one place, since the tree with all of the directories has
those of both. -/
theorem Reaches.unique {t : FileTree} {path : String} {place place' : List String} (h : t.Reaches path place)
    (h' : t.Reaches path place') : place = place' := by
  obtain ⟨made, x, hspot, hx⟩ := h
  obtain ⟨made', x', hspot', hx'⟩ := h'
  have hall : ∀ new, (∀ d ∈ new, d ∈ made ++ made') →
      (t.withDirectories new).Within (t.withDirectories (made ++ made')) := by
    intro new hnew
    apply (t.within_withDirectories (made ++ made')).withDirectories
    intro d hd
    exact isDirectory_withDirectories.mpr (Or.inl ⟨d, hnew d hd, List.prefix_rfl⟩)
  obtain ⟨-, hspot⟩ := (hall made fun _ hd => List.mem_append_left made' hd).keeps.spot_target hspot hx
  obtain ⟨-, hspot'⟩ := (hall made' fun _ hd => List.mem_append_right made hd).keeps.spot_target hspot' hx'
  rw [hspot, Except.ok.injEq] at hspot'
  exact eq_of_occupant_eq hspot'

/-- The text that a file was rewritten to is read from it. -/
theorem Rewrites.read {t after : FileTree} {path text : String} (h : t.Rewrites after path text.toUTF8) :
    after.read path = .ok text := by
  obtain ⟨place, -, hspot, -⟩ := h
  exact read_of_spot hspot

/-- What is written to a tree with more directories rewrites one file of the tree. -/
theorem rewrites_of_write {t after : FileTree} {made : List (List String)} {path : String} {content : ByteArray}
    (h : (t.withDirectories made).write path content = .ok after) : t.Rewrites after path content := by
  obtain ⟨x, place, hspot, hx, rfl⟩ := write_eq_ok_iff.mp h
  obtain ⟨hoccupant, hafter⟩ := spot_put hspot hx content
  refine ⟨place, ⟨made, x, hspot, hx⟩, hafter, ?_⟩
  intro other hother
  rw [file?_put hoccupant hx, if_neg hother, ← (t.within_withDirectories made).file?]

end FileTree

namespace Command

open FileTree

/-- Preparing a path makes the directories that enclose it. If one cannot be made, the message names the innermost. -/
theorem run_prepare (t : FileTree) (path : String) :
    (prepare operations path).run t =
      match (operations.makeDirectories (Path.enclosing path)).run t with
      | (.ok (), made) => (none, made)
      | (.error e, made) =>
        (some ("Could not create directory '" ++ (Path.enclosing path).headD "" ++ "': " ++ e.message), made) := by
  rw [prepare]
  cases Path.enclosing path with
  | nil => rfl
  | cons directory above =>
    dsimp only
    rw [run_bind]
    rcases (operations.makeDirectories (directory :: above)).run t with ⟨_ | _, made⟩ <;> rfl

/-- A text is delivered to a path that is usable. -/
theorem run_deliver_of_usable {t : FileTree} {path : String} (h : t.Usable path) (text : String) :
    ∃ after, (deliver operations (some path) text).run t = (.written, after) ∧ t.Rewrites after path text.toUTF8 := by
  obtain ⟨place, new, x, hspot, hx⟩ := h
  obtain ⟨made, hrun, hmade⟩ := (t.within_withDirectories new).run_makeDirectories_enclosing hspot hx
  obtain ⟨new', hnew'⟩ := t.run_makeDirectories (Path.enclosing path)
  have hwrite : made.write path text.toUTF8 = .ok (made.put text.toUTF8 x) :=
    write_eq_ok_iff.mpr ⟨x, place, hmade, hx, rfl⟩
  refine ⟨made.put text.toUTF8 x, ?_, ?_⟩
  · rw [deliver, run_bind, run_prepare, hrun]
    dsimp only
    rw [run_bind, show (operations.write path text).run made = _ from run_commit_ok hwrite]
    rfl
  · rw [hrun] at hnew'
    rw [show made = t.withDirectories new' from hnew'] at hwrite ⊢
    exact rewrites_of_write hwrite

/-- No text is delivered to a path that is not usable, and the attempt changes no file. -/
theorem run_deliver_of_not_usable {t : FileTree} {path : String} (h : ¬t.Usable path) (text : String) :
    ∃ message after, (deliver operations (some path) text).run t = (.failed message, after) ∧ after.files = t.files := by
  obtain ⟨new, hnew⟩ := t.run_makeDirectories (Path.enclosing path)
  rw [deliver, run_bind, run_prepare]
  rcases hrun : (operations.makeDirectories (Path.enclosing path)).run t with ⟨e | _, made⟩ <;> rw [hrun] at hnew <;>
    rw [show made = t.withDirectories new from hnew]
  · exact ⟨_, _, rfl, rfl⟩
  · dsimp only
    cases hwrite : (t.withDirectories new).write path text.toUTF8 with
    | ok after =>
      obtain ⟨x, place, hspot, hx, -⟩ := write_eq_ok_iff.mp hwrite
      exact absurd ⟨place, new, x, hspot, hx⟩ h
    | error e =>
      rw [run_bind, show (operations.write path text).run (t.withDirectories new) = _ from run_commit_error hwrite]
      exact ⟨_, _, rfl, rfl⟩

end Command

end FlowDiagram

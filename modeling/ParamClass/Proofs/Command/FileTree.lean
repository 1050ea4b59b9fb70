import ParamClass.Command.FileTree

/-!
# Writing files

What is assumed of a file system when a file is written: a write that fails changes nothing, and one
that succeeds replaces the whole content of the place that its path leads to and touches nothing else
(`FileSystem.WritesWhole`). Trees of files write in this way (`FileTree.writesWhole`): a path that
passes through directories passes through them after the write as before, since only a file or an
empty place is written.
-/

namespace ParamClass

namespace FileSystem

/-- How the states of a file system are seen: which place a path leads to, and what is at a place.
All paths that lead to one place name the same file. -/
structure View (σ π : Type) where
  /-- The place that a path leads to. -/
  place? : σ → String → Option π
  /-- The entry at a place. -/
  at? : σ → π → Option Entry

/-- Files are written whole or not at all. -/
structure WritesWhole {σ π : Type} (files : FileSystem σ) (view : View σ π) : Prop where
  /-- A write that fails leaves everything as it was. -/
  eq_of_error : ∀ {state after : σ} {path : String} {content : ByteArray} {fault : FileFault},
    files.write state path content = (.error fault, after) → after = state
  /-- After a write that succeeds, the place that the path led to is a file with the new content,
  which is read at the path, and there is no other change. -/
  replaced_of_ok : ∀ {state after : σ} {path : String} {content : ByteArray},
    files.write state path content = (.ok (), after) →
      ∃ place, view.place? state path = some place ∧
        view.at? after place = some (.file content) ∧
        (∀ other, other ≠ place → view.at? after other = view.at? state other) ∧
        files.read after path = .ok content

end FileSystem

namespace Spot

/-- The place that is looked at. -/
def place : Spot → FileTree.Place
  | folder place => place
  | file place _ => place
  | vacant place => place

/-- A directory is there. -/
def isFolder : Spot → Bool
  | folder _ => true
  | _ => false

/-- What was a file or an empty place, after a file is put at a place. -/
def replace (place : FileTree.Place) (content : ByteArray) : Spot → Spot
  | folder p => folder p
  | spot => if spot.place = place then file place content else spot

/-- A directory is not replaced. -/
theorem replace_of_isFolder {spot : Spot} (h : spot.isFolder = true) (place : FileTree.Place)
    (content : ByteArray) : spot.replace place content = spot := by
  cases spot <;> first | rfl | cases h

/-- What is no directory is replaced by a file at its place. -/
theorem replace_place {spot : Spot} (h : spot.isFolder = false) (content : ByteArray) :
    spot.replace spot.place content = .file spot.place content := by
  cases spot with
  | folder p => cases h
  | file p c => exact if_pos rfl
  | vacant p => exact if_pos rfl

end Spot

namespace FileTree

variable {tree : FileTree} {place : Place} {content : ByteArray}

/-! ## The entries -/

/-- The entries after a map that puts this file at one place and leaves the others. -/
theorem lookup_map_put (entries : List (Place × Entry)) (other : Place) :
    (entries.map fun e => if e.1 == place then (place, Entry.file content) else e).lookup other =
      if other = place then (entries.lookup other).map fun _ => .file content
      else entries.lookup other := by
  induction entries with
  | nil => rw [List.map_nil, List.lookup_nil, Option.map_none, ite_self]
  | cons e entries ih =>
    obtain ⟨k, entry⟩ := e
    by_cases hk : k = place
    · subst hk
      by_cases hother : other = k
      · subst hother
        simp only [List.map_cons, beq_self_eq_true, if_true, List.lookup_cons_self, Option.map_some]
      · have hne : (other == k) = false := beq_eq_false_iff_ne.2 hother
        simp only [List.map_cons, beq_self_eq_true, if_true, List.lookup_cons, hne, ih]
    · have hne : (k == place) = false := beq_eq_false_iff_ne.2 hk
      simp only [List.map_cons, hne, Bool.false_eq_true, if_false, List.lookup_cons]
      cases hother : other == k with
      | false => exact ih
      | true => rw [eq_of_beq hother, if_neg hk]

/-- The entries of a tree after a file is put at a place. -/
theorem lookup_put (tree : FileTree) (place : Place) (content : ByteArray) (other : Place) :
    (tree.put place content).entries.lookup other =
      if other = place then some (.file content) else tree.entries.lookup other := by
  unfold put
  dsimp only
  split
  · next hthere =>
    rw [lookup_map_put]
    split
    · next h =>
      subst h
      obtain ⟨entry, hentry⟩ := Option.isSome_iff_exists.1 hthere
      rw [hentry, Option.map_some]
    · rfl
  · next hvacant =>
    have hnone : tree.entries.lookup place = none := Option.not_isSome_iff_eq_none.1 hvacant
    rw [List.lookup_append]
    split
    · next h =>
      subst h
      rw [hnone, List.lookup_cons_self, Option.none_or]
    · next h =>
      rw [List.lookup_cons, beq_eq_false_iff_ne.2 h, List.lookup_nil, Option.or_none]

/-- A file that is put where no directory is is there, and all other entries are as before. -/
theorem at?_put (h : tree.at? place ≠ some .folder) (content : ByteArray) (other : Place) :
    (tree.put place content).at? other =
      if other = place then some (.file content) else tree.at? other := by
  have hworking : (tree.put place content).workingPlace = tree.workingPlace := rfl
  have hplace : place.isPrefixOf tree.workingPlace = false :=
    Bool.eq_false_iff.2 fun hprefix => h (if_pos hprefix)
  unfold at?
  rw [hworking, lookup_put]
  split
  · next hprefix =>
    have hne : other ≠ place := by
      rintro rfl
      rw [hplace] at hprefix
      cases hprefix
    rw [if_neg hne]
  · rfl

/-! ## Paths after a write -/

/-- What is at a place is seen at that place. -/
theorem place_spot (tree : FileTree) (place : Place) : (tree.spot place).place = place := by
  unfold spot
  split <;> rfl

/-- What is seen as a directory is one. -/
theorem isFolder_spot : (tree.spot place).isFolder = true ↔ tree.at? place = some .folder := by
  unfold spot
  rcases tree.at? place with _ | _ | _ <;> simp [Spot.isFolder]

/-- What is at a place after a file is put where no directory is. -/
theorem spot_put (h : tree.at? place ≠ some .folder) (other : Place) :
    (tree.put place content).spot other = (tree.spot other).replace place content := by
  unfold spot
  rw [at?_put h]
  by_cases hother : other = place
  · subst hother
    rw [if_pos rfl]
    rcases hentry : tree.at? other with _ | _ | _
    · exact (if_pos rfl).symm
    · exact (if_pos rfl).symm
    · exact absurd hentry h
  · rw [if_neg hother]
    rcases tree.at? other with _ | _ | _
    · exact (if_neg hother).symm
    · exact (if_neg hother).symm
    · rfl

/-- A possible step starts in a directory. It leads to a directory, in this tree as in any other, or
takes a name. -/
theorem step_cases {part : String} {spot next : Spot} (h : tree.step part spot = .ok next) :
    spot.isFolder = true ∧
      ((next.isFolder = true ∧ ∀ other : FileTree, other.step part spot = .ok next) ∨
        ∃ place, next = tree.spot place ∧
          ∀ other : FileTree, other.step part spot = .ok (other.spot place)) := by
  cases spot with
  | vacant p => cases h
  | file p c => cases h
  | folder p =>
    refine ⟨rfl, ?_⟩
    by_cases hdot : part = "."
    · rw [step, if_pos hdot] at h
      cases h
      exact .inl ⟨rfl, fun _ => if_pos hdot⟩
    · by_cases hdots : part = ".."
      · rw [step, if_neg hdot, if_pos hdots] at h
        cases h
        exact .inl ⟨rfl, fun _ => (if_neg hdot).trans (if_pos hdots)⟩
      · rw [step, if_neg hdot, if_neg hdots] at h
        split at h
        · cases h
        · next hsize =>
          cases h
          refine .inr ⟨_, rfl, fun other => ?_⟩
          rw [step, if_neg hdot, if_neg hdots, if_neg hsize]

/-- A step that is possible is possible after the write, and leads to the same place. -/
theorem step_put (h : tree.at? place ≠ some .folder) {part : String} {spot next : Spot}
    (hstep : tree.step part spot = .ok next) :
    (tree.put place content).step part (spot.replace place content) =
      .ok (next.replace place content) := by
  obtain ⟨hspot, ⟨hnext, hany⟩ | ⟨p, rfl, hany⟩⟩ := step_cases hstep
  · rw [Spot.replace_of_isFolder hspot, Spot.replace_of_isFolder hnext, hany]
  · rw [Spot.replace_of_isFolder hspot, hany, spot_put h]

/-- A path that leads somewhere leads to the same place after the write. -/
theorem walk_put (h : tree.at? place ≠ some .folder) {parts : List String} {spot last : Spot}
    (hwalk : tree.walk spot parts = .ok last) :
    (tree.put place content).walk (spot.replace place content) parts =
      .ok (last.replace place content) := by
  induction parts generalizing spot with
  | nil =>
    rw [walk] at hwalk ⊢
    cases hwalk
    rfl
  | cons part parts ih =>
    rw [walk] at hwalk ⊢
    split at hwalk
    · cases hwalk
    · next hstep =>
      rw [step_put h hstep]
      exact ih hwalk

/-! ## Where a path leads -/

/-- What a path leads to is no directory unless it is seen as one. -/
theorem at?_place_of_walk {parts : List String} {spot last : Spot}
    (hspot : spot.isFolder = true ∨ ∃ p, spot = tree.spot p)
    (hwalk : tree.walk spot parts = .ok last) (hlast : last.isFolder = false) :
    tree.at? last.place ≠ some .folder := by
  -- Where a path starts is not looked up, so it may be a directory that is no entry.
  induction parts generalizing spot with
  | nil =>
    rw [walk] at hwalk
    cases hwalk
    obtain hfolder | ⟨p, rfl⟩ := hspot
    · rw [hfolder] at hlast
      cases hlast
    · rw [place_spot]
      exact fun hentry => Bool.eq_false_iff.1 hlast (isFolder_spot.2 hentry)
  | cons part parts ih =>
    rw [walk] at hwalk
    split at hwalk
    · cases hwalk
    · next next hstep =>
      obtain ⟨-, ⟨hnext, -⟩ | ⟨p, hnext, -⟩⟩ := step_cases hstep
      · exact ih (.inl hnext) hwalk
      · exact ih (.inr ⟨p, hnext⟩) hwalk

/-- A path that ends in a dot leads to a directory if it leads anywhere. -/
theorem isFolder_of_walk_dot {parts : List String} {spot last : Spot}
    (hwalk : tree.walk spot (parts ++ ["."]) = .ok last) : last.isFolder = true := by
  induction parts generalizing spot with
  | nil =>
    rw [List.nil_append, walk] at hwalk
    cases spot with
    | vacant p => cases hwalk
    | file p c => cases hwalk
    | folder p =>
      cases hwalk
      rfl
  | cons part parts ih =>
    rw [List.cons_append, walk] at hwalk
    split at hwalk
    · cases hwalk
    · exact ih hwalk

/-- The place that a path leads to. -/
def place? (tree : FileTree) (path : String) : Option Place :=
  match Path.of? path with
  | .error _ => none
  | .ok p =>
    match tree.walk (tree.start p) p.readSteps with
    | .error _ => none
    | .ok spot => some spot.place

/-! ## Writing -/

/-- A write that succeeds has followed the path to something that is no directory, and puts the
content there. -/
theorem exists_walk_of_write {path : String} {after : FileTree}
    (h : tree.write path content = .ok after) :
    ∃ p last, Path.of? path = .ok p ∧ tree.walk (tree.start p) p.writeSteps = .ok last ∧
      last.isFolder = false ∧ after = tree.put last.place content := by
  unfold write at h
  split at h
  · cases h
  · next p hp =>
    split at h
    · cases h
    · next place c hwalk =>
      cases h
      exact ⟨p, _, hp, hwalk, rfl, rfl⟩
    · next place hwalk =>
      cases h
      exact ⟨p, _, hp, hwalk, rfl, rfl⟩
    · cases h

/-- A write that succeeds puts the content where the path leads to, where no directory is. Read at the
path it gives the content. -/
theorem write_eq_ok {path : String} {after : FileTree} (h : tree.write path content = .ok after) :
    ∃ place, tree.place? path = some place ∧ tree.at? place ≠ some .folder ∧
      after = tree.put place content ∧ after.read path = .ok content := by
  obtain ⟨p, last, hp, hwalk, hlast, rfl⟩ := exists_walk_of_write h
  -- With a slash at the end the last step would be the dot.
  have hslash : p.endsInSlash = false := by
    refine Bool.eq_false_iff.2 fun hslash => ?_
    rw [Path.writeSteps, if_pos hslash] at hwalk
    exact Bool.eq_false_iff.1 hlast (isFolder_of_walk_dot hwalk)
  have hsteps : p.writeSteps = p.readSteps := by
    rw [Path.writeSteps, Path.readSteps, hslash, if_neg Bool.false_ne_true,
      if_neg Bool.false_ne_true]
  rw [hsteps] at hwalk
  -- The same steps lead to the same place afterwards, and there is the new file.
  have hentry : tree.at? last.place ≠ some .folder := at?_place_of_walk (.inl rfl) hwalk hlast
  have hafter : (tree.put last.place content).walk _ p.readSteps = .ok _ := walk_put hentry hwalk
  rw [Spot.replace_of_isFolder rfl, Spot.replace_place hlast] at hafter
  refine ⟨last.place, ?_, hentry, rfl, ?_⟩
  · rw [place?, hp]
    dsimp only
    rw [hwalk]
  · rw [read, hp]
    dsimp only
    rw [show (tree.put last.place content).start p = tree.start p from rfl, hafter]

/-- How a tree is seen. -/
def view : FileSystem.View FileTree Place where
  place? := place?
  at? := at?

/-- A tree is written whole or not at all. -/
theorem writesWhole : fileSystem.WritesWhole view where
  eq_of_error {tree after path content fault} h := by
    simp only [fileSystem] at h
    split at h <;> cases h
    rfl
  replaced_of_ok {tree after path content} h := by
    simp only [fileSystem] at h
    split at h
    · cases h
    · next hwrite =>
      cases h
      obtain ⟨place, hplace, hentry, rfl, hread⟩ := write_eq_ok hwrite
      refine ⟨place, hplace, (at?_put hentry content place).trans (if_pos rfl), ?_, hread⟩
      exact fun other hother => (at?_put hentry content other).trans (if_neg hother)

end FileTree

end ParamClass

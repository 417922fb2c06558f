import Rollback.Proofs.Files.Writes

/-!
# What can be added to a tree

One more directory and one more file in a directory that is there. Both can be added under any name
that nothing stands against, and nothing else changes.

- `components_eq`, `components_join`: the components of a path are its steps that go anywhere
- `exists_makeDirectories_join`: one more directory
- `write_join`: one more file
-/

set_option autoImplicit false

namespace Rollback.FileTree

variable {t : FileTree} {root name : String} {place last : Location}

/-- The components of a path are its steps that do not stay where they are. -/
theorem components_eq (path : String) :
    Path.components path = (steps path).filter (· != ".") := by
  rw [Path.components, steps_eq]
  induction Text.pieces '/' path.toList with
  | nil => rfl
  | cons piece rest ih =>
    rw [List.map_cons, List.map_cons, List.filter_cons, List.filter_cons, ih, stepOf]
    cases piece with
    | nil => rfl
    | cons c piece => simp

/-- Steps that stay where they are can be left out of a way. -/
theorem walk_filter {way : List String} (walked : t.walk place way = .ok last) :
    t.walk place (way.filter (· != ".")) = .ok last := by
  induction way generalizing place with
  | nil => exact walked
  | cons step rest ih =>
    obtain ⟨above, named, more⟩ := walk_cons_eq_ok_iff.1 walked
    rw [List.filter_cons]
    split
    · exact walk_cons_eq_ok_iff.2 ⟨above, named, ih more⟩
    · rename_i stays
      obtain rfl : step = "." := by simpa using stays
      exact ih more

theorem components_join (root : String) {name : String} (h : IsPiece name) (notDot : name ≠ ".") :
    Path.components (Path.join root name) = Path.components root ++ [name] := by
  have before : (steps root).filter (· != ".") = (stepsBefore root).filter (· != ".") := by
    rcases steps_eq_stepsBefore root with same | stays
    · rw [same]
    · rw [stays, List.filter_append]
      simp
  rw [components_eq, components_eq, steps_join root h, List.filter_append, before]
  simp [notDot]

section Directory

variable {base : Location} {names : List String} (valid : IsEntryName name)
  (walked : t.walk base names = .ok place) (above : t.entry? place = some .directory)

include valid walked above

theorem makeDirectory_eq :
    t.makeDirectory base names name =
      if name == ".." || (t.entry? (place ++ [name])).isSome then .error .alreadyExists
      else .ok (t.put (place ++ [name]) .directory) := by
  have directory : t.requireDirectory place = .ok () := by
    rw [requireDirectory, above]
  rw [makeDirectory, walked]
  show (t.requireDirectory place >>= fun _ => requireName name >>= fun _ => _) = _
  rw [directory, requireName_eq_ok valid.short]
  rfl

/-- A directory of a name that is free is made. -/
theorem makeDirectoriesFrom_of_free (free : t.entry? (place ++ [name]) = none) :
    t.makeDirectoriesFrom base (name :: names.reverse) =
      (.ok (), t.put (place ++ [name]) .directory) := by
  have new : ¬(name == ".." || (t.entry? (place ++ [name])).isSome) = true := by
    rw [free]
    simpa using valid.notDots
  rw [makeDirectoriesFrom_cons, attemptDirectory, List.reverse_reverse,
    makeDirectory_eq valid walked above, if_neg new]

/-- A directory that is there stays. -/
theorem makeDirectoriesFrom_of_taken (taken : t.entry? (place ++ [name]) = some .directory) :
    t.makeDirectoriesFrom base (name :: names.reverse) = (.ok (), t) := by
  have old : (name == ".." || (t.entry? (place ++ [name])).isSome) = true := by
    rw [taken]
    simp
  have there : t.leadsToDirectory base (name :: names.reverse).reverse = true := by
    rw [leadsToDirectory, List.reverse_cons, List.reverse_reverse,
      walk_append.2 ⟨place, walked, walk_name valid above⟩]
    simpa using taken
  rw [makeDirectoriesFrom_cons, attemptDirectory, List.reverse_reverse,
    makeDirectory_eq valid walked above, if_pos old, there]
  rfl

end Directory

/-- One more directory can be made in a directory that is there, or it is there already. -/
theorem exists_makeDirectories_join (openable : IsOpenable (Path.join root name))
    (valid : IsEntryName name) (walked : t.walk (t.start root) (steps root) = .ok place)
    (above : t.entry? place = some .directory)
    (free : t.entry? (place ++ [name]) = none ∨ t.entry? (place ++ [name]) = some .directory) :
    ∃ u, t.makeDirectories (Path.join root name) = (.ok (), u) ∧
      u.workingDirectory = t.workingDirectory ∧
      ∀ q, FileTree.entry? u q = if q = place ++ [name] then some .directory else t.entry? q := by
  have way : t.walk (t.start root) (Path.components root) = .ok place := by
    rw [components_eq]
    exact walk_filter walked
  have made : t.makeDirectories (Path.join root name) =
      t.makeDirectoriesFrom (t.start root) (name :: (Path.components root).reverse) := by
    rw [makeDirectories, if_neg (by simpa using openable.nonempty),
      (requirePath_eq_ok_iff _).2 openable, start_join t root valid.isPiece,
      components_join root valid.isPiece valid.notDot, List.reverse_concat]
  rw [made]
  rcases free with free | taken
  · refine ⟨_, makeDirectoriesFrom_of_free valid way above free, rfl, fun q => ?_⟩
    exact entry?_put (by simp) _ q
  · refine ⟨_, makeDirectoriesFrom_of_taken valid way above taken, rfl, fun q => ?_⟩
    split
    · rename_i here
      rw [here, taken]
    · rfl

/-- One more file can be written into a directory that is there, unless a directory has its name. -/
theorem write_join (openable : IsOpenable (Path.join root name)) (valid : IsEntryName name)
    (walked : t.walk (t.start root) (steps root) = .ok place)
    (above : t.entry? place = some .directory)
    (free : t.entry? (place ++ [name]) ≠ some .directory) (text : String) :
    t.write (Path.join root name) text = .ok (t.put (place ++ [name]) (.file (.text text))) := by
  have last : (steps (Path.join root name)).getLast? = some name := by
    rw [steps_join root valid.isPiece, List.getLast?_concat]
  have noSlash : (Path.join root name).toList.getLast? ≠ some '/' := by
    intro slash
    obtain ⟨before, chars⟩ := List.getLast?_eq_some_iff.1 slash
    rw [steps_of_slash chars, List.getLast?_concat] at last
    exact valid.notDot (Option.some.inj last).symm
  have way : t.walk (t.start (Path.join root name)) (steps (Path.join root name)).dropLast =
      .ok place := by
    rw [start_join t root valid.isPiece, steps_join root valid.isPiece, List.dropLast_concat]
    exact (walk_stepsBefore_iff.2 ⟨walked, above⟩).1
  -- The last step is a name, so the path leads to an entry below the directory.
  have file : ¬((Path.join root name).toList.getLast? == some '/' || name == "." || name == "..") =
      true := by
    simp [noSlash, valid.notDot, valid.notDots]
  rw [write]
  refine bind_eq_ok_iff.2 ⟨(), (requirePath_eq_ok_iff _).2 openable, ?_⟩
  rw [withoutEndSlashes_eq noSlash]
  dsimp only
  rw [last]
  refine bind_eq_ok_iff.2 ⟨place, way, ?_⟩
  refine bind_eq_ok_iff.2 ⟨(), requireDirectory_eq_ok_iff.2 above, ?_⟩
  rw [if_neg file]
  refine bind_eq_ok_iff.2 ⟨(), requireName_eq_ok valid.short, ?_⟩
  split
  · rename_i taken
    exact absurd taken free
  · rfl

end Rollback.FileTree

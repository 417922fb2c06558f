import Rollback.Proofs.Files.Walks
import Rollback.Proofs.Text.Dots

/-!
# Changes of a tree

What making directories and writing a file leave behind.

- `entry?_put`: a change of one place
- `write_eq_ok`: a file is written to one place, in a directory
- `readText_write`: what was written is read
- `AddsDirectories`: a tree that has more directories
- `FileWork.writeWithParents_eq_ok_iff`: a file is written once the directories on the way are there
-/

set_option autoImplicit false

namespace Rollback

namespace Text

/-- The step of `mem_of_mem_pieces`, with the piece that is read so far. -/
theorem mem_of_mem_piecesFrom {separator c : Char} {s : List Char} :
    ∀ {piece part : List Char}, part ∈ piecesFrom separator piece s → c ∈ part →
      c ∈ piece ∨ c ∈ s := by
  induction s with
  | nil =>
    intro piece part inside mem
    rw [piecesFrom, List.mem_singleton] at inside
    rw [inside, List.mem_reverse] at mem
    exact .inl mem
  | cons d rest ih =>
    intro piece part inside mem
    rw [piecesFrom] at inside
    split at inside
    · rcases List.mem_cons.1 inside with rfl | inside
      · exact .inl (List.mem_reverse.1 mem)
      · rcases ih inside mem with started | found
        · cases started
        · exact .inr (List.mem_cons_of_mem _ found)
    · rcases ih inside mem with started | found
      · rcases List.mem_cons.1 started with rfl | started
        · exact .inr List.mem_cons_self
        · exact .inl started
      · exact .inr (List.mem_cons_of_mem _ found)

theorem mem_of_mem_pieces {separator c : Char} {s part : List Char}
    (inside : part ∈ pieces separator s) (mem : c ∈ part) : c ∈ s :=
  (mem_of_mem_piecesFrom inside mem).resolve_left List.not_mem_nil

end Text

namespace FileTree

variable {t u v : FileTree}

/-! ## Changes of one place -/

/-- After a change of one place, the other places are as they were. -/
theorem entry?_put {place : Location} (below : place ≠ []) (entry : Entry) (q : Location) :
    FileTree.entry? (t.put place entry) q = if q = place then some entry else t.entry? q := by
  by_cases root : q = []
  · subst root
    rw [if_neg (Ne.symm below), entry?_nil, entry?_nil]
  · rw [entry?_of_ne_nil root, entry?_of_ne_nil root, put]
    dsimp only
    split
    · rename_i known
      rw [lookup_map_ite]
      obtain ⟨old, found⟩ := Option.isSome_iff_exists.1 known
      simp [found]
    · rename_i unknown
      have absent : t.entries.lookup place = none := Option.not_isSome_iff_eq_none.1 unknown
      rw [List.lookup_append, List.lookup_cons, List.lookup_nil]
      by_cases same : q = place
      · subst same
        simp [absent]
      · simp [same, beq_eq_false_iff_ne.2 same]

@[simp] theorem workingDirectory_put (place : Location) (entry : Entry) :
    (t.put place entry).workingDirectory = t.workingDirectory := rfl

/-- After a change, an entry is the new one or was there at another place. -/
theorem mem_entries_put {place : Location} {entry : Entry} {e : Location × Entry}
    (mem : e ∈ (t.put place entry).entries) :
    e = (place, entry) ∨ e ∈ t.entries ∧ e.1 ≠ place := by
  rw [put] at mem
  dsimp only at mem
  split at mem
  · obtain ⟨old, inside, rfl⟩ := List.mem_map.1 mem
    by_cases here : old.1 = place
    · left
      rw [if_pos (beq_iff_eq.2 here)]
    · right
      rw [if_neg (by simpa using here)]
      exact ⟨inside, here⟩
  · rename_i unknown
    rcases List.mem_append.1 mem with inside | last
    · right
      refine ⟨inside, fun here => unknown ?_⟩
      rw [List.lookup_isSome_iff]
      exact ⟨e, inside, by rw [here, beq_self_eq_true]⟩
    · exact .inl (List.mem_singleton.1 last)

/-- The places keep their order, and a new one comes last. -/
theorem map_fst_put (place : Location) (entry : Entry) :
    (t.put place entry).entries.map Prod.fst =
      if (t.entries.lookup place).isSome then t.entries.map Prod.fst
      else t.entries.map Prod.fst ++ [place] := by
  rw [put]
  dsimp only
  split
  · rw [List.map_map]
    refine List.map_congr_left fun e _ => ?_
    by_cases here : e.1 = place <;> simp [here]
  · simp

/-- A tree stays well-formed if an entry that is no directory is set in a directory. -/
theorem WellFormed.put (wf : t.WellFormed) {directory : Location} {name : String} {entry : Entry}
    (above : t.entry? directory = some .directory) (valid : IsEntryName name)
    (free : t.entry? (directory ++ [name]) ≠ some .directory) :
    (t.put (directory ++ [name]) entry).WellFormed := by
  have below : directory ++ [name] ≠ [] := by simp
  -- The directory above an entry is another place than the one that is set.
  have kept : ∀ q, t.entry? q = some .directory →
      FileTree.entry? (t.put (directory ++ [name]) entry) q = some .directory := by
    intro q found
    have other : q ≠ directory ++ [name] := fun same => free (same ▸ found)
    rw [entry?_put below, if_neg other, found]
  constructor
  · rw [map_fst_put]
    split
    · exact wf.distinct
    · rename_i unknown
      rw [List.nodup_append]
      refine ⟨wf.distinct, List.pairwise_singleton _ _, ?_⟩
      rintro p mem q last rfl
      obtain rfl := List.mem_singleton.1 last
      obtain ⟨e, inside, here⟩ := List.mem_map.1 mem
      exact unknown (List.lookup_isSome_iff.2 ⟨e, inside, by rw [here, beq_self_eq_true]⟩)
  · intro e mem
    rcases mem_entries_put mem with rfl | ⟨inside, -⟩
    · exact below
    · exact wf.below e inside
  · intro e mem
    rcases mem_entries_put mem with rfl | ⟨inside, -⟩
    · rw [List.dropLast_concat]
      exact kept _ above
    · exact kept _ (wf.parent e inside)
  · intro e mem
    rcases mem_entries_put mem with rfl | ⟨inside, -⟩
    · intro part mem
      rcases List.mem_append.1 mem with inside | last
      · exact wf.isEntryName_of_entry? above part inside
      · exact List.mem_singleton.1 last ▸ valid
    · exact wf.names e inside

/-! ## Walks in a changed tree -/

/-- A walk leads to the same place as long as its directories are there. -/
theorem walk_mono (kept : ∀ q, t.entry? q = some .directory → u.entry? q = some .directory) :
    ∀ {way : List String} {place last : Location}, t.walk place way = .ok last →
      u.walk place way = .ok last := by
  intro way
  induction way with
  | nil => exact fun h => h
  | cons step rest ih =>
    intro place last h
    obtain ⟨directory, name, more⟩ := walk_cons_eq_ok_iff.1 h
    exact walk_cons_eq_ok_iff.2 ⟨kept _ directory, name, ih more⟩

/-- Paths start from the same places in trees with one working directory. -/
theorem start_eq_of_workingDirectory (same : u.workingDirectory = t.workingDirectory)
    (path : String) : u.start path = t.start path := by
  rw [start, start, same]

/-- What a path leads to is found as long as it is there and the directories on the way are. -/
theorem locate_mono (same : u.workingDirectory = t.workingDirectory)
    (kept : ∀ q, t.entry? q = some .directory → u.entry? q = some .directory) {path : String}
    {place : Location} {entry entry' : Entry} (located : t.locate path = .ok (place, entry))
    (found : u.entry? place = some entry') : u.locate path = .ok (place, entry') := by
  obtain ⟨openable, walked, -⟩ := locate_eq_ok_iff.1 located
  rw [← start_eq_of_workingDirectory same] at walked
  exact locate_eq_ok_iff.2 ⟨openable, walk_mono kept walked, found⟩

theorem short_of_requireName {name : String} {u : Unit} (h : requireName name = .ok u) :
    name.utf8ByteSize ≤ Path.longestName := by
  rw [requireName] at h
  split at h
  · cases h
  · rename_i short
    exact Nat.not_lt.1 short

/-! ## Files that are written -/

theorem withoutEndSlashes_eq {path : String} (h : path.toList.getLast? ≠ some '/') :
    Path.withoutEndSlashes path = path := by
  have start : path.toList.reverse.dropWhile (· == '/') = path.toList.reverse := by
    cases chars : path.toList.reverse with
    | nil => rfl
    | cons c rest =>
      have last : path.toList.getLast? = some c := by
        rw [← List.head?_reverse, chars, List.head?_cons]
      have other : c ≠ '/' := fun same => h (same ▸ last)
      rw [List.dropWhile_cons, if_neg (by simpa using other)]
  rw [Path.withoutEndSlashes, start, List.reverse_reverse, String.ofList_toList]

/-- A step of a path that can be looked up, if it is the name of something. -/
theorem isEntryName_of_mem_steps {path step : String} (clean : '\x00' ∉ path.toList)
    (mem : step ∈ steps path) (notDot : step ≠ ".") (notDots : step ≠ "..")
    (short : step.utf8ByteSize ≤ Path.longestName) : IsEntryName step := by
  rw [steps_eq] at mem
  obtain ⟨piece, inside, rfl⟩ := List.mem_map.1 mem
  have nonempty : piece ≠ [] := by
    rintro rfl
    exact notDot rfl
  have text : stepOf piece = String.ofList piece := by
    rw [stepOf, if_neg (by simpa using nonempty)]
  rw [text] at notDot notDots short ⊢
  refine ⟨by simpa using nonempty, notDot, notDots, ?_, ?_, short⟩
  · rw [String.toList_ofList]
    exact Text.separator_notMem_pieces inside
  · rw [String.toList_ofList]
    exact fun nul => clean (Text.mem_of_mem_pieces inside nul)

/-- What a written file takes: its path leads to a place in a directory, and there is no directory
at that place. -/
structure IsWritten (t : FileTree) (path text : String) (directory : Location) (name : String)
    (t' : FileTree) : Prop where
  openable : IsOpenable path
  walked : t.walk (t.start path) (steps path) = .ok (directory ++ [name])
  above : t.entry? directory = some .directory
  valid : IsEntryName name
  free : t.entry? (directory ++ [name]) ≠ some .directory
  result : t' = t.put (directory ++ [name]) (.file (.text text))

/-- A write that succeeds has put a file into a directory. -/
theorem write_eq_ok {path text : String} (h : t.write path text = .ok u) :
    ∃ directory name, IsWritten t path text directory name u := by
  rw [write, bind_eq_ok_iff] at h
  obtain ⟨⟨⟩, openable, h⟩ := h
  rw [requirePath_eq_ok_iff] at openable
  dsimp only at h
  split at h
  · cases h
  · rename_i last ends
    simp only [bind_eq_ok_iff, requireDirectory_eq_ok_iff] at h
    obtain ⟨directory, walked, ⟨⟩, above, h⟩ := h
    split at h
    · cases h
    · rename_i named
      -- What is refused before this is what is no name of an entry, apart from long names.
      obtain ⟨⟨noSlash, notDot⟩, notDots⟩ : (path.toList.getLast? ≠ some '/' ∧ last ≠ ".") ∧
          last ≠ ".." := by simpa [not_or] using named
      rw [bind_eq_ok_iff] at h
      obtain ⟨⟨⟩, name, h⟩ := h
      rw [withoutEndSlashes_eq noSlash] at ends walked
      have valid :=
        isEntryName_of_mem_steps openable.clean (List.mem_of_getLast? ends) notDot notDots
        (short_of_requireName name)
      have way : steps path = (steps path).dropLast ++ [last] := by
        obtain ⟨before, eq⟩ := List.getLast?_eq_some_iff.1 ends
        rw [eq, List.dropLast_concat]
      have free : t.entry? (directory ++ [last]) ≠ some .directory := by
        intro taken
        rw [taken] at h
        cases h
      refine ⟨directory, last, openable, ?_, above, valid, free, ?_⟩
      · rw [way]
        exact walk_append.2 ⟨directory, walked, walk_name valid above⟩
      · split at h
        · cases h
        · exact (Except.ok.inj h).symm

namespace IsWritten

variable {path text name : String} {directory : Location} {t' : FileTree}

theorem workingDirectory (h : IsWritten t path text directory name t') :
    t'.workingDirectory = t.workingDirectory := by
  rw [h.result, workingDirectory_put]

/-- A write changes one place and no other. -/
theorem entry?_eq (h : IsWritten t path text directory name t') (q : Location) :
    t'.entry? q =
      if q = directory ++ [name] then some (.file (.text text)) else t.entry? q := by
  rw [h.result, entry?_put (by simp)]

/-- A directory is not overwritten. -/
theorem keeps (h : IsWritten t path text directory name t') {q : Location}
    (found : t.entry? q = some .directory) : t'.entry? q = some .directory := by
  have other : q ≠ directory ++ [name] := fun same => h.free (same ▸ found)
  rw [h.entry?_eq, if_neg other, found]

theorem wellFormed (h : IsWritten t path text directory name t') (wf : t.WellFormed) :
    t'.WellFormed := by
  rw [h.result]
  exact wf.put h.above h.valid h.free

/-- The file is found at its path. -/
theorem locate_eq (h : IsWritten t path text directory name t') :
    t'.locate path = .ok (directory ++ [name], .file (.text text)) := by
  refine locate_eq_ok_iff.2 ⟨h.openable, ?_, ?_⟩
  · -- The way goes through directories only, and none of them is the place that was written to.
    rw [start_eq_of_workingDirectory h.workingDirectory]
    exact walk_mono (fun q found => h.keeps found) h.walked
  · rw [h.entry?_eq, if_pos rfl]

end IsWritten

/-- What was written to a path is what is read from it. -/
theorem readText_write {path text : String} (h : t.write path text = .ok u) :
    u.readText path = .ok text := by
  obtain ⟨directory, name, written⟩ := write_eq_ok h
  exact readText_eq_ok_iff.2 ⟨_, written.locate_eq⟩

/-! ## Directories that are made -/

/-- A tree that differs from another one in more directories only. -/
structure AddsDirectories (t u : FileTree) : Prop where
  workingDirectory : u.workingDirectory = t.workingDirectory
  entries : ∀ q, u.entry? q = t.entry? q ∨ t.entry? q = none ∧ u.entry? q = some .directory
  wellFormed : t.WellFormed → u.WellFormed

namespace AddsDirectories

theorem refl (t : FileTree) : AddsDirectories t t :=
  ⟨rfl, fun _ => .inl rfl, id⟩

theorem trans (first : AddsDirectories t u) (second : AddsDirectories u v) :
    AddsDirectories t v := by
  refine ⟨second.workingDirectory.trans first.workingDirectory, fun q => ?_,
    fun wf => second.wellFormed (first.wellFormed wf)⟩
  rcases first.entries q with same | ⟨absent, made⟩
  · rcases second.entries q with same' | ⟨absent', made'⟩
    · exact .inl (same'.trans same)
    · exact .inr ⟨same.symm.trans absent', made'⟩
  · rcases second.entries q with same' | ⟨absent', made'⟩
    · exact .inr ⟨absent, same'.trans made⟩
    · exact .inr ⟨absent, made'⟩

/-- What is there stays as it is. -/
theorem keeps (h : AddsDirectories t u) {q : Location} {entry : Entry}
    (found : t.entry? q = some entry) : u.entry? q = some entry := by
  rcases h.entries q with same | ⟨absent, -⟩
  · exact same.trans found
  · rw [absent] at found
    cases found

/-- Adding directories leaves all files, and makes none. -/
theorem entry?_file_iff (h : AddsDirectories t u) {q : Location} {content : Content} :
    u.entry? q = some (.file content) ↔ t.entry? q = some (.file content) := by
  rcases h.entries q with same | ⟨absent, made⟩
  · rw [same]
  · simp [absent, made]

end AddsDirectories

/-- A component of a path that can be looked up, as long as it is short enough. -/
structure IsComponent (name : String) : Prop where
  nonempty : name ≠ ""
  notDot : name ≠ "."
  slash : '/' ∉ name.toList
  nul : '\x00' ∉ name.toList

/-- What a path is cut into are components, unless it holds the character that ends a path. -/
theorem isComponent_of_mem_components {path name : String} (clean : '\x00' ∉ path.toList)
    (mem : name ∈ Path.components path) : IsComponent name := by
  obtain ⟨listed, named⟩ := List.mem_filter.1 mem
  obtain ⟨piece, inside, rfl⟩ := List.mem_map.1 listed
  rw [Bool.and_eq_true, Bool.not_eq_true', bne_iff_ne] at named
  refine ⟨fun empty => ?_, named.2, ?_, ?_⟩
  · rw [empty] at named
    cases named.1
  · rw [String.toList_ofList]
    exact Text.separator_notMem_pieces inside
  · rw [String.toList_ofList]
    exact fun nul => clean (Text.mem_of_mem_pieces inside nul)

/-- Making a directory adds one, or nothing if it is there. -/
theorem addsDirectories_makeDirectory {base : Location} {names : List String} {name : String}
    (component : IsComponent name) (h : t.makeDirectory base names name = .ok u) :
    AddsDirectories t u := by
  rw [makeDirectory, bind_eq_ok_iff] at h
  obtain ⟨parent, -, h⟩ := h
  simp only [bind_eq_ok_iff, requireDirectory_eq_ok_iff] at h
  obtain ⟨⟨⟩, above, ⟨⟩, short, h⟩ := h
  split at h
  · cases h
  · rename_i new
    obtain ⟨notDots, absent⟩ : name ≠ ".." ∧ t.entry? (parent ++ [name]) = none := by
      simpa [not_or] using new
    obtain rfl := Except.ok.inj h
    have short := short_of_requireName short
    have valid : IsEntryName name :=
      ⟨component.nonempty, component.notDot, notDots, component.slash, component.nul, short⟩
    refine ⟨rfl, fun q => ?_, fun wf => wf.put above valid (by simp [absent])⟩
    rw [entry?_put (by simp)]
    by_cases here : q = parent ++ [name]
    · exact .inr ⟨here ▸ absent, if_pos here⟩
    · exact .inl (if_neg here)

/-- One attempt to make the last directory on a way, and what follows if its parent is missing. -/
def attemptDirectory (base : Location) (name : String) (before : List String)
    (retry : FileTree → Except FileFault Unit × FileTree) (t : FileTree) :
    Except FileFault Unit × FileTree :=
  match t.makeDirectory base before.reverse name with
  | .ok t => (.ok (), t)
  | .error fault =>
    if fault == .notFound then retry t
    else if t.leadsToDirectory base (name :: before).reverse then (.ok (), t)
    else (.error fault, t)

/-- The directories above are made only after a first attempt has failed. -/
theorem makeDirectoriesFrom_cons (base : Location) (name : String) (before : List String) :
    t.makeDirectoriesFrom base (name :: before) =
      attemptDirectory base name before (fun t =>
        match t.makeDirectoriesFrom base before with
        | (.ok (), t) => attemptDirectory base name before (fun t => (.error .notFound, t)) t
        | (.error fault, t) => (.error fault, t)) t := rfl

/-- An attempt adds directories only, if its retry does. -/
theorem addsDirectories_attemptDirectory {base : Location} {name : String} {before : List String}
    {retry : FileTree → Except FileFault Unit × FileTree} (component : IsComponent name)
    (retried : AddsDirectories t (retry t).2) :
    AddsDirectories t (attemptDirectory base name before retry t).2 := by
  rw [attemptDirectory]
  split
  · rename_i made
    exact addsDirectories_makeDirectory component made
  · split
    · exact retried
    · split
      · exact .refl t
      · exact .refl t

/-- Whether it succeeds or not, the work adds directories only. -/
theorem addsDirectories_makeDirectoriesFrom {base : Location} {names : List String}
    (components : ∀ name ∈ names, IsComponent name) :
    AddsDirectories t (t.makeDirectoriesFrom base names).2 := by
  induction names with
  | nil => exact .refl t
  | cons name before ih =>
    have before_adds := ih fun other mem => components other (List.mem_cons_of_mem _ mem)
    have here : IsComponent name := components name List.mem_cons_self
    rw [makeDirectoriesFrom_cons]
    refine addsDirectories_attemptDirectory here ?_
    -- A second attempt is made in the tree to which the directories before were added.
    split
    · rename_i made
      rw [made] at before_adds
      exact before_adds.trans (addsDirectories_attemptDirectory here (.refl _))
    · rename_i made
      rwa [made] at before_adds

/-- Directories are made on the way that a path describes, also where it ends in a failure. -/
theorem addsDirectories_makeDirectories {path : String} {result : Except FileFault Unit}
    (h : t.makeDirectories path = (result, u)) : AddsDirectories t u := by
  obtain rfl : (t.makeDirectories path).2 = u := congrArg Prod.snd h
  clear h
  rw [makeDirectories]
  split
  · exact .refl t
  · split
    · rename_i openable
      refine addsDirectories_makeDirectoriesFrom fun name mem => ?_
      exact isComponent_of_mem_components ((requirePath_eq_ok_iff path).1 openable).clean
        (List.mem_reverse.1 mem)
    · exact .refl t

end FileTree

namespace FileWork

open FileTree

variable {t t' : FileTree}

theorem change_eq_ok_iff {step : FileTree → Except FileFault FileTree} :
    change step t = (.ok (), t') ↔ step t = .ok t' := by
  rw [change]
  cases step t with
  | ok u =>
    constructor
    · exact fun h => congrArg Except.ok (Prod.mk.inj h).2
    · rintro ⟨⟩
      rfl
  | error fault =>
    constructor
    · exact fun h => nomatch (Prod.mk.inj h).1
    · exact fun h => nomatch h

/-- Writing as work is writing into the tree. -/
theorem write_eq_ok_iff {path text : String} :
    write path text t = (.ok (), t') ↔ t.write path text = .ok t' :=
  change_eq_ok_iff

theorem makeDirectories_eq_ok_iff {path : String} :
    makeDirectories path t = (.ok (), t') ↔ t.makeDirectories path = (.ok (), t') := by
  show ((t.makeDirectories path).1.mapError Failure.unwritable, (t.makeDirectories path).2) =
    (.ok (), t') ↔ _
  rcases t.makeDirectories path with ⟨fault | ⟨⟩, u⟩
  · constructor
    · exact fun h => nomatch (Prod.mk.inj h).1
    · exact fun h => nomatch (Prod.mk.inj h).1
  · constructor
    · rintro ⟨⟩
      rfl
    · rintro ⟨⟩
      rfl

/-- A file is written once the directories on the way to it are there. -/
theorem writeWithParents_eq_ok_iff {path text : String} :
    writeWithParents path text t = (.ok (), t') ↔
      ∃ made, t.makeDirectories (Path.parent path) = (.ok (), made) ∧
        made.write path text = .ok t' := by
  rw [writeWithParents, Work.bind_eq_ok_iff]
  constructor
  · rintro ⟨⟨⟩, made, directories, written⟩
    exact ⟨made, makeDirectories_eq_ok_iff.1 directories, write_eq_ok_iff.1 written⟩
  · rintro ⟨made, directories, written⟩
    exact ⟨(), made, makeDirectories_eq_ok_iff.2 directories, write_eq_ok_iff.2 written⟩

end FileWork

end Rollback

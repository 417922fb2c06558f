import Rollback.Proofs.Deployment.Collisions
import Rollback.Proofs.Files.Additions

/-!
# Files of a rollback

The rollback of every file of a deployment goes to a file of its own, in a directory for its unit.
The names of units and files can be any texts. They are made names of one component each, so that no
rollback leaves the directory that is written to, and no rollback is written if two of them would
become the same file.

- `IsSingleComponent`: a name that stays where it is, on any system
- `sanitizeComponent_eq_self`: such a name is not changed again
- `FileRollback.way`: the names of the directory and of the file for a rollback
- `Filled`: a tree into which rollbacks were written
- `filled_writeTargets`: what is written, one rollback after another
- `writeFiles_spec`: the files are written, or two of them have the same names
-/

set_option autoImplicit false

namespace Rollback

open FileTree

/-! ## Names of one component -/

/-- A name of one component that leads to no other directory, with slashes, backslashes or colons
between components. -/
structure IsSingleComponent (name : String) : Prop where
  nonempty : name ≠ ""
  notDot : name ≠ "."
  notDots : name ≠ ".."
  slash : '/' ∉ name.toList
  backslash : '\\' ∉ name.toList
  colon : ':' ∉ name.toList

theorem IsSingleComponent.isPiece {name : String} (h : IsSingleComponent name) : IsPiece name :=
  ⟨h.nonempty, h.slash⟩

/-- A character that separates components becomes a line. -/
def unseparated (c : Char) : Char :=
  if c = '/' ∨ c = '\\' ∨ c = ':' then '_' else c

/-- None of the three separators is left. -/
theorem unseparated_ne (c : Char) :
    unseparated c ≠ '/' ∧ unseparated c ≠ '\\' ∧ unseparated c ≠ ':' := by
  rw [unseparated]
  split
  · decide
  · simp_all

/-- A component is the trimmed name without separators, unless that leads nowhere. -/
theorem sanitizeComponent_eq (name missing : String) :
    sanitizeComponent name missing =
      let trimmed := String.ofList (Text.trim (name.toList.map unseparated))
      if trimmed = "" ∨ trimmed = "." ∨ trimmed = ".." then missing else trimmed := by
  rw [sanitizeComponent]
  simp only [Bool.or_eq_true, beq_iff_eq, or_assoc]
  rfl

/-- A name becomes one component, whatever it was, if the one in its place is one. -/
theorem isSingleComponent_sanitizeComponent (name : String) {missing : String}
    (h : IsSingleComponent missing) : IsSingleComponent (sanitizeComponent name missing) := by
  -- Separators are replaced before the name is trimmed, so what is left has none.
  have clean : ∀ c ∈ Text.trim (name.toList.map unseparated), c ≠ '/' ∧ c ≠ '\\' ∧ c ≠ ':' := by
    intro c mem
    obtain ⟨old, -, rfl⟩ := List.mem_map.1 (Text.mem_of_mem_trim mem)
    exact unseparated_ne old
  rw [sanitizeComponent_eq]
  dsimp only
  split
  · exact h
  · rename_i named
    obtain ⟨nonempty, notDot, notDots⟩ := by simpa only [not_or] using named
    refine ⟨nonempty, notDot, notDots, ?_, ?_, ?_⟩
    all_goals
      rw [String.toList_ofList]
      intro mem
    · exact (clean _ mem).1 rfl
    · exact (clean _ mem).2.1 rfl
    · exact (clean _ mem).2.2 rfl

theorem trimmed_sanitizeComponent (name : String) {missing : String}
    (h : Text.Trimmed missing.toList) :
    Text.Trimmed (sanitizeComponent name missing).toList := by
  rw [sanitizeComponent_eq]
  dsimp only
  split
  · exact h
  · rw [String.toList_ofList]
    exact Text.trimmed_trim _

/-- A name of one component without blanks around it stays as it is. -/
theorem sanitizeComponent_eq_self {name : String} (h : IsSingleComponent name)
    (trimmed : Text.Trimmed name.toList) (missing : String) :
    sanitizeComponent name missing = name := by
  have kept : ∀ c ∈ name.toList, unseparated c = id c := by
    intro c mem
    refine if_neg ?_
    rintro (rfl | rfl | rfl)
    · exact h.slash mem
    · exact h.backslash mem
    · exact h.colon mem
  have same : name.toList.map unseparated = name.toList := by
    rw [List.map_congr_left kept, List.map_id]
  rw [sanitizeComponent_eq, same, trimmed.trim_eq, String.ofList_toList]
  exact if_neg (not_or.2 ⟨h.nonempty, not_or.2 ⟨h.notDot, h.notDots⟩⟩)

theorem isSingleComponent_namelessUnit : IsSingleComponent namelessUnit := by
  constructor <;> decide

theorem isSingleComponent_namelessRollback : IsSingleComponent namelessRollback := by
  constructor <;> decide

theorem trimmed_namelessRollback : Text.Trimmed namelessRollback.toList := by
  constructor <;> decide

/-- The name of a rollback file is made a name of one component, so it is not changed again. -/
theorem sanitizeComponent_rollbackName (b : Batch) (name : String) :
    sanitizeComponent (b.rollbackName name) namelessRollback = b.rollbackName name :=
  sanitizeComponent_eq_self
    (isSingleComponent_sanitizeComponent _ isSingleComponent_namelessRollback)
    (trimmed_sanitizeComponent _ trimmed_namelessRollback) _

namespace Batch

variable {b : Batch} {t : FileTree} {r : BatchRollback}

/-- The rollbacks of a unit are named after their forward files. -/
theorem rollbackName_of_mem_reverseFiles {unit : String} {files : List DeploymentFile}
    (h : b.reverseFiles t unit files = .ok r) :
    ∀ f ∈ r.files, f.rollbackName = b.rollbackName f.forwardName := by
  induction files generalizing r with
  | nil =>
    obtain rfl := Except.ok.inj h
    exact List.forall_mem_nil _
  | cons file rest ih =>
    obtain ⟨text, -, h⟩ := bind_eq_ok_iff.1 h
    obtain ⟨more, read, h⟩ := bind_eq_ok_iff.1 h
    obtain rfl := Except.ok.inj h
    intro f mem
    rcases List.mem_append.1 mem with here | later
    · rw [reverseFile] at here
      dsimp only at here
      split at here
      · cases here
      · rw [List.mem_singleton.1 here]
    · exact ih read f later

/-- Every rollback of a deployment has the name that is made from the name of the forward file. -/
theorem rollbackName_of_mem_reverseUnits {units : List DeploymentUnit}
    (h : b.reverseUnits t units = .ok r) :
    ∀ f ∈ r.files, f.rollbackName = b.rollbackName f.forwardName := by
  rw [reverseUnits] at h
  generalize units.reverse = units at h
  induction units generalizing r with
  | nil =>
    obtain rfl := Except.ok.inj h
    exact List.forall_mem_nil _
  | cons u rest ih =>
    obtain ⟨files, here, h⟩ := bind_eq_ok_iff.1 h
    obtain ⟨more, read, h⟩ := bind_eq_ok_iff.1 h
    obtain rfl := Except.ok.inj h
    intro f mem
    rcases List.mem_append.1 mem with mem | later
    · exact rollbackName_of_mem_reverseFiles here f mem
    · exact ih read f later

end Batch

/-! ## The way to a rollback -/

namespace FileRollback

/-- The name of the directory for a rollback. -/
def unitComponent (f : FileRollback) : String :=
  sanitizeComponent f.unitName namelessUnit

/-- The name of the file for a rollback. -/
def fileComponent (f : FileRollback) : String :=
  sanitizeComponent f.rollbackName namelessRollback

/-- The names on the way to a rollback, from the directory for all on. -/
def way (f : FileRollback) : List String :=
  [f.unitComponent, f.fileComponent]

theorem unitComponent_mem_way (f : FileRollback) : f.unitComponent ∈ f.way := by
  rw [way]
  exact List.mem_cons_self

theorem fileComponent_mem_way (f : FileRollback) : f.fileComponent ∈ f.way := by
  rw [way]
  exact List.mem_cons_of_mem _ List.mem_cons_self

/-- The directory of a unit is one step from the directory for all. -/
theorem isSingleComponent_unitComponent (f : FileRollback) :
    IsSingleComponent f.unitComponent :=
  isSingleComponent_sanitizeComponent _ isSingleComponent_namelessUnit

/-- The file of a rollback is one step from the directory of its unit. -/
theorem isSingleComponent_fileComponent (f : FileRollback) :
    IsSingleComponent f.fileComponent :=
  isSingleComponent_sanitizeComponent _ isSingleComponent_namelessRollback

/-- A rollback is two steps from the directory for all, and none leads back. -/
theorem isSingleComponent_of_mem_way (f : FileRollback) :
    ∀ name ∈ f.way, IsSingleComponent name :=
  List.forall_mem_cons.2 ⟨f.isSingleComponent_unitComponent,
    List.forall_mem_singleton.2 f.isSingleComponent_fileComponent⟩

end FileRollback

namespace FileTree

/-- A name of one component does not end a path in an empty piece. -/
theorem stepsBefore_join (root : String) {name : String} (h : IsSingleComponent name) :
    stepsBefore (Path.join root name) = stepsBefore root ++ [name] := by
  have all := steps_join root h.isPiece
  rcases steps_eq_stepsBefore (Path.join root name) with same | stays
  · rw [← same, all]
  · rw [stays] at all
    obtain ⟨-, last⟩ := List.append_inj' all rfl
    exact absurd (List.cons.inj last).1.symm h.notDot

end FileTree

namespace BatchRollback

variable {directory : String} {f g : FileRollback}

/-- The directory of a rollback is that of its unit, below the directory for all. -/
theorem target_fst (directory : String) (f : FileRollback) :
    (target directory f).1 = Path.join directory f.unitComponent := by
  simp only [target, FileRollback.unitComponent]

theorem target_snd (directory : String) (f : FileRollback) :
    (target directory f).2 = Path.join (Path.join directory f.unitComponent) f.fileComponent := by
  simp only [target, FileRollback.unitComponent, FileRollback.fileComponent]

/-- The path of a rollback goes two steps further than the directory. -/
theorem steps_target (directory : String) (f : FileRollback) :
    steps (target directory f).2 = stepsBefore directory ++ f.way := by
  rw [target_snd, steps_join _ f.isSingleComponent_fileComponent.isPiece,
    stepsBefore_join _ f.isSingleComponent_unitComponent, List.append_assoc]
  rfl

/-- The way to a rollback starts where the way to the directory for all does. -/
theorem start_target (t : FileTree) (directory : String) (f : FileRollback) :
    t.start (target directory f).2 = t.start directory := by
  rw [target_snd, start_join t _ f.isSingleComponent_fileComponent.isPiece,
    start_join t _ f.isSingleComponent_unitComponent.isPiece]

/-- Two rollbacks have the same path exactly if they have the same two names. -/
theorem target_eq_iff : (target directory f).2 = (target directory g).2 ↔ f.way = g.way := by
  constructor
  · intro same
    have steps := congrArg steps same
    rw [steps_target, steps_target] at steps
    exact List.append_cancel_left steps
  · intro same
    obtain ⟨unit, file⟩ := List.cons.inj same
    rw [target_snd, target_snd, unit, (List.cons.inj file).1]

/-- Paths differ if the ways to them do, as the directory is the same for all. -/
theorem nodup_paths_iff {b : BatchRollback} :
    (b.paths directory).Nodup ↔ (b.files.map FileRollback.way).Nodup := by
  rw [paths, List.Nodup, List.Nodup, List.pairwise_map, List.pairwise_map]
  simp only [ne_eq, target_eq_iff]

end BatchRollback

/-! ## Trees with the rollbacks -/

/-- A rollback is found in its file, two steps below the place of the directory for all. -/
structure IsFiled (t : FileTree) (directory : String) (f : FileRollback) (place : Location) :
    Prop where
  walked : t.walk (t.start directory) (steps directory) = .ok place
  above : t.entry? place = some .directory
  located : t.locate (BatchRollback.target directory f).2 =
    .ok (place ++ f.way, .file (.text f.content))

/-- A tree with rollbacks in their files. Apart from these files it differs from the one before in
more directories only. -/
structure Filled (t : FileTree) (directory : String) (files : List FileRollback) (t' : FileTree) :
    Prop where
  workingDirectory : t'.workingDirectory = t.workingDirectory
  directories : ∀ q, t.entry? q = some .directory → t'.entry? q = some .directory
  filed : ∀ f ∈ files, ∃ place, IsFiled t' directory f place
  others : ∀ q, t'.entry? q = t.entry? q ∨
    (t.entry? q = none ∧ t'.entry? q = some .directory) ∨
    ∃ f ∈ files, ∃ place, IsFiled t' directory f place ∧ q = place ++ f.way

variable {t u t' : FileTree} {directory : String} {f : FileRollback} {files : List FileRollback}
  {place : Location}

/-- Single components are walked as they are, and only from a directory. -/
theorem FileTree.walk_components {names : List String} {last : Location}
    (single : ∀ name ∈ names, IsSingleComponent name) (walked : t.walk place names = .ok last) :
    last = place ++ names ∧ (names ≠ [] → t.entry? place = some .directory) := by
  induction names generalizing place with
  | nil =>
    refine ⟨?_, fun some_ => absurd rfl some_⟩
    rw [List.append_nil]
    exact (Except.ok.inj walked).symm
  | cons name rest ih =>
    obtain ⟨here, single⟩ := List.forall_mem_cons.1 single
    obtain ⟨above, -, more⟩ := walk_cons_eq_ok_iff.1 walked
    rw [nextPlace_name place here.notDot here.notDots] at more
    refine ⟨?_, fun _ => above⟩
    rw [(ih single more).1, List.append_assoc, List.singleton_append]

/-- A rollback that is written is found in its file, and nothing else changes. -/
theorem isFiled_write (h : u.write (BatchRollback.target directory f).2 f.content = .ok t') :
    t'.workingDirectory = u.workingDirectory ∧
      (∀ q, u.entry? q = some .directory → t'.entry? q = some .directory) ∧
      ∃ place, IsFiled t' directory f place ∧
        ∀ q, q ≠ place ++ f.way → t'.entry? q = u.entry? q := by
  obtain ⟨above, name, written⟩ := write_eq_ok h
  have located := written.locate_eq
  obtain ⟨openable, walked, found⟩ := locate_eq_ok_iff.1 located
  rw [BatchRollback.steps_target, BatchRollback.start_target] at walked
  obtain ⟨place, first, second⟩ := walk_append.1 walked
  obtain ⟨last, directory⟩ := walk_components f.isSingleComponent_of_mem_way second
  have top := directory (List.cons_ne_nil _ _)
  refine ⟨written.workingDirectory, fun q => written.keeps, place, ⟨?_, top, ?_⟩, ?_⟩
  · exact (walk_stepsBefore_iff.1 ⟨first, top⟩).1
  · rw [← last]
    exact located
  · intro q other
    rw [written.entry?_eq, if_neg (last ▸ other)]

/-- A rollback stays in its file while others are written to other files. -/
theorem IsFiled.mono (h : IsFiled u directory f place) (filled : Filled u directory files t')
    (other : f.way ∉ files.map FileRollback.way) : IsFiled t' directory f place := by
  have walked : t'.walk (t'.start directory) (steps directory) = .ok place := by
    rw [start_eq_of_workingDirectory filled.workingDirectory]
    exact walk_mono filled.directories h.walked
  refine ⟨walked, filled.directories place h.above, ?_⟩
  refine locate_mono filled.workingDirectory filled.directories h.located ?_
  have found := (locate_eq_ok_iff.1 h.located).2.2
  rcases filled.others (place ++ f.way) with same | ⟨absent, -⟩ | ⟨g, mem, place', filed, same⟩
  · exact same.trans found
  · rw [absent] at found
    cases found
  · -- Both ways start at the place of the directory.
    obtain rfl : place = place' := Except.ok.inj (walked.symm.trans filed.walked)
    exact absurd (List.mem_map.2 ⟨g, mem, (List.append_cancel_left same).symm⟩) other

/-- One rollback is written, and then the others. -/
theorem Filled.cons {made : FileTree} (added : AddsDirectories t made)
    (written : made.write (BatchRollback.target directory f).2 f.content = .ok u)
    (filled : Filled u directory files t') (other : f.way ∉ files.map FileRollback.way) :
    Filled t directory (f :: files) t' := by
  obtain ⟨workingDirectory, directories, place, filed, elsewhere⟩ := isFiled_write written
  have here : IsFiled t' directory f place := filed.mono filled other
  refine ⟨?_, ?_, ?_, ?_⟩
  · rw [filled.workingDirectory, workingDirectory, added.workingDirectory]
  · intro q found
    exact filled.directories q (directories q (added.keeps found))
  · refine List.forall_mem_cons.2 ⟨⟨place, here⟩, filled.filed⟩
  · intro q
    by_cases same : q = place ++ f.way
    · exact .inr (.inr ⟨f, List.mem_cons_self, place, here, same⟩)
    -- At any other place this rollback only adds directories, and the later ones have their own
    -- files.
    · have first := added.entries q
      rw [← elsewhere q same] at first
      rcases filled.others q with kept | ⟨absent, new⟩ | ⟨g, mem, found⟩
      · rw [kept]
        exact first.imp_right .inl
      · rcases first with kept | ⟨-, before⟩
        · exact .inr (.inl ⟨kept.symm.trans absent, new⟩)
        · rw [absent] at before
          cases before
      · exact .inr (.inr ⟨g, List.mem_cons_of_mem _ mem, found⟩)

/-- What is done for the first rollback, and then for the others. -/
theorem writeTargets_cons (directory : String) (f : FileRollback) (rest : List FileRollback) :
    BatchRollback.writeTargets directory (f :: rest) =
      (FileWork.makeDirectories (BatchRollback.target directory f).1 >>= fun _ =>
        FileWork.write (BatchRollback.target directory f).2 f.content >>= fun _ =>
          BatchRollback.writeTargets directory rest >>= fun more =>
            pure ((BatchRollback.target directory f).2 :: more)) := by
  rw [BatchRollback.writeTargets]

/-- If rollbacks with different names are written, each is found in its file afterwards. -/
theorem filled_writeTargets (different : (files.map FileRollback.way).Nodup) {written : List String}
    (h : BatchRollback.writeTargets directory files t = (.ok written, t')) :
    written = (files.map fun f => (BatchRollback.target directory f).2) ∧
      Filled t directory files t' := by
  induction files generalizing t written with
  | nil =>
    obtain ⟨same, rfl⟩ := Prod.mk.inj h
    refine ⟨(Except.ok.inj same).symm, rfl, fun _ => id, List.forall_mem_nil _, ?_⟩
    exact fun q => .inl rfl
  | cons f rest ih =>
    rw [writeTargets_cons] at h
    obtain ⟨other, different⟩ := List.nodup_cons.1 different
    obtain ⟨⟨⟩, made, directories, h⟩ := Work.bind_eq_ok_iff.1 h
    obtain ⟨⟨⟩, u, wrote, h⟩ := Work.bind_eq_ok_iff.1 h
    obtain ⟨more, v, others, h⟩ := Work.bind_eq_ok_iff.1 h
    obtain ⟨same, rfl⟩ := Prod.mk.inj h
    obtain ⟨paths, filled⟩ := ih different others
    have listed : written = (BatchRollback.target directory f).2 :: more :=
      (Except.ok.inj same).symm
    refine ⟨?_, ?_⟩
    · rw [listed, paths, List.map_cons]
    · have added :=
        addsDirectories_makeDirectories (FileWork.makeDirectories_eq_ok_iff.1 directories)
      exact filled.cons added (FileWork.write_eq_ok_iff.1 wrote) other

/-- Rollbacks with different names are written, if the system allows every change. -/
theorem exists_writeTargets (different : (files.map FileRollback.way).Nodup)
    (allowed : ∀ fault t', BatchRollback.writeTargets directory files t ≠
      (.error (.unwritable fault), t')) :
    ∃ t', BatchRollback.writeTargets directory files t =
        (.ok (files.map fun f => (BatchRollback.target directory f).2), t') ∧
      Filled t directory files t' := by
  -- The system is the only one that can refuse a change here.
  have outcome : ∀ result : Except Failure (List String) × FileTree,
      BatchRollback.writeTargets directory files t = result →
        ∃ written t', result = (.ok written, t') := by
    rintro ⟨failure | written, t'⟩ result
    · obtain ⟨fault, rfl⟩ := FailsByFault.writeTargets directory files t failure t' result
      exact absurd result (allowed fault t')
    · exact ⟨written, t', rfl⟩
  obtain ⟨written, t', result⟩ := outcome _ rfl
  obtain ⟨rfl, filled⟩ := filled_writeTargets different result
  exact ⟨t', result, filled⟩

/-- If no two paths are the same, writing goes through all rollbacks in their order. -/
theorem writeFiles_eq_writeTargets {b : BatchRollback}
    (different : (b.files.map FileRollback.way).Nodup) :
    b.writeFiles directory = BatchRollback.writeTargets directory b.files := by
  have single : BatchRollback.firstRepeated? [] (b.paths directory) = none :=
    BatchRollback.firstRepeated?_eq_none_iff.2
      ⟨BatchRollback.nodup_paths_iff.2 different, fun _ _ => List.not_mem_nil⟩
  rw [BatchRollback.writeFiles, ← BatchRollback.paths, single]

/-- If two rollbacks have the same names, nothing is written. -/
theorem exists_sharedTarget {b : BatchRollback} (shared : ¬(b.files.map FileRollback.way).Nodup)
    (t : FileTree) : ∃ path, b.writeFiles directory t = (.error (.sharedTarget path), t) := by
  cases repeated : BatchRollback.firstRepeated? [] (b.paths directory) with
  | none =>
    have different := (BatchRollback.firstRepeated?_eq_none_iff.1 repeated).1
    exact absurd (BatchRollback.nodup_paths_iff.1 different) shared
  | some path =>
    exact ⟨path, writeFiles_eq_sharedTarget_iff.2
      ⟨BatchRollback.firstRepeated?_nil_eq_some_iff.1 repeated, rfl⟩⟩

/-! ## What the system has to allow -/

/-- A rollback can be written below a place: its path can be looked up, its names are not too long,
and there is neither a file in place of its directory nor a directory in place of its file. -/
structure Accepts (t : FileTree) (directory : String) (place : Location) (f : FileRollback) :
    Prop where
  openable : IsOpenable (BatchRollback.target directory f).2
  short : ∀ name ∈ f.way, name.utf8ByteSize ≤ Path.longestName
  unit : t.entry? (place ++ [f.unitComponent]) = none ∨
    t.entry? (place ++ [f.unitComponent]) = some .directory
  file : t.entry? (place ++ f.way) ≠ some .directory

/-- The tree after a rollback is written below a place: its file is there, the directory of its unit
is there, and all else is as it was. -/
structure IsPlaced (t : FileTree) (place : Location) (f : FileRollback) (t' : FileTree) : Prop where
  workingDirectory : t'.workingDirectory = t.workingDirectory
  entries : ∀ q, t'.entry? q =
    if q = place ++ f.way then some (.file (.text f.content))
    else if q = place ++ [f.unitComponent] then some .directory
    else t.entry? q

/-- The file of a rollback is not in the directory for all itself. -/
theorem FileRollback.append_way_ne (f : FileRollback) (place : Location) (name : String) :
    place ++ f.way ≠ place ++ [name] := by
  intro same
  have lengths := congrArg List.length (List.append_cancel_left same)
  exact absurd lengths (by simp [FileRollback.way])

namespace IsPlaced

/-- A file written in place of no directory leaves all directories where they are. -/
theorem keeps (h : IsPlaced t place f t') (file : t.entry? (place ++ f.way) ≠ some .directory)
    {q : Location} (found : t.entry? q = some .directory) : t'.entry? q = some .directory := by
  rw [h.entries]
  split
  · rename_i here
    exact absurd (here ▸ found) file
  · split
    · rfl
    · exact found

/-- The other rollbacks can still be written: a directory of a unit is no obstacle, and neither is a
file. -/
theorem accepts (h : IsPlaced t place f t') {g : FileRollback}
    (accepted : Accepts t directory place g) : Accepts t' directory place g where
  openable := accepted.openable
  short := accepted.short
  unit := by
    rw [h.entries, if_neg (f.append_way_ne place _).symm]
    split
    · exact .inr rfl
    · exact accepted.unit
  file := by
    rw [h.entries]
    split
    · exact nofun
    · rw [if_neg (g.append_way_ne place _)]
      exact accepted.file

end IsPlaced

namespace Accepts

theorem isEntryName (h : Accepts t directory place f) : ∀ name ∈ f.way, IsEntryName name := by
  intro name mem
  have single := f.isSingleComponent_of_mem_way name mem
  refine isEntryName_of_mem_steps h.openable.clean ?_ single.notDot single.notDots
    (h.short name mem)
  rw [BatchRollback.steps_target]
  exact List.mem_append_right _ mem

/-- One rollback is written, into a directory of its unit. -/
theorem exists_isPlaced (h : Accepts t directory place f)
    (walked : t.walk (t.start directory) (steps directory) = .ok place)
    (above : t.entry? place = some .directory) :
    ∃ made t', t.makeDirectories (BatchRollback.target directory f).1 = (.ok (), made) ∧
      made.write (BatchRollback.target directory f).2 f.content = .ok t' ∧
      IsPlaced t place f t' := by
  have unit : IsEntryName f.unitComponent := h.isEntryName _ f.unitComponent_mem_way
  have file : IsEntryName f.fileComponent := h.isEntryName _ f.fileComponent_mem_way
  have path : IsOpenable (Path.join (Path.join directory f.unitComponent) f.fileComponent) := by
    rw [← BatchRollback.target_snd]
    exact h.openable
  have openable : IsOpenable (Path.join directory f.unitComponent) :=
    path.of_join file.isPiece (join_ne_empty unit.isPiece)
  rw [BatchRollback.target_fst, BatchRollback.target_snd]
  obtain ⟨made, directories, workingDirectory, entries⟩ :=
    exists_makeDirectories_join openable unit walked above h.unit
  have kept : ∀ q, t.entry? q = some .directory → made.entry? q = some .directory := by
    intro q found
    rw [entries]
    split
    · rfl
    · exact found
  have walkedMade : made.walk (made.start directory) (steps directory) = .ok place := by
    rw [start_eq_of_workingDirectory workingDirectory]
    exact walk_mono kept walked
  have unitWalked := walk_join unit walkedMade (kept place above)
  have unitAbove : made.entry? (place ++ [f.unitComponent]) = some .directory := by
    rw [entries, if_pos rfl]
  have way : place ++ [f.unitComponent] ++ [f.fileComponent] = place ++ f.way := by
    rw [FileRollback.way, List.append_assoc, List.singleton_append]
  have free : made.entry? (place ++ [f.unitComponent] ++ [f.fileComponent]) ≠ some .directory := by
    rw [way, entries, if_neg (f.append_way_ne place _)]
    exact h.file
  have wrote := write_join path file unitWalked unitAbove free f.content
  rw [way] at wrote
  refine ⟨made, _, directories, wrote, workingDirectory, fun q => ?_⟩
  rw [entry?_put (by simp [FileRollback.way]), entries]

end Accepts

/-- Rollbacks that a tree accepts in a directory that is there are written. -/
theorem exists_writeTargets_of_accepts
    (walked : t.walk (t.start directory) (steps directory) = .ok place)
    (above : t.entry? place = some .directory)
    (accepts : ∀ f ∈ files, Accepts t directory place f) :
    ∃ written t', BatchRollback.writeTargets directory files t = (.ok written, t') := by
  induction files generalizing t with
  | nil => exact ⟨[], t, rfl⟩
  | cons f rest ih =>
    obtain ⟨here, later⟩ := List.forall_mem_cons.1 accepts
    obtain ⟨made, u, directories, wrote, after⟩ := here.exists_isPlaced walked above
    have walkedAfter : u.walk (u.start directory) (steps directory) = .ok place := by
      rw [start_eq_of_workingDirectory after.workingDirectory]
      exact walk_mono (fun _ => after.keeps here.file) walked
    obtain ⟨written, t', others⟩ :=
      ih walkedAfter (after.keeps here.file above) fun g mem => after.accepts (later g mem)
    refine ⟨(BatchRollback.target directory f).2 :: written, t', ?_⟩
    rw [writeTargets_cons]
    refine Work.bind_eq_ok_iff.2
      ⟨(), made, FileWork.makeDirectories_eq_ok_iff.2 directories, ?_⟩
    refine Work.bind_eq_ok_iff.2 ⟨(), u, FileWork.write_eq_ok_iff.2 wrote, ?_⟩
    exact Work.bind_eq_ok_iff.2 ⟨written, t', others, rfl⟩

/-- No change is refused if the directory is there and the tree accepts every rollback in it. -/
theorem writeFiles_ne_unwritable {b : BatchRollback}
    (walked : t.walk (t.start directory) (steps directory) = .ok place)
    (above : t.entry? place = some .directory)
    (accepts : ∀ f ∈ b.files, Accepts t directory place f) (fault : FileFault) (t' : FileTree) :
    b.writeFiles directory t ≠ (.error (.unwritable fault), t') := by
  intro refused
  by_cases different : (b.files.map FileRollback.way).Nodup
  · obtain ⟨written, u, wrote⟩ := exists_writeTargets_of_accepts walked above accepts
    rw [writeFiles_eq_writeTargets different, wrote] at refused
    cases refused
  · obtain ⟨path, shared⟩ := exists_sharedTarget different t
    rw [shared] at refused
    cases refused

/--
What the writing of a rollback for each file does, with any names of units and files. The names in
the directory are single components. The files are written unless two rollbacks have the same two
names, and then nothing is written. If the system allows every change, each rollback is found in a
file of its own afterwards, two steps below the place of the directory, and all else is as it was
except for more directories. The names that the rollback of a deployment gives to its files are
names of one component already.
-/
theorem writeFiles_spec (b : BatchRollback) (directory : String) (t : FileTree)
    (allowed : ∀ fault t', b.writeFiles directory t ≠ (.error (.unwritable fault), t')) :
    (∀ f ∈ b.files, ∀ name ∈ f.way, IsSingleComponent name) ∧
      (if (b.files.map FileRollback.way).Nodup then
        ∃ t', b.writeFiles directory t = (.ok (b.paths directory), t') ∧
          (b.paths directory).Nodup ∧ Filled t directory b.files t'
      else ∃ path, b.writeFiles directory t = (.error (.sharedTarget path), t)) ∧
      ∀ (batch : Batch) (sources : FileTree) (units : List DeploymentUnit) (made : BatchRollback),
        batch.reverseUnits sources units = .ok made →
          ∀ f ∈ made.files, f.fileComponent = f.rollbackName := by
  refine ⟨fun f _ => f.isSingleComponent_of_mem_way, ?_, ?_⟩
  · split
    · rename_i different
      rw [writeFiles_eq_writeTargets different] at allowed ⊢
      obtain ⟨t', written, filled⟩ := exists_writeTargets different allowed
      exact ⟨t', written, BatchRollback.nodup_paths_iff.2 different, filled⟩
    · rename_i shared
      exact exists_sharedTarget shared t
  · intro batch sources units made rolled f mem
    rw [FileRollback.fileComponent, Batch.rollbackName_of_mem_reverseUnits rolled f mem]
    exact sanitizeComponent_rollbackName batch f.forwardName

/-- Rollbacks whose names lead out of the directory. -/
def strayNames : BatchRollback :=
  ⟨"", [⟨"x.sql", " ../x.sql ", "DROP TABLE a;", "", "../u:1"⟩,
    ⟨"y.sql", "..", "DROP TABLE b;", "", "."⟩], .zero⟩

/-- A directory with a file in it. -/
def occupied : FileTree :=
  ⟨[(["out"], .directory), (["out", "x.sql"], .file (.text "old"))], []⟩

/-- They are written into the directory. -/
theorem writeFiles_spec_strayNames :
    (∀ fault t', strayNames.writeFiles "out" occupied ≠ (.error (.unwritable fault), t')) ∧
      ∃ t', strayNames.writeFiles "out" occupied =
          (.ok ["out/.._u_1/.._x.sql", "out/unit/rollback.sql"], t') ∧
        Filled occupied "out" strayNames.files t' := by
  have succeeds : (strayNames.writeFiles "out" occupied :
      Except Failure (List String) × FileTree).1.isOk = true := by
    decide +kernel
  have allowed : ∀ fault t',
      strayNames.writeFiles "out" occupied ≠ (.error (.unwritable fault), t') := by
    intro fault t' refused
    rw [refused] at succeeds
    cases succeeds
  have paths : strayNames.paths "out" = ["out/.._u_1/.._x.sql", "out/unit/rollback.sql"] := by
    decide +kernel
  have different : (strayNames.files.map FileRollback.way).Nodup := by
    decide +kernel
  obtain ⟨-, outcome, -⟩ := writeFiles_spec strayNames "out" occupied allowed
  rw [if_pos different, paths] at outcome
  obtain ⟨t', written, -, filled⟩ := outcome
  exact ⟨allowed, t', written, filled⟩

end Rollback

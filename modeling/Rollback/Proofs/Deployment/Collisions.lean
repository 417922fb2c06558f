import Rollback.Proofs.Files.Writes
import Rollback.Report.Rollback

/-!
# Rollbacks with the same path

Two rollbacks of a deployment can have the same path, as the names of units and files are turned
into components of a path. The directory with the rollbacks of the files is then not begun, but a
script for the whole deployment is written before the paths are compared.

- `IsFirstRepeated`: the first path that stands in a list for the second time
- `IsOtherFailure`: a result that is no failure because of a shared path
- `FailsByFault`: work that fails only if the system does not allow a change
- `LeavesScript`: a tree in which the script was written, if that was wanted
- `reverseDeployment_sharedTarget_iff`: when a deployment fails because of a shared path, and how it
  leaves the files
-/

set_option autoImplicit false

namespace Rollback

open FileTree

/-! ## Repeated paths -/

/-- A path stands in a list for the second time, and no path does before that. -/
def IsFirstRepeated (path : String) (paths : List String) : Prop :=
  ∃ before after, paths = before ++ path :: after ∧ path ∈ before ∧ before.Nodup

namespace BatchRollback

/-- The path that is found stands among those before or earlier in the list, and is the first one to
do so. -/
theorem firstRepeated?_eq_some_iff {path : String} :
    ∀ {before paths : List String}, firstRepeated? before paths = some path ↔
      ∃ first rest, paths = first ++ path :: rest ∧ (path ∈ before ∨ path ∈ first) ∧
        first.Nodup ∧ ∀ other ∈ first, other ∉ before := by
  intro before paths
  -- What is passed over is known from then on, so the induction is for any paths before.
  induction paths generalizing before with
  | nil => simp [firstRepeated?]
  | cons here paths ih =>
    rw [firstRepeated?]
    split
    · rename_i repeated
      have known : here ∈ before := List.contains_iff_mem.1 repeated
      constructor
      · intro same
        obtain rfl := Option.some.inj same
        exact ⟨[], paths, rfl, .inl known, List.nodup_nil, List.forall_mem_nil _⟩
      · rintro ⟨first, rest, split, -, -, new⟩
        cases first with
        | nil => rw [(List.cons.inj split).1]
        | cons other first =>
          obtain rfl := (List.cons.inj split).1
          exact absurd known (new here List.mem_cons_self)
    · rename_i single
      have new : here ∉ before := fun known => single (List.contains_iff_mem.2 known)
      rw [ih]
      constructor
      · rintro ⟨first, rest, rfl, known, nodup, apart⟩
        refine ⟨here :: first, rest, rfl, ?_, ?_, ?_⟩
        · rcases known with known | known
          · rcases List.mem_cons.1 known with rfl | known
            · exact .inr List.mem_cons_self
            · exact .inl known
          · exact .inr (List.mem_cons_of_mem _ known)
        · exact List.nodup_cons.2 ⟨fun mem => apart here mem List.mem_cons_self, nodup⟩
        · exact List.forall_mem_cons.2
            ⟨new, fun other mem known => apart other mem (List.mem_cons_of_mem _ known)⟩
      · rintro ⟨first, rest, split, known, nodup, apart⟩
        cases first with
        | nil =>
          obtain ⟨rfl, -⟩ := List.cons.inj split
          exact absurd known (by simpa using new)
        | cons other first =>
          obtain ⟨rfl, rfl⟩ := List.cons.inj split
          obtain ⟨other, nodup⟩ := List.nodup_cons.1 nodup
          refine ⟨first, rest, rfl, ?_, nodup, ?_⟩
          · rcases known with known | known
            · exact .inl (List.mem_cons_of_mem _ known)
            · rcases List.mem_cons.1 known with rfl | known
              · exact .inl List.mem_cons_self
              · exact .inr known
          · intro q mem known
            rcases List.mem_cons.1 known with rfl | known
            · exact other mem
            · exact apart q (List.mem_cons_of_mem _ mem) known

/-- Nothing is found if the paths differ from each other and from those before. -/
theorem firstRepeated?_eq_none_iff {before paths : List String} :
    firstRepeated? before paths = none ↔ paths.Nodup ∧ ∀ path ∈ paths, path ∉ before := by
  induction paths generalizing before with
  | nil => simp [firstRepeated?]
  | cons path rest ih =>
    rw [firstRepeated?]
    split
    · rename_i repeated
      have known : path ∈ before := List.contains_iff_mem.1 repeated
      simp [known]
    · rename_i single
      have new : path ∉ before := fun known => single (List.contains_iff_mem.2 known)
      rw [ih, List.nodup_cons]
      simp only [List.mem_cons, not_or, forall_eq_or_imp]
      constructor
      · rintro ⟨nodup, apart⟩
        exact ⟨⟨fun mem => (apart path mem).1 rfl, nodup⟩, new,
          fun other mem => (apart other mem).2⟩
      · rintro ⟨⟨once, nodup⟩, -, apart⟩
        exact ⟨nodup, fun other mem => ⟨fun same => once (same ▸ mem), apart other mem⟩⟩

/-- From the start of a list, the first repeated path is found. -/
theorem firstRepeated?_nil_eq_some_iff {path : String} {paths : List String} :
    firstRepeated? [] paths = some path ↔ IsFirstRepeated path paths := by
  rw [firstRepeated?_eq_some_iff]
  simp [IsFirstRepeated]

end BatchRollback

/-! ## Other failures -/

/-- A result that is no failure because of a shared path. -/
def IsOtherFailure {α : Type} (result : Except Failure α) : Prop :=
  ∀ path, result ≠ .error (.sharedTarget path)

namespace IsOtherFailure

variable {α β : Type}

theorem ok (a : α) : IsOtherFailure (.ok a) :=
  fun _ same => nomatch same

/-- No path is shared in two steps in a row if none is in either. -/
theorem bind {first : Except Failure α} {second : α → Except Failure β}
    (h : IsOtherFailure first) (next : ∀ a, IsOtherFailure (second a)) :
    IsOtherFailure (first >>= second) := by
  cases first with
  | ok a => exact next a
  | error failure => exact fun path same => h path (congrArg _ (Except.error.inj same))

/-- No path is shared in a reading of many things if none is in that of each. -/
theorem mapM {read : α → Except Failure β} (h : ∀ a, IsOtherFailure (read a)) (as : List α) :
    IsOtherFailure (as.mapM read) := by
  induction as with
  | nil => exact ok []
  | cons a as ih =>
    rw [List.mapM_cons]
    exact (h a).bind fun b => ih.bind fun bs => ok (b :: bs)

theorem unreadable (path : String) (result : Except FileFault α) :
    IsOtherFailure (result.mapError (.unreadable path)) := by
  cases result with
  | ok a => exact ok a
  | error fault => exact fun _ same => Failure.noConfusion (Except.error.inj same)

end IsOtherFailure

namespace DeploymentUnit

open IsOtherFailure

theorem isOtherFailure_load (file : DeploymentFile) (t : FileTree) :
    IsOtherFailure (file.load t) := by
  rw [DeploymentFile.load]
  split
  · exact ok _
  · exact unreadable _ _

theorem isOtherFailure_ofDirectory (t : FileTree) (path : String) :
    IsOtherFailure (ofDirectory t path) :=
  (unreadable path (t.fileNames path)).bind fun _ => ok _

theorem isOtherFailure_settleFile (base unit : String) (file : DeploymentFile) :
    IsOtherFailure (settleFile base unit file) := by
  rw [settleFile]
  split
  · exact fun _ same => Failure.noConfusion (Except.error.inj same)
  · exact ok _

/-- A name that is listed twice is no path that is shared. -/
theorem isOtherFailure_settleFiles (base unit : String) :
    ∀ (files : List DeploymentFile) (before : List String),
      IsOtherFailure (settleFiles base unit before files) := by
  intro files
  induction files with
  | nil => exact fun _ => ok []
  | cons file rest ih =>
    intro before
    refine (isOtherFailure_settleFile base unit file).bind fun file => ?_
    split
    · exact fun _ same => Failure.noConfusion (Except.error.inj same)
    · exact (ih _).bind fun files => ok (file :: files)

theorem isOtherFailure_settleUnits (base : String) :
    ∀ (units : List DeploymentUnit) (position : Nat),
      IsOtherFailure (settleUnits base position units) := by
  intro units
  induction units with
  | nil => exact fun _ => ok []
  | cons u rest ih =>
    intro position
    rw [settleUnits]
    split
    · exact fun _ same => Failure.noConfusion (Except.error.inj same)
    · exact (isOtherFailure_settleFiles base u.name u.files []).bind fun files =>
        (ih _).bind fun units => ok _

/-- What is wrong with a manifest is found out before any path is made. -/
theorem isOtherFailure_ofManifest (t : FileTree) (path : String) :
    IsOtherFailure (ofManifest t path) := by
  refine (unreadable path (t.readText path)).bind fun text => ?_
  split
  · exact fun _ same => Failure.noConfusion (Except.error.inj same)
  · exact isOtherFailure_settleUnits _ _ _

end DeploymentUnit

open IsOtherFailure in

/-- No paths of rollbacks are compared when the units are looked up. -/
theorem DeploymentSource.isOtherFailure_resolve (t : FileTree) (source : DeploymentSource) :
    IsOtherFailure (source.resolve t) := by
  cases source with
  | directories paths => exact mapM (DeploymentUnit.isOtherFailure_ofDirectory t) paths
  | files paths => exact ok _
  | manifest path => exact DeploymentUnit.isOtherFailure_ofManifest t path
  | units units => exact ok _

namespace Batch

open IsOtherFailure

variable (b : Batch) (t : FileTree)

theorem isOtherFailure_reverseFiles (unit : String) (files : List DeploymentFile) :
    IsOtherFailure (b.reverseFiles t unit files) := by
  induction files with
  | nil => exact ok _
  | cons file rest ih =>
    exact (DeploymentUnit.isOtherFailure_load file t).bind fun text => ih.bind fun more => ok _

/-- A rollback is made without its path. -/
theorem isOtherFailure_reverseUnits (units : List DeploymentUnit) :
    IsOtherFailure (b.reverseUnits t units) := by
  rw [reverseUnits]
  induction units.reverse with
  | nil => exact ok _
  | cons u rest ih =>
    exact (b.isOtherFailure_reverseFiles t u.name u.files.reverse).bind fun files =>
      ih.bind fun more => ok _

end Batch

/-! ## Writing -/

/-- Work on files that fails only if the system does not allow a change. -/
def FailsByFault {α : Type} (work : FileWork α) : Prop :=
  ∀ t failure t', work t = (.error failure, t') → ∃ fault, failure = .unwritable fault

namespace FailsByFault

variable {α β : Type}

theorem pure (a : α) : FailsByFault (Pure.pure a) := by
  intro t failure t' failed
  cases (Prod.mk.inj failed).1

/-- Two works in a row fail by a fault if both do. -/
theorem bind {first : FileWork α} {second : α → FileWork β} (h : FailsByFault first)
    (next : ∀ a, FailsByFault (second a)) : FailsByFault (first >>= second) := by
  intro t failure t' failed
  rcases Work.bind_eq_error_iff.1 failed with early | ⟨a, u, -, late⟩
  · exact h t failure t' early
  · exact next a u failure t' late

theorem write (path text : String) : FailsByFault (FileWork.write path text) := by
  intro t failure t' failed
  rw [FileWork.write, FileWork.change] at failed
  split at failed
  · cases (Prod.mk.inj failed).1
  · rename_i fault _
    exact ⟨fault, (Except.error.inj (Prod.mk.inj failed).1).symm⟩

theorem makeDirectories (path : String) : FailsByFault (FileWork.makeDirectories path) := by
  intro t failure t' failed
  have result : (t.makeDirectories path).1.mapError Failure.unwritable = .error failure :=
    congrArg Prod.fst failed
  cases made : (t.makeDirectories path).1 with
  | ok u =>
    rw [made] at result
    cases result
  | error fault =>
    rw [made] at result
    exact ⟨fault, (Except.error.inj result).symm⟩

/-- A script that is wanted is written to one path, so there is nothing to compare it with. -/
theorem writeWanted (rollback : BatchRollback) (script : Option String) :
    FailsByFault (Rollback.writeWanted rollback script) := by
  cases script with
  | none => exact pure []
  | some path =>
    exact ((makeDirectories (Path.parent path)).bind fun _ => write path rollback.script).bind
      fun _ => pure [path]

/-- Once the paths are compared, writing fails by a fault only. -/
theorem writeTargets (directory : String) (files : List FileRollback) :
    FailsByFault (BatchRollback.writeTargets directory files) := by
  induction files with
  | nil => exact pure []
  | cons f rest ih =>
    exact (makeDirectories _).bind fun _ =>
      (write _ f.content).bind fun _ => ih.bind fun _ => pure _

/-- A change that is not allowed is no shared path. -/
theorem ne_sharedTarget {work : FileWork α} (h : FailsByFault work) {path : String}
    {t t' : FileTree} : work t ≠ (.error (.sharedTarget path), t') := by
  intro failed
  obtain ⟨fault, same⟩ := h t _ t' failed
  exact Failure.noConfusion same

end FailsByFault

/-- The paths of the rollbacks of the files, below a directory. -/
def BatchRollback.paths (b : BatchRollback) (directory : String) : List String :=
  b.files.map fun f => (target directory f).2

/-- The paths are compared before anything is written below the directory. -/
theorem writeFiles_eq_sharedTarget_iff {b : BatchRollback} {directory path : String}
    {t t' : FileTree} :
    b.writeFiles directory t = (.error (.sharedTarget path), t') ↔
      IsFirstRepeated path (b.paths directory) ∧ t' = t := by
  rw [← BatchRollback.firstRepeated?_nil_eq_some_iff, BatchRollback.writeFiles, BatchRollback.paths]
  cases BatchRollback.firstRepeated? [] (b.files.map fun f =>
      (BatchRollback.target directory f).2) with
  | some shared =>
    constructor
    · intro failed
      obtain ⟨same, rfl⟩ := Prod.mk.inj failed
      obtain rfl := Failure.sharedTarget.inj (Except.error.inj same)
      exact ⟨rfl, rfl⟩
    · rintro ⟨same, rfl⟩
      obtain rfl := Option.some.inj same
      rfl
  | none =>
    constructor
    · intro failed
      exact absurd failed (FailsByFault.writeTargets directory b.files).ne_sharedTarget
    · rintro ⟨same, -⟩
      cases same

/-! ## Deployments -/

/-- The rollback of a deployment, before anything of it is written. -/
def deploymentRollback (s : Settings) (catalog : Option Catalog) (source : DeploymentSource)
    (t : FileTree) : Except Failure BatchRollback := do
  let batch : Batch := ⟨⟨catalog, s.defaults⟩, s.style⟩
  batch.reverseUnits t (← source.resolve t)

theorem isOtherFailure_deploymentRollback (s : Settings) (catalog : Option Catalog)
    (source : DeploymentSource) (t : FileTree) :
    IsOtherFailure (deploymentRollback s catalog source t) :=
  (source.isOtherFailure_resolve t).bind fun units => Batch.isOtherFailure_reverseUnits _ t units

/-- A run makes the rollback, writes the script and then the files, in this order. -/
theorem reverseDeployment_eq (s : Settings) (catalog : Option Catalog) (source : DeploymentSource)
    (targets : RollbackTargets) :
    reverseDeployment s catalog source targets =
      FileWork.look (deploymentRollback s catalog source) >>= fun rollback =>
        writeWanted rollback targets.script >>= fun script =>
          (match targets.directory with
            | none => pure []
            | some directory => rollback.writeFiles directory) >>= fun files =>
              pure ⟨rollback, script ++ files, catalog.isSome⟩ := by
  obtain ⟨script, directory⟩ := targets
  cases directory <;> rfl

/-- How a tree is left by the writing of a text to a path, if there is one. -/
def LeavesScript (t : FileTree) (text : String) : Option String → FileTree → Prop
  | none, t' => t' = t
  | some path, t' =>
    t'.readText path = .ok text ∧
      ∃ made, t.makeDirectories (Path.parent path) = (.ok (), made) ∧ AddsDirectories t made ∧
        made.write path text = .ok t'

/-- A script that is written is found at its path; without one, nothing is changed. -/
theorem exists_writeWanted_iff {rollback : BatchRollback} {script : Option String}
    {t t' : FileTree} :
    (∃ written, writeWanted rollback script t = (.ok written, t')) ↔
      LeavesScript t rollback.script script t' := by
  cases script with
  | none =>
    constructor
    · rintro ⟨written, wrote⟩
      exact (Prod.mk.inj wrote).2.symm
    · rintro rfl
      exact ⟨[], rfl⟩
  | some path =>
    constructor
    · rintro ⟨written, wanted⟩
      obtain ⟨⟨⟩, u, wrote, last⟩ := Work.bind_eq_ok_iff.1 wanted
      obtain rfl : u = t' := (Prod.mk.inj last).2
      obtain ⟨made, directories, wrote⟩ := FileWork.writeWithParents_eq_ok_iff.1 wrote
      exact ⟨readText_write wrote, made, directories, addsDirectories_makeDirectories directories,
        wrote⟩
    · rintro ⟨-, made, directories, -, wrote⟩
      have written := FileWork.writeWithParents_eq_ok_iff.2 ⟨made, directories, wrote⟩
      exact ⟨[path], Work.bind_eq_ok_iff.2 ⟨(), t', written, rfl⟩⟩

/--
A deployment fails because of a shared path if its rollback can be made, a directory is wanted for
the rollbacks of its files, and two of them have the same path in it. The script of the deployment
is written before that is found out: the files are as they were if no script is wanted, and
otherwise the script is found at its path.
-/
theorem reverseDeployment_sharedTarget_iff {s : Settings} {catalog : Option Catalog}
    {source : DeploymentSource} {targets : RollbackTargets} {path : String} {t t' : FileTree} :
    reverseDeployment s catalog source targets t = (.error (.sharedTarget path), t') ↔
      ∃ rollback directory, deploymentRollback s catalog source t = .ok rollback ∧
        targets.directory = some directory ∧ IsFirstRepeated path (rollback.paths directory) ∧
          LeavesScript t rollback.script targets.script t' := by
  rw [reverseDeployment_eq]
  constructor
  · -- Only the last of the three parts can fail in this way, after the others are done.
    intro failed
    rcases Work.bind_eq_error_iff.1 failed with early | ⟨rollback, u, made, failed⟩
    · exact absurd (congrArg Prod.fst early)
        (isOtherFailure_deploymentRollback s catalog source t path)
    obtain ⟨rolled, rfl⟩ := Prod.mk.inj made
    rcases Work.bind_eq_error_iff.1 failed with early | ⟨written, u, wrote, failed⟩
    · exact absurd early (FailsByFault.writeWanted _ _).ne_sharedTarget
    rcases Work.bind_eq_error_iff.1 failed with shared | ⟨files, v, -, late⟩
    · cases wanted : targets.directory with
      | none =>
        rw [wanted] at shared
        exact nomatch (Prod.mk.inj shared).1
      | some directory =>
        rw [wanted] at shared
        obtain ⟨repeated, rfl⟩ := writeFiles_eq_sharedTarget_iff.1 shared
        exact ⟨rollback, directory, rolled, rfl, repeated,
          exists_writeWanted_iff.1 ⟨written, wrote⟩⟩
    · exact nomatch (Prod.mk.inj late).1
  · rintro ⟨rollback, directory, rolled, wanted, repeated, left⟩
    obtain ⟨written, wrote⟩ := exists_writeWanted_iff.2 left
    refine Work.bind_eq_error_iff.2 (.inr ⟨rollback, t, congrArg (·, t) rolled, ?_⟩)
    refine Work.bind_eq_error_iff.2 (.inr ⟨written, t', wrote, ?_⟩)
    refine Work.bind_eq_error_iff.2 (.inl ?_)
    rw [wanted]
    exact writeFiles_eq_sharedTarget_iff.2 ⟨repeated, rfl⟩

/-- Two files whose names become the same as a component of a path. -/
def sameComponent : List DeploymentUnit :=
  [⟨"u", [⟨"a/x.sql", "", some "CREATE TABLE a (id INT);"⟩,
    ⟨"a_x.sql", "", some "CREATE TABLE b (id INT);"⟩]⟩]

/-- Where an empty directory is left with a script although the deployment fails. -/
theorem reverseDeployment_sameComponent :
    ∃ t', reverseDeployment .standard none (.units sameComponent) ⟨some "all.sql", some "out"⟩
      ⟨[], []⟩ =
        (.error (.sharedTarget "out/u/rollback_a_x.sql"), t') ∧
      t'.entries.map Prod.fst = [["all.sql"]] := by
  -- Only the places of the tree are compared, as its texts are long.
  have outcome :
      (match (reverseDeployment .standard none (.units sameComponent) ⟨some "all.sql", some "out"⟩
          ⟨[], []⟩ : Except Failure RollbackReport × FileTree) with
        | (.error failure, t') => (some failure, t'.entries.map Prod.fst)
        | (.ok _, t') => (none, t'.entries.map Prod.fst)) =
        (some (.sharedTarget "out/u/rollback_a_x.sql"), [["all.sql"]]) := by
    decide +kernel
  generalize (reverseDeployment .standard none (.units sameComponent) ⟨some "all.sql", some "out"⟩
    ⟨[], []⟩ : Except Failure RollbackReport × FileTree) = result at outcome
  obtain ⟨failure | report, t'⟩ := result
  · obtain ⟨same, places⟩ := Prod.mk.inj outcome
    exact ⟨t', by rw [Option.some.inj same], places⟩
  · exact nomatch (Prod.mk.inj outcome).1

end Rollback

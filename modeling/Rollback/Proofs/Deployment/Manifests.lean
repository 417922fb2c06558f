import Rollback.Deployment.Unit
import Rollback.Proofs.Lists
import Rollback.Proofs.Outcomes
import Rollback.Proofs.Schema.CatalogDocuments
import Rollback.Proofs.Text.Words

/-!
# Manifests

The units of a manifest are settled one by one, and so are their files: a path starts from the
directory of the manifest, and a name that is missing comes from the path. Names are compared after
that, within a unit.

- `DeploymentFile.settled`, `DeploymentUnit.settled`: what becomes of a file and of a unit
- `DeploymentUnit.WellFormed`: units that can be listed
- `DeploymentFile.Fault`, `DeploymentUnit.Fault`: what is wrong with a file or a unit
- `DeploymentUnit.IsFirstFault`: what is wrong with the first unit that cannot be listed
- `DeploymentUnit.ofManifest_spec`: which manifests are read, and what becomes of all others
-/

set_option autoImplicit false

namespace Rollback

open Json (Node Value)

/-! ## Settled files and units -/

namespace DeploymentFile

/-- A file with its path taken from a directory, named after the path if it has no name. -/
def settled (base : String) (file : DeploymentFile) : DeploymentFile :=
  let path :=
    if file.path.isEmpty || Path.isAbsolute file.path then file.path else Path.join base file.path
  { file with path, name := if file.name.isEmpty then Path.fileName path else file.name }

/-- A file whose text is given or can be looked for. -/
def HasSource (file : DeploymentFile) : Prop :=
  file.contents.isSome = true ∨ file.path ≠ ""

instance (file : DeploymentFile) : Decidable file.HasSource :=
  inferInstanceAs (Decidable (_ ∨ _))

/-- What is wrong with a file of a unit in which the given names are taken. -/
inductive Fault (base unit : String) (taken : List String) (file : DeploymentFile) : Failure → Prop
  | noSource (none_ : ¬file.HasSource) :
      Fault base unit taken file (.fileWithoutSource file.name unit)
  | repeated (source : file.HasSource) (known : (file.settled base).name ∈ taken) :
      Fault base unit taken file (.repeatedFile (file.settled base).name unit)

end DeploymentFile

namespace DeploymentUnit

/-- The names of files as they are compared. -/
def settledNames (base : String) (files : List DeploymentFile) : List String :=
  files.map fun file => (file.settled base).name

/-- A unit with all its files settled. -/
def settled (base : String) (u : DeploymentUnit) : DeploymentUnit :=
  { u with files := u.files.map (·.settled base) }

/-- Files that all have a source, under names that differ from each other. -/
structure WellFiled (base : String) (files : List DeploymentFile) : Prop where
  sources : ∀ file ∈ files, file.HasSource
  distinct : (settledNames base files).Nodup

/-- A unit whose name says something and whose files can be told apart. -/
structure WellFormed (base : String) (u : DeploymentUnit) : Prop where
  named : ∃ c ∈ u.name.toList, Text.isBlank c = false
  files : WellFiled base u.files

instance (base : String) (files : List DeploymentFile) : Decidable (WellFiled base files) :=
  decidable_of_iff ((∀ file ∈ files, file.HasSource) ∧ (settledNames base files).Nodup)
    ⟨fun ⟨sources, distinct⟩ => ⟨sources, distinct⟩, fun ⟨sources, distinct⟩ => ⟨sources, distinct⟩⟩

instance (base : String) (u : DeploymentUnit) : Decidable (u.WellFormed base) :=
  decidable_of_iff
    ((u.name.toList.any fun c => !Text.isBlank c) = true ∧ WellFiled base u.files) <| by
    simp only [List.any_eq_true, Bool.not_eq_true']
    exact ⟨fun h => ⟨h.1, h.2⟩, fun h => ⟨h.named, h.files⟩⟩

/-- What is wrong with a unit at a position; for a file, the first that cannot be listed. -/
inductive Fault (base : String) (position : Nat) (u : DeploymentUnit) : Failure → Prop
  | unnamed (blank : ∀ c ∈ u.name.toList, Text.isBlank c = true) :
      Fault base position u (.unnamedUnit position)
  | file (before : List DeploymentFile) (file : DeploymentFile) (after : List DeploymentFile)
      {failure : Failure} (named : ∃ c ∈ u.name.toList, Text.isBlank c = false)
      (split : u.files = before ++ file :: after) (fine : WellFiled base before)
      (fault : file.Fault base u.name (settledNames base before) failure) :
      Fault base position u failure

/-- What is wrong with the first unit that cannot be listed; positions count from one. -/
def IsFirstFault (base : String) (units : List DeploymentUnit) (failure : Failure) : Prop :=
  ∃ before u after, units = before ++ u :: after ∧ (∀ v ∈ before, v.WellFormed base) ∧
    u.Fault base (before.length + 1) failure

variable {base unit : String} {taken : List String} {file : DeploymentFile}
  {files settledFiles : List DeploymentFile} {failure : Failure}

/-! ## Files -/

/-- Files that can be listed after others that have taken some names. -/
def Listable (base : String) (taken : List String) (files : List DeploymentFile) : Prop :=
  WellFiled base files ∧ ∀ name ∈ settledNames base files, name ∉ taken

theorem listable_nil : Listable base taken [] :=
  ⟨⟨List.forall_mem_nil _, List.nodup_nil⟩, List.forall_mem_nil _⟩

/-- Where no names are taken, files can be listed if they are well filed. -/
theorem listable_nil_iff : Listable base [] files ↔ WellFiled base files :=
  and_iff_left fun _ _ => List.not_mem_nil

/-- The first file takes its name from those that follow. -/
theorem listable_cons_iff :
    Listable base taken (file :: files) ↔ file.HasSource ∧ (file.settled base).name ∉ taken ∧
      Listable base ((file.settled base).name :: taken) files := by
  constructor
  · rintro ⟨⟨sources, distinct⟩, free⟩
    obtain ⟨source, sources⟩ := List.forall_mem_cons.1 sources
    obtain ⟨new, distinct⟩ := List.nodup_cons.1 distinct
    obtain ⟨here, free⟩ := List.forall_mem_cons.1 free
    refine ⟨source, here, ⟨sources, distinct⟩, fun name mem known => ?_⟩
    rcases List.mem_cons.1 known with rfl | known
    · exact new mem
    · exact free name mem known
  · rintro ⟨source, here, ⟨sources, distinct⟩, free⟩
    refine ⟨⟨List.forall_mem_cons.2 ⟨source, sources⟩, List.nodup_cons.2 ⟨fun mem => ?_, distinct⟩⟩,
      List.forall_mem_cons.2 ⟨here, fun name mem known => ?_⟩⟩
    · exact free _ mem List.mem_cons_self
    · exact free name mem (List.mem_cons_of_mem _ known)

theorem settleFile_of_source (source : file.HasSource) :
    settleFile base unit file = .ok (file.settled base) := by
  have found : (file.path.isEmpty && file.contents.isNone) = false := by
    rcases source with given | path
    · simp [Option.isNone_eq_false_iff.2 given]
    · simp [path]
  rw [settleFile, found, if_neg Bool.false_ne_true, DeploymentFile.settled]
  cases empty : file.path.isEmpty with
  | true => simp [String.isEmpty_iff.1 empty]
  | false => cases absolute : Path.isAbsolute file.path <;> simp [Path.join, absolute]

/-- A file without a source is a failure, named as it is. -/
theorem settleFile_of_none (none_ : ¬file.HasSource) :
    settleFile base unit file = .error (.fileWithoutSource file.name unit) := by
  obtain ⟨absent, path⟩ := not_or.1 none_
  have missing : (file.path.isEmpty && file.contents.isNone) = true := by
    simpa using And.symm ⟨absent, path⟩
  rw [settleFile, if_pos missing]

/-- A file is settled before those after it, and it takes its name from them. -/
theorem settleFiles_cons (rest : List DeploymentFile) :
    settleFiles base unit taken (file :: rest) =
      if file.HasSource then
        if (file.settled base).name ∈ taken then
          .error (.repeatedFile (file.settled base).name unit)
        else (settleFiles base unit ((file.settled base).name :: taken) rest).map
          (file.settled base :: ·)
      else .error (.fileWithoutSource file.name unit) := by
  rw [settleFiles]
  split
  · rename_i source
    rw [settleFile_of_source source]
    simp only [bind, Except.bind, List.contains_iff_mem]
    split
    · rfl
    · cases settleFiles base unit ((file.settled base).name :: taken) rest <;> rfl
  · rename_i none_
    rw [settleFile_of_none none_]
    rfl

/-- Files are accepted exactly if they can be listed, and then all are settled. -/
theorem settleFiles_eq_ok_iff :
    settleFiles base unit taken files = .ok settledFiles ↔
      Listable base taken files ∧ settledFiles = files.map (·.settled base) := by
  -- Each file takes one more name from the others, so the induction is for any names taken.
  induction files generalizing taken settledFiles with
  | nil => simp [settleFiles, listable_nil, eq_comm]
  | cons file rest ih =>
    rw [settleFiles_cons, listable_cons_iff]
    split
    · rename_i source
      split
      · rename_i known
        simp [known]
      · rename_i new
        rw [map_eq_ok_iff]
        simp only [ih, source, new, not_false_eq_true, true_and, List.map_cons]
        constructor
        · rintro ⟨others, ⟨listable, rfl⟩, rfl⟩
          exact ⟨listable, rfl⟩
        · rintro ⟨listable, rfl⟩
          exact ⟨_, ⟨listable, rfl⟩, rfl⟩
    · rename_i none_
      simp [none_]

/-- A file is wrong or not because of which names are taken, in any order. -/
theorem fault_congr {taken taken' : List String} (same : ∀ name, name ∈ taken ↔ name ∈ taken') :
    file.Fault base unit taken failure ↔ file.Fault base unit taken' failure := by
  constructor
  · rintro (none_ | ⟨source, known⟩)
    · exact .noSource none_
    · exact .repeated source ((same _).1 known)
  · rintro (none_ | ⟨source, known⟩)
    · exact .noSource none_
    · exact .repeated source ((same _).2 known)

/-- A failure is that of the first file that cannot be listed after the ones before it. -/
theorem settleFiles_eq_error_iff :
    settleFiles base unit taken files = .error failure ↔
      ∃ before file after, files = before ++ file :: after ∧ Listable base taken before ∧
        file.Fault base unit (settledNames base before ++ taken) failure := by
  induction files generalizing taken with
  | nil => exact ⟨(nomatch ·), fun h => absurd h not_exists_split_nil⟩
  | cons file rest ih =>
    rw [exists_split_cons_iff, settleFiles_cons]
    simp only [listable_cons_iff]
    have here : (Listable base taken [] ∧
        file.Fault base unit (settledNames base [] ++ taken) failure) ↔
          file.Fault base unit taken failure := and_iff_right listable_nil
    rw [here]
    split
    · rename_i source
      split
      · rename_i known
        constructor
        · intro h
          exact .inl (Except.error.inj h ▸ .repeated source known)
        · rintro ((none_ | _) | ⟨_, _, _, -, ⟨-, new, -⟩, -⟩)
          · exact absurd source none_
          · rfl
          · exact absurd known new
      · rename_i new
        have right : ¬file.Fault base unit taken failure := by
          rintro (none_ | ⟨-, known⟩)
          · exact none_ source
          · exact new known
        rw [map_eq_error_iff, ih, or_iff_right right]
        have order : ∀ before : List DeploymentFile, ∀ name,
            name ∈ settledNames base before ++ (file.settled base).name :: taken ↔
              name ∈ settledNames base (file :: before) ++ taken := by
          intro before name
          simp only [settledNames, List.map_cons, List.mem_append, List.mem_cons]
          tauto
        simp only [source, new, not_false_eq_true, true_and, fault_congr (order _)]
    · rename_i none_
      constructor
      · intro h
        exact .inl (Except.error.inj h ▸ .noSource none_)
      · rintro ((_ | ⟨source, -⟩) | ⟨_, _, _, -, ⟨source, -⟩, -⟩)
        · rfl
        · exact absurd source none_
        · exact absurd source none_

/-! ## Units -/

variable {u : DeploymentUnit} {units settledUnits : List DeploymentUnit} {position : Nat}

/-- A unit is settled before those after it. -/
theorem settleUnits_cons (rest : List DeploymentUnit) :
    settleUnits base position (u :: rest) =
      if (Text.trim u.name.toList).isEmpty then .error (.unnamedUnit position)
      else
        match settleFiles base u.name [] u.files with
        | .ok files => (settleUnits base (position + 1) rest).map (⟨u.name, files⟩ :: ·)
        | .error failure => .error failure := by
  rw [settleUnits]
  split
  · rfl
  · simp only [bind, Except.bind]
    cases settleFiles base u.name [] u.files with
    | error failure => rfl
    | ok files => cases settleUnits base (position + 1) rest <;> rfl

/-- A unit is well formed if it has a name and its files are accepted. -/
theorem wellFormed_iff :
    u.WellFormed base ↔ (Text.trim u.name.toList).isEmpty = false ∧
      settleFiles base u.name [] u.files = .ok (u.files.map (·.settled base)) := by
  rw [settleFiles_eq_ok_iff, listable_nil_iff, and_iff_left rfl, Bool.eq_false_iff, ne_eq,
    Text.isEmpty_trim_iff]
  constructor
  · rintro ⟨⟨c, mem, solid⟩, files⟩
    exact ⟨fun blank => Bool.eq_false_iff.1 solid (blank c mem), files⟩
  · rintro ⟨named, files⟩
    obtain ⟨c, mem, solid⟩ := by simpa using named
    exact ⟨⟨c, mem, solid⟩, files⟩

/-- What is wrong with a unit is its name, or else what its files fail with. -/
theorem fault_iff :
    u.Fault base position failure ↔
      (Text.trim u.name.toList).isEmpty = true ∧ failure = .unnamedUnit position ∨
        (Text.trim u.name.toList).isEmpty = false ∧
          settleFiles base u.name [] u.files = .error failure := by
  rw [settleFiles_eq_error_iff, Bool.eq_false_iff, ne_eq, Text.isEmpty_trim_iff]
  simp only [listable_nil_iff, List.append_nil]
  constructor
  · rintro (blank | ⟨before, file, after, ⟨c, mem, solid⟩, split, fine, fault⟩)
    · exact .inl ⟨blank, rfl⟩
    · exact .inr ⟨fun blank => Bool.eq_false_iff.1 solid (blank c mem),
        before, file, after, split, fine, fault⟩
  · rintro (⟨blank, rfl⟩ | ⟨named, before, file, after, split, fine, fault⟩)
    · exact .unnamed blank
    · exact .file before file after (by simpa using named) split fine fault

/-- Units are accepted exactly if each of them is well formed. -/
theorem settleUnits_eq_ok_iff :
    settleUnits base position units = .ok settledUnits ↔
      (∀ u ∈ units, u.WellFormed base) ∧ settledUnits = units.map (·.settled base) := by
  induction units generalizing position settledUnits with
  | nil => simp [settleUnits, eq_comm]
  | cons u rest ih =>
    rw [settleUnits_cons, List.forall_mem_cons, wellFormed_iff]
    split
    · rename_i unnamed
      simp [unnamed]
    · rename_i named
      cases run : settleFiles base u.name [] u.files with
      | error failure => simp
      | ok files =>
        obtain ⟨-, rfl⟩ := settleFiles_eq_ok_iff.1 run
        rw [map_eq_ok_iff]
        simp only [ih, Bool.eq_false_iff.2 named, true_and, List.map_cons]
        constructor
        · rintro ⟨others, ⟨fine, rfl⟩, rfl⟩
          exact ⟨fine, rfl⟩
        · rintro ⟨fine, rfl⟩
          exact ⟨_, ⟨fine, rfl⟩, rfl⟩

/-- A failure is that of the first unit that is not well formed, at its position. -/
theorem settleUnits_eq_error_iff :
    settleUnits base position units = .error failure ↔
      ∃ before u after, units = before ++ u :: after ∧ (∀ v ∈ before, v.WellFormed base) ∧
        u.Fault base (before.length + position) failure := by
  induction units generalizing position with
  | nil => exact ⟨(nomatch ·), fun h => absurd h not_exists_split_nil⟩
  | cons u rest ih =>
    rw [exists_split_cons_iff, settleUnits_cons]
    simp only [List.forall_mem_cons, List.length_cons, List.length_nil, Nat.zero_add,
      Nat.succ_add_eq_add_succ, wellFormed_iff (u := u)]
    rw [fault_iff]
    split
    · rename_i unnamed
      simp [unnamed, eq_comm]
    · rename_i named
      cases run : settleFiles base u.name [] u.files with
      | error other => simp [Bool.eq_false_iff.2 named]
      | ok files =>
        obtain ⟨-, rfl⟩ := settleFiles_eq_ok_iff.1 run
        rw [map_eq_error_iff, ih]
        simp [Bool.eq_false_iff.2 named]

/-- All that can be wrong with a unit is the fault of the manifest. -/
theorem category_of_fault (h : u.Fault base position failure) : failure.category = .manifest := by
  rcases h with _ | ⟨-, -, -, -, -, -, _ | _⟩ <;> rfl

end DeploymentUnit

/-! ## Documents -/

theorem DeploymentFile.ofNode?_toJson (file : DeploymentFile) :
    ofNode? file.toJson.node = some file := by
  have fields : file.toJson = .object (Json.presentFields
      [("name", some (.string file.name)), ("path", some (.string file.path)),
        ("contents", file.contents.map .string)]) := by
    rw [toJson]
    cases file.contents <;> rfl
  have contents : Node.orElse? none (Node.nullable? Node.text?)
      ((file.contents.map Value.string).map Value.node) = some file.contents :=
    orElse?_left_out fun _ _ => ⟨rfl, by rintro ⟨⟩⟩
  rw [ofNode?, fields, Json.record?_presentFields (by rfl)]
  simp only [Option.bind_eq_bind, Option.bind_some, List.map_cons, List.map_nil, orElse?_string,
    contents]
  rfl

theorem DeploymentFile.isPlain_toJson (file : DeploymentFile) : file.toJson.isPlain = true := by
  refine Value.isPlain_object (List.forall_mem_append.2 ⟨by simp, fun field mem => ?_⟩)
  obtain ⟨text, -, rfl⟩ := Option.map_eq_some_iff.1 (Option.mem_toList.1 mem)
  rfl

namespace DeploymentUnit

/-- A unit is read from its object as it was. -/
theorem ofNode?_toJson (u : DeploymentUnit) : ofNode? u.toJson.node = some u := by
  have fields : u.toJson = .object (Json.presentFields
      [("name", some (.string u.name)),
        ("files", some (.array (u.files.map DeploymentFile.toJson)))]) := rfl
  have files : Node.orElse? [] (Node.list? DeploymentFile.ofNode?)
      (some (Value.array (u.files.map DeploymentFile.toJson)).node) = some u.files := by
    rw [Node.orElse?, Value.node, Value.nodes_eq_map, List.map_map]
    exact mapM_map_eq_some fun file _ => file.ofNode?_toJson
  rw [ofNode?, fields, Json.record?_presentFields (by rfl)]
  simp only [Option.bind_eq_bind, Option.bind_some, Option.map_some, List.map_cons, List.map_nil,
    text?_string, files]
  rfl

/-- A list of units as a document. -/
def document (units : List DeploymentUnit) : String :=
  (Value.array (units.map toJson)).pretty

/-- The object of a unit holds no doubles, so its document stands for it. -/
theorem isPlain_toJson (u : DeploymentUnit) : u.toJson.isPlain = true := by
  refine Value.isPlain_object (List.forall_mem_cons.2 ⟨rfl, List.forall_mem_singleton.2 ?_⟩)
  refine (Value.arePlain_iff _).2 fun item mem => ?_
  obtain ⟨file, -, rfl⟩ := List.mem_map.1 mem
  exact file.isPlain_toJson

/-- Every list of units can be listed by a manifest. -/
theorem listed_document (units : List DeploymentUnit) :
    (Node.parse? (document units)).bind (Node.list? ofNode?) = some units := by
  have plain : (Value.array (units.map toJson)).isPlain = true := by
    refine (Value.arePlain_iff _).2 fun item mem => ?_
    obtain ⟨u, -, rfl⟩ := List.mem_map.1 mem
    exact u.isPlain_toJson
  rw [document, Json.parse?_pretty plain, Option.bind_some, Value.node, Value.nodes_eq_map,
    List.map_map]
  exact mapM_map_eq_some fun u _ => u.ofNode?_toJson

/-! ## Manifests -/

variable {t : FileTree} {path text : String} {units : List DeploymentUnit}

/-- A manifest that can be read and parsed is settled from the directory it is in. -/
theorem ofManifest_eq (read : t.readSource path = .ok text)
    (listed : (Node.parse? text).bind (Node.list? ofNode?) = some units) :
    ofManifest t path = settleUnits (Path.parent path) 1 units := by
  rw [ofManifest, read]
  simp only [bind, Except.bind, listed]

/--
A manifest that lists units is read exactly if each of them is well formed. The units and files then
come in the same order, settled. Otherwise the failure is a failure of manifests and says what is
wrong with the first unit, or with its first file, that cannot be listed.
-/
theorem ofManifest_spec (read : t.readSource path = .ok text)
    (listed : (Node.parse? text).bind (Node.list? ofNode?) = some units) :
    ((∃ settledUnits, ofManifest t path = .ok settledUnits) ↔
        ∀ u ∈ units, u.WellFormed (Path.parent path)) ∧
      (∀ settledUnits, ofManifest t path = .ok settledUnits →
        settledUnits = units.map (·.settled (Path.parent path))) ∧
      (∀ failure, ofManifest t path = .error failure ↔
        IsFirstFault (Path.parent path) units failure) ∧
      ∀ failure, IsFirstFault (Path.parent path) units failure → failure.category = .manifest := by
  rw [ofManifest_eq read listed]
  simp only [settleUnits_eq_ok_iff, settleUnits_eq_error_iff]
  refine ⟨⟨fun ⟨_, fine, _⟩ => fine, fun fine => ⟨_, fine, rfl⟩⟩, fun _ h => h.2,
    fun _ => Iff.rfl, ?_⟩
  rintro failure ⟨_, u, _, _, _, fault⟩
  exact category_of_fault fault

/-- A tree with a manifest in a directory. -/
def manifestTree (text : String) : FileTree :=
  ⟨[(["deploy"], .directory), (["deploy", "m.json"], .file (.text text))], []⟩

theorem readSource_manifestTree (text : String) :
    (manifestTree text).readSource "deploy/m.json" = .ok text := rfl

/-- A manifest that is read, and one with two files that come to have the same name. -/
theorem ofManifest_spec_release :
    ofManifest (manifestTree (document [⟨"release", [⟨"", "sql/a.sql", none⟩, ⟨"b", "/b.sql", none⟩,
          ⟨"c.sql", "", some "DROP TABLE c;"⟩]⟩])) "deploy/m.json" =
        .ok [⟨"release", [⟨"a.sql", "deploy/sql/a.sql", none⟩, ⟨"b", "/b.sql", none⟩,
          ⟨"c.sql", "", some "DROP TABLE c;"⟩]⟩] ∧
      ofManifest (manifestTree (document [⟨"release", [⟨"a.sql", "b.sql", none⟩]⟩,
          ⟨"fixes", [⟨"a.sql", "b.sql", none⟩, ⟨"", "a.sql", none⟩]⟩])) "deploy/m.json" =
        .error (.repeatedFile "a.sql" "fixes") := by
  constructor
  · obtain ⟨accepted, settled_, -⟩ := ofManifest_spec (readSource_manifestTree _)
      (listed_document [⟨"release", [⟨"", "sql/a.sql", none⟩, ⟨"b", "/b.sql", none⟩,
        ⟨"c.sql", "", some "DROP TABLE c;"⟩]⟩])
    obtain ⟨units, ok⟩ := accepted.2 (by decide)
    rw [ok, settled_ units ok]
    decide
  · have fault : Fault "deploy" 2 ⟨"fixes", [⟨"a.sql", "b.sql", none⟩, ⟨"", "a.sql", none⟩]⟩
        (.repeatedFile "a.sql" "fixes") :=
      .file [_] ⟨"", "a.sql", none⟩ [] ⟨'f', by decide⟩ rfl (by decide)
        (.repeated (by decide) (by decide))
    exact ((ofManifest_spec (readSource_manifestTree _) (listed_document _)).2.2.1 _).2
      ⟨[_], _, [], rfl, by decide, fault⟩

/-- Paths that end in two dots do not end in a name, so files are told apart by the whole paths
although the last components are the same. -/
theorem ofManifest_dots :
    ((["a/..", "b/.."].map fun path => (Path.components (Path.join "deploy" path)).getLast?) =
        [some "..", some ".."]) ∧
      ofManifest (manifestTree (document [⟨"u", [⟨"", "a/..", some ""⟩, ⟨"", "b/..", some ""⟩]⟩]))
          "deploy/m.json" =
        .ok [⟨"u", [⟨"deploy/a/..", "deploy/a/..", some ""⟩,
          ⟨"deploy/b/..", "deploy/b/..", some ""⟩]⟩] := by
  refine ⟨by decide, ?_⟩
  rw [ofManifest_eq (readSource_manifestTree _) (listed_document _)]
  decide

end DeploymentUnit

end Rollback

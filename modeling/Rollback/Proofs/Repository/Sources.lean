import Mathlib.Data.List.Nodup
import Rollback.Proofs.Files.Walks
import Rollback.Repository.Verification

/-!
# Sources of a repository

Which files of a tree are the sources of a repository, under which keys they are known, and what is
read from them.

- `Scannable`: a repository all of whose sources can be read
- `HoldsSource`: the keys and checksums of a repository, as the tree has them
- `join_slash_injective`: a key is the key of one file
- `snapshot`: the keys and checksums as they are found
- `Scannable.snapshot_eq_ok`: what is found is what the repository holds
- `exists_scannable`: a repository in which everything is found can be scanned
-/

set_option autoImplicit false

namespace Rollback

/-! ## Files below a place -/

namespace FileTree

variable {t : FileTree} {place : Location} {names : List String}

/-- The names on the ways from a place to the entries of some kind. -/
def waysTo (t : FileTree) (place : Location) (wanted : Entry → Bool) : List Location :=
  t.entries.filterMap fun e =>
    if wanted e.2 = true ∧ place <+: e.1 then some (e.1.drop place.length) else none

theorem filesUnder_eq (t : FileTree) (place : Location) :
    t.filesUnder place = t.waysTo place fun entry => entry != .directory := by
  refine List.filterMap_congr fun e _ => ?_
  obtain ⟨p, entry⟩ := e
  cases entry <;> simp

theorem directoriesUnder_eq (t : FileTree) (place : Location) :
    t.directoriesUnder place = t.waysTo place fun entry => entry == .directory := by
  refine List.filterMap_congr fun e _ => ?_
  obtain ⟨p, entry⟩ := e
  cases entry <;> simp

/-- In a tree where each place has one entry, the ways are those to the wanted entries. -/
theorem WellFormed.mem_waysTo_iff (wf : t.WellFormed) {wanted : Entry → Bool} :
    names ∈ t.waysTo place wanted ↔
      place ++ names ≠ [] ∧ ∃ entry, t.entry? (place ++ names) = some entry ∧
        wanted entry = true := by
  rw [waysTo, List.mem_filterMap]
  constructor
  · rintro ⟨⟨p, entry⟩, mem, found⟩
    simp only [Option.ite_none_right_eq_some, Option.some.injEq] at found
    obtain ⟨⟨kind, rest, rfl⟩, rfl⟩ := found
    rw [List.drop_left]
    obtain ⟨below, found⟩ := wf.mem_entries_iff.1 mem
    exact ⟨below, entry, found, kind⟩
  · rintro ⟨below, entry, found, kind⟩
    refine ⟨_, wf.mem_entries_iff.2 ⟨below, found⟩, ?_⟩
    simp [kind]

theorem WellFormed.nodup_waysTo (wf : t.WellFormed) (wanted : Entry → Bool) :
    (t.waysTo place wanted).Nodup := by
  refine List.Pairwise.filterMap _ ?_ (List.pairwise_map.1 wf.distinct)
  rintro ⟨p, entry⟩ ⟨q, other⟩ apart names first names' second same
  subst same
  simp only [Option.ite_none_right_eq_some, Option.some.injEq] at first second
  obtain ⟨⟨-, rest, rfl⟩, rfl⟩ := first
  obtain ⟨⟨-, rest', rfl⟩, eq⟩ := second
  rw [List.drop_left, List.drop_left] at eq
  exact apart (by rw [eq])

/-- The files below a place are all ways that lead to a file. -/
theorem WellFormed.mem_filesUnder_iff (wf : t.WellFormed) :
    names ∈ t.filesUnder place ↔ ∃ content, t.entry? (place ++ names) = some (.file content) := by
  rw [filesUnder_eq, wf.mem_waysTo_iff]
  constructor
  · rintro ⟨-, entry, found, kind⟩
    cases entry with
    | file content => exact ⟨content, found⟩
    | directory => simp at kind
  · rintro ⟨content, found⟩
    have below : place ++ names ≠ [] := fun root => by simp [root] at found
    exact ⟨below, _, found, by simp⟩

theorem WellFormed.nodup_filesUnder (wf : t.WellFormed) : (t.filesUnder place).Nodup := by
  rw [filesUnder_eq]
  exact wf.nodup_waysTo _

end FileTree

open FileTree

/-- The names that lead to a file of SQL are names of entries, so slashes between them keep them
apart. -/
theorem join_slash_injective {a b : List String} (ha : ∀ name ∈ a, IsEntryName name)
    (hb : ∀ name ∈ b, IsEntryName name) (a_ne : a ≠ []) (b_ne : b ≠ [])
    (same : Text.join "/" a = Text.join "/" b) : a = b := by
  have pieces : ∀ names : List String, names ≠ [] → (∀ name ∈ names, IsEntryName name) →
      Text.pieces '/' (Text.join "/" names).toList = names.map String.toList := by
    intro names nonempty valid
    rw [Text.join, String.toList_intercalate]
    refine Text.pieces_intercalate (by simpa using nonempty) ?_
    intro part mem
    obtain ⟨name, inside, rfl⟩ := List.mem_map.1 mem
    exact (valid name inside).slash
  have chars : a.map String.toList = b.map String.toList := by
    rw [← pieces a a_ne ha, ← pieces b b_ne hb, same]
  exact (List.map_inj_right fun _ _ => String.toList_inj.1).1 chars

/-! ## Repositories -/

/-- A repository below a place of a tree that can be scanned: the paths to its directories and
sources are short enough to be looked up, and its sources are texts. -/
structure Scannable (t : FileTree) (root : String) (place : Location) (skipped : List String) :
    Prop where
  wellFormed : t.WellFormed
  located : t.directoryAt root = .ok place
  openable : ∀ names ∈ t.directoriesUnder place, isVisited skipped names = true →
    (pathAlong root names).utf8ByteSize ≤ Path.longestPath
  readable : ∀ names ∈ t.filesUnder place, isSource skipped names = true →
    (pathAlong root names).utf8ByteSize ≤ Path.longestPath ∧
      t.entry? (place ++ names) ≠ some (.file .undecodable)

instance (t : FileTree) (root : String) (place : Location) (skipped : List String) :
    Decidable (Scannable t root place skipped) :=
  decidable_of_iff
    (t.WellFormed ∧ t.directoryAt root = .ok place ∧
      (∀ names ∈ t.directoriesUnder place, isVisited skipped names = true →
        (pathAlong root names).utf8ByteSize ≤ Path.longestPath) ∧
      ∀ names ∈ t.filesUnder place, isSource skipped names = true →
        (pathAlong root names).utf8ByteSize ≤ Path.longestPath ∧
          t.entry? (place ++ names) ≠ some (.file .undecodable))
    ⟨fun ⟨a, b, c, d⟩ => ⟨a, b, c, d⟩, fun ⟨a, b, c, d⟩ => ⟨a, b, c, d⟩⟩

/-- Some names lead from a place to a source with this text. -/
def IsSourceText (t : FileTree) (place : Location) (skipped names : List String) (text : String) :
    Prop :=
  t.entry? (place ++ names) = some (.file (.text text)) ∧ isSource skipped names = true

/-- The repository below a place holds a source with this key and this checksum. -/
def HoldsSource (t : FileTree) (place : Location) (skipped : List String) (key : String)
    (checksum : UInt32) : Prop :=
  ∃ names text, IsSourceText t place skipped names text ∧ key = Text.join "/" names ∧
    checksum = text.crc32

theorem ne_nil_of_isSource {skipped names : List String} (h : isSource skipped names = true) :
    names ≠ [] := by
  rintro rfl
  rw [isSource, List.getLast?_nil] at h
  cases h

/-- A source is known by its key, whatever else is skipped. -/
theorem IsSourceText.unique {t : FileTree} (wf : t.WellFormed) {place : Location}
    {skipped skipped' names names' : List String} {text text' : String}
    (h : IsSourceText t place skipped names text) (h' : IsSourceText t place skipped' names' text')
    (same : Text.join "/" names = Text.join "/" names') : names = names' ∧ text = text' := by
  have inside := wf.isEntryName_of_entry? h.1
  have inside' := wf.isEntryName_of_entry? h'.1
  have eq := join_slash_injective (fun name mem => inside name (List.mem_append_right _ mem))
    (fun name mem => inside' name (List.mem_append_right _ mem)) (ne_nil_of_isSource h.2)
    (ne_nil_of_isSource h'.2) same
  refine ⟨eq, ?_⟩
  have found := h.1
  rw [eq, h'.1] at found
  cases found
  rfl

/-- A key has one checksum in a tree, whichever directories are skipped. -/
theorem HoldsSource.unique {t : FileTree} (wf : t.WellFormed) {place : Location}
    {skipped skipped' : List String} {key : String} {a b : UInt32}
    (ha : HoldsSource t place skipped key a) (hb : HoldsSource t place skipped' key b) : a = b := by
  obtain ⟨names, text, source, rfl, rfl⟩ := ha
  obtain ⟨names', text', source', same, rfl⟩ := hb
  rw [(source.unique wf source' same).2]

/-- The keys that one list of skipped directories leaves in a repository and another one
does not. -/
theorem HoldsSource.only_iff {t : FileTree} (wf : t.WellFormed) {place : Location}
    {skipped skipped' : List String} {key : String} :
    ((∃ x, HoldsSource t place skipped key x) ∧ ¬∃ x, HoldsSource t place skipped' key x) ↔
      ∃ names text, IsSourceText t place skipped names text ∧ isSource skipped' names = false ∧
        key = Text.join "/" names := by
  constructor
  · rintro ⟨⟨x, names, text, source, rfl, rfl⟩, only⟩
    refine ⟨names, text, source, ?_, rfl⟩
    rw [← Bool.not_eq_true]
    exact fun other => only ⟨_, names, text, ⟨source.1, other⟩, rfl, rfl⟩
  · rintro ⟨names, text, source, other, rfl⟩
    refine ⟨⟨_, names, text, source, rfl, rfl⟩, ?_⟩
    rintro ⟨x, names', text', source', same, -⟩
    rw [(source.unique wf source' same).1, source'.2] at other
    cases other

/-! ## What is found -/

/-- The sources are discovered if every directory that is visited can be opened. -/
theorem discover_of_openable {t : FileTree} {root : String} {place : Location}
    {skipped : List String} (located : t.directoryAt root = .ok place)
    (openable : ∀ names ∈ t.directoriesUnder place, isVisited skipped names = true →
      (pathAlong root names).utf8ByteSize ≤ Path.longestPath) :
    discover t root skipped =
      .ok ((((t.filesUnder place).filter (isSource skipped)).mergeSort Path.comesBefore).map
        (SourceFile.ofNames root)) := by
  have opened : unopened? t root place skipped = none := by
    rw [unopened?, List.find?_eq_none]
    intro path mem
    obtain ⟨names, visited, rfl⟩ := List.mem_map.1 mem
    obtain ⟨directory, visited⟩ := List.mem_filter.1 visited
    simpa using openable names directory visited
  refine bind_eq_ok_iff.2 ⟨place, mapError_eq_ok_iff.2 located, ?_⟩
  rw [opened]
  rfl

/-- The keys of the sources of a repository with the checksums of their texts. -/
def snapshot (t : FileTree) (root : String) (skipped : List String) :
    Except Failure (List (String × UInt32)) := do
  checksums t (← discover t root skipped)

/-- A verification compares a snapshot with the recorded checksums. -/
theorem verify_eq (t : FileTree) (c : Catalog) (root : String) (skipped : List String) :
    verify t c root skipped =
      (snapshot t root skipped).map (VerifyReport.ofChecksums c.metadata.checksums) := by
  rw [verify, snapshot]
  cases discover t root skipped with
  | error failure => rfl
  | ok sources =>
    show (checksums t sources >>= fun found => Except.ok _) = (checksums t sources).map _
    cases checksums t sources <;> rfl

theorem checksums_cons (t : FileTree) (source : SourceFile) (rest : List SourceFile) :
    checksums t (source :: rest) =
      (t.readSource source.path >>= fun text => (checksums t rest).map fun found =>
        (source.key, text.crc32) :: found) := by
  rw [checksums, List.mapM_cons, ← checksums]
  cases t.readSource source.path with
  | error failure => rfl
  | ok text =>
    show (checksums t rest >>= fun found => Except.ok _) = (checksums t rest).map _
    cases checksums t rest <;> rfl

namespace Scannable

variable {t : FileTree} {root : String} {place : Location} {skipped : List String}

/-- The names on the ways to the sources, in the order of the sources. -/
def waysToSources (t : FileTree) (place : Location) (skipped : List String) : List (List String) :=
  ((t.filesUnder place).filter (isSource skipped)).mergeSort Path.comesBefore

/-- In a repository that can be scanned, the ways to sources are those to their texts. -/
theorem mem_waysToSources_iff (h : Scannable t root place skipped) {names : List String} :
    names ∈ waysToSources t place skipped ↔ ∃ text, IsSourceText t place skipped names text := by
  rw [waysToSources, List.mem_mergeSort, List.mem_filter]
  constructor
  · rintro ⟨mem, source⟩
    obtain ⟨content, found⟩ := h.wellFormed.mem_filesUnder_iff.1 mem
    cases content with
    | text text => exact ⟨text, found, source⟩
    | undecodable => exact absurd found (h.readable names mem source).2
  · rintro ⟨text, found, source⟩
    exact ⟨h.wellFormed.mem_filesUnder_iff.2 ⟨_, found⟩, source⟩

theorem nodup_waysToSources (h : Scannable t root place skipped) :
    (waysToSources t place skipped).Nodup := by
  refine (List.mergeSort_perm _ _).nodup_iff.2 ?_
  exact h.wellFormed.nodup_filesUnder.filter _

/-- What can be scanned is found in the order of the ways. -/
theorem discover_eq_ok (h : Scannable t root place skipped) :
    discover t root skipped =
      .ok ((waysToSources t place skipped).map (SourceFile.ofNames root)) :=
  discover_of_openable h.located h.openable

/-- The text of the source that some names lead to. -/
def textAlong (t : FileTree) (place : Location) (names : List String) : String :=
  match t.entry? (place ++ names) with
  | some (.file (.text text)) => text
  | _ => ""

theorem textAlong_eq {names : List String} {text : String}
    (h : IsSourceText t place skipped names text) : textAlong t place names = text := by
  rw [textAlong, h.1]

/-- Each source that is found can be read. -/
theorem readSource_eq_ok (h : Scannable t root place skipped) {names : List String}
    (mem : names ∈ waysToSources t place skipped) :
    t.readSource (pathAlong root names) = .ok (textAlong t place names) := by
  obtain ⟨text, source⟩ := h.mem_waysToSources_iff.1 mem
  have file := h.wellFormed.mem_filesUnder_iff.2 ⟨_, source.1⟩
  have located :=
    h.wellFormed.locate_pathAlong h.located source.1 (h.readable names file source.2).1
  rw [textAlong_eq source]
  exact readSource_eq_ok_iff.2 (readText_eq_ok_iff.2 ⟨_, located⟩)

/-- The checksums of sources that are found are those of their texts. -/
theorem checksums_eq_ok (h : Scannable t root place skipped) {ways : List (List String)}
    (found : ∀ names ∈ ways, names ∈ waysToSources t place skipped) :
    checksums t (ways.map (SourceFile.ofNames root)) =
      .ok (ways.map fun names => (Text.join "/" names, (textAlong t place names).crc32)) := by
  induction ways with
  | nil => rfl
  | cons names rest ih =>
    obtain ⟨here, later⟩ := List.forall_mem_cons.1 found
    have read : t.readSource (SourceFile.ofNames root names).path =
        .ok (textAlong t place names) := h.readSource_eq_ok here
    rw [List.map_cons, checksums_cons, read, ih later]
    rfl

/-- The keys and checksums that are found, by the names on the ways to the sources. -/
theorem snapshot_eq (h : Scannable t root place skipped) :
    snapshot t root skipped =
      .ok ((waysToSources t place skipped).map fun names =>
        (Text.join "/" names, (textAlong t place names).crc32)) := by
  rw [snapshot, h.discover_eq_ok]
  exact h.checksums_eq_ok fun _ => id

/-- What is found is what the repository holds, and each key is found once. -/
theorem snapshot_eq_ok (h : Scannable t root place skipped) :
    ∃ found, snapshot t root skipped = .ok found ∧ (found.map Prod.fst).Nodup ∧
      ∀ key checksum, (key, checksum) ∈ found ↔ HoldsSource t place skipped key checksum := by
  refine ⟨_, h.snapshot_eq, ?_, ?_⟩
  · rw [List.map_map]
    refine h.nodup_waysToSources.map_on ?_
    -- A key is made of the names on the way, so two sources with the same key are one.
    intro a ha b hb same
    obtain ⟨text, source⟩ := h.mem_waysToSources_iff.1 ha
    obtain ⟨text', source'⟩ := h.mem_waysToSources_iff.1 hb
    exact (source.unique h.wellFormed source' same).1
  · intro key checksum
    rw [List.mem_map]
    constructor
    · rintro ⟨names, mem, eq⟩
      obtain ⟨text, source⟩ := h.mem_waysToSources_iff.1 mem
      obtain ⟨rfl, rfl⟩ := Prod.mk.inj eq
      exact ⟨names, text, source, rfl, by rw [textAlong_eq source]⟩
    · rintro ⟨names, text, source, rfl, rfl⟩
      exact ⟨names, h.mem_waysToSources_iff.2 ⟨text, source⟩, by rw [textAlong_eq source]⟩

end Scannable

/-- Checksums are taken of texts only. -/
theorem exists_text_of_checksums {t : FileTree} {sources : List SourceFile}
    {found : List (String × UInt32)} (read : checksums t sources = .ok found) :
    ∀ source ∈ sources, ∃ text, t.readSource source.path = .ok text := by
  induction sources generalizing found with
  | nil => exact List.forall_mem_nil _
  | cons source rest ih =>
    rw [checksums_cons] at read
    obtain ⟨text, here, more⟩ := bind_eq_ok_iff.1 read
    refine List.forall_mem_cons.2 ⟨⟨text, here⟩, ?_⟩
    cases rested : checksums t rest with
    | error failure =>
      rw [rested] at more
      cases more
    | ok others => exact ih rested

/-- A repository in which everything is found can be scanned. -/
theorem exists_scannable {t : FileTree} (wf : t.WellFormed) {root : String} {skipped : List String}
    {found : List (String × UInt32)} (h : snapshot t root skipped = .ok found) :
    ∃ place, Scannable t root place skipped := by
  obtain ⟨sources, discovered, read⟩ := bind_eq_ok_iff.1 h
  obtain ⟨place, located, discovered⟩ := bind_eq_ok_iff.1 discovered
  have located : t.directoryAt root = .ok place := mapError_eq_ok_iff.1 located
  split at discovered
  · cases discovered
  · rename_i opened
    obtain rfl := Except.ok.inj discovered
    refine ⟨place, wf, located, ?_, ?_⟩
    · intro names directory visited
      have short := List.find?_eq_none.1 opened (pathAlong root names)
        (List.mem_map.2 ⟨names, List.mem_filter.2 ⟨directory, visited⟩, rfl⟩)
      simpa using short
    · intro names file source
      have listed : SourceFile.ofNames root names ∈
          (((t.filesUnder place).filter (isSource skipped)).mergeSort Path.comesBefore).map
            (SourceFile.ofNames root) := by
        rw [List.mem_map]
        exact ⟨names, List.mem_mergeSort.2 (List.mem_filter.2 ⟨file, source⟩), rfl⟩
      obtain ⟨text, read⟩ := exists_text_of_checksums read _ listed
      have read : t.readText (pathAlong root names) = .ok text := readSource_eq_ok_iff.1 read
      obtain ⟨q, led⟩ := readText_eq_ok_iff.1 read
      obtain ⟨openable, -, -⟩ := locate_eq_ok_iff.1 led
      obtain ⟨content, there⟩ := wf.mem_filesUnder_iff.1 file
      have led' := wf.locate_pathAlong located there openable.short
      refine ⟨openable.short, ?_⟩
      rw [there]
      rw [led'] at led
      obtain ⟨-, same⟩ := Prod.mk.inj (Except.ok.inj led)
      rw [same]
      simp

end Rollback

import Mathlib.Data.Set.Card
import Rollback.Proofs.Repository.Sources
import Rollback.Proofs.Schema.Entries
import Rollback.Proofs.Schema.StatementRuns
import Rollback.Repository.Scan

/-!
# Differences between snapshots

A scan records the checksums of a repository in a catalog, and a verification compares them with
those of a repository, which may be another one. Both go through the sources on their own.

- `map_ingestSources`: a scan records what a snapshot finds
- `VerifyReport.IsDifference`: a report tells two snapshots apart, key by key
- `isDifference_ofChecksums`: the report on recorded and found checksums
- `verify_isDifference`: the report on the catalog of one repository and on another repository
-/

set_option autoImplicit false

namespace Rollback

/-! ## What a scan records -/

/-- The checksums that a draft has recorded. -/
def Draft.recorded (d : Draft) : KeyMap UInt32 :=
  d.catalog.metadata.checksums

/-- The recorded checksums with some more. -/
def recordAll (recorded : KeyMap UInt32) (found : List (String × UInt32)) : KeyMap UInt32 :=
  found.foldl (fun m e => m.insert e.1 e.2) recorded

/-- Reading the sources for a draft records their checksums, and fails where taking the checksums
fails. -/
theorem map_ingestSources (t : FileTree) (total : Nat) (sources : List SourceFile) :
    ∀ (position : Nat) (d : Draft),
      (ingestSources t total position d sources).2.map Draft.recorded =
        (checksums t sources).map (recordAll d.recorded) := by
  induction sources with
  | nil => exact fun position d => rfl
  | cons source rest ih =>
    intro position d
    rw [ingestSources, checksums_cons]
    cases t.readSource source.path with
    | error failure => rfl
    | ok text =>
      -- Whatever a source declares, its checksum is the only one that it adds.
      have after := ih (position + 1) (d.ingest source.key text).1
      have recorded : (d.ingest source.key text).1.recorded =
          d.recorded.insert source.key text.crc32 :=
        congrArg Metadata.checksums (d.records_ingest source.key text).1
      rw [recorded] at after
      show (ingestSources t total (position + 1) (d.ingest source.key text).1 rest).2.map _ =
        ((checksums t rest).map _).map _
      rw [after]
      cases checksums t rest <;> rfl

/-- A scan records the snapshot of the repository. -/
theorem map_scanSources (t : FileTree) (root : String) (skipped : List String) :
    (scanSources t root skipped).2.map Draft.recorded =
      (snapshot t root skipped).map KeyMap.ofList := by
  rw [scanSources, snapshot]
  cases discover t root skipped with
  | error failure => rfl
  | ok sources => exact map_ingestSources t sources.length sources 1 .empty

/-! ## Differences -/

/-- A report says how two snapshots, given by the checksums that they have at their keys, differ. -/
structure VerifyReport.IsDifference (r : VerifyReport) (before after : String → UInt32 → Prop) :
    Prop where
  added : ∀ key, key ∈ r.added ↔ (∃ x, after key x) ∧ ¬∃ x, before key x
  removed : ∀ key, key ∈ r.removed ↔ (∃ x, before key x) ∧ ¬∃ x, after key x
  modified : ∀ m, m ∈ r.modified ↔
    before m.key m.expected ∧ after m.key m.actual ∧ m.expected ≠ m.actual
  unchanged : r.unchanged = {key | ∃ x, before key x ∧ after key x}.ncard
  /-- No key is listed twice, and none that is listed is unchanged. -/
  distinct : (r.added ++ r.removed ++ r.modified.map ModifiedFile.key).Nodup
  apart : ∀ key ∈ r.added ++ r.removed ++ r.modified.map ModifiedFile.key,
    ¬∃ x, before key x ∧ after key x
  stale : r.isStale = false ↔ ∀ key x, before key x ↔ after key x

section

variable {recorded : KeyMap UInt32} {key : String} {actual expected : UInt32}

theorem sourceState_eq_added_iff :
    sourceState recorded key actual = .added ↔ recorded.get? key = none := by
  rw [sourceState]
  cases recorded.get? key with
  | none => simp
  | some expected =>
    simp only [reduceCtorEq, iff_false]
    split <;> simp

/-- A source has changed exactly if another checksum is recorded for it. -/
theorem sourceState_eq_modified_iff :
    sourceState recorded key actual = .modified expected ↔
      recorded.get? key = some expected ∧ expected ≠ actual := by
  rw [sourceState]
  cases recorded.get? key with
  | none => simp
  | some x =>
    by_cases same : x = actual
    · simp only [same, beq_self_eq_true, if_true, reduceCtorEq, Option.some.injEq, false_iff]
      exact fun ⟨eq, other⟩ => other eq.symm
    · simp only [beq_eq_false_iff_ne.2 same, Bool.false_eq_true, if_false,
        SourceState.modified.injEq, Option.some.injEq]
      constructor
      · rintro rfl
        exact ⟨rfl, same⟩
      · exact And.left

theorem sourceState_eq_unchanged_iff :
    sourceState recorded key actual = .unchanged ↔ recorded.get? key = some actual := by
  rw [sourceState]
  cases recorded.get? key with
  | none => simp
  | some x =>
    by_cases same : x = actual
    · simp [same]
    · simp [same]

end

namespace VerifyReport

variable {recorded : KeyMap UInt32} {found : List (String × UInt32)}

/-- What is reported as added was found and is not recorded. -/
theorem mem_added_iff {key : String} :
    key ∈ (ofChecksums recorded found).added ↔
      (∃ x, (key, x) ∈ found) ∧ recorded.get? key = none := by
  simp only [ofChecksums, List.mem_filterMap, Prod.exists, beq_iff_eq, sourceState_eq_added_iff,
    Option.ite_none_right_eq_some, Option.some.injEq]
  constructor
  · rintro ⟨k, x, mem, unknown, rfl⟩
    exact ⟨⟨x, mem⟩, unknown⟩
  · rintro ⟨⟨x, mem⟩, unknown⟩
    exact ⟨key, x, mem, unknown, rfl⟩

/-- What is reported as removed is recorded and was not found. -/
theorem mem_removed_iff {key : String} :
    key ∈ (ofChecksums recorded found).removed ↔
      (∃ x, recorded.get? key = some x) ∧ ¬∃ x, (key, x) ∈ found := by
  simp only [ofChecksums, List.mem_filter, KeyMap.keys, List.mem_map, Prod.exists, exists_and_right,
    exists_eq_right, KeyMap.mem_entries_iff, List.contains_eq_mem, Bool.not_eq_true',
    decide_eq_false_iff_not]

/-- What is reported as modified was found with another checksum than the one recorded. -/
theorem mem_modified_iff {m : ModifiedFile} :
    m ∈ (ofChecksums recorded found).modified ↔
      recorded.get? m.key = some m.expected ∧ (m.key, m.actual) ∈ found ∧
        m.expected ≠ m.actual := by
  simp only [ofChecksums, List.mem_filterMap, Prod.exists]
  constructor
  · rintro ⟨key, actual, mem, report⟩
    split at report
    · rename_i state
      obtain rfl := Option.some.inj report
      obtain ⟨known, other⟩ := sourceState_eq_modified_iff.1 state
      exact ⟨known, mem, other⟩
    · cases report
  · rintro ⟨known, mem, other⟩
    refine ⟨m.key, m.actual, mem, ?_⟩
    rw [sourceState_eq_modified_iff.2 ⟨known, other⟩]

/-- The keys that a report lists are found once each or are removed. -/
theorem nodup_listed (distinct : (found.map Prod.fst).Nodup) :
    ((ofChecksums recorded found).added ++ (ofChecksums recorded found).removed ++
      (ofChecksums recorded found).modified.map ModifiedFile.key).Nodup := by
  have keys : ∀ {f : String × UInt32 → Option String}, (∀ e k, f e = some k → e.1 = k) →
      (found.filterMap f).Nodup := by
    intro f here
    refine List.Pairwise.filterMap _ ?_ (List.pairwise_map.1 distinct)
    intro a b apart k hk j hj same
    exact apart ((here a k hk).trans (same.trans (here b j hj).symm))
  have added : (ofChecksums recorded found).added.Nodup := keys fun e k h => by
    simp only [Option.ite_none_right_eq_some, Option.some.injEq] at h
    exact h.2
  have modified : ((ofChecksums recorded found).modified.map ModifiedFile.key).Nodup := by
    simp only [ofChecksums, List.map_filterMap]
    refine keys fun e k h => ?_
    obtain ⟨m, report, rfl⟩ := Option.map_eq_some_iff.1 h
    split at report
    · obtain rfl := Option.some.inj report
      rfl
    · cases report
  have removed : (ofChecksums recorded found).removed.Nodup := recorded.nodup_keys.filter _
  refine List.nodup_append.2 ⟨List.nodup_append.2 ⟨added, removed, ?_⟩, modified, ?_⟩
  · rintro a ha b hb rfl
    exact (mem_removed_iff.1 hb).2 (mem_added_iff.1 ha).1
  · rintro a ha b hb rfl
    obtain ⟨m, hm, rfl⟩ := List.mem_map.1 hb
    obtain ⟨known, here, -⟩ := mem_modified_iff.1 hm
    rcases List.mem_append.1 ha with ha | ha
    · rw [(mem_added_iff.1 ha).2] at known
      cases known
    · exact (mem_removed_iff.1 ha).2 ⟨_, here⟩

/-- What is counted as unchanged was found with the checksum that is recorded. -/
theorem unchanged_eq_ncard (distinct : (found.map Prod.fst).Nodup) :
    (ofChecksums recorded found).unchanged =
      {key | ∃ x, recorded.get? key = some x ∧ (key, x) ∈ found}.ncard := by
  let same := found.filter fun e => sourceState recorded e.1 e.2 == .unchanged
  have keys : {key | ∃ x, recorded.get? key = some x ∧ (key, x) ∈ found} =
      ((same.map Prod.fst).toFinset : Set String) := by
    ext key
    simp only [Set.mem_ofPred_eq, List.coe_toFinset, List.mem_map, same, List.mem_filter,
      beq_iff_eq, sourceState_eq_unchanged_iff, Prod.exists, exists_and_right, exists_eq_right]
    exact exists_congr fun x => and_comm
  have once : (same.map Prod.fst).Nodup :=
    (List.Sublist.map Prod.fst List.filter_sublist).nodup distinct
  rw [keys, Set.ncard_coe_finset, List.toFinset_card_of_nodup once, List.length_map]
  exact List.countP_eq_length_filter

/-- A key whose checksum is recorded as it is found is in none of the groups. -/
theorem notMem_listed (distinct : (found.map Prod.fst).Nodup) {key : String} {x : UInt32}
    (known : recorded.get? key = some x) (here : (key, x) ∈ found) :
    key ∉ (ofChecksums recorded found).added ++ (ofChecksums recorded found).removed ++
      (ofChecksums recorded found).modified.map ModifiedFile.key := by
  intro mem
  rcases List.mem_append.1 mem with mem | mem
  · rcases List.mem_append.1 mem with mem | mem
    · rw [(mem_added_iff.1 mem).2] at known
      cases known
    · exact (mem_removed_iff.1 mem).2 ⟨x, here⟩
  · obtain ⟨m, hm, rfl⟩ := List.mem_map.1 mem
    obtain ⟨expected, actual, other⟩ := mem_modified_iff.1 hm
    have one : m.actual = x := by
      have first := KeyMap.get?_ofList distinct m.key m.actual |>.2 actual
      have second := KeyMap.get?_ofList distinct m.key x |>.2 here
      exact Option.some.inj (first.symm.trans second)
    exact other (Option.some.inj (expected.symm.trans (one ▸ known)))

/-- A report finds no difference exactly if its three lists are empty. -/
theorem isStale_eq_false_iff {r : VerifyReport} :
    r.isStale = false ↔ r.added = [] ∧ r.removed = [] ∧ r.modified = [] := by
  simp [isStale, and_assoc]

/-- Checksums are stale unless those that are recorded are those that are found. -/
theorem isStale_ofChecksums_eq_false_iff :
    (ofChecksums recorded found).isStale = false ↔
      ∀ key x, recorded.get? key = some x ↔ (key, x) ∈ found := by
  rw [isStale_eq_false_iff]
  simp only [List.eq_nil_iff_forall_not_mem, mem_added_iff, mem_removed_iff, mem_modified_iff]
  constructor
  · rintro ⟨added, removed, modified⟩ key x
    constructor
    · intro known
      by_contra missing
      obtain ⟨y, here⟩ : ∃ y, (key, y) ∈ found := by
        by_contra none
        exact removed key ⟨⟨x, known⟩, none⟩
      have other : x ≠ y := fun same => missing (same ▸ here)
      exact modified ⟨key, x, y⟩ ⟨known, here, other⟩
    · intro here
      cases known : recorded.get? key with
      | none => exact absurd ⟨⟨x, here⟩, known⟩ (added key)
      | some y =>
        by_contra other
        exact modified ⟨key, y, x⟩ ⟨known, here, fun same => other (congrArg some same)⟩
  · intro same
    refine ⟨?_, ?_, ?_⟩
    · rintro key ⟨⟨x, here⟩, unknown⟩
      rw [(same key x).2 here] at unknown
      cases unknown
    · rintro key ⟨⟨x, known⟩, missing⟩
      exact missing ⟨x, (same key x).1 known⟩
    · rintro m ⟨known, here, other⟩
      exact other (Option.some.inj (known.symm.trans ((same m.key m.actual).2 here)))

end VerifyReport

open VerifyReport

/-- Checksums that are recorded and found, each at one key at most, are told apart. -/
theorem isDifference_ofChecksums {recorded : KeyMap UInt32} {found : List (String × UInt32)}
    (distinct : (found.map Prod.fst).Nodup) :
    (ofChecksums recorded found).IsDifference (fun key x => recorded.get? key = some x)
      fun key x => (key, x) ∈ found where
  added key := by
    rw [mem_added_iff]
    simp [Option.eq_none_iff_forall_ne_some]
  removed key := mem_removed_iff
  modified m := mem_modified_iff
  unchanged := unchanged_eq_ncard distinct
  distinct := nodup_listed distinct
  apart := by
    rintro key mem ⟨x, known, here⟩
    exact notMem_listed distinct known here mem
  stale := isStale_ofChecksums_eq_false_iff

/-- A scan of a repository that can be scanned succeeds, and what it records is what the repository
holds. -/
theorem Scannable.scanSources_eq_ok {t : FileTree} {root : String} {place : Location}
    {skipped : List String} (h : Scannable t root place skipped) :
    ∃ notices draft, scanSources t root skipped = (notices, .ok draft) ∧
      ∀ key x, draft.recorded.get? key = some x ↔ HoldsSource t place skipped key x := by
  obtain ⟨found, snapshot, distinct, holds⟩ := h.snapshot_eq_ok
  have recorded := map_scanSources t root skipped
  rw [snapshot] at recorded
  cases scanned : scanSources t root skipped with
  | mk notices result =>
    rw [scanned] at recorded
    cases result with
    | error failure => cases recorded
    | ok draft =>
      refine ⟨notices, draft, rfl, fun key x => ?_⟩
      have same : draft.recorded = KeyMap.ofList found := Except.ok.inj recorded
      rw [same, KeyMap.get?_ofList distinct, holds]

/-- A verification of recorded checksums tells them from what a repository holds. -/
theorem Scannable.verify_eq_ok {t : FileTree} {root : String} {place : Location}
    {skipped : List String} (h : Scannable t root place skipped) (c : Catalog) :
    ∃ report, verify t c root skipped = .ok report ∧
      report.IsDifference (fun key x => c.metadata.checksums.get? key = some x)
        (HoldsSource t place skipped) := by
  obtain ⟨found, snapshot, distinct, holds⟩ := h.snapshot_eq_ok
  refine ⟨ofChecksums c.metadata.checksums found, ?_, ?_⟩
  · rw [verify_eq, snapshot]
    rfl
  · have difference : (ofChecksums c.metadata.checksums found).IsDifference
        (fun key x => c.metadata.checksums.get? key = some x) fun key x => (key, x) ∈ found :=
      isDifference_ofChecksums distinct
    have same : (fun key x => (key, x) ∈ found) = HoldsSource t place skipped := by
      funext key x
      exact propext (holds key x)
    rwa [same] at difference

/--
The catalog of one repository is verified against another one, each below its own root and with the
same directories skipped. The scan and the verification succeed, and the report is the difference of
what the two repositories hold. A repository that is verified against its own catalog is not stale.
-/
theorem verify_isDifference {t t' : FileTree} {root root' : String} {place place' : Location}
    {skipped : List String} (scannable : Scannable t root place skipped)
    (scannable' : Scannable t' root' place' skipped) (time : Option Instant) :
    ∃ notices draft report own, scanSources t root skipped = (notices, .ok draft) ∧
      verify t' (draft.finish time) root' skipped = .ok report ∧
      report.IsDifference (HoldsSource t place skipped) (HoldsSource t' place' skipped) ∧
      verify t (draft.finish time) root skipped = .ok own ∧ own.isStale = false := by
  obtain ⟨notices, draft, scanned, recorded⟩ := scannable.scanSources_eq_ok
  have same : (fun key x => (draft.finish time).metadata.checksums.get? key = some x) =
      HoldsSource t place skipped := by
    funext key x
    exact propext (recorded key x)
  obtain ⟨report, verified, difference⟩ := scannable'.verify_eq_ok (draft.finish time)
  obtain ⟨own, verifiedOwn, differenceOwn⟩ := scannable.verify_eq_ok (draft.finish time)
  rw [same] at difference differenceOwn
  exact ⟨notices, draft, report, own, scanned, verified, difference, verifiedOwn,
    differenceOwn.stale.2 fun _ _ => Iff.rfl⟩

/-- A repository with a file in a skipped directory that is no text. -/
def beforeEdit : FileTree where
  entries :=
    [(["repo"], .directory), (["repo", "a.sql"], .file (.text "CREATE TABLE a (id INT);")),
      (["repo", "old.sql"], .file (.text "DROP TABLE a;")), (["repo", "sub"], .directory),
      (["repo", "sub", "B.SQL"], .file (.text "")), (["repo", "Target"], .directory),
      (["repo", "Target", "c.sql"], .file .undecodable)]
  workingDirectory := []

/-- The repository with one file changed, one moved and the skipped directory gone. -/
def afterEdit : FileTree where
  entries :=
    [(["repo"], .directory), (["repo", "a.sql"], .file (.text "CREATE TABLE a (id BIGINT);")),
      (["repo", "sub"], .directory), (["repo", "sub", "B.SQL"], .file (.text "")),
      (["repo", "sub", "new.sql"], .file (.text "DROP TABLE a;"))]
  workingDirectory := ["repo"]

/-- Two trees with the same root directory, of which the second one was edited. -/
theorem verify_isDifference_edited :
    Scannable beforeEdit "repo/" ["repo"] standardSkippedDirectories ∧
      Scannable afterEdit "." ["repo"] standardSkippedDirectories ∧
      ∃ notices draft report own,
        scanSources beforeEdit "repo/" standardSkippedDirectories = (notices, .ok draft) ∧
          verify afterEdit (draft.finish none) "." standardSkippedDirectories = .ok report ∧
          report.IsDifference (HoldsSource beforeEdit ["repo"] standardSkippedDirectories)
            (HoldsSource afterEdit ["repo"] standardSkippedDirectories) ∧
          verify beforeEdit (draft.finish none) "repo/" standardSkippedDirectories = .ok own ∧
          own.isStale = false := by
  have before : Scannable beforeEdit "repo/" ["repo"] standardSkippedDirectories := by
    decide +kernel
  have after : Scannable afterEdit "." ["repo"] standardSkippedDirectories := by decide +kernel
  exact ⟨before, after, verify_isDifference before after none⟩

end Rollback

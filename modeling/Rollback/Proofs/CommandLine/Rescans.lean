import Rollback.CommandLine.Run
import Rollback.Proofs.CommandLine.Options
import Rollback.Proofs.Files.Writes
import Rollback.Proofs.Outcomes
import Rollback.Proofs.Repository.Snapshots
import Rollback.Proofs.Schema.CatalogDocuments
import Rollback.Proofs.Schema.StoredComments

/-!
# Verification after a scan

A run that verifies a repository reads the catalog that an earlier run saved. It goes by the skipped
directories of its own settings, and these need not be the ones of the scan: only the command that
scans has an option for them, and the catalog does not keep them.

- `status_scan_eq_zero_iff`: when a scan succeeds, and what it leaves
- `run_verify_eq`: how a verification ends
- `Draft.storable_finish`: a saved catalog is read as it was
- `Rescan`: a scan that succeeds, with a verification after it
- `run_verify_after_scan`: what the verification reports
-/

set_option autoImplicit false

namespace Rollback

open FileTree

/-! ## What is saved -/

/-- Going through sources makes one call for each of them. -/
theorem exists_calls_of_ingestSources {t : FileTree} {draft : Draft} {sources : List SourceFile}
    {total position : Nat} {d : Draft}
    (done : (ingestSources t total position d sources).2 = .ok draft) :
    ∃ calls : List Draft.Call, draft = calls.foldl Draft.call d := by
  induction sources generalizing position d with
  | nil => exact ⟨[], (Except.ok.inj done).symm⟩
  | cons source rest ih =>
    rw [ingestSources] at done
    cases read : t.readSource source.path with
    | error failure =>
      rw [read] at done
      cases done
    | ok text =>
      rw [read] at done
      obtain ⟨calls, eq⟩ := ih done
      exact ⟨.ingest source.key text :: calls, eq⟩

/-- A draft after a scan is a draft after calls. -/
theorem exists_calls_of_scanSources {t : FileTree} {root : String} {skipped : List String}
    {draft : Draft} (scanned : (scanSources t root skipped).2 = .ok draft) :
    ∃ calls, draft = Draft.afterCalls calls := by
  rw [scanSources] at scanned
  cases found : discover t root skipped with
  | error failure =>
    rw [found] at scanned
    cases scanned
  | ok sources =>
    rw [found] at scanned
    exact exists_calls_of_ingestSources scanned

/-- No column of a table has a default. -/
def Table.HasNoDefaults (t : Table) : Prop :=
  ∀ k c, t.columns.get? k = some c → c.defaultValue = none

namespace Table.HasNoDefaults

variable {t : Table}

/-- A declaration records no default. -/
theorem declare (h : HasNoDefaults t) (n : ObjectName) (d : Declaration) :
    HasNoDefaults (t.declare n d) := by
  intro k c found
  rcases get?_declare_cases found with ⟨e, -, rfl⟩ | ⟨-, before, known, rfl⟩
  · -- A declared column keeps the default that it had, and a new one starts without.
    cases known : t.columns.get? k with
    | none => rfl
    | some before => exact h k before known
  · exact h k before known

theorem withColumn (h : HasNoDefaults t) (column : String) (comment : Option String) :
    HasNoDefaults (t.withColumn column fun c => { c with comment }) := by
  intro k c found
  rw [get?_withColumn] at found
  split at found
  · obtain rfl := Option.some.inj found
    show (t.columnOrStub column t.nextOrdinal).defaultValue = none
    rw [columnOrStub]
    cases known : t.column? column with
    | none => rfl
    | some before => exact h _ before known
  · exact h k c found

theorem step (h : HasNoDefaults t) {change : Table → Table} (did : Step change) :
    HasNoDefaults (change t) := by
  cases did with
  | declare n d => exact h.declare n d
  | comment comment written => exact h
  | columnComment column comment written => exact h.withColumn column comment

end Table.HasNoDefaults

/-- Statements give no column a default. -/
theorem Draft.hasNoDefaults_afterCalls (calls : List Call) :
    ∀ k t, (afterCalls calls).catalog.tables.get? k = some t → t.HasNoDefaults :=
  table_induction (fun _ _ _ found => nomatch found) (fun _ _ h => h) (fun _ did _ h => h.step did)
    calls

/-- The counters of a catalog are words. -/
structure Catalog.CountsInWords (c : Catalog) : Prop where
  ordinal : ∀ t ∈ c.tables.values, ∀ column ∈ t.columns.values,
    column.ordinal < Json.Value.wordCount
  totalFiles : c.metadata.totalFiles < Json.Value.wordCount
  totalTables : c.metadata.totalTables < Json.Value.wordCount
  totalViews : c.metadata.totalViews < Json.Value.wordCount
  totalColumns : c.metadata.totalColumns < Json.Value.wordCount

/-- The catalog of a draft can be written, as far as its counters can. -/
theorem Draft.storable_finish {calls : List Call} {time : Option Instant}
    (valid : ∀ instant ∈ time, instant.Valid)
    (counted : ((afterCalls calls).finish time).CountsInWords) :
    ((afterCalls calls).finish time).Storable where
  tables := by
    intro t table c column
    obtain ⟨k, found⟩ := (KeyMap.mem_values_iff _ _).1 table
    obtain ⟨j, inside⟩ := (KeyMap.mem_values_iff _ _).1 column
    have noDefault := hasNoDefaults_afterCalls calls k t found j c inside
    refine ⟨counted.ordinal t table c column, fun v mem => ?_⟩
    rw [noDefault] at mem
    cases mem
  metadata :=
    ⟨valid, counted.totalFiles, counted.totalTables, counted.totalViews, counted.totalColumns⟩

theorem Catalog.load_eq_of_decoded {t : FileTree} {path text : String} {c : Catalog}
    (read : t.readText path = .ok text) (decoded : ofDocument? text = some c) :
    load t path = .ok c := by
  refine bind_eq_ok_iff.2 ⟨text, readSource_eq_ok_iff.2 read, ?_⟩
  rw [decoded]
  rfl

/-- A catalog that can be written is read from the file that it was written to. -/
theorem Catalog.loadIfPresent_eq {t : FileTree} {path : String} {c : Catalog}
    (storable : c.Storable)
    (saved : t.readText path = .ok c.document) : loadIfPresent t path = .ok (some c) := by
  have present : t.contains path = true := by
    obtain ⟨place, located⟩ := readText_eq_ok_iff.1 saved
    rw [contains, located]
  -- The law of documents is about the function with a failure, and a file is read with the other.
  have decoded : ofDocument? c.document = some c := by
    have read := ofDocument_document storable
    rw [ofDocument] at read
    split at read
    · rename_i found
      rw [found, Except.ok.inj read]
    · cases read
  rw [loadIfPresent, if_pos present, load_eq_of_decoded saved decoded]
  rfl

namespace CommandLine

/-! ## Runs -/

variable {i : Invocation} {s : Settings} {root : String} {time : Option Instant} {t t' : FileTree}

/-- A report goes to the standard output in one of two forms and changes nothing else. -/
theorem putReport_apply (json : Bool) (value : Json.Value) (texts : List String) (c : Console) :
    putReport json value texts c =
      (.ok (),
        { c with stdout := c.stdout ++ lines (if json then [value.pretty] else texts) }) := by
  cases json <;> rfl

/-- The end of a scan whose catalog is saved. -/
theorem scan_apply (s : Settings) (root : String) (time : Option Instant) (t : FileTree) :
    scan s root true time t =
      match scanSources t root s.skippedDirectories with
      | (notices, .error failure) => ((notices, .error failure), t)
      | (notices, .ok draft) =>
        match ((draft.finish time).save s.catalogPath t : Except Failure Unit × FileTree) with
        | (.ok (), t') =>
          ((notices, .ok (.ofDraft root (some s.catalogPath) draft, draft.finish time)), t')
        | (.error failure, t') => ((notices, .error failure), t') := by
  unfold scan
  rw [state_bind_apply]
  dsimp only [get, getThe, MonadStateOf.get, StateT.get, pure]
  rcases scanSources t root s.skippedDirectories with ⟨notices, failure | draft⟩
  · rfl
  · dsimp only
    rw [if_pos rfl, state_bind_apply]
    dsimp only [ExceptT.run]
    generalize ((draft.finish time).save s.catalogPath t : Except Failure Unit × FileTree) = saved
    rcases saved with ⟨failure | ⟨⟩, t'⟩
    · rfl
    · rfl

theorem exitCode_ne_zero (category : FailureCategory) : exitCode category ≠ 0 := by
  cases category <;> decide

/-- A run that succeeds ends with zero and what was put out. -/
theorem ofInvocation_eq_of_ok {environment : List (String × String)} {c : Console}
    (ran : runInvocation i environment time ⟨t, "", ""⟩ = (.ok (), c)) :
    RunResult.ofInvocation i environment time t = ⟨0, c.stdout, c.stderr, c.files⟩ := by
  have result : (runInvocation i environment time).run ⟨t, "", ""⟩ = (.ok (), c) := ran
  rw [RunResult.ofInvocation, result]

/-- A run that fails ends with the code of its failure and a message after what was put out. -/
theorem ofInvocation_eq_of_error {environment : List (String × String)} {c : Console}
    {failure : Failure}
    (ran : runInvocation i environment time ⟨t, "", ""⟩ = (.error failure, c)) :
    RunResult.ofInvocation i environment time t =
      if i.json then
        ⟨exitCode failure.category, c.stdout ++ lines [(failureJson failure).pretty], c.stderr,
          c.files⟩
      else
        ⟨exitCode failure.category, c.stdout, c.stderr ++ lines (failureLines failure),
          c.files⟩ := by
  have result : (runInvocation i environment time).run ⟨t, "", ""⟩ = (.error failure, c) := ran
  rw [RunResult.ofInvocation, result]

/-- Once the settings are loaded, the command decides. -/
theorem runInvocation_eq {environment : List (String × String)} (time : Option Instant)
    (c : Console) (loaded : Settings.load c.files i.configPath environment i.overrides = .ok s) :
    runInvocation i environment time c = runCommand i s time c :=
  Work.bind_eq_of_ok (congrArg (·, c) loaded)

/-- What a scan puts out about its progress. -/
def progressText (i : Invocation) (notices : List ScanNotice) : String :=
  if !(i.json || i.quiet) then lines (notices.map noticeLine) else ""

theorem runScan_eq (c : Console) {notices : List ScanNotice}
    {result : Except Failure (ScanReport × Catalog)}
    (scanned : scan s root true time c.files = ((notices, result), t')) :
    runScan i s root true time c =
      match result with
      | .error failure =>
        (.error failure, { c with files := t', stdout := c.stdout ++ progressText i notices })
      | .ok (report, _) =>
        putReport i.json report.toJson (scanLines report)
          { c with files := t', stdout := c.stdout ++ progressText i notices } := by
  have ran : (scan s root true time).run c.files = ((notices, result), t') := scanned
  have got : (get : ConsoleWork Console) c = (.ok c, c) := rfl
  unfold runScan
  rw [Work.bind_eq_of_ok got, ran, progressText]
  dsimp only
  cases !(i.json || i.quiet) with
  | true => cases result <;> rfl
  | false =>
    have silent : (c.stdout ++ if false = true then lines (notices.map noticeLine) else "") =
        c.stdout := String.append_empty
    rw [silent]
    cases result <;> rfl

theorem runVerify_eq {report : VerifyReport} {catalog : Catalog} (c : Console)
    (found : Catalog.loadIfPresent c.files s.catalogPath = .ok (some catalog))
    (verified : verify c.files catalog root s.skippedDirectories = .ok report) :
    runVerify i s root c = (report.requireFresh,
      { c with
        stdout := c.stdout ++
          lines (if i.json then [report.toJson.pretty] else verifyLines report) }) := by
  have required : requireCatalog s c = (.ok catalog, c) :=
    Work.bind_eq_of_ok (congrArg (·, c) found)
  unfold runVerify
  have compared : ofFiles (fun t => verify t catalog root s.skippedDirectories) c =
      (.ok report, c) := congrArg (·, c) verified
  rw [Work.bind_eq_of_ok required, Work.bind_eq_of_ok compared,
    Work.bind_eq_of_ok (putReport_apply _ _ _ _)]
  rfl

/-- A scan that finds its sources and can save its catalog leaves the files that saving leaves. -/
theorem runScan_saved {c : Console} {notices : List ScanNotice} {draft : Draft}
    (sources : scanSources c.files root s.skippedDirectories = (notices, .ok draft))
    (saved : (draft.finish time).save s.catalogPath c.files = (.ok (), t')) :
    ∃ c', runScan i s root true time c = (.ok (), c') ∧ c'.files = t' := by
  have saved : ((draft.finish time).save s.catalogPath c.files : Except Failure Unit × FileTree) =
      (.ok (), t') := saved
  have scanned := scan_apply s root time c.files
  rw [sources] at scanned
  dsimp only at scanned
  rw [saved] at scanned
  exact ⟨_, (runScan_eq c scanned).trans (putReport_apply _ _ _ _), rfl⟩

/-- A scan that succeeds has found its sources and saved its catalog. -/
theorem exists_saved_of_runScan {c c' : Console}
    (ran : runScan i s root true time c = (.ok (), c')) :
    ∃ notices draft, scanSources c.files root s.skippedDirectories = (notices, .ok draft) ∧
      (draft.finish time).save s.catalogPath c.files = (.ok (), c'.files) := by
  have scanned := scan_apply s root time c.files
  rcases sources : scanSources c.files root s.skippedDirectories with ⟨notices, failure | draft⟩
  · rw [sources] at scanned
    rw [runScan_eq c scanned] at ran
    cases (Prod.mk.inj ran).1
  · rw [sources] at scanned
    dsimp only at scanned
    rcases saved : ((draft.finish time).save s.catalogPath c.files :
      Except Failure Unit × FileTree) with ⟨failure | ⟨⟩, t'⟩
    · rw [saved] at scanned
      rw [runScan_eq c scanned] at ran
      cases (Prod.mk.inj ran).1
    · obtain ⟨c'', shown, rfl⟩ := runScan_saved (i := i) sources saved
      rw [shown] at ran
      obtain ⟨-, rfl⟩ := Prod.mk.inj ran
      exact ⟨notices, draft, rfl, saved⟩

/-- A scan succeeds if there are settings, all sources are read and the catalog is saved. -/
theorem status_scan_eq_zero_iff {environment : List (String × String)}
    (scans : i.command = .scan root true) :
    (RunResult.ofInvocation i environment time t).status = 0 ∧
        (RunResult.ofInvocation i environment time t).files = t' ↔
      ∃ s notices draft, Settings.load t i.configPath environment i.overrides = .ok s ∧
        scanSources t root s.skippedDirectories = (notices, .ok draft) ∧
          (draft.finish time).save s.catalogPath t = (.ok (), t') := by
  -- Every failure ends with a code other than zero, so none of the ways to one is taken.
  have failed : ∀ {failure : Failure} {c : Console},
      runInvocation i environment time ⟨t, "", ""⟩ = (.error failure, c) →
        (RunResult.ofInvocation i environment time t).status ≠ 0 := by
    intro failure c ran
    rw [ofInvocation_eq_of_error ran]
    split <;> exact exitCode_ne_zero _
  have commanded : ∀ s, runCommand i s time = runScan i s root true time := by
    intro s
    rw [runCommand, scans]
  constructor
  · rintro ⟨status, files⟩
    cases loaded : Settings.load t i.configPath environment i.overrides with
    | error failure =>
      have ran : runInvocation i environment time ⟨t, "", ""⟩ = (.error failure, ⟨t, "", ""⟩) :=
        Work.bind_eq_error_iff.2 (.inl (congrArg (·, _) loaded))
      exact absurd status (failed ran)
    | ok s =>
      have ran := runInvocation_eq time ⟨t, "", ""⟩ loaded
      rw [commanded] at ran
      rcases result : (runScan i s root true time ⟨t, "", ""⟩ : Except Failure Unit × Console)
        with ⟨failure | ⟨⟩, c⟩
      · exact absurd status (failed (ran.trans result))
      · rw [ofInvocation_eq_of_ok (ran.trans result)] at files
        obtain rfl : c.files = t' := files
        obtain ⟨notices, draft, sources, saved⟩ := exists_saved_of_runScan result
        exact ⟨s, notices, draft, rfl, sources, saved⟩
  · rintro ⟨s, notices, draft, loaded, sources, saved⟩
    have ran := runInvocation_eq time ⟨t, "", ""⟩ loaded
    obtain ⟨c, scanned, files⟩ := runScan_saved (i := i) (c := ⟨t, "", ""⟩) sources saved
    rw [commanded, scanned] at ran
    rw [ofInvocation_eq_of_ok ran]
    exact ⟨rfl, files⟩

/-- The end of a verification with a report. -/
def RunResult.ofReport (json : Bool) (report : VerifyReport) (files : FileTree) : RunResult :=
  let shown := lines (if json then [report.toJson.pretty] else verifyLines report)
  match report.requireFresh with
  | .ok () => ⟨0, shown, "", files⟩
  | .error failure =>
    if json then
      ⟨exitCode failure.category, shown ++ lines [(failureJson failure).pretty], "", files⟩
    else ⟨exitCode failure.category, shown, lines (failureLines failure), files⟩

/-- The status tells whether the report finds a difference. -/
theorem RunResult.status_ofReport (json : Bool) (report : VerifyReport) (files : FileTree) :
    (RunResult.ofReport json report files).status = if report.isStale then 6 else 0 := by
  rw [RunResult.ofReport, VerifyReport.requireFresh]
  cases report.isStale <;> cases json <;> rfl

/-- A verification ends with its report. -/
theorem run_verify_eq {environment : List (String × String)} (verifies : i.command = .verify root)
    (loaded : Settings.load t i.configPath environment i.overrides = .ok s) {catalog : Catalog}
    (found : Catalog.loadIfPresent t s.catalogPath = .ok (some catalog)) {report : VerifyReport}
    (verified : verify t catalog root s.skippedDirectories = .ok report) :
    RunResult.ofInvocation i environment time t = .ofReport i.json report t := by
  have ran := runInvocation_eq time ⟨t, "", ""⟩ loaded
  have commanded : runCommand i s time = runVerify i s root := by
    rw [runCommand, verifies]
  rw [commanded, runVerify_eq ⟨t, "", ""⟩ found verified] at ran
  rw [RunResult.ofReport]
  cases fresh : report.requireFresh with
  | ok u =>
    rw [fresh] at ran
    rw [ofInvocation_eq_of_ok ran]
    simp
  | error failure =>
    rw [fresh] at ran
    rw [ofInvocation_eq_of_error ran]
    simp

/-! ## Settings of both runs -/

/-- What is said about skipped directories changes nothing else of the settings. -/
theorem load_withSkipped {configPath : Option String} {environment : List (String × String)}
    {layer : SettingsLayer}
    (loaded : Settings.load t configPath environment { layer with skippedDirectories := none } =
      .ok s) :
    Settings.load t configPath environment layer =
      .ok { s with
        skippedDirectories := layer.skippedDirectories.getD s.skippedDirectories } := by
  obtain ⟨document, read, loaded⟩ := bind_eq_ok_iff.1 loaded
  refine bind_eq_ok_iff.2 ⟨document, read, ?_⟩
  dsimp only at loaded ⊢
  split at loaded
  · cases loaded
  · rename_i clean
    obtain rfl := Except.ok.inj loaded
    exact if_neg clean

/-- A scan that succeeds and a verification of the same repository after it. Both have the same
configuration, environment and place of the catalog, and the catalog is no source. -/
structure Rescan (words words' : List String) (environment : List (String × String))
    (time : Option Instant) (t : FileTree) (root : String) (place : Location) (i j : Invocation)
    (s : Settings) : Prop where
  scanWords : Invocation.ofWords words = .ok i
  scans : i.command = .scan root true
  succeeds : (run words environment time t).status = 0
  verifyWords : Invocation.ofWords words' = .ok j
  verifies : j.command = .verify root
  sameConfigPath : j.configPath = i.configPath
  sameCatalogPath : j.overrides.catalogPath = i.overrides.catalogPath
  /-- The settings apart from the skipped directories that the scan was told. -/
  configured : Settings.load t i.configPath environment
    { i.overrides with skippedDirectories := none } = .ok s
  sameDocument : SettingsLayer.ofFile (run words environment time t).files i.configPath =
    SettingsLayer.ofFile t i.configPath
  wellFormed : t.WellFormed
  scannable : Scannable (run words environment time t).files root place s.skippedDirectories
  noSource : ∀ names entry,
    (run words environment time t).files.locate s.catalogPath = .ok (place ++ names, entry) →
      isSource s.skippedDirectories names = false
  valid : ∀ instant ∈ time, instant.Valid
  counted : ∀ draft, (scanSources t root
    (i.overrides.skippedDirectories.getD s.skippedDirectories)).2 = .ok draft →
      (draft.finish time).CountsInWords

namespace Rescan

variable {words words' : List String} {environment : List (String × String)} {place : Location}
  {j : Invocation}

/-- What the scan leaves: the catalog of its sources, saved to its path. -/
theorem exists_saved (h : Rescan words words' environment time t root place i j s) :
    ∃ notices draft,
      scanSources t root (i.overrides.skippedDirectories.getD s.skippedDirectories) =
        (notices, .ok draft) ∧
      (draft.finish time).save s.catalogPath t =
        (.ok (), (run words environment time t).files) := by
  have ran : run words environment time t = .ofInvocation i environment time t := by
    rw [run, h.scanWords]
  have status := h.succeeds
  rw [ran] at status ⊢
  obtain ⟨s', notices, draft, loaded, scanned, saved⟩ :=
    (status_scan_eq_zero_iff h.scans).1 ⟨status, rfl⟩
  rw [load_withSkipped h.configured] at loaded
  obtain rfl := Except.ok.inj loaded
  exact ⟨notices, draft, scanned, saved⟩

/-- The settings of the verification. -/
theorem load_eq (h : Rescan words words' environment time t root place i j s) :
    Settings.load (run words environment time t).files j.configPath environment j.overrides =
      .ok s := by
  obtain ⟨catalogPath, skippedDirectories, overrides⟩ := overrides_scan h.scanWords h.scans
  obtain ⟨catalogPath', overrides'⟩ := overrides_verify h.verifyWords h.verifies
  have same : j.overrides = { i.overrides with skippedDirectories := none } := by
    have path := h.sameCatalogPath
    rw [overrides, overrides'] at path ⊢
    obtain rfl : catalogPath' = catalogPath := path
    rfl
  rw [same, h.sameConfigPath, ← h.configured, Settings.load, Settings.load, h.sameDocument]

/-- Saving the catalog leaves the sources as they are. -/
theorem isSourceText_iff (h : Rescan words words' environment time t root place i j s)
    {names : List String} {text : String} :
    IsSourceText (run words environment time t).files place s.skippedDirectories names text ↔
      IsSourceText t place s.skippedDirectories names text := by
  refine and_congr_left fun source => ?_
  obtain ⟨notices, draft, -, saved⟩ := h.exists_saved
  obtain ⟨made, directories, written⟩ := FileWork.writeWithParents_eq_ok_iff.1 saved
  obtain ⟨directory, name, written⟩ := write_eq_ok written
  -- The only file that was written is the catalog, and that is no source.
  have other : place ++ names ≠ directory ++ [name] := by
    intro same
    have located := written.locate_eq
    rw [← same] at located
    rw [h.noSource names _ located] at source
    cases source
  rw [written.entry?_eq, if_neg other]
  exact (addsDirectories_makeDirectories directories).entry?_file_iff

/-- The scan goes through the sources below the same place. -/
theorem scannable_before (h : Rescan words words' environment time t root place i j s) :
    Scannable t root place (i.overrides.skippedDirectories.getD s.skippedDirectories) := by
  obtain ⟨notices, draft, scanned, saved⟩ := h.exists_saved
  have recorded := map_scanSources t root
    (i.overrides.skippedDirectories.getD s.skippedDirectories)
  rw [scanned] at recorded
  cases found : snapshot t root (i.overrides.skippedDirectories.getD s.skippedDirectories) with
  | error failure =>
    rw [found] at recorded
    cases recorded
  | ok found' =>
    obtain ⟨place', before⟩ := exists_scannable h.wellFormed found
    obtain ⟨made, directories, written⟩ := FileWork.writeWithParents_eq_ok_iff.1 saved
    obtain ⟨directory, name, written⟩ := write_eq_ok written
    have adds := addsDirectories_makeDirectories directories
    have kept : ∀ q, t.entry? q = some .directory →
        FileTree.entry? (run words environment time t).files q = some .directory :=
      fun q here => written.keeps (adds.keeps here)
    have located := directoryAt_eq_ok_iff.1 before.located
    have there := locate_mono (written.workingDirectory.trans adds.workingDirectory) kept located
      (kept _ (locate_eq_ok_iff.1 located).2.2)
    rw [directoryAt_eq_ok_iff.1 h.scannable.located] at there
    obtain ⟨rfl, -⟩ := Prod.mk.inj (Except.ok.inj there)
    exact before

/-- The verification reports how the sources that it goes through differ from those of the scan. -/
theorem exists_report (h : Rescan words words' environment time t root place i j s)
    (time' : Option Instant) :
    ∃ report, run words' environment time' (run words environment time t).files =
        .ofReport j.json report (run words environment time t).files ∧
      report.IsDifference
        (HoldsSource t place (i.overrides.skippedDirectories.getD s.skippedDirectories))
        (HoldsSource t place s.skippedDirectories) := by
  obtain ⟨notices, draft, scanned, saved⟩ := h.exists_saved
  obtain ⟨notices', draft', scanned', recorded⟩ := h.scannable_before.scanSources_eq_ok
  rw [scanned] at scanned'
  obtain ⟨rfl, same⟩ := Prod.mk.inj scanned'
  obtain rfl := Except.ok.inj same
  obtain ⟨calls, rfl⟩ := exists_calls_of_scanSources (congrArg Prod.snd scanned)
  have storable := Draft.storable_finish h.valid (h.counted _ (congrArg Prod.snd scanned))
  obtain ⟨made, directories, written⟩ := FileWork.writeWithParents_eq_ok_iff.1 saved
  have found := Catalog.loadIfPresent_eq storable (readText_write written)
  obtain ⟨report, verified, difference⟩ :=
    h.scannable.verify_eq_ok ((Draft.afterCalls calls).finish time)
  refine ⟨report, ?_, ?_⟩
  · rw [run, h.verifyWords]
    exact run_verify_eq h.verifies h.load_eq found verified
  · have before : (fun key x =>
        ((Draft.afterCalls calls).finish time).metadata.checksums.get? key = some x) =
          HoldsSource t place (i.overrides.skippedDirectories.getD s.skippedDirectories) := by
      funext key x
      exact propext (recorded key x)
    have after : HoldsSource (run words environment time t).files place s.skippedDirectories =
        HoldsSource t place s.skippedDirectories := by
      funext key x
      exact propext (exists_congr fun names => exists_congr fun text =>
        and_congr_left' h.isSourceText_iff)
    rwa [before, after] at difference

end Rescan

/--
What a verification reports after a scan, when nothing but the catalog was written in between. No
source is reported as modified. The ones that only the verification goes through are reported as
added, and the ones that only the scan went through as removed, although all of them are there as
they were. The run succeeds if both go through the same sources, so whenever the scan was not told
which directories are skipped; otherwise it ends like one that finds a stale catalog.
-/
theorem run_verify_after_scan {words words' : List String} {environment : List (String × String)}
    {place : Location} {j : Invocation}
    (h : Rescan words words' environment time t root place i j s) (time' : Option Instant) :
    ∃ report, run words' environment time' (run words environment time t).files =
        .ofReport j.json report (run words environment time t).files ∧
      report.modified = [] ∧
      (∀ key, key ∈ report.added ↔ ∃ names text,
        IsSourceText t place s.skippedDirectories names text ∧
          isSource (i.overrides.skippedDirectories.getD s.skippedDirectories) names = false ∧
            key = Text.join "/" names) ∧
      (∀ key, key ∈ report.removed ↔ ∃ names text,
        IsSourceText t place (i.overrides.skippedDirectories.getD s.skippedDirectories) names text ∧
          isSource s.skippedDirectories names = false ∧ key = Text.join "/" names) ∧
      ((run words' environment time' (run words environment time t).files).status =
        if report.added = [] ∧ report.removed = [] then 0 else 6) ∧
      (i.overrides.skippedDirectories = none → report.added = [] ∧ report.removed = []) := by
  obtain ⟨report, ends, difference⟩ := h.exists_report time'
  have added := fun key => (difference.added key).trans (HoldsSource.only_iff h.wellFormed)
  have removed := fun key => (difference.removed key).trans (HoldsSource.only_iff h.wellFormed)
  have modified : report.modified = [] := by
    refine List.eq_nil_iff_forall_not_mem.2 fun m mem => ?_
    obtain ⟨expected, actual, apart⟩ := (difference.modified m).1 mem
    exact apart (expected.unique h.wellFormed actual)
  refine ⟨report, ends, modified, added, removed, ?_, ?_⟩
  · rw [ends, RunResult.status_ofReport, VerifyReport.isStale, modified]
    cases report.added <;> cases report.removed <;> rfl
  · intro untold
    rw [untold] at added removed
    constructor
    · refine List.eq_nil_iff_forall_not_mem.2 fun key mem => ?_
      obtain ⟨names, text, source, skipped, -⟩ := (added key).1 mem
      rw [Option.getD_none, source.2] at skipped
      cases skipped
    · refine List.eq_nil_iff_forall_not_mem.2 fun key mem => ?_
      obtain ⟨names, text, source, skipped, -⟩ := (removed key).1 mem
      rw [Option.getD_none] at source
      rw [source.2] at skipped
      cases skipped

/-- A repository whose only source is in a directory that is skipped by default. -/
def repositoryWithBuild : FileTree :=
  ⟨[(["build"], .directory), (["build", "a.sql"], .file (.text "CREATE TABLE t (id INT);"))], []⟩

/-- The draft that a scan of that source makes. -/
def draftWithBuild : Draft :=
  (Draft.empty.ingest "build/a.sql" "CREATE TABLE t (id INT);").1

/-- The repository with the catalog of that draft. -/
def repositoryWithCatalog : FileTree :=
  ⟨repositoryWithBuild.entries ++ [([".rewind"], .directory),
    ([".rewind", "catalog.json"], .file (.text (draftWithBuild.finish none).document))], []⟩

/-- A scan that skips another directory instead. -/
def scanWithBuild : Invocation :=
  ⟨none, { SettingsLayer.empty with skippedDirectories := some ["old"] }, false, false,
    .scan "." true⟩

/-- The words stand for a scan that leaves out one directory. -/
theorem ofWords_scanWithBuild :
    Invocation.ofWords ["scan", ".", "--skip-dirs", "old"] = .ok scanWithBuild := by
  have read : readWords (generalForms ++ scanForms) .path .nothing [".", "--skip-dirs", "old"] =
      .ok (⟨[("skip-dirs", ["old"])], ["."]⟩, []) := by decide +kernel
  have commanded : commandOf "scan" ⟨[("skip-dirs", ["old"])], ["."]⟩ = .ok (.scan "." true) := rfl
  exact ofWords_cons rfl rfl read commanded

/-- A verification. -/
def verificationWithBuild : Invocation :=
  ⟨none, .empty, false, false, .verify "."⟩

theorem ofWords_verificationWithBuild :
    Invocation.ofWords ["verify", "."] = .ok verificationWithBuild := by
  have read : readWords (generalForms ++ []) .path .nothing ["."] =
      .ok (⟨[], ["."]⟩, []) := by decide +kernel
  have commanded : commandOf "verify" ⟨[], ["."]⟩ = .ok (.verify ".") := rfl
  exact ofWords_cons rfl rfl read commanded

theorem scanSources_withBuild :
    ∃ notices, scanSources repositoryWithBuild "." ["old"] = (notices, .ok draftWithBuild) := by
  have scannable : Scannable repositoryWithBuild "." [] ["old"] := by decide +kernel
  have sources : (repositoryWithBuild.filesUnder []).filter (isSource ["old"]) =
      [["build", "a.sql"]] := by decide +kernel
  have ways : Scannable.waysToSources repositoryWithBuild [] ["old"] = [["build", "a.sql"]] := by
    rw [Scannable.waysToSources, sources, List.mergeSort_singleton]
  rw [scanSources, scannable.discover_eq_ok, ways]
  exact ⟨_, rfl⟩

/-- The scan succeeds and leaves a catalog beside the sources. -/
theorem run_scan_withBuild :
    (run ["scan", ".", "--skip-dirs", "old"] [] none repositoryWithBuild).status = 0 ∧
      (run ["scan", ".", "--skip-dirs", "old"] [] none repositoryWithBuild).files =
        repositoryWithCatalog := by
  rw [run, ofWords_scanWithBuild]
  obtain ⟨notices, scanned⟩ := scanSources_withBuild
  exact (status_scan_eq_zero_iff rfl).2
    ⟨{ Settings.standard with skippedDirectories := ["old"] }, notices, draftWithBuild, rfl,
      scanned, rfl⟩

/-- Both command lines are about the same repository, with other directories left out. -/
theorem rescan_withBuild :
    Rescan ["scan", ".", "--skip-dirs", "old"] ["verify", "."] [] none repositoryWithBuild "." []
      scanWithBuild verificationWithBuild .standard := by
  obtain ⟨succeeds, files⟩ := run_scan_withBuild
  obtain ⟨notices, scanned⟩ := scanSources_withBuild
  exact {
    scanWords := ofWords_scanWithBuild
    scans := rfl
    succeeds := succeeds
    verifyWords := ofWords_verificationWithBuild
    verifies := rfl
    sameConfigPath := rfl
    sameCatalogPath := rfl
    configured := rfl
    sameDocument := by
      rw [files]
      rfl
    wellFormed := by decide +kernel
    scannable := by
      rw [files]
      decide +kernel
    noSource := by
      rw [files]
      intro names entry located
      have there : repositoryWithCatalog.locate Settings.standard.catalogPath =
          .ok ([".rewind", "catalog.json"],
            .file (.text (draftWithBuild.finish none).document)) := rfl
      rw [there] at located
      obtain ⟨rfl, -⟩ := Prod.mk.inj (Except.ok.inj located)
      decide +kernel
    valid := by rintro instant ⟨⟩
    counted := by
      intro draft found
      have found : (scanSources repositoryWithBuild "." ["old"]).2 = .ok draft := found
      rw [scanned] at found
      obtain rfl := Except.ok.inj found
      exact ⟨by decide +kernel, by decide +kernel, by decide +kernel, by decide +kernel,
        by decide +kernel⟩ }

/-- A source in a directory that only the scan goes through is reported as removed. -/
theorem run_verify_after_scan_withBuild :
    Rescan ["scan", ".", "--skip-dirs", "old"] ["verify", "."] [] none repositoryWithBuild "." []
        scanWithBuild verificationWithBuild .standard ∧
      ∃ report, "build/a.sql" ∈ report.removed ∧ report.modified = [] ∧
        run ["verify", "."] [] none
          (run ["scan", ".", "--skip-dirs", "old"] [] none repositoryWithBuild).files =
            .ofReport false report
              (run ["scan", ".", "--skip-dirs", "old"] [] none repositoryWithBuild).files := by
  obtain ⟨report, ends, modified, -, removed, -⟩ := run_verify_after_scan rescan_withBuild none
  refine ⟨rescan_withBuild, report, (removed _).2 ?_, modified, ends⟩
  exact ⟨["build", "a.sql"], "CREATE TABLE t (id INT);", ⟨rfl, by decide +kernel⟩,
    by decide +kernel, by decide +kernel⟩

/-- A verification fails right after a scan that succeeds, as the scan went through a directory that
the verification skips. -/
theorem status_verify_withBuild :
    (run ["scan", ".", "--skip-dirs", "old"] [] none repositoryWithBuild).status = 0 ∧
      (run ["verify", "."] [] none
        (run ["scan", ".", "--skip-dirs", "old"] [] none repositoryWithBuild).files).status =
          6 := by
  refine ⟨rescan_withBuild.succeeds, ?_⟩
  obtain ⟨report, ends, difference⟩ := rescan_withBuild.exists_report none
  have removed : "build/a.sql" ∈ report.removed := by
    refine ((difference.removed _).trans (HoldsSource.only_iff rescan_withBuild.wellFormed)).2 ?_
    exact ⟨["build", "a.sql"], "CREATE TABLE t (id INT);", ⟨rfl, by decide +kernel⟩,
      by decide +kernel, by decide +kernel⟩
  have stale : report.isStale = true := by
    rw [VerifyReport.isStale]
    cases listed : report.removed with
    | nil =>
      rw [listed] at removed
      cases removed
    | cons key rest => simp
  rw [ends, RunResult.status_ofReport, stale]
  rfl

end CommandLine

end Rollback

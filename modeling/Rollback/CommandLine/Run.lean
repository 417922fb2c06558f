import Rollback.CommandLine.Invocation
import Rollback.CommandLine.Texts
import Rollback.Json.Printer
import Rollback.Repository.CatalogFile
import Rollback.Settings.Load

/-!
# Runs

What the program does for a command line: its output, its exit status and its changes of files.

- `run`: a whole run, as a function of the words, the environment, the time and the files
-/

set_option autoImplicit false

namespace Rollback.CommandLine

/-- The files and what was put out so far. -/
structure Console where
  files : FileTree
  stdout : String
  stderr : String

/-- Work that may put out texts and change files, and may fail after that. -/
abbrev ConsoleWork := ExceptT Failure (StateM Console)

/-- Puts out a text. -/
def putText (text : String) : ConsoleWork Unit :=
  modify fun c => { c with stdout := c.stdout ++ text }

/-- Puts out lines. -/
def putLines (texts : List String) : ConsoleWork Unit :=
  putText (lines texts)

/-- Puts out lines that are not part of the result. -/
def putErrorLines (texts : List String) : ConsoleWork Unit :=
  modify fun c => { c with stderr := c.stderr ++ lines texts }

/-- Puts out a value for programs. -/
def putJson (value : Json.Value) : ConsoleWork Unit :=
  putLines [value.pretty]

/-- Work on the files. -/
def onFiles {α : Type} (work : FileWork α) : ConsoleWork α := fun c =>
  let (result, files) := work.run c.files
  (result, { c with files })

/-- What the files say. -/
def ofFiles {α : Type} (read : FileTree → Except Failure α) : ConsoleWork α :=
  onFiles (FileWork.look read)

/-- Goes on only if a check holds. -/
def require (check : Except Failure Unit) : ConsoleWork Unit :=
  ofFiles fun _ => check

/-- Puts out a report for programs or for people. -/
def putReport (json : Bool) (value : Json.Value) (texts : List String) : ConsoleWork Unit :=
  if json then putJson value else putLines texts

/-- The catalog of the settings, which must be there. -/
def requireCatalog (s : Settings) : ConsoleWork Catalog := do
  match ← ofFiles fun t => Catalog.loadIfPresent t s.catalogPath with
  | some c => return c
  | none => throw (.noCatalogAt s.catalogPath)

/-- What a scan says on the way is put out before its result, also if it fails in the end. -/
def runScan (i : Invocation) (s : Settings) (root : String) (save : Bool)
    (time : Option Instant) : ConsoleWork Unit := do
  let console ← get
  let ((notices, result), files) := (scan s root save time).run console.files
  set { console with files }
  if !(i.json || i.quiet) then putLines (notices.map noticeLine)
  let (report, _) ← ofFiles fun _ => result
  putReport i.json report.toJson (scanLines report)

/-- Puts out a rollback, with its script if that was not written to files. -/
def putRollback (i : Invocation) (report : RollbackReport) (showScript : Bool) :
    ConsoleWork Unit := do
  if i.json then putJson report.toJson
  else
    putText (rollbackText report showScript)
    putErrorLines (rollbackSummary report)

/-- Reverses a deployment. A rollback that is not complete fails only if that is asked for, and only
after it was put out. -/
def runReverseDeployment (i : Invocation) (s : Settings) (source : DeploymentSource)
    (targets : RollbackTargets) (useCatalog strict : Bool) : ConsoleWork Unit := do
  let catalog ←
    if useCatalog then ofFiles fun t => Catalog.loadIfPresent t s.catalogPath else pure none
  let report ← onFiles (reverseDeployment s catalog source targets)
  putRollback i report (targets.script.isNone && targets.directory.isNone)
  if strict then require report.requireComplete

/-- Drops what a catalog holds, so there must be one. -/
def runReverseCatalog (i : Invocation) (s : Settings) (script : Option String) :
    ConsoleWork Unit := do
  let catalog ← requireCatalog s
  let report ← onFiles (reverseCatalog s catalog script)
  putRollback i report script.isNone

/-- Tells what the statements of some files are recognized as. -/
def runClassify (i : Invocation) (paths : List String) : ConsoleWork Unit := do
  let report ← ofFiles fun t => classify t paths
  putReport i.json report.toJson (classifyLines report)

/-- Shows a whole catalog, or one table or view of it. -/
def runInspect (i : Invocation) (s : Settings) (name : Option String) : ConsoleWork Unit := do
  let catalog ← requireCatalog s
  let inspection ← ofFiles fun _ => inspect catalog name
  putReport i.json inspection.toJson (inspectionLines inspection)

/-- Compares a repository with its catalog; a difference is a failure after the report. -/
def runVerify (i : Invocation) (s : Settings) (root : String) : ConsoleWork Unit := do
  let catalog ← requireCatalog s
  let report ← ofFiles fun t => verify t catalog root s.skippedDirectories
  putReport i.json report.toJson (verifyLines report)
  require report.requireFresh

/-- Runs a command with the settings in effect. -/
def runCommand (i : Invocation) (s : Settings) (time : Option Instant) : ConsoleWork Unit :=
  match i.command with
  | .scan root save => runScan i s root save time
  | .reverse .catalog targets _ _ => runReverseCatalog i s targets.script
  | .reverse .nothing _ _ _ => throw .nothingToReverse
  | .reverse (.deployment source) targets useCatalog strict =>
    runReverseDeployment i s source targets useCatalog strict
  | .classify paths => runClassify i paths
  | .inspect name => runInspect i s name
  | .verify root => runVerify i s root

/-- Runs what a command line asks for. -/
def runInvocation (i : Invocation) (environment : List (String × String))
    (time : Option Instant) : ConsoleWork Unit := do
  let s ← ofFiles fun t => Settings.load t i.configPath environment i.overrides
  runCommand i s time

/-- The end of a run. -/
structure RunResult where
  status : Nat
  stdout : String
  stderr : String
  files : FileTree

/-- The end of a run that a command line does not lead to. -/
def RunResult.ofRefusal (files : FileTree) : Refusal → RunResult
  | .usage => ⟨2, "", lines ["error: the arguments are not valid", "", usage], files⟩
  | .help => ⟨0, lines helpLines, "", files⟩
  | .version => ⟨0, lines ["rewind"], "", files⟩

/-- The end of a run that does what a command line asks for. -/
def RunResult.ofInvocation (i : Invocation) (environment : List (String × String))
    (time : Option Instant) (files : FileTree) : RunResult :=
  let (result, console) := (runInvocation i environment time).run ⟨files, "", ""⟩
  match result with
  | .ok () => ⟨0, console.stdout, console.stderr, console.files⟩
  | .error failure =>
    let code := exitCode failure.category
    if i.json then
      ⟨code, console.stdout ++ lines [(failureJson failure).pretty], console.stderr, console.files⟩
    else ⟨code, console.stdout, console.stderr ++ lines (failureLines failure), console.files⟩

/-- A run of the program. -/
def run (words : List String) (environment : List (String × String)) (time : Option Instant)
    (files : FileTree) : RunResult :=
  match Invocation.ofWords words with
  | .ok i => .ofInvocation i environment time files
  | .error refusal => .ofRefusal files refusal

end Rollback.CommandLine

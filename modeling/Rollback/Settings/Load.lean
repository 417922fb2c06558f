import Rollback.Settings.Document

/-!
# Loading of settings

Settings come from four places: the standard ones, a document, variables of the environment, and
overrides. The later ones count more.

- `SettingsLayer.ofEnvironment`: the settings that variables give
- `Settings.load`: the settings of a run
-/

set_option autoImplicit false

namespace Rollback

/-- The document that is read if no other is named. -/
def standardConfigPath : String := "rewind.toml"

/-- The parts of a comma-separated list without blanks around them and without empty ones. -/
def listOf (text : String) : List String :=
  (((Text.pieces ',' text.toList).map Text.trim).filter fun part => !part.isEmpty).map
    String.ofList

/-- The truth value that a word stands for. -/
def flagOf? (text : String) : Option Bool :=
  let word := text.trimBlanks.lowerCase
  if ["1", "true", "yes", "on"].contains word then some true
  else if ["0", "false", "no", "off"].contains word then some false
  else none

namespace SettingsLayer

/-- The settings that variables give; a variable that is no truth value is passed over. -/
def ofEnvironment (environment : List (String × String)) : SettingsLayer where
  catalogPath := environment.lookup "REWIND_CATALOG"
  skippedDirectories := (environment.lookup "REWIND_SKIP_DIRS").map listOf
  filePrefix := environment.lookup "REWIND_ROLLBACK_PREFIX"
  annotate := (environment.lookup "REWIND_ANNOTATE").bind flagOf?
  storage := none
  distribution := none
  placementGroup := none

/-- The settings of the document at a path, which may be missing if it is not named. -/
def ofFile (t : FileTree) (path : Option String) : Except Failure SettingsLayer :=
  let used := path.getD standardConfigPath
  match t.readText used, path with
  | .ok text, _ =>
    match ofDocument? text with
    | some layer => .ok layer
    | none => .error (.malformedConfig used)
  | .error _, some _ => .error (.configNotFound used)
  | .error _, none => .ok .empty

end SettingsLayer

/-- Whether a text has a character that separates the components of paths. -/
def hasSeparator (text : String) : Bool :=
  text.toList.any fun c => c == '/' || c == '\\'

/-- The settings of a run. -/
def Settings.load (t : FileTree) (path : Option String) (environment : List (String × String))
    (overrides : SettingsLayer) : Except Failure Settings := do
  let document ← SettingsLayer.ofFile t path
  let s := ((Settings.standard.overlay document).overlay
    (.ofEnvironment environment)).overlay overrides
  if hasSeparator s.style.filePrefix then .error (.separatorInPrefix s.style.filePrefix)
  else return s

end Rollback

import Rollback.Settings.Basic
import Rollback.Toml.Document

/-!
# Settings documents

The settings that a document gives. Entries that mean nothing here are passed over, but the others
must have the right type.

- `SettingsLayer.ofDocument?`: the settings of a document
- `Settings.overlay`: the settings with those of a layer put over them
-/

set_option autoImplicit false

namespace Rollback

open Toml (Item Entries)

/-- Settings that may be absent. -/
structure SettingsLayer where
  catalogPath : Option String
  skippedDirectories : Option (List String)
  filePrefix : Option String
  annotate : Option Bool
  storage : Option String
  distribution : Option Distribution
  placementGroup : Option String

/-- A layer that sets nothing. -/
def SettingsLayer.empty : SettingsLayer := ⟨none, none, none, none, none, none, none⟩

instance : Inhabited SettingsLayer := ⟨.empty⟩

/-- The settings with those of a layer put over them. -/
def Settings.overlay (s : Settings) (layer : SettingsLayer) : Settings where
  catalogPath := layer.catalogPath.getD s.catalogPath
  skippedDirectories := layer.skippedDirectories.getD s.skippedDirectories
  style := ⟨layer.filePrefix.getD s.style.filePrefix, layer.annotate.getD s.style.annotate⟩
  defaults :=
    ⟨layer.storage <|> s.defaults.storage, layer.distribution <|> s.defaults.distribution,
      layer.placementGroup <|> s.defaults.placementGroup⟩

namespace Toml

/-- A text. -/
def Item.text? : Item → Option String
  | .string s => some s
  | _ => none

/-- A truth value. -/
def Item.bool? : Item → Option Bool
  | .bool b => some b
  | _ => none

/-- A list of texts. -/
def Item.texts? : Item → Option (List String)
  | .array items => items.mapM Item.text?
  | _ => none

/-- An entry that may be missing, but must be readable. -/
def optional? {α : Type} (read : Item → Option α) : Option Item → Option (Option α)
  | none => some none
  | some item => (read item).map some

/--
The items of a section, one for each name, missing ones included. A section is a table, or an array
with an item for each name. A time counts as a section that sets nothing.
-/
def sectionItems? (names : List String) : Option Item → Option (List (Option Item))
  | none => some (names.map fun _ => none)
  | some .time => some (names.map fun _ => none)
  | some (.table _ entries) => some (names.map fun name => entries.lookup name)
  | some (.inline entries) => some (names.map fun name => entries.lookup name)
  | some (.array items) =>
    if items.length < names.length then none else some ((items.take names.length).map some)
  | some (.tables elements) =>
    if elements.length < names.length then none
    else some ((elements.take names.length).map fun entries => some (.table .header entries))
  | some _ => none

end Toml

namespace SettingsLayer

open Toml

/-- The settings among the entries of a document; an unknown distribution is passed over. -/
def ofEntries? (entries : Entries) : Option SettingsLayer := do
  let [path] ← sectionItems? ["path"] (entries.lookup "catalog") | none
  let [skipped] ← sectionItems? ["skip_dirs"] (entries.lookup "scan") | none
  let [filePrefix, annotate] ←
    sectionItems? ["rollback_prefix", "annotate"] (entries.lookup "reverse") | none
  let [storage, distribution, group] ←
    sectionItems? ["default_storage_options", "default_distribution", "default_placement_group"]
      (entries.lookup "reconstruct") | none
  return {
    catalogPath := ← optional? Item.text? path
    skippedDirectories := ← optional? Item.texts? skipped
    filePrefix := ← optional? Item.text? filePrefix
    annotate := ← optional? Item.bool? annotate
    storage := ← optional? Item.text? storage
    distribution := (← optional? Item.text? distribution).bind Distribution.ofText?
    placementGroup := ← optional? Item.text? group }

/-- The settings of a document. -/
def ofDocument? (text : String) : Option SettingsLayer := do
  ofEntries? (← Entries.ofText? text)

end SettingsLayer

end Rollback

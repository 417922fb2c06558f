import Rollback.Json.Decoding
import Rollback.Schema.Catalog

/-!
# Catalogs from JSON

Reading of catalog documents. Most fields may be missing, and some have a second name.

- `Catalog.ofDocument?`: the catalog of a document
-/

set_option autoImplicit false

namespace Rollback

open Json (Node)

/-- Nested values of a column default, within a document of at most 127 levels. -/
def defaultValueDepth : Nat := 122

/-- The way to choose a node that a word names. -/
def DistributionKind.ofName? : String → Option DistributionKind
  | "hash" => some .hash
  | "roundrobin" => some .roundRobin
  | "round_robin" => some .roundRobin
  | "random" => some .random
  | _ => none

/-- A way to choose a node is a word, or an object with a null behind that word. -/
def DistributionKind.ofNode? : Node → Option DistributionKind
  | .string s => s.bind ofName?
  | .object [(name, .null)] => name.bind ofName?
  | _ => none

/-- A map with values of one kind. -/
def KeyMap.ofNode? {α : Type} (decode : Node → Option α) (node : Node) : Option (KeyMap α) :=
  (node.entries? decode).map KeyMap.ofList

/-- A distribution has a type; its columns may be missing. -/
def Distribution.ofNode? (node : Node) : Option Distribution := do
  match ← node.record? [["type"], ["columns"]] with
  | [some kind, columns] =>
    return ⟨← DistributionKind.ofNode? kind, ← Node.orElse? [] (Node.list? Node.text?) columns⟩
  | _ => none

/-- Storage options, of which the clause or the map may be missing. -/
def StorageOptions.ofNode? (node : Node) : Option StorageOptions := do
  match ← node.record? [["raw"], ["options"]] with
  | [raw, options] =>
    return ⟨← Node.orElse? "" Node.text? raw,
      ← Node.orElse? ∅ (KeyMap.ofNode? Node.text?) options⟩
  | _ => none

/-- A text that may be missing or null. -/
def optionalText? (node : Option Node) : Option (Option String) :=
  Node.orElse? none (Node.nullable? Node.text?) node

/-- A column, of which every field may be missing; its type has a second name. -/
def Column.ofNode? (node : Node) : Option Column := do
  match ← node.record?
      [["name"], ["type", "dataType"], ["comment"], ["ordinal"], ["default"], ["primaryKey"],
        ["unique"], ["autoIncrement"]] with
  | [name, dataType, comment, ordinal, defaultValue, primaryKey, unique, autoIncrement] =>
    return {
      name := ← Node.orElse? "" Node.text? name
      dataType := ← Node.orElse? "" Node.text? dataType
      comment := ← optionalText? comment
      ordinal := ← Node.orElse? 0 (Node.natural? Json.maxWord) ordinal
      defaultValue :=
        ← Node.orElse? none (Node.nullable? (Node.value? defaultValueDepth)) defaultValue
      isPrimaryKey := ← Node.orElse? false Node.bool? primaryKey
      isUnique := ← Node.orElse? false Node.bool? unique
      isAutoIncrement := ← Node.orElse? false Node.bool? autoIncrement }
  | _ => none

/-- A table, of which every field may be missing. -/
def Table.ofNode? (node : Node) : Option Table := do
  match ← node.record?
      [["name"], ["fullName"], ["schema"], ["columns"], ["sourceFiles"], ["comment"],
        ["distribution"], ["withClause"], ["toGroup"]] with
  | [name, fullName, schema, columns, sources, comment, distribution, storage, group] =>
    return {
      name := ← Node.orElse? "" Node.text? name
      fullName := ← Node.orElse? "" Node.text? fullName
      schema := ← optionalText? schema
      columns := ← Node.orElse? ∅ (KeyMap.ofNode? Column.ofNode?) columns
      sources := ← Node.orElse? [] (Node.list? Node.text?) sources
      comment := ← optionalText? comment
      distribution := ← Node.orElse? none (Node.nullable? Distribution.ofNode?) distribution
      storage := ← Node.orElse? none (Node.nullable? StorageOptions.ofNode?) storage
      placementGroup := ← optionalText? group }
  | _ => none

/-- A view, of which every field may be missing. -/
def View.ofNode? (node : Node) : Option View := do
  match ← node.record?
      [["name"], ["fullName"], ["schema"], ["definition"], ["sourceFiles"]] with
  | [name, fullName, schema, definition, sources] =>
    return {
      name := ← Node.orElse? "" Node.text? name
      fullName := ← Node.orElse? "" Node.text? fullName
      schema := ← optionalText? schema
      definition := ← Node.orElse? "" Node.text? definition
      sources := ← Node.orElse? [] (Node.list? Node.text?) sources }
  | _ => none

/-- An instant in the text of a document. -/
def Instant.ofNode? (node : Node) : Option Instant := do
  Instant.ofText? (← node.text?)

/-- A checksum of 32 bits. -/
def checksum? (node : Node) : Option UInt32 :=
  (node.natural? 0xFFFFFFFF).map UInt32.ofNat

/-- A counter that may be missing. -/
def counter? (node : Option Node) : Option Nat :=
  Node.orElse? 0 (Node.natural? Json.maxWord) node

/-- Metadata, of which every field may be missing. -/
def Metadata.ofNode? (node : Node) : Option Metadata := do
  match ← node.record?
      [["parsedAt"], ["totalFiles"], ["totalTables"], ["totalViews"], ["totalColumns"],
        ["checksums"]] with
  | [parsedAt, files, tables, views, columns, checksums] =>
    return {
      parsedAt := ← Node.orElse? none (Node.nullable? Instant.ofNode?) parsedAt
      totalFiles := ← counter? files
      totalTables := ← counter? tables
      totalViews := ← counter? views
      totalColumns := ← counter? columns
      checksums := ← Node.orElse? ∅ (KeyMap.ofNode? checksum?) checksums }
  | _ => none

namespace Catalog

/-- A catalog; what is missing is empty. -/
def ofNode? (node : Node) : Option Catalog := do
  match ← node.record? [["tables"], ["views"], ["metadata"]] with
  | [tables, views, metadata] =>
    return {
      tables := ← Node.orElse? ∅ (KeyMap.ofNode? Table.ofNode?) tables
      views := ← Node.orElse? ∅ (KeyMap.ofNode? View.ofNode?) views
      metadata := ← Node.orElse? .empty Metadata.ofNode? metadata }
  | _ => none

/-- The catalog of a document. -/
def ofDocument? (text : String) : Option Catalog := do
  ofNode? (← Node.parse? text)

/-- The catalog of a document, or the reason that there is none. -/
def ofDocument (text : String) : Except Failure Catalog :=
  match ofDocument? text with
  | some c => .ok c
  | none => .error (.malformedCatalog none)

end Catalog

end Rollback

import Rollback.Proofs.Json.Records
import Rollback.Proofs.Time.InstantTexts
import Rollback.Schema.Decoding
import Rollback.Schema.Encoding

/-!
# Documents of catalogs

A catalog is read from its document as it was written, although fields that say nothing are left out
of it. Whatever a document leaves out or spells in another way, the catalog that it is read as has a
document of its own that is kept.

- `Catalog.Storable`: catalogs whose counters, defaults and time can be written
- `Column.ofNode?_toJson`, `Table.ofNode?_toJson`, `Metadata.ofNode?_toJson`: parts of a catalog
- `Catalog.ofDocument_document`: a catalog is read from its document
- `Catalog.storable_of_ofDocument`: a catalog that was read can be written
- `Catalog.document_roundTrip`: documents of catalogs are kept
-/

set_option autoImplicit false

namespace Rollback

open Json

/-! ## What can be written -/

/-- A column whose position is a word and whose default is a value other than null that is kept. -/
structure Column.Storable (c : Column) : Prop where
  ordinal : c.ordinal < Value.wordCount
  defaultValue : ∀ v ∈ c.defaultValue, v ≠ .null ∧ v.Storable defaultValueDepth

/-- A table all of whose columns can be written. -/
def Table.Storable (t : Table) : Prop :=
  ∀ c ∈ t.columns.values, c.Storable

/-- Metadata with a time that is counted and with totals that are words. -/
structure Metadata.Storable (m : Metadata) : Prop where
  parsedAt : ∀ t ∈ m.parsedAt, t.Valid
  totalFiles : m.totalFiles < Value.wordCount
  totalTables : m.totalTables < Value.wordCount
  totalViews : m.totalViews < Value.wordCount
  totalColumns : m.totalColumns < Value.wordCount

/-- A catalog that can be written. Its texts and keys may hold any characters. -/
structure Catalog.Storable (c : Catalog) : Prop where
  tables : ∀ t ∈ c.tables.values, t.Storable
  metadata : c.metadata.Storable

/-- A catalog whose columns have no defaults that hold doubles. -/
def Catalog.HasPlainDefaults (c : Catalog) : Prop :=
  ∀ t ∈ c.tables.values, ∀ column ∈ t.columns.values, ∀ v ∈ column.defaultValue, v.isPlain = true

/-! ## Fields -/

section Fields

variable {α : Type} {decode : Node → Option α} {encode : α → Value}

/-- A field with a value is read from that value, whatever its default. -/
theorem orElse?_some (default : α) {v : Value} {a : α} (h : decode v.node = some a) :
    Node.orElse? default decode ((some v).map Value.node) = some a :=
  h

/-- A field that is left out when there is no value. -/
theorem orElse?_left_out {o : Option α}
    (h : ∀ a ∈ o, decode (encode a).node = some a ∧ (encode a).node ≠ .null) :
    Node.orElse? none (Node.nullable? decode) ((o.map encode).map Value.node) = some o := by
  cases o with
  | none => rfl
  | some a => exact nullable?_of_ne_null (h a rfl).1 (h a rfl).2

/-- A field that is null when there is no value. -/
theorem nullable?_orNull {o : Option α}
    (h : ∀ a ∈ o, decode (encode a).node = some a ∧ (encode a).node ≠ .null) :
    Node.nullable? decode (Value.orNull encode o).node = some o := by
  cases o with
  | none => rfl
  | some a => exact nullable?_of_ne_null (h a rfl).1 (h a rfl).2

theorem orElse?_string (default s : String) :
    Node.orElse? default Node.text? ((some (Value.string s)).map Value.node) = some s := rfl

/-- An absent text that is left out is read as absent. -/
theorem optionalText?_left_out (o : Option String) :
    optionalText? ((o.map Value.string).map Value.node) = some o :=
  orElse?_left_out fun _ _ => ⟨rfl, by rintro ⟨⟩⟩

theorem optionalText?_orNull (o : Option String) :
    optionalText? ((some (Value.orNull .string o)).map Value.node) = some o :=
  nullable?_orNull fun _ _ => ⟨rfl, by rintro ⟨⟩⟩

theorem orElse?_strings (default items : List String) :
    Node.orElse? default (Node.list? Node.text?) ((some (Value.strings items)).map Value.node) =
      some items :=
  list?_strings items

/-- A field that is left out when it is false. -/
theorem orElse?_false (b : Bool) :
    Node.orElse? false Node.bool? ((if b then some (Value.bool true) else none).map Value.node) =
      some b := by
  cases b <;> rfl

/-- A counter of 64 bits is read as it is. -/
theorem counter?_counter {n : Nat} (h : n < Value.wordCount) :
    counter? ((some (Value.counter n)).map Value.node) = some n :=
  natural?_counter h (Nat.le_of_lt_succ h)

/-- A map is read from the object of its entries. -/
theorem KeyMap.ofNode?_toJson {m : KeyMap α} (h : ∀ a ∈ m.values, decode (encode a).node = some a) :
    KeyMap.ofNode? decode (m.toJson encode).node = some m := by
  have entries : (m.toJson encode).node.entries? decode = some m.entries :=
    entries?_node fun e mem => h e.2 (List.mem_map_of_mem mem)
  rw [KeyMap.ofNode?, entries, Option.map_some, KeyMap.ofList_entries]

/-- A field that may be left out is one with an optional value. -/
theorem fieldIf_eq (name : String) (o : Option α) :
    fieldIf name encode o = presentFields [(name, o.map encode)] := by
  cases o <;> rfl

/-- A flag that may be left out is a field with an optional value. -/
theorem fieldIfTrue_eq (name : String) (b : Bool) :
    fieldIfTrue name b = presentFields [(name, if b then some (.bool true) else none)] := by
  cases b <;> rfl

theorem presentFields_append (before after : List (String × Option Value)) :
    presentFields (before ++ after) = presentFields before ++ presentFields after :=
  List.filterMap_append

end Fields

theorem text?_string (s : String) : Node.text? (Value.string s).node = some s := rfl

/-! ## Clauses -/

theorem DistributionKind.ofNode?_name (k : DistributionKind) :
    ofNode? (Value.string k.name).node = some k := by
  cases k <;> rfl

theorem Distribution.ofNode?_toJson (d : Distribution) : ofNode? d.toJson.node = some d := by
  have fields : d.toJson = .object (presentFields
      [("type", some (.string d.kind.name)), ("columns", some (.strings d.columns))]) := rfl
  have columns : Node.orElse? [] (Node.list? Node.text?) (some (Value.strings d.columns).node) =
      some d.columns := list?_strings d.columns
  rw [ofNode?, fields, record?_presentFields (by rfl)]
  simp only [Option.bind_eq_bind, Option.bind_some, List.map_cons, List.map_nil, Option.map_some,
    DistributionKind.ofNode?_name, columns]
  rfl

theorem StorageOptions.ofNode?_toJson (s : StorageOptions) : ofNode? s.toJson.node = some s := by
  have fields : s.toJson = .object (presentFields
      [("raw", some (.string s.raw)), ("options", some (s.options.toJson .string))]) := rfl
  have options : KeyMap.ofNode? Node.text? (s.options.toJson .string).node = some s.options :=
    KeyMap.ofNode?_toJson fun _ _ => rfl
  rw [ofNode?, fields, record?_presentFields (by rfl)]
  simp only [Option.bind_eq_bind, Option.bind_some, List.map_cons, List.map_nil, orElse?_string,
    orElse?_some _ options]
  rfl

/-! ## Tables and views -/

/-- The default of a column is read from its value. -/
theorem Column.Storable.value?_default {c : Column} (h : c.Storable) :
    Node.orElse? none (Node.nullable? (Node.value? defaultValueDepth))
      ((c.defaultValue.map (·)).map Value.node) = some c.defaultValue := by
  refine orElse?_left_out fun v mem => ?_
  obtain ⟨other, kept⟩ := h.defaultValue v mem
  have read := value?_node kept
  refine ⟨read, fun null => other ?_⟩
  rw [null] at read
  exact (Option.some.inj read).symm

/-- A column is read from its object as it was, if its default can be stored. -/
theorem Column.ofNode?_toJson {c : Column} (h : c.Storable) : ofNode? c.toJson.node = some c := by
  -- What is left out becomes an absent value, so that the record has all of its fields again.
  have fields : c.toJson = .object (presentFields
      ([("name", some (.string c.name)), ("type", some (.string c.dataType))] ++
        [("comment", c.comment.map .string)] ++ [("ordinal", some (.counter c.ordinal))] ++
        [("default", c.defaultValue.map (·))] ++
        [("primaryKey", if c.isPrimaryKey then some (.bool true) else none)] ++
        [("unique", if c.isUnique then some (.bool true) else none)] ++
        [("autoIncrement", if c.isAutoIncrement then some (.bool true) else none)])) := by
    rw [toJson, fieldIf_eq, fieldIf_eq, fieldIfTrue_eq, fieldIfTrue_eq, fieldIfTrue_eq]
    simp only [presentFields_append]
    rfl
  have ordinal : Node.natural? maxWord (Value.counter c.ordinal).node = some c.ordinal :=
    natural?_counter h.ordinal (Nat.le_of_lt_succ h.ordinal)
  rw [ofNode?, fields, record?_presentFields (by rfl)]
  simp only [Option.bind_eq_bind, Option.bind_some, List.cons_append, List.nil_append,
    List.map_cons, List.map_nil, orElse?_string, optionalText?_left_out, orElse?_some _ ordinal,
    h.value?_default, orElse?_false]
  rfl

/-- A table is read from its object as it was, if its columns can be stored. -/
theorem Table.ofNode?_toJson {t : Table} (h : t.Storable) : ofNode? t.toJson.node = some t := by
  have fields : t.toJson = .object (presentFields
      ([("name", some (.string t.name)), ("fullName", some (.string t.fullName)),
          ("schema", some (.orNull .string t.schema)),
          ("columns", some (t.columns.toJson Column.toJson)),
          ("sourceFiles", some (.strings t.sources))] ++ [("comment", t.comment.map .string)] ++
        [("distribution", t.distribution.map Distribution.toJson)] ++
        [("withClause", t.storage.map StorageOptions.toJson)] ++
        [("toGroup", t.placementGroup.map .string)])) := by
    rw [toJson, Table.fields, fieldIf_eq, fieldIf_eq, fieldIf_eq, fieldIf_eq]
    simp only [presentFields_append]
    rfl
  have columns : KeyMap.ofNode? Column.ofNode? (t.columns.toJson Column.toJson).node =
      some t.columns :=
    KeyMap.ofNode?_toJson fun c mem => Column.ofNode?_toJson (h c mem)
  have distribution := orElse?_left_out (o := t.distribution) fun d _ =>
    ⟨Distribution.ofNode?_toJson d, by rintro ⟨⟩⟩
  have storage := orElse?_left_out (o := t.storage) fun s _ =>
    ⟨StorageOptions.ofNode?_toJson s, by rintro ⟨⟩⟩
  rw [ofNode?, fields, record?_presentFields (by rfl)]
  simp only [Option.bind_eq_bind, Option.bind_some, List.cons_append, List.nil_append,
    List.map_cons, List.map_nil, orElse?_string, optionalText?_orNull, orElse?_some _ columns,
    orElse?_strings, optionalText?_left_out, distribution, storage]
  rfl

theorem View.ofNode?_toJson (v : View) : ofNode? v.toJson.node = some v := by
  have fields : v.toJson = .object (presentFields
      [("name", some (.string v.name)), ("fullName", some (.string v.fullName)),
        ("schema", some (.orNull .string v.schema)), ("definition", some (.string v.definition)),
        ("sourceFiles", some (.strings v.sources))]) := rfl
  rw [ofNode?, fields, record?_presentFields (by rfl)]
  simp only [Option.bind_eq_bind, Option.bind_some, List.map_cons, List.map_nil, orElse?_string,
    optionalText?_orNull, orElse?_strings]
  rfl

/-! ## Metadata -/

theorem checksum?_counter (checksum : UInt32) :
    checksum? (Value.counter checksum.toNat).node = some checksum := by
  have below := checksum.toNat_lt
  have word : checksum.toNat < Value.wordCount := Nat.lt_trans below (by decide)
  rw [checksum?, natural?_counter word (Nat.le_of_lt_succ below), Option.map_some,
    UInt32.ofNat_toNat]

theorem Instant.ofNode?_string {t : Instant} (h : t.Valid) :
    ofNode? (Value.string t.text).node = some t := by
  rw [ofNode?, text?_string, Option.bind_eq_bind, Option.bind_some, ofText?_text h]

theorem Metadata.ofNode?_toJson {m : Metadata} (h : m.Storable) :
    ofNode? m.toJson.node = some m := by
  have fields : m.toJson = .object (presentFields
      [("parsedAt", some (.orNull (fun t => .string t.text) m.parsedAt)),
        ("totalFiles", some (.counter m.totalFiles)),
        ("totalTables", some (.counter m.totalTables)),
        ("totalViews", some (.counter m.totalViews)),
        ("totalColumns", some (.counter m.totalColumns)),
        ("checksums", some (m.checksums.toJson fun checksum => .counter checksum.toNat))]) := rfl
  have parsedAt : Node.nullable? Instant.ofNode?
      (Value.orNull (fun t : Instant => .string t.text) m.parsedAt).node = some m.parsedAt :=
    nullable?_orNull fun t mem => ⟨Instant.ofNode?_string (h.parsedAt t mem), by rintro ⟨⟩⟩
  have checksums : KeyMap.ofNode? checksum?
      (m.checksums.toJson fun checksum => .counter checksum.toNat).node = some m.checksums :=
    KeyMap.ofNode?_toJson fun checksum _ => checksum?_counter checksum
  rw [ofNode?, fields, record?_presentFields (by rfl)]
  simp only [Option.bind_eq_bind, Option.bind_some, List.map_cons, List.map_nil,
    orElse?_some _ parsedAt, counter?_counter h.totalFiles, counter?_counter h.totalTables,
    counter?_counter h.totalViews, counter?_counter h.totalColumns, orElse?_some _ checksums]
  rfl

/-! ## Catalogs -/

theorem Catalog.ofNode?_toJson {c : Catalog} (h : c.Storable) : ofNode? c.toJson.node = some c := by
  have fields : c.toJson = .object (presentFields
      [("tables", some (c.tables.toJson Table.toJson)),
        ("views", some (c.views.toJson View.toJson)), ("metadata", some c.metadata.toJson)]) := rfl
  have tables : KeyMap.ofNode? Table.ofNode? (c.tables.toJson Table.toJson).node = some c.tables :=
    KeyMap.ofNode?_toJson fun t mem => Table.ofNode?_toJson (h.tables t mem)
  have views : KeyMap.ofNode? View.ofNode? (c.views.toJson View.toJson).node = some c.views :=
    KeyMap.ofNode?_toJson fun v _ => View.ofNode?_toJson v
  rw [ofNode?, fields, record?_presentFields (by rfl)]
  simp only [Option.bind_eq_bind, Option.bind_some, List.map_cons, List.map_nil,
    orElse?_some _ tables, orElse?_some _ views,
      orElse?_some _ (Metadata.ofNode?_toJson h.metadata)]
  rfl

/-! ## Documents -/

namespace Json.Value

theorem isPlain_object {fields : List (String × Value)}
    (h : ∀ field ∈ fields, field.2.isPlain = true) :
    (object fields).isPlain = true :=
  (hasPlainFields_iff fields).2 h

@[simp] theorem isPlain_string (s : String) : (string s).isPlain = true := rfl

@[simp] theorem isPlain_counter (n : Nat) : (counter n).isPlain = true := rfl

@[simp] theorem isPlain_strings (items : List String) : (strings items).isPlain = true := by
  refine (arePlain_iff _).2 fun item mem => ?_
  obtain ⟨s, -, rfl⟩ := List.mem_map.1 mem
  rfl

theorem isPlain_orNull {α : Type} {encode : α → Value} {o : Option α}
    (h : ∀ a ∈ o, (encode a).isPlain = true) : (orNull encode o).isPlain = true := by
  cases o with
  | none => rfl
  | some a => exact h a rfl

end Json.Value

theorem KeyMap.isPlain_toJson {α : Type} {encode : α → Value} {m : KeyMap α}
    (h : ∀ a ∈ m.values, (encode a).isPlain = true) : (m.toJson encode).isPlain = true := by
  refine Value.isPlain_object fun field mem => ?_
  obtain ⟨e, inside, rfl⟩ := List.mem_map.1 mem
  exact h e.2 (List.mem_map_of_mem inside)

theorem forall_mem_fieldIf {α : Type} {name : String} {encode : α → Value} {o : Option α}
    (h : ∀ a ∈ o, (encode a).isPlain = true) :
    ∀ field ∈ fieldIf name encode o, field.2.isPlain = true := by
  cases o with
  | none => exact List.forall_mem_nil _
  | some a => exact List.forall_mem_singleton.2 (h a rfl)

theorem forall_mem_fieldIfTrue (name : String) (b : Bool) :
    ∀ field ∈ fieldIfTrue name b, field.2.isPlain = true := by
  cases b with
  | false => exact List.forall_mem_nil _
  | true => exact List.forall_mem_singleton.2 rfl

/-- The default of a column is all that can hold a double. -/
theorem Column.isPlain_toJson {c : Column} (h : ∀ v ∈ c.defaultValue, v.isPlain = true) :
    c.toJson.isPlain = true := by
  refine Value.isPlain_object ?_
  simp only [List.forall_mem_append]
  refine ⟨⟨⟨⟨⟨⟨?_, ?_⟩, ?_⟩, ?_⟩, ?_⟩, ?_⟩, ?_⟩
  · simp
  · exact forall_mem_fieldIf fun _ _ => rfl
  · simp
  · exact forall_mem_fieldIf h
  · exact forall_mem_fieldIfTrue _ _
  · exact forall_mem_fieldIfTrue _ _
  · exact forall_mem_fieldIfTrue _ _

theorem StorageOptions.isPlain_toJson (s : StorageOptions) : s.toJson.isPlain = true := by
  have options : (s.options.toJson .string).isPlain = true := KeyMap.isPlain_toJson fun _ _ => rfl
  refine Value.isPlain_object ?_
  simp [options]

theorem Distribution.isPlain_toJson (d : Distribution) : d.toJson.isPlain = true := by
  refine Value.isPlain_object ?_
  simp

theorem Table.isPlain_toJson {t : Table}
    (h : ∀ c ∈ t.columns.values, ∀ v ∈ c.defaultValue, v.isPlain = true) :
    t.toJson.isPlain = true := by
  have columns : (t.columns.toJson Column.toJson).isPlain = true :=
    KeyMap.isPlain_toJson fun c mem => Column.isPlain_toJson (h c mem)
  have schema : (Value.orNull .string t.schema).isPlain = true :=
    Value.isPlain_orNull fun _ _ => rfl
  refine Value.isPlain_object ?_
  simp only [Table.fields, List.forall_mem_append]
  refine ⟨⟨⟨⟨?_, ?_⟩, ?_⟩, ?_⟩, ?_⟩
  · simp [columns, schema]
  · exact forall_mem_fieldIf fun _ _ => rfl
  · exact forall_mem_fieldIf fun d _ => d.isPlain_toJson
  · exact forall_mem_fieldIf fun s _ => s.isPlain_toJson
  · exact forall_mem_fieldIf fun _ _ => rfl

theorem View.isPlain_toJson (v : View) : v.toJson.isPlain = true := by
  have schema : (Value.orNull .string v.schema).isPlain = true :=
    Value.isPlain_orNull fun _ _ => rfl
  refine Value.isPlain_object ?_
  simp [View.fields, schema]

theorem Metadata.isPlain_toJson (m : Metadata) : m.toJson.isPlain = true := by
  have checksums : (m.checksums.toJson fun checksum => .counter checksum.toNat).isPlain = true :=
    KeyMap.isPlain_toJson fun _ _ => rfl
  have parsedAt : (Value.orNull (fun t : Instant => .string t.text) m.parsedAt).isPlain = true :=
    Value.isPlain_orNull fun _ _ => rfl
  refine Value.isPlain_object ?_
  simp [checksums, parsedAt]

theorem Catalog.isPlain_toJson {c : Catalog} (h : c.HasPlainDefaults) :
    c.toJson.isPlain = true := by
  have tables : (c.tables.toJson Table.toJson).isPlain = true :=
    KeyMap.isPlain_toJson fun t mem => Table.isPlain_toJson (h t mem)
  have views : (c.views.toJson View.toJson).isPlain = true :=
    KeyMap.isPlain_toJson fun v _ => v.isPlain_toJson
  refine Value.isPlain_object ?_
  simp [tables, views, c.metadata.isPlain_toJson]

/-- Defaults that can be stored hold no doubles. -/
theorem Catalog.Storable.hasPlainDefaults {c : Catalog} (h : c.Storable) : c.HasPlainDefaults :=
  fun t table column mem v found => ((h.tables t table column mem).defaultValue v found).2.isPlain

/-- A catalog is read from its document. -/
theorem Catalog.ofDocument_document {c : Catalog} (h : c.Storable) :
    ofDocument c.document = .ok c := by
  have parsed : Node.parse? c.document = some c.toJson.node :=
    parse?_pretty (isPlain_toJson h.hasPlainDefaults)
  rw [ofDocument, ofDocument?, parsed, Option.bind_eq_bind, Option.bind_some, ofNode?_toJson h]

/-! ## Catalogs that were read -/

/-- The values of a map that was read are readings of parts. -/
theorem KeyMap.exists_of_mem_values {α : Type} {decode : Node → Option α} {part : Option Node}
    {m : KeyMap α} (h : Node.orElse? ∅ (KeyMap.ofNode? decode) part = some m) :
    ∀ a ∈ m.values, ∃ node, decode node = some a := by
  cases part with
  | none =>
    obtain rfl := Option.some.inj h
    exact List.forall_mem_nil _
  | some part =>
    obtain ⟨entries, read, rfl⟩ := Option.map_eq_some_iff.1 h
    intro a mem
    obtain ⟨e, inside, rfl⟩ := List.mem_map.1 mem
    exact exists_of_mem_entries? read e (KeyMap.mem_of_mem_entries_ofList inside)

/-- Something that may be missing or null and was read is the reading of a part that is not null. -/
theorem exists_of_orElse? {α : Type} {decode : Node → Option α} {part : Option Node} {o : Option α}
    (h : Node.orElse? none (Node.nullable? decode) part = some o) :
    ∀ a ∈ o, ∃ node, decode node = some a ∧ node ≠ .null := by
  rintro a rfl
  cases part with
  | none => cases h
  | some part => exact ⟨part, eq_of_nullable? h⟩

/-- Only counters of 64 bits are read. -/
theorem lt_of_counter? {part : Option Node} {n : Nat} (h : counter? part = some n) :
    n < Value.wordCount := by
  cases part with
  | none =>
    obtain rfl := Option.some.inj h
    decide
  | some part => exact Nat.lt_succ_of_le (le_of_natural? h)

/-- A column that was read can be written, if its default holds no doubles. -/
theorem Column.storable_of_ofNode? {node : Node} {c : Column} (h : ofNode? node = some c)
    (plain : ∀ v ∈ c.defaultValue, v.isPlain = true) : c.Storable := by
  obtain ⟨parts, -, h⟩ := Option.bind_eq_some_iff.1 h
  split at h
  · obtain ⟨name, -, h⟩ := Option.bind_eq_some_iff.1 h
    obtain ⟨dataType, -, h⟩ := Option.bind_eq_some_iff.1 h
    obtain ⟨comment, -, h⟩ := Option.bind_eq_some_iff.1 h
    obtain ⟨ordinal, readOrdinal, h⟩ := Option.bind_eq_some_iff.1 h
    obtain ⟨defaultValue, readDefault, h⟩ := Option.bind_eq_some_iff.1 h
    obtain ⟨isPrimaryKey, -, h⟩ := Option.bind_eq_some_iff.1 h
    obtain ⟨isUnique, -, h⟩ := Option.bind_eq_some_iff.1 h
    obtain ⟨isAutoIncrement, -, h⟩ := Option.bind_eq_some_iff.1 h
    obtain rfl := Option.some.inj h
    refine ⟨lt_of_counter? readOrdinal, fun v mem => ?_⟩
    obtain ⟨part, read, notNull⟩ := exists_of_orElse? readDefault v mem
    refine ⟨?_, storable_of_value? part read (plain v mem)⟩
    rintro rfl
    exact notNull (eq_null_of_value? read)
  · cases h

/-- A table that is read can be stored, apart from doubles in its defaults. -/
theorem Table.storable_of_ofNode? {node : Node} {t : Table} (h : ofNode? node = some t)
    (plain : ∀ c ∈ t.columns.values, ∀ v ∈ c.defaultValue, v.isPlain = true) : t.Storable := by
  obtain ⟨parts, -, h⟩ := Option.bind_eq_some_iff.1 h
  split at h
  · obtain ⟨name, -, h⟩ := Option.bind_eq_some_iff.1 h
    obtain ⟨fullName, -, h⟩ := Option.bind_eq_some_iff.1 h
    obtain ⟨schema, -, h⟩ := Option.bind_eq_some_iff.1 h
    obtain ⟨columns, readColumns, h⟩ := Option.bind_eq_some_iff.1 h
    obtain ⟨sources, -, h⟩ := Option.bind_eq_some_iff.1 h
    obtain ⟨comment, -, h⟩ := Option.bind_eq_some_iff.1 h
    obtain ⟨distribution, -, h⟩ := Option.bind_eq_some_iff.1 h
    obtain ⟨storage, -, h⟩ := Option.bind_eq_some_iff.1 h
    obtain ⟨group, -, h⟩ := Option.bind_eq_some_iff.1 h
    obtain rfl := Option.some.inj h
    intro c mem
    obtain ⟨part, read⟩ := KeyMap.exists_of_mem_values readColumns c mem
    exact Column.storable_of_ofNode? read (plain c mem)
  · cases h

/-- Metadata that was read can be written. -/
theorem Metadata.storable_of_ofNode? {node : Node} {m : Metadata} (h : ofNode? node = some m) :
    m.Storable := by
  obtain ⟨parts, -, h⟩ := Option.bind_eq_some_iff.1 h
  split at h
  · obtain ⟨parsedAt, readParsedAt, h⟩ := Option.bind_eq_some_iff.1 h
    obtain ⟨files, readFiles, h⟩ := Option.bind_eq_some_iff.1 h
    obtain ⟨tables, readTables, h⟩ := Option.bind_eq_some_iff.1 h
    obtain ⟨views, readViews, h⟩ := Option.bind_eq_some_iff.1 h
    obtain ⟨columns, readColumns, h⟩ := Option.bind_eq_some_iff.1 h
    obtain ⟨checksums, -, h⟩ := Option.bind_eq_some_iff.1 h
    obtain rfl := Option.some.inj h
    refine ⟨fun t mem => ?_, lt_of_counter? readFiles, lt_of_counter? readTables,
      lt_of_counter? readViews, lt_of_counter? readColumns⟩
    obtain ⟨part, read, -⟩ := exists_of_orElse? readParsedAt t mem
    obtain ⟨text, -, read⟩ := Option.bind_eq_some_iff.1 read
    exact Instant.valid_of_ofText? read
  · cases h

/-- Metadata that was left out is that of no files and can be written as well. -/
theorem Metadata.storable_of_orElse? {part : Option Node} {m : Metadata}
    (h : Node.orElse? .empty ofNode? part = some m) : m.Storable := by
  cases part with
  | none =>
    obtain rfl := Option.some.inj h
    refine ⟨?_, by decide, by decide, by decide, by decide⟩
    rintro t ⟨⟩
  | some part => exact storable_of_ofNode? h

/-- A catalog that is read can be stored, apart from doubles in its defaults. -/
theorem Catalog.storable_of_ofNode? {node : Node} {c : Catalog} (h : ofNode? node = some c)
    (plain : c.HasPlainDefaults) : c.Storable := by
  obtain ⟨parts, -, h⟩ := Option.bind_eq_some_iff.1 h
  split at h
  · obtain ⟨tables, readTables, h⟩ := Option.bind_eq_some_iff.1 h
    obtain ⟨views, -, h⟩ := Option.bind_eq_some_iff.1 h
    obtain ⟨metadata, readMetadata, h⟩ := Option.bind_eq_some_iff.1 h
    obtain rfl := Option.some.inj h
    refine ⟨fun t mem => ?_, Metadata.storable_of_orElse? readMetadata⟩
    obtain ⟨part, read⟩ := KeyMap.exists_of_mem_values readTables t mem
    exact Table.storable_of_ofNode? read (plain t mem)
  · cases h

/-- A catalog that was read can be written, if its defaults hold no doubles. -/
theorem Catalog.storable_of_ofDocument {text : String} {c : Catalog} (h : ofDocument text = .ok c)
    (plain : c.HasPlainDefaults) : c.Storable := by
  unfold ofDocument at h
  split at h
  · rename_i read
    obtain rfl := Except.ok.inj h
    obtain ⟨node, -, read⟩ := Option.bind_eq_some_iff.1 read
    exact storable_of_ofNode? read plain
  · cases h

/-- A catalog that can be written is read from its document as it was. The document of a catalog
that was read from any document, whichever names it used and whatever it left out or had besides, is
the document of the catalog that is read from it. -/
theorem Catalog.document_roundTrip :
    (∀ c : Catalog, c.Storable → ofDocument c.document = .ok c) ∧
      ∀ (text : String) (c : Catalog), ofDocument text = .ok c → c.HasPlainDefaults →
        (ofDocument c.document).map document = .ok c.document := by
  refine ⟨fun c h => ofDocument_document h, fun text c read plain => ?_⟩
  rw [ofDocument_document (storable_of_ofDocument read plain)]
  rfl

/-- A document with an unknown field, with second names of a field and of a word and with a leap
second at an offset, in which most fields are left out. -/
def sparseDocument : String :=
  "\x7b\"tables\": \x7b\"s.t\": \x7b\"columns\": \x7b\"a\": \x7b\"dataType\": \"INT\", " ++
    "\"note\": 1.5, " ++
    "\"default\": [7, \x7b\"y\": \"\\u0007\", \"x\": null\x7d]\x7d\x7d, " ++
    "\"distribution\": \x7b\"type\": \"round_robin\"\x7d\x7d\x7d, " ++
    "\"metadata\": \x7b\"parsedAt\": \"2024-02-29t23:59:60.5+01:00\"\x7d\x7d"

/-- The catalog that the document stands for. -/
def sparseCatalog : Catalog :=
  let column : Column :=
    { Column.declared "" "INT" 0 with
      defaultValue := some (.array [.number (.integer 7),
        .object [("x", .null), ("y", .string "\x07")]]) }
  let table : Table :=
    ⟨"", "", none, KeyMap.ofList [("a", column)], [], none, some ⟨.roundRobin, []⟩, none, none⟩
  ⟨KeyMap.ofList [("s.t", table)], ∅, ⟨some ⟨1709247599, 1500000000⟩, 0, 0, 0, 0, ∅⟩⟩

/-- A document that leaves out most fields stands for a catalog whose own document is kept. -/
theorem Catalog.document_roundTrip_sparse :
    ofDocument sparseDocument = .ok sparseCatalog ∧
      ofDocument sparseCatalog.document = .ok sparseCatalog ∧
      (ofDocument sparseCatalog.document).map document = .ok sparseCatalog.document := by
  have read : ofDocument sparseDocument = .ok sparseCatalog := by decide +kernel
  have plain : sparseCatalog.HasPlainDefaults := by
    unfold HasPlainDefaults
    decide +kernel
  have storable : sparseCatalog.Storable := storable_of_ofDocument read plain
  exact ⟨read, document_roundTrip.1 sparseCatalog storable,
    document_roundTrip.2 sparseDocument sparseCatalog read plain⟩

end Rollback

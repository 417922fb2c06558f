import Rollback.Proofs.Schema.ColumnPlaces
import Rollback.Proofs.Schema.StatementRuns
import Rollback.Proofs.Sql.StatementNames

/-!
# Representation of catalogs

Whatever is done to a draft, its catalog keeps tables, views and columns under the keys that their
own data give. Three kinds of statements make up tables, and a CREATE TABLE statement renames a
table where it stands, so it matters that a key has only one reading as a schema and a name.

- `Catalog.Represented`: what holds of the catalog of every draft
- `Draft.afterCalls`: the draft after some calls
- `Table.SoundAt`, `View.SoundAt`: what every step preserves
- `represented_afterCalls`: the catalog after any calls is well represented
-/

set_option autoImplicit false

namespace Rollback

/-- The key of an object, given by its schema in lower case and its name. -/
def objectKey (schema : Option String) (name : String) : String :=
  match schema with
  | some schema => schema ++ "." ++ name.lowerCase
  | none => name.lowerCase

/-- Files that mention an object: each is listed once and has a name. -/
structure SourcesSound (sources : List String) : Prop where
  distinct : sources.Nodup
  named : "" ∉ sources

/-- The keys of tables, views and columns are those of their names, no two columns of a table are at
the same place, and the files are listed properly. -/
structure Catalog.Represented (c : Catalog) : Prop where
  tableKey : ∀ k t, (k, t) ∈ c.tables.entries → k = objectKey t.schema t.name
  viewKey : ∀ k v, (k, v) ∈ c.views.entries → k = objectKey v.schema v.name
  columnKey : ∀ t ∈ c.tables.values, ∀ k column, (k, column) ∈ t.columns.entries →
    k = column.name.lowerCase
  ordinals : ∀ t ∈ c.tables.values, (t.columns.values.map Column.ordinal).Nodup
  tableSources : ∀ t ∈ c.tables.values, SourcesSound t.sources
  viewSources : ∀ v ∈ c.views.values, SourcesSound v.sources

namespace Draft

/-- A call that changes a draft. -/
inductive Call where
  /-- One statement of a file. -/
  | apply (stmt source : String)
  /-- A whole file. -/
  | ingest (path script : String)

/-- The draft after a call; a statement that is malformed changes nothing. -/
def call (d : Draft) : Call → Draft
  | .apply stmt source =>
    match d.apply stmt source with
    | .ok (d, _) => d
    | .error _ => d
  | .ingest path script => (d.ingest path script).1

/-- The draft after some calls. -/
def afterCalls (calls : List Call) : Draft :=
  calls.foldl call empty

/-- What every statement preserves holds after any calls, if it is not about what is recorded of the
files. -/
theorem afterCalls_induction {P : Draft → Prop} (start : P empty)
    (step : ∀ {d e : Draft} {stmt source : String} {did : Applied},
      P d → d.apply stmt source = .ok (e, did) → P e)
    (records : ∀ {d : Draft} (metadata : Metadata) (files : List FileStats),
      P d → P { d with catalog.metadata := metadata, files }) (calls : List Call) :
    P (afterCalls calls) := by
  refine List.foldlRecOn calls call start fun d h c _ => ?_
  cases c with
  | apply stmt source =>
    rw [call]
    split
    · rename_i applied
      exact step h applied
    · exact h
  | ingest path script =>
    exact records _ _
      (foldl_ingestStatement_induction path step (Sql.actions script) (d, .start path) h)

end Draft

/-! ## Keys -/

/-- A key is made of the schema and the name in lower case. -/
theorem key_eq_objectKey (n : ObjectName) :
    n.key = objectKey (n.schema.map String.lowerCase) n.name := by
  obtain ⟨schema, name⟩ := n
  cases schema <;> rfl

theorem dot_notMem_lowerCase {s : String} (h : '.' ∉ s.toList) : '.' ∉ s.lowerCase.toList := by
  rw [String.lowerCase, String.toList_ofList]
  exact Text.dot_notMem_lower h

theorem toList_objectKey_some (schema name : String) :
    (objectKey (some schema) name).toList = schema.toList ++ '.' :: name.lowerCase.toList := by
  simp [objectKey]

/-- A key has one reading as a schema and the key of a name without dots. -/
theorem objectKey_inj {s s' : Option String} {a b : String} (h : objectKey s a = objectKey s' b)
    (ha : '.' ∉ a.toList) (hb : '.' ∉ b.toList) : s = s' ∧ a.lowerCase = b.lowerCase := by
  have cleanA := dot_notMem_lowerCase ha
  have cleanB := dot_notMem_lowerCase hb
  have chars := congrArg String.toList h
  -- A key without a schema holds no dot, and in one with a schema the last dot ends the schema.
  cases s with
  | none =>
    cases s' with
    | none => exact ⟨rfl, h⟩
    | some t =>
      rw [toList_objectKey_some] at chars
      exact absurd (show '.' ∈ a.lowerCase.toList from chars ▸ by simp) cleanA
  | some s =>
    cases s' with
    | none =>
      rw [toList_objectKey_some] at chars
      exact absurd (show '.' ∈ b.lowerCase.toList from chars ▸ by simp) cleanB
    | some t =>
      rw [toList_objectKey_some, toList_objectKey_some] at chars
      obtain ⟨schema, name⟩ := Text.eq_of_dotted_eq chars cleanA cleanB
      exact ⟨congrArg some (String.toList_inj.1 schema), String.toList_inj.1 name⟩

/-! ## Sources -/

theorem SourcesSound.nil : SourcesSound [] := ⟨.nil, List.not_mem_nil⟩

/-- A file is added to a list that stays without repetition. -/
theorem SourcesSound.addSource {sources : List String} (h : SourcesSound sources) (path : String) :
    SourcesSound (addSource path sources) := by
  rw [Rollback.addSource]
  split
  · exact h
  · rename_i new
    simp only [Bool.or_eq_true, not_or, Bool.not_eq_true, String.isEmpty_eq_false_iff,
      List.contains_eq_mem, decide_eq_false_iff_not] at new
    constructor
    · rw [List.nodup_append]
      refine ⟨h.distinct, by simp, ?_⟩
      intro x hx y hy same
      rw [List.mem_singleton] at hy
      exact new.2 (hy ▸ same ▸ hx)
    · rw [List.mem_append, List.mem_singleton, not_or]
      exact ⟨h.named, Ne.symm new.1⟩

/-! ## Tables -/

/-- What every step preserves of the table at a key. -/
structure Table.SoundAt (k : String) (t : Table) : Prop where
  key : k = objectKey t.schema t.name
  dotless : '.' ∉ t.name.toList
  columnKey : ∀ j c, t.columns.get? j = some c → c.name.lowerCase = j
  places : ∀ i j a b, t.columns.get? i = some a → t.columns.get? j = some b →
    a.ordinal = b.ordinal → i = j
  sources : SourcesSound t.sources

namespace Table.SoundAt

variable {k : String} {t : Table}

/-- A table that is only mentioned is sound. -/
theorem empty {n : ObjectName} (dotless : '.' ∉ n.name.toList) : SoundAt n.key (Table.empty n) where
  key := key_eq_objectKey n
  dotless := dotless
  columnKey := by
    intro j c found
    exact absurd found (by simp [Table.empty, EmptyCollection.emptyCollection])
  places := by
    intro i j a b found
    exact absurd found (by simp [Table.empty, EmptyCollection.emptyCollection])
  sources := .nil

/-- One more file that mentions the table keeps it sound. -/
theorem withSource (h : SoundAt k t) (path : String) : SoundAt k (t.withSource path) :=
  { h with sources := h.sources.addSource path }

theorem withComment (h : SoundAt k t) (comment : Option String) :
    SoundAt k { t with comment } :=
  { h with }

/-- A column that is made up stands after all others; one that is known stays where it is. -/
theorem withColumn (h : SoundAt k t) (name : String) (change : Column → Column)
    (keeps : ∀ c, (change c).name = c.name ∧ (change c).ordinal = c.ordinal) :
    SoundAt k (t.withColumn name change) := by
  have named : (t.columnOrStub name t.nextOrdinal).name.lowerCase = name.lowerCase := by
    rw [columnOrStub, column?]
    cases found : t.columns.get? name.lowerCase with
    | none => rfl
    | some c => exact h.columnKey _ c found
  have alone : ∀ j c, t.columns.get? j = some c →
      c.ordinal = (t.columnOrStub name t.nextOrdinal).ordinal → j = name.lowerCase := by
    intro j c hc same
    rw [columnOrStub, column?] at same
    cases found : t.columns.get? name.lowerCase with
    | none =>
      rw [found] at same
      exact absurd (same ▸ ordinal_lt_nextOrdinal hc) (Nat.lt_irrefl _)
    | some d =>
      rw [found] at same
      exact h.places j _ c d hc found same
  have after : ∀ j, (t.withColumn name change).columns.get? j =
      if j = name.lowerCase then some (change (t.columnOrStub name t.nextOrdinal))
      else t.columns.get? j := fun j => KeyMap.get?_insert _ _ _ _
  refine { h with columnKey := ?_, places := ?_ }
  · intro j c found
    rw [after] at found
    split at found
    · rename_i here
      rw [← Option.some.inj found, (keeps _).1, named, here]
    · exact h.columnKey j c found
  · intro i j a b ha hb same
    rw [after] at ha hb
    split at ha
    · rename_i hi
      split at hb
      · rename_i hj
        rw [hi, hj]
      · rw [← Option.some.inj ha, (keeps _).2] at same
        rw [hi, alone j b hb same.symm]
    · split at hb
      · rename_i hj
        rw [← Option.some.inj hb, (keeps _).2] at same
        rw [hj, alone i a ha same]
      · exact h.places i j a b ha hb same

/-- A declaration renames the table, but only to a name with the same key. -/
theorem declare {n : ObjectName} (h : SoundAt n.key t) (dotless : '.' ∉ n.name.toList)
    (d : Declaration) : SoundAt n.key (t.declare n d) where
  key := by
    have schema : n.schema.map String.lowerCase = t.schema :=
      (objectKey_inj ((key_eq_objectKey n).symm.trans h.key) dotless h.dotless).1
    rw [key_eq_objectKey, schema]
    rfl
  dotless := dotless
  columnKey := by
    intro j c found
    exact (placedAt_of_declare found (h.columnKey j)).2
  places := by
    intro i j a b ha hb same
    have placeA := (placedAt_of_declare ha (h.columnKey i)).1
    have placeB := (placedAt_of_declare hb (h.columnKey j)).1
    exact placeA.key_unique (same ▸ placeB)
  sources := h.sources

end Table.SoundAt

/-! ## Views -/

/-- What every step preserves of the view at a key. -/
structure View.SoundAt (k : String) (v : View) : Prop where
  key : k = objectKey v.schema v.name
  sources : SourcesSound v.sources

namespace View.SoundAt

variable {k : String} {v : View}

theorem defined (n : ObjectName) (definition : String) :
    SoundAt n.key (View.defined n definition) :=
  ⟨key_eq_objectKey n, .nil⟩

theorem withSource (h : SoundAt k v) (path : String) : SoundAt k (v.withSource path) :=
  ⟨h.key, h.sources.addSource path⟩

theorem withDefinition (h : SoundAt k v) (definition : String) :
    SoundAt k { v with definition } :=
  ⟨h.key, h.sources⟩

/-- One more statement in the definition keeps the view sound. -/
theorem append (h : SoundAt k v) (stmt : String) : SoundAt k (v.append stmt) :=
  h.withDefinition _

end View.SoundAt

/-! ## Catalogs and drafts -/

/-- What every step preserves of a catalog. -/
structure Catalog.Sound (c : Catalog) : Prop where
  tables : ∀ k t, c.tables.get? k = some t → t.SoundAt k
  views : ∀ k v, c.views.get? k = some v → v.SoundAt k

namespace Catalog.Sound

variable {c : Catalog}

theorem empty : Sound .empty where
  tables := by
    intro k t found
    exact absurd found (by simp [Catalog.empty, EmptyCollection.emptyCollection])
  views := by
    intro k v found
    exact absurd found (by simp [Catalog.empty, EmptyCollection.emptyCollection])

/-- What is found under a key, or made up for it, is sound. -/
theorem tableOrEmpty (h : Sound c) {n : ObjectName} (dotless : '.' ∉ n.name.toList) :
    (c.tableOrEmpty n).SoundAt n.key := by
  rw [Catalog.tableOrEmpty]
  cases known : c.tables.get? n.key with
  | none => exact .empty dotless
  | some t => exact h.tables _ t known

/-- A change that keeps tables sound keeps the catalog sound. -/
theorem updateTable (h : Sound c) {n : ObjectName} (dotless : '.' ∉ n.name.toList)
    {change : Table → Table} (keeps : ∀ t : Table, t.SoundAt n.key → (change t).SoundAt n.key) :
    Sound (c.updateTable n change) := by
  refine ⟨?_, h.views⟩
  intro k t found
  rw [Catalog.updateTable, KeyMap.get?_insert] at found
  split at found
  · rename_i here
    rw [here, ← Option.some.inj found]
    exact keeps _ (h.tableOrEmpty dotless)
  · exact h.tables k t found

theorem updateView (h : Sound c) {n : ObjectName} {definition : String} {change : View → View}
    (keeps : ∀ v : View, v.SoundAt n.key → (change v).SoundAt n.key) :
    Sound (c.updateView n definition change) := by
  refine ⟨h.tables, ?_⟩
  intro k v found
  rw [Catalog.updateView, KeyMap.get?_insert] at found
  split at found
  · rename_i here
    rw [here, ← Option.some.inj found]
    apply keeps
    rw [viewOrDefined]
    cases known : c.views.get? n.key with
    | none => exact .defined n definition
    | some v => exact h.views _ v known
  · exact h.views k v found

/-- The invariant of the steps says what is wanted of the representation. -/
theorem represented (h : Sound c) : c.Represented where
  tableKey k t mem := (h.tables k t ((KeyMap.mem_entries_iff _ _ _).1 mem)).key
  viewKey k v mem := (h.views k v ((KeyMap.mem_entries_iff _ _ _).1 mem)).key
  columnKey := by
    intro t mem k column entry
    obtain ⟨j, found⟩ := (KeyMap.mem_values_iff _ _).1 mem
    exact ((h.tables j t found).columnKey k column ((KeyMap.mem_entries_iff _ _ _).1 entry)).symm
  ordinals := by
    intro t mem
    obtain ⟨j, found⟩ := (KeyMap.mem_values_iff _ _).1 mem
    rw [List.Nodup, List.pairwise_map]
    refine KeyMap.pairwise_values _ ?_
    intro i k a b ha hb other same
    exact other ((h.tables j t found).places i k a b ha hb same)
  tableSources := by
    intro t mem
    obtain ⟨j, found⟩ := (KeyMap.mem_values_iff _ _).1 mem
    exact (h.tables j t found).sources
  viewSources := by
    intro v mem
    obtain ⟨j, found⟩ := (KeyMap.mem_values_iff _ _).1 mem
    exact (h.views j v found).sources

end Catalog.Sound

theorem ObjectName.name_resolve (n : ObjectName) (searchPath : Option String) :
    (n.resolve searchPath).name = n.name := by
  obtain ⟨schema, name⟩ := n
  cases schema <;> cases searchPath <;> rfl

namespace Draft

variable {d : Draft}

/-- A change of a mentioned table keeps the catalog sound if it keeps tables so. -/
theorem sound_mentionTable (h : d.catalog.Sound) {n : ObjectName} (dotless : '.' ∉ n.name.toList)
    {source : String} {change : Table → Table}
    (keeps : ∀ t : Table, t.SoundAt (d.resolve n).key → (change t).SoundAt (d.resolve n).key) :
    (d.mentionTable n source change).catalog.Sound := by
  refine h.updateTable ?_ fun t sound => keeps _ (sound.withSource source)
  rwa [resolve, ObjectName.name_resolve]

theorem sound_mentionView (h : d.catalog.Sound) {n : ObjectName} {definition source : String}
    {change : View → View}
    (keeps : ∀ v : View, v.SoundAt (d.resolve n).key → (change v).SoundAt (d.resolve n).key) :
    (d.mentionView n definition source change).catalog.Sound :=
  h.updateView fun v sound => (keeps v sound).withSource source

/-- The step lemma: a statement keeps the catalog sound. -/
theorem sound_applyTrimmed (h : d.catalog.Sound) {stmt : List Char} {source : String} {d' : Draft}
    {did : Applied} (hd : d.applyTrimmed stmt source = .ok (d', did)) : d'.catalog.Sound := by
  have dotless : ∀ n ∈ (Statement.ofChars stmt).objectNames, '.' ∉ n.name.toList :=
    fun n mem => Statement.dot_notMem_name mem
  cases effect_applyTrimmed hd with
  | searchPath kind => exact h
  | @table name declaration kind read =>
    rw [kind] at dotless
    have clean := dotless name List.mem_cons_self
    refine sound_mentionTable h clean fun t sound => sound.declare ?_ declaration
    rwa [resolve, ObjectName.name_resolve]
  | @tableComment table comment kind =>
    rw [kind] at dotless
    exact sound_mentionTable h (dotless table List.mem_cons_self) fun t sound =>
      sound.withComment comment
  | @columnComment table column comment kind unknown =>
    rw [kind] at dotless
    exact sound_mentionTable h (dotless table List.mem_cons_self) fun t sound =>
      sound.withColumn column _ fun c => ⟨rfl, rfl⟩
  | commentInView kind known => exact sound_mentionView h fun v sound => sound.append _
  | viewComment kind unknown => exact sound_mentionView h fun v sound => sound
  | view kind => exact sound_mentionView h fun v sound => sound.withDefinition _
  | ignored other => exact h

/-- The catalog is sound after any calls. -/
theorem sound_afterCalls (calls : List Call) : (afterCalls calls).catalog.Sound :=
  afterCalls_induction (P := fun d => d.catalog.Sound) .empty
    (fun sound applied => sound_applyTrimmed sound applied)
    (fun _ _ sound => ⟨sound.tables, sound.views⟩) calls

end Draft

/--
After any calls, in any order and with any texts, the catalog of a draft has every table, view and
column under the key of its name, the columns of each table at different places, and no file without
a name or twice among the files that mention an object.
-/
theorem represented_afterCalls (calls : List Draft.Call) :
    (Draft.afterCalls calls).catalog.Represented :=
  (Draft.sound_afterCalls calls).represented

end Rollback

import Rollback.Proofs.Schema.DeclarationOrder

/-!
# Declarations of known tables

A table can be declared more than once, and after comments on it. Each declaration puts its columns
first, with the names and types that it gives them, and keeps all else that is known of the table:
the comments, the other columns in their order, and the clauses that it does not have itself.

- `Table.mergedColumns`: the columns of a table and of a declaration together
- `Table.columnsInOrder_declare`: they are the columns of the table after the declaration
- `Table.declare_declare`: a second declaration with the same text changes nothing
- `merges_of_createTable`: a CREATE TABLE statement after any calls
-/

set_option autoImplicit false

namespace Rollback

namespace Table

/-- A column as a declaration names and types it; all else that is known of it is kept. -/
def merged (t : Table) (column : String × String) : Column :=
  { (t.column? column.1).getD (Column.declared column.1 column.2 0) with
    name := column.1
    dataType := column.2 }

/-- The columns that a declaration does not name, in their order. -/
def undeclared (t : Table) (d : Declaration) : List Column :=
  t.columnsInOrder.filter fun c => !(declaredKeys d).contains c.name.lowerCase

/-- The columns of a table and of a declaration together. -/
def mergedColumns (t : Table) (d : Declaration) : List Column :=
  d.columns.map t.merged ++ t.undeclared d

/-- The columns at consecutive places. -/
def placed (columns : List Column) : List Column :=
  columns.mapIdx fun i c => { c with ordinal := i }

theorem pairwise_placed (columns : List Column) :
    (placed columns).Pairwise fun a b => a.ordinal < b.ordinal := by
  rw [List.pairwise_iff_getElem]
  intro i j hi hj below
  simp only [placed, List.getElem_mapIdx]
  exact below

section

variable {t : Table} {d : Declaration} {name : ObjectName}

/-- If a declaration names no column twice, each of its columns is the last one of that name. -/
theorem lastDeclared_of_nodup (distinct : (declaredKeys d).Nodup) {i : Nat}
    {column : String × String} (found : d.columns[i]? = some column) :
    lastDeclared column.1.lowerCase (numbered d.columns) = some (i, column) := by
  have here : (declaredKeys d)[i]? = some column.1.lowerCase := by
    rw [declaredKeys, List.getElem?_map, found]
    rfl
  obtain ⟨e, last⟩ := exists_lastDeclared (List.mem_of_getElem? here)
  obtain ⟨mem, key⟩ := key_of_lastDeclared last
  have place := (mem_numbered_iff _ _).1 mem
  have there : (declaredKeys d)[e.1]? = some column.1.lowerCase := by
    rw [declaredKeys, List.getElem?_map, place, Option.map_some, key]
  have bound := (List.getElem?_eq_some_iff.1 here).1
  have same : i = e.1 := (List.getElem?_inj bound distinct).1 (here.trans there.symm)
  rw [← same, found] at place
  rw [last, same, Option.some.inj place]

/-! ## Columns in their order -/

variable {key : String} (sound : t.SoundAt key)

include sound

theorem mem_columnsInOrder_iff (c : Column) :
    c ∈ t.columnsInOrder ↔ t.columns.get? c.name.lowerCase = some c := by
  rw [columnsInOrder, List.mem_mergeSort, KeyMap.mem_values_iff]
  constructor
  · rintro ⟨k, found⟩
    rw [sound.columnKey k c found]
    exact found
  · exact fun found => ⟨_, found⟩

/-- The columns in their order are at ascending places. -/
theorem pairwise_columnsInOrder : t.columnsInOrder.Pairwise fun a b => a.ordinal < b.ordinal := by
  -- No two columns are at one place, so their names never decide the order.
  have sorted := List.pairwise_mergeSort Column.comesBefore_trans Column.comesBefore_total
    t.columns.values
  have distinct : t.columns.values.Pairwise fun a b => a.ordinal ≠ b.ordinal :=
    KeyMap.pairwise_values _ fun j k a b ha hb other same => other (sound.places j k a b ha hb same)
  have apart := distinct.perm (List.mergeSort_perm _ Column.comesBefore).symm fun other =>
    other.symm
  refine (sorted.and apart).imp fun {a b} ⟨before, other⟩ => ?_
  rw [Column.comesBefore_iff] at before
  omega

/-- The columns that a declaration leaves over are the undeclared ones. -/
theorem leftOver_eq_map (d : Declaration) :
    t.leftOver d = (t.undeclared d).map fun c => c.name.lowerCase := by
  refine leftOver_eq (fun k => ?_) ?_
  · simp only [undeclared, List.mem_map, List.mem_filter, mem_columnsInOrder_iff sound]
    constructor
    · rintro ⟨c, ⟨found, other⟩, rfl⟩
      exact ⟨⟨c, found⟩, by simpa using other⟩
    · rintro ⟨⟨c, found⟩, other⟩
      obtain rfl := sound.columnKey k c found
      exact ⟨c, ⟨found, by simpa using other⟩, rfl⟩
  · rw [List.pairwise_map]
    refine ((pairwise_columnsInOrder sound).sublist List.filter_sublist).imp_of_mem ?_
    intro a b ha hb below
    have foundA := (mem_columnsInOrder_iff sound a).1 (List.mem_filter.1 ha).1
    have foundB := (mem_columnsInOrder_iff sound b).1 (List.mem_filter.1 hb).1
    exact ⟨a.ordinal, b.ordinal, by rw [foundA]; rfl, by rw [foundB]; rfl, .inl below⟩

/-! ## Columns after a declaration -/

/-- The keys of the merged columns are those of the declared columns and then of the others. -/
theorem map_key_mergedColumns (d : Declaration) :
    (t.mergedColumns d).map (fun c => c.name.lowerCase) = declaredKeys d ++ t.leftOver d := by
  rw [mergedColumns, List.map_append, List.map_map, leftOver_eq_map sound]
  rfl

theorem nodup_key_mergedColumns (distinct : (declaredKeys d).Nodup) :
    ((t.mergedColumns d).map fun c => c.name.lowerCase).Nodup := by
  rw [map_key_mergedColumns sound, List.nodup_append]
  refine ⟨distinct, nodup_leftOver t d, fun j declared k left same => ?_⟩
  exact ((mem_leftOver_iff t d k).1 left).2 (same ▸ declared)

/-- A merged column is found after the declaration, at its place among them. -/
theorem get?_declare_of_getElem? (distinct : (declaredKeys d).Nodup) {i : Nat} {c : Column}
    (place : (t.mergedColumns d)[i]? = some c) :
    (t.declare name d).columns.get? c.name.lowerCase = some { c with ordinal := i } := by
  rw [mergedColumns, List.getElem?_append, List.length_map] at place
  split at place
  · -- The declaration names the column, and no other of its columns has the name.
    rw [List.getElem?_map, Option.map_eq_some_iff] at place
    obtain ⟨column, found, rfl⟩ := place
    have last := lastDeclared_of_nodup distinct found
    rw [show (t.merged column).name = column.1 from rfl, get?_declare_of_declared last, merged,
      column?]
    cases t.columns.get? column.1.lowerCase <;> rfl
  · -- The column is left over, and its place is counted from the end of the declared ones.
    rename_i beyond
    have mem := List.mem_of_getElem? place
    obtain ⟨inOrder, other⟩ := List.mem_filter.1 mem
    have index : (t.leftOver d).idxOf c.name.lowerCase = i - d.columns.length := by
      have key : (t.leftOver d)[i - d.columns.length]? = some c.name.lowerCase := by
        rw [leftOver_eq_map sound, List.getElem?_map, place]
        rfl
      obtain ⟨bound, eq⟩ := List.getElem?_eq_some_iff.1 key
      rw [← eq]
      exact (nodup_leftOver t d).idxOf_getElem _ bound
    rw [get?_declare_of_leftOver ((mem_columnsInOrder_iff sound c).1 inOrder)
      (by simpa using other), index]
    congr 2
    omega

/-- No other columns are there after the declaration. -/
theorem exists_getElem?_of_declare {k : String} {c : Column}
    (found : (t.declare name d).columns.get? k = some c) :
    ∃ (i : Nat) (c : Column), (t.mergedColumns d)[i]? = some c ∧ c.name.lowerCase = k := by
  have mem : k ∈ declaredKeys d ++ t.leftOver d := by
    by_cases named : k ∈ declaredKeys d
    · exact List.mem_append_left _ named
    · have known := (exists_get?_declare_iff name named).1 ⟨c, found⟩
      exact List.mem_append_right _ ((mem_leftOver_iff t d k).2 ⟨known, named⟩)
  rw [← map_key_mergedColumns sound] at mem
  obtain ⟨c, inside, key⟩ := List.mem_map.1 mem
  obtain ⟨i, place⟩ := List.getElem?_of_mem inside
  exact ⟨i, c, place, key⟩

/-- After a declaration come its columns as it names and types them, and then the others. -/
theorem columnsInOrder_declare (distinct : (declaredKeys d).Nodup) :
    (t.declare name d).columnsInOrder = placed (t.mergedColumns d) := by
  let entries := (t.mergedColumns d).mapIdx fun i c => (c.name.lowerCase, { c with ordinal := i })
  have keys : entries.map Prod.fst = (t.mergedColumns d).map fun c => c.name.lowerCase :=
    List.ext_getElem (by simp [entries]) fun i _ _ => by simp [entries]
  have values : entries.map Prod.snd = placed (t.mergedColumns d) :=
    List.ext_getElem (by simp [entries, placed]) fun i _ _ => by simp [entries, placed]
  refine columnsInOrder_eq (values ▸ KeyMap.perm_values ?_ fun k a => ?_) (pairwise_placed _)
  · rw [keys]
    exact nodup_key_mergedColumns sound distinct
  · rw [List.mem_mapIdx]
    constructor
    · intro found
      obtain ⟨i, c, place, rfl⟩ := exists_getElem?_of_declare sound found
      rw [get?_declare_of_getElem? sound distinct place] at found
      obtain ⟨bound, rfl⟩ := List.getElem?_eq_some_iff.1 place
      exact ⟨i, bound, Prod.ext rfl (Option.some.inj found)⟩
    · rintro ⟨i, bound, eq⟩
      obtain ⟨rfl, rfl⟩ := Prod.mk.inj eq
      exact get?_declare_of_getElem? sound distinct (List.getElem?_eq_getElem bound)

end

/-! ## Declaring once more -/

section

variable {t : Table} {d : Declaration} {name : ObjectName}

/-- The same columns are left over after a declaration. -/
theorem leftOver_declare (t : Table) (d : Declaration) (name : ObjectName) :
    (t.declare name d).leftOver d = t.leftOver d := by
  have places : ∀ k ∈ t.leftOver d, ((t.declare name d).columns.get? k).map Column.ordinal =
      some (d.columns.length + (t.leftOver d).idxOf k) := by
    intro k mem
    obtain ⟨⟨c, found⟩, other⟩ := (mem_leftOver_iff t d k).1 mem
    rw [get?_declare_of_leftOver found other]
    rfl
  refine leftOver_eq (fun k => ?_) ?_
  · rw [mem_leftOver_iff]
    exact and_congr_left fun other => (exists_get?_declare_iff name other).symm
  · -- The places that the declaration gave them keep them in the same order.
    have distinct := nodup_leftOver t d
    rw [List.pairwise_iff_getElem]
    intro i j hi hj below
    refine ⟨_, _, places _ (List.getElem_mem hi), places _ (List.getElem_mem hj), .inl ?_⟩
    rw [distinct.idxOf_getElem _ hi, distinct.idxOf_getElem _ hj]
    omega

/-- Declaring the same once more changes nothing. -/
theorem declare_declare (t : Table) (name : ObjectName) (d : Declaration) :
    (t.declare name d).declare name d = t.declare name d := by
  have columns : ((t.declare name d).declare name d).columns = (t.declare name d).columns := by
    refine KeyMap.ext_get? fun k => ?_
    by_cases named : k ∈ declaredKeys d
    · obtain ⟨e, last⟩ := exists_lastDeclared named
      rw [get?_declare_of_declared last, get?_declare_of_declared last]
      rfl
    · cases known : t.columns.get? k with
      | none =>
        have unknown := get?_declare_of_unknown name named known
        rw [get?_declare_of_unknown name named unknown, unknown]
      | some c =>
        have found : (t.declare name d).columns.get? k = some _ :=
          get?_declare_of_leftOver known named
        rw [get?_declare_of_leftOver found named, leftOver_declare, found]
  have clause : ∀ {α : Type} (a b : Option α), (a <|> (a <|> b)) = (a <|> b) := by
    intro α a b
    cases a <;> rfl
  calc (t.declare name d).declare name d
      = { t.declare name d with
          columns := ((t.declare name d).declare name d).columns
          distribution := d.distribution <|> (d.distribution <|> t.distribution)
          storage := d.storage <|> (d.storage <|> t.storage)
          placementGroup := d.placementGroup <|> (d.placementGroup <|> t.placementGroup) } := rfl
    _ = t.declare name d := by
      rw [columns, clause, clause, clause]
      rfl

/-- A declaration keeps the comments of all columns that were known. -/
theorem exists_get?_declare (name : ObjectName) (d : Declaration) {k : String} {c : Column}
    (found : t.columns.get? k = some c) :
    ∃ e, (t.declare name d).columns.get? k = some e ∧ e.comment = c.comment := by
  by_cases named : k ∈ declaredKeys d
  · obtain ⟨e, last⟩ := exists_lastDeclared named
    exact ⟨_, get?_declare_of_declared last, by rw [found]; rfl⟩
  · exact ⟨_, get?_declare_of_leftOver found named, rfl⟩

end

end Table

/-! ## CREATE TABLE statements -/

namespace Draft

variable {d e : Draft} {stmt source : String} {name : ObjectName} {did : Applied}

/-- A CREATE TABLE statement that is not malformed declares its table. -/
theorem exists_declaration (kind : Statement.ofText stmt = .createTable name)
    (accepted : d.apply stmt source = .ok (e, did)) :
    ∃ declaration, Declaration.ofChars (Text.trim stmt.toList) = .ok declaration ∧
      did = .changed ∧
      e = d.mentionTable name source fun t => t.declare (d.resolve name) declaration := by
  have read : Statement.ofChars (Text.trim stmt.toList) = .createTable name :=
    (Statement.ofChars_trim _).trans kind
  rw [apply, applyTrimmed, read] at accepted
  cases parsed : Declaration.ofChars (Text.trim stmt.toList) with
  | error failure =>
    rw [parsed] at accepted
    cases accepted
  | ok declaration =>
    rw [parsed] at accepted
    cases accepted
    exact ⟨declaration, rfl, rfl, rfl⟩

theorem apply_of_declaration (kind : Statement.ofText stmt = .createTable name)
    {declaration : Declaration}
    (read : Declaration.ofChars (Text.trim stmt.toList) = .ok declaration) (d : Draft)
    (source : String) :
    d.apply stmt source =
      .ok (d.mentionTable name source fun t => t.declare (d.resolve name) declaration,
        .changed) := by
  have ofChars : Statement.ofChars (Text.trim stmt.toList) = .createTable name :=
    (Statement.ofChars_trim _).trans kind
  rw [apply, applyTrimmed, ofChars, read]
  rfl

/-- Declaring a table once more, from the same file, changes nothing. -/
theorem mentionTable_declare (d : Draft) (name : ObjectName) (source : String)
    (declaration : Declaration) {n : ObjectName} :
    (d.mentionTable name source fun t => t.declare n declaration).mentionTable name source
        (fun t => t.declare n declaration) =
      d.mentionTable name source fun t => t.declare n declaration := by
  let change := fun t : Table => (t.withSource source).declare n declaration
  have again : ∀ t, change (change t) = change t := fun t =>
    calc (((t.withSource source).declare n declaration).withSource source).declare n declaration
        = (((t.withSource source).withSource source).declare n declaration).declare n
            declaration := rfl
      _ = (t.withSource source).declare n declaration := by
        rw [Table.withSource_withSource, Table.declare_declare]
  have twice : ∀ (c : Catalog) (m : ObjectName),
      (c.updateTable m change).updateTable m change = c.updateTable m change := by
    intro c m
    have tables : (c.tables.insert m.key (change (c.tableOrEmpty m))).insert m.key
        (change ((c.updateTable m change).tableOrEmpty m)) =
          c.tables.insert m.key (change (c.tableOrEmpty m)) := by
      rw [Catalog.tableOrEmpty_updateTable_of_eq rfl, again, KeyMap.insert_insert]
    exact congrArg (fun tables => { c with tables }) tables
  exact congrArg (fun catalog => { d with catalog }) (twice d.catalog (d.resolve name))

end Draft

/-- A table after a declaration of it, with what was known of it before. -/
structure Table.Merges (before : Table) (d : Declaration) (after : Table) : Prop where
  /-- The declared columns come first, and then the others in their order. -/
  declares : (after.columnsInOrder.map fun c => (c.name, c.dataType)) =
    d.columns ++ (before.undeclared d).map fun c => (c.name, c.dataType)
  columns : after.columnsInOrder = Table.placed (before.mergedColumns d)
  comment : after.comment = before.comment
  columnComment : ∀ k c, before.columns.get? k = some c →
    ∃ e, after.columns.get? k = some e ∧ e.comment = c.comment
  distribution : after.distribution = (d.distribution <|> before.distribution)
  storage : after.storage = (d.storage <|> before.storage)
  placementGroup : after.placementGroup = (d.placementGroup <|> before.placementGroup)

theorem Table.SoundAt.merges {key : String} {t : Table} (sound : t.SoundAt key) (name : ObjectName)
    {d : Declaration} (distinct : (Table.declaredKeys d).Nodup) :
    t.Merges d (t.declare name d) where
  declares := by
    have typed : ∀ columns : List Column,
        ((Table.placed columns).map fun c => (c.name, c.dataType)) =
          columns.map fun c => (c.name, c.dataType) := fun columns =>
      List.ext_getElem (by simp [Table.placed]) fun i _ _ => by simp [Table.placed]
    have declared : ((d.columns.map t.merged).map fun c => (c.name, c.dataType)) = d.columns := by
      rw [List.map_map]
      exact List.map_id _
    rw [Table.columnsInOrder_declare sound distinct, typed, Table.mergedColumns, List.map_append,
      declared]
  columns := Table.columnsInOrder_declare sound distinct
  comment := rfl
  columnComment := fun k c found => Table.exists_get?_declare name d found
  distribution := rfl
  storage := rfl
  placementGroup := rfl

/--
A CREATE TABLE statement that names no column twice, applied after any calls, merges what it
declares with what is known of its table. It changes no other table, no view and not the search
path, and applied once more from the same file it changes nothing at all.
-/
theorem merges_of_createTable (calls : List Draft.Call) {stmt source : String} {name : ObjectName}
    {after : Draft} {did : Applied} (kind : Statement.ofText stmt = .createTable name)
    (accepted : (Draft.afterCalls calls).apply stmt source = .ok (after, did))
    (distinct : ∀ declaration, Declaration.ofChars (Text.trim stmt.toList) = .ok declaration →
      (Table.declaredKeys declaration).Nodup) :
    let d := Draft.afterCalls calls
    let n := d.resolve name
    ∃ declaration t, Declaration.ofChars (Text.trim stmt.toList) = .ok declaration ∧
      after.catalog.tables.get? n.key = some t ∧
      (d.catalog.tableOrEmpty n).Merges declaration t ∧
      (∀ k, k ≠ n.key → after.catalog.tables.get? k = d.catalog.tables.get? k) ∧
      after.catalog.views = d.catalog.views ∧ after.searchPath = d.searchPath ∧
      after.apply stmt source = .ok (after, .changed) := by
  intro d n
  obtain ⟨declaration, read, -, rfl⟩ := Draft.exists_declaration kind accepted
  have named : name ∈ (Statement.ofChars stmt.toList).objectNames := by
    rw [← Statement.ofText, kind]
    exact List.mem_cons_self
  have dotless : '.' ∉ n.name.toList := by
    rw [show n.name = name.name from ObjectName.name_resolve name d.searchPath]
    exact Statement.dot_notMem_name named
  have sound := (Draft.sound_afterCalls calls).tableOrEmpty dotless
  refine ⟨declaration, _, read, KeyMap.get?_insert_self _ _ _, ?_, fun k other => ?_, rfl, rfl, ?_⟩
  · have merges := (sound.withSource source).merges n (distinct declaration read)
    exact ⟨merges.declares, merges.columns, merges.comment, merges.columnComment,
      merges.distribution, merges.storage, merges.placementGroup⟩
  · exact KeyMap.get?_insert_of_ne _ _ other
  · have again := d.mentionTable_declare name source declaration (n := n)
    rw [Draft.apply_of_declaration kind read]
    exact congrArg (fun e => Except.ok (e, Applied.changed)) again

/-- Of two columns that were made up by comments, one is declared in another letter case and after a
new one, and the other comes last. -/
theorem merges_of_createTable_madeUp :
    let calls : List Draft.Call := [.ingest "a.sql"
      "COMMENT ON COLUMN t.a IS 'x'; COMMENT ON COLUMN t.z IS 'y; z'; COMMENT ON TABLE u IS 't'"]
    let stmt := "CREATE TABLE T (B BIGINT, A INT) TO GROUP g;"
    let before := (Draft.afterCalls calls).catalog.tableOrEmpty ⟨none, "T"⟩
    ∃ declaration after t, (Draft.afterCalls calls).apply stmt "b.sql" = .ok (after, .changed) ∧
      Table.declaredKeys declaration = ["b", "a"] ∧ after.catalog.tables.get? "t" = some t ∧
      before.Merges declaration t ∧
      (t.columnsInOrder.map fun c => (c.name, c.dataType)) =
        [("B", "BIGINT"), ("A", "INT"), ("z", "UNKNOWN")] := by
  intro calls stmt before
  have kind : Statement.ofText stmt = .createTable ⟨none, "T"⟩ := by decide +kernel
  have columns : (Declaration.ofChars (Text.trim stmt.toList)).toOption.map Declaration.columns =
      some [("B", "BIGINT"), ("A", "INT")] := by decide +kernel
  have declares : ∀ declaration, Declaration.ofChars (Text.trim stmt.toList) = .ok declaration →
      declaration.columns = [("B", "BIGINT"), ("A", "INT")] := by
    intro declaration read
    rw [read] at columns
    exact Option.some.inj columns
  have keys : ∀ declaration, Declaration.ofChars (Text.trim stmt.toList) = .ok declaration →
      Table.declaredKeys declaration = ["b", "a"] := by
    intro declaration read
    rw [Table.declaredKeys, declares declaration read]
    decide +kernel
  obtain ⟨declaration, read⟩ :
      ∃ declaration, Declaration.ofChars (Text.trim stmt.toList) = .ok declaration := by
    cases read : Declaration.ofChars (Text.trim stmt.toList) with
    | error failure =>
      rw [read] at columns
      cases columns
    | ok declaration => exact ⟨declaration, rfl⟩
  have accepted := Draft.apply_of_declaration kind read (Draft.afterCalls calls) "b.sql"
  have plain : (Draft.afterCalls calls).resolve ⟨none, "T"⟩ = ⟨none, "T"⟩ := by decide +kernel
  have key : (⟨none, "T"⟩ : ObjectName).key = "t" := by decide +kernel
  obtain ⟨declared, t, same, found, merges, -⟩ := merges_of_createTable calls kind accepted
    fun declaration read => keys declaration read ▸ by decide
  rw [plain, key] at found
  rw [plain] at merges
  refine ⟨declared, _, t, accepted, keys declared same, found, merges, ?_⟩
  have inOrder : before.columnsInOrder = before.columns.values :=
    Table.columnsInOrder_eq (.refl _) (by decide +kernel)
  rw [merges.declares, declares declared same, Table.undeclared, keys declared same, inOrder]
  decide +kernel

end Rollback

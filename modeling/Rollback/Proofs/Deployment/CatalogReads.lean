import Rollback.Proofs.Deployment.CatalogUse
import Rollback.Proofs.Sql.StatementNames

/-!
# What a reversal reads of a catalog

The reversal of a statement looks at one object only: the table and the view that the name in the
statement may stand for, in the schema in effect or without one. Two catalogs that agree there, and
may differ in all other objects, give the same reversal. In a file this holds of every statement
with the search path in effect at it, and the names of the file and of its unit appear only beside
the rollback.

- `Catalog.AgreeOn`: catalogs that agree on what a name may stand for
- `undo_eq_of_sees`: a reversal reads the table and the view of the name in the statement
- `Batch.reverseScript_eq_of_agreeOn`: what that means for a file
- `rollback_eq_of_agreeOn`: both together
-/

set_option autoImplicit false

namespace Rollback

/-! ## Agreement -/

/-- The object that a statement is about: the first one that it names. -/
def Statement.object? (s : Statement) : Option ObjectName :=
  s.objectNames.head?

namespace Catalog

/-- Both catalogs have the same table and the same view at a key, or both have none. -/
structure AgreeAt (c c' : Catalog) (key : String) : Prop where
  tables : c.tables.get? key = c'.tables.get? key
  views : c.views.get? key = c'.views.get? key

/-- Both catalogs have the same objects for a name in the schema in effect, and without a schema. -/
structure AgreeOn (c c' : Catalog) (searchPath : Option String) (name : ObjectName) : Prop where
  resolved : c.AgreeAt c' (name.resolve searchPath).key
  bare : c.AgreeAt c' name.key

instance (c c' : Catalog) (key : String) : Decidable (c.AgreeAt c' key) :=
  decidable_of_iff
    (c.tables.get? key = c'.tables.get? key ∧ c.views.get? key = c'.views.get? key)
    ⟨fun h => ⟨h.1, h.2⟩, fun h => ⟨h.tables, h.views⟩⟩

instance (c c' : Catalog) (searchPath : Option String) (name : ObjectName) :
    Decidable (c.AgreeOn c' searchPath name) :=
  decidable_of_iff (c.AgreeAt c' (name.resolve searchPath).key ∧ c.AgreeAt c' name.key)
    ⟨fun h => ⟨h.1, h.2⟩, fun h => ⟨h.resolved, h.bare⟩⟩

variable {c c' : Catalog} {searchPath : Option String} {name : ObjectName}

theorem AgreeOn.table?_eq (h : c.AgreeOn c' searchPath name) :
    c.table? name searchPath = c'.table? name searchPath := by
  rw [table?, table?, KeyMap.resolve?, KeyMap.resolve?, h.resolved.tables, h.bare.tables]

theorem AgreeOn.view?_eq (h : c.AgreeOn c' searchPath name) :
    c.view? name searchPath = c'.view? name searchPath := by
  rw [view?, view?, KeyMap.resolve?, KeyMap.resolve?, h.resolved.views, h.bare.views]

end Catalog

/-! ## One statement -/

namespace Reverser

/-- Both reversers find the same table and the same view for a name. -/
structure SeeSame (r r' : Reverser) (searchPath : Option String) (name : ObjectName) : Prop where
  table : r.table? searchPath name = r'.table? searchPath name
  view : r.view? searchPath name = r'.view? searchPath name

variable {r r' : Reverser} {searchPath : Option String} {name : ObjectName}

theorem SeeSame.column (h : r.SeeSame r' searchPath name) (column : String) :
    r.column? searchPath name column = r'.column? searchPath name column := by
  rw [column?, column?, h.table]

theorem SeeSame.typedColumn (h : r.SeeSame r' searchPath name) (column : String) :
    r.typedColumn? searchPath name column = r'.typedColumn? searchPath name column := by
  rw [typedColumn?, typedColumn?, h.column]

theorem SeeSame.viewDefinition (h : r.SeeSame r' searchPath name) :
    r.viewDefinition? searchPath name = r'.viewDefinition? searchPath name := by
  rw [viewDefinition?, viewDefinition?, h.view]

/-- A reversal reads of the catalog only what the name in the statement stands for. -/
theorem undo_eq_of_sees (defaults : r.defaults = r'.defaults) {s : Statement}
    (same : ∀ n ∈ s.object?, r.SeeSame r' searchPath n) :
    r.undo searchPath s = r'.undo searchPath s := by
  cases s with
  | dropTable name =>
    rw [undo, undo, undoDropTable, undoDropTable, (same name rfl).table, defaults]
  | dropColumn table column written =>
    rw [undo, undo, undoDropColumn, undoDropColumn, (same table rfl).typedColumn]
  | modifyColumn table column definition written =>
    rw [undo, undo, undoModifyColumn, undoModifyColumn, (same table rfl).typedColumn]
  | createView name =>
    rw [undo, undo, undoCreateView, undoCreateView, (same name rfl).viewDefinition]
  | dropView name =>
    rw [undo, undo, undoDropView, undoDropView, (same name rfl).viewDefinition]
  | commentOnTable table comment =>
    rw [undo, undo, undoCommentOnTable, undoCommentOnTable, (same table rfl).table]
  | commentOnColumn table column comment =>
    rw [undo, undo, undoCommentOnColumn, undoCommentOnColumn, (same table rfl).view,
      (same table rfl).column]
  -- The other reversals are made of the statement alone.
  | _ => rfl

end Reverser

section

variable {c c' : Catalog} (defaults : TableDefaults)

/-- Reversers with catalogs that agree on a name see the same under it. -/
theorem Catalog.AgreeOn.seeSame {searchPath : Option String} {name : ObjectName}
    (h : c.AgreeOn c' searchPath name) :
    (Reverser.mk (some c) defaults).SeeSame ⟨some c', defaults⟩ searchPath name where
  table := h.table?_eq
  view := h.view?_eq

/-- A reversal looks up nothing but the object that the statement names. -/
theorem undo_eq_of_agreeOn {searchPath : Option String} {s : Statement}
    (agree : ∀ n ∈ s.object?, c.AgreeOn c' searchPath n) :
    (Reverser.mk (some c) defaults).undo searchPath s =
      (Reverser.mk (some c') defaults).undo searchPath s := by
  refine Reverser.undo_eq_of_sees ?_ fun n named => (agree n named).seeSame defaults
  rfl

/-! ## Files -/

namespace Batch

variable (style : BatchStyle)

/-- Catalogs that agree on the object of each statement give a script the same rollback. -/
theorem reverseScript_eq_of_agreeOn {script : String}
    (agree : ∀ p ∈ placeStatements none (Sql.actions script), ∀ n ∈ p.statement.object?,
      c.AgreeOn c' p.searchPath n) :
    (withCatalog (some c) defaults style).reverseScript script =
      (withCatalog (some c') defaults style).reverseScript script := by
  have same : (withCatalog (some c) defaults style).reversals (Sql.actions script) =
      (withCatalog (some c') defaults style).reversals (Sql.actions script) := by
    refine List.map_congr_left fun p mem => congrArg (Prod.mk p.text) ?_
    simp only [reversePlaced, withCatalog,
      undo_eq_of_agreeOn defaults (agree p (List.mem_reverse.1 mem))]
  simp only [reverseScript, reverseStatements, same]
  rfl

/-- The rollback of a file is made from its text; what the file is called stands beside it. -/
theorem reverseFile_eq_of_reverseScript {b b' : Batch} {script : String}
    (same : b.reverseScript script = b'.reverseScript script) (unit unit' : String)
    (file file' : DeploymentFile) :
    let rollback := b.reverseFile unit file script
    let rollback' := b'.reverseFile unit' file' script
    rollback.script = rollback'.script ∧ rollback.stats = rollback'.stats ∧
      rollback.files.map FileRollback.content = rollback'.files.map FileRollback.content := by
  simp only [reverseFile, same]
  split <;> exact ⟨rfl, rfl, rfl⟩

end Batch

/--
A reversal depends only on the object that the statement names. Two catalogs with the same table and
the same view under that name, as seen with the search path and as it stands, give the same
reversal. For a file it is enough that they agree so at each statement: then the text, the counts
and the contents of the rollback are the same, whatever the file and its unit are called.
-/
theorem rollback_eq_of_agreeOn (c c' : Catalog) (defaults : TableDefaults) :
    (∀ (searchPath : Option String) (s : Statement),
      (∀ n ∈ s.object?, c.AgreeOn c' searchPath n) →
        (Reverser.mk (some c) defaults).undo searchPath s =
          (Reverser.mk (some c') defaults).undo searchPath s) ∧
    ∀ (style : BatchStyle) (script : String),
      (∀ p ∈ placeStatements none (Sql.actions script), ∀ n ∈ p.statement.object?,
        c.AgreeOn c' p.searchPath n) →
      ∀ (unit unit' : String) (file file' : DeploymentFile),
        let rollback := (Batch.withCatalog (some c) defaults style).reverseFile unit file script
        let rollback' :=
          (Batch.withCatalog (some c') defaults style).reverseFile unit' file' script
        rollback.script = rollback'.script ∧ rollback.stats = rollback'.stats ∧
          rollback.files.map FileRollback.content = rollback'.files.map FileRollback.content :=
  ⟨fun _ _ agree => undo_eq_of_agreeOn defaults agree, fun style _ agree =>
    Batch.reverseFile_eq_of_reverseScript
      (Batch.reverseScript_eq_of_agreeOn defaults style agree)⟩

end

/-- A table with one column. -/
def notedTable : Table :=
  (Table.empty ⟨none, "t"⟩).withColumn "a" fun c =>
    { c with dataType := "INT", comment := some "old" }

/-- A catalog with one table. -/
def oneTableCatalog : Catalog :=
  { Catalog.empty with tables := KeyMap.ofList [("t", notedTable)] }

/-- A catalog with the same table, and with objects that have its name in other schemas. -/
def crowdedCatalog : Catalog :=
  { Catalog.empty with
    tables := KeyMap.ofList [("t", notedTable), ("u.t", .empty ⟨some "u", "t"⟩)]
    views := KeyMap.ofList [("w.t", .defined ⟨some "w", "t"⟩ "CREATE VIEW w.t AS SELECT 1;")] }

/-- One more table and one more view change nothing for a file that names neither. -/
theorem rollback_eq_of_agreeOn_crowded :
    let comment := Statement.commentOnColumn ⟨none, "t"⟩ "a" (some "new")
    let script := "SET search_path = s; DROP TABLE t;"
    let rollback (c : Catalog) (name : String) :=
      (Batch.withCatalog (some c) .none ⟨"undo_", false⟩).reverseFile "unit" ⟨name, name, none⟩
        script
    (∀ n ∈ comment.object?, oneTableCatalog.AgreeOn crowdedCatalog (some "s") n) ∧
      (Reverser.mk (some crowdedCatalog) .none).undo (some "s") comment =
        .statement "COMMENT ON COLUMN t.a IS 'old';" ∧
      (∀ p ∈ placeStatements none (Sql.actions script), ∀ n ∈ p.statement.object?,
        oneTableCatalog.AgreeOn crowdedCatalog p.searchPath n) ∧
      (rollback crowdedCatalog "b.sql").script = (rollback oneTableCatalog "a.sql").script := by
  have both := rollback_eq_of_agreeOn oneTableCatalog crowdedCatalog .none
  have agree : ∀ n ∈ (Statement.commentOnColumn ⟨none, "t"⟩ "a" (some "new")).object?,
      oneTableCatalog.AgreeOn crowdedCatalog (some "s") n := by
    decide +kernel
  have undone : (Reverser.mk (some oneTableCatalog) .none).undo (some "s")
      (.commentOnColumn ⟨none, "t"⟩ "a" (some "new")) =
        .statement "COMMENT ON COLUMN t.a IS 'old';" := by
    decide +kernel
  have placed : ∀ p ∈ placeStatements none (Sql.actions "SET search_path = s; DROP TABLE t;"),
      ∀ n ∈ p.statement.object?, oneTableCatalog.AgreeOn crowdedCatalog p.searchPath n := by
    decide +kernel
  have files := both.2 ⟨"undo_", false⟩ _ placed "unit" "unit" ⟨"a.sql", "a.sql", none⟩
    ⟨"b.sql", "b.sql", none⟩
  exact ⟨agree, (both.1 _ _ agree).symm.trans undone, placed, files.1.symm⟩

end Rollback

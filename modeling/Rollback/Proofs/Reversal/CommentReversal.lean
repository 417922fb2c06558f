import Rollback.Proofs.Schema.StoredComments
import Rollback.Reversal.Statement

/-!
# Reversals of comments

The reversal of a comment on a table or column sets the comment that is in the catalog. It names the
table as the statement does, and a stored comment is read again as it is stored, so applied after
the statement it leads back to the catalog of before. Only an absent comment is empty afterwards,
since there is no statement for its absence.

- `keptComment`, `Table.Kept`: what is left of a comment and of a table
- `Draft.KeptBut`: a draft of which one table has changed, and only so far
- `Draft.apply_undo_commentOnTable`, `Draft.apply_undo_commentOnColumn`: the two kinds of comments
- `exists_apply_undo_comment`: a comment and its reversal keep all tables and views
-/

set_option autoImplicit false

namespace Rollback

open Sql (Written)

/-! ## What is kept -/

/-- What is left of a comment: an absent one is empty, and any other is what it was. -/
def keptComment (comment : Option String) : Option String :=
  some (comment.getD "")

/-- A table is what it was, apart from one comment and from further files that mention it. -/
inductive Table.Kept (before : Table) : Table → Prop where
  | comment {sources : List String} (more : before.sources <+: sources) :
      Kept before { before with comment := keptComment before.comment, sources }
  | columnComment {k : String} {c : Column} {sources : List String}
      (known : before.columns.get? k = some c) (more : before.sources <+: sources) :
      Kept before
        { before with
          columns := before.columns.insert k { c with comment := keptComment c.comment }, sources }

/-- A draft is what it was, apart from the table at a key, which is kept. -/
structure Draft.KeptBut (key : String) (before after : Draft) : Prop where
  others : after = { before with catalog.tables := after.catalog.tables }
  tables : ∀ k, k ≠ key → after.catalog.tables.get? k = before.catalog.tables.get? k
  table : ∃ t u, before.catalog.tables.get? key = some t ∧
    after.catalog.tables.get? key = some u ∧ t.Kept u

theorem prefix_addSource (path : String) (sources : List String) :
    sources <+: addSource path sources := by
  rw [addSource]
  split
  · exact List.prefix_refl _
  · exact List.prefix_append _ _

namespace Table

variable {t : Table}

/-- The files that mention a table stay in front when two more mention it. -/
theorem prefix_withSource_withSource (t : Table) (path path' : String) :
    t.sources <+: ((t.withSource path).withSource path').sources :=
  (prefix_addSource path t.sources).trans (prefix_addSource path' _)

/-- The comment on a table, set to anything and then back. -/
theorem kept_comment (t : Table) (path path' : String) (comment : Option String) :
    t.Kept { ({ t.withSource path with comment } : Table).withSource path' with
      comment := keptComment t.comment } :=
  .comment (t.prefix_withSource_withSource path path')

/-- A change of a known column leaves its place and all other columns. -/
theorem withColumn_of_known {column : String} {c : Column} (known : t.column? column = some c)
    (change : Column → Column) :
    t.withColumn column change =
      { t with columns := t.columns.insert column.lowerCase (change c) } := by
  rw [withColumn, columnOrStub, known, Option.getD_some]

/-- The comment on a column, set to anything and then back. -/
theorem kept_columnComment {column : String} {c : Column} (known : t.column? column = some c)
    (path path' : String) (comment : Option String) :
    t.Kept
      ((((t.withSource path).withColumn column fun c => { c with comment }).withSource
        path').withColumn column fun d => { d with comment := keptComment c.comment }) := by
  have first : (t.withSource path).withColumn column (fun c => { c with comment }) =
      { t.withSource path with
        columns := t.columns.insert column.lowerCase { c with comment } } :=
    withColumn_of_known (t := t.withSource path) known _
  have changed : (((t.withSource path).withColumn column fun c => { c with comment }).withSource
      path').column? column = some { c with comment } := by
    rw [first]
    exact KeyMap.get?_insert_self _ _ _
  have kept := Kept.columnComment known (t.prefix_withSource_withSource path path')
  rw [withColumn_of_known changed, first]
  rw [← KeyMap.insert_insert _ _ ({ c with comment } : Column)] at kept
  exact kept

end Table

/-! ## Drafts -/

namespace Draft

variable {d : Draft} {name table : ObjectName} {t : Table} {stmt sql column : String}
  {comment : Option String} {defaults : TableDefaults}

theorem tableOrEmpty_of_stored (stored : d.catalog.tables.get? (d.resolve name).key = some t) :
    d.catalog.tableOrEmpty (d.resolve name) = t := by
  rw [Catalog.tableOrEmpty, stored, Option.getD_some]

/-- Two changes of a table that keep it keep the draft but for the table. -/
theorem keptBut_mentionTable {path path' : String} {f g : Table → Table}
    (stored : d.catalog.tables.get? (d.resolve name).key = some t)
    (kept : t.Kept (g ((f (t.withSource path)).withSource path'))) :
    d.KeptBut (d.resolve name).key ((d.mentionTable name path f).mentionTable name path' g) where
  others := rfl
  tables := by
    intro k other
    have first : (d.mentionTable name path f).catalog.tables.get? k = d.catalog.tables.get? k :=
      KeyMap.get?_insert_of_ne _ _ other
    exact (KeyMap.get?_insert_of_ne _ _ other).trans first
  table := by
    have first : (d.mentionTable name path f).catalog.tableOrEmpty (d.resolve name) =
        f (t.withSource path) := by
      rw [mentionTable, Catalog.tableOrEmpty_updateTable_of_eq rfl, tableOrEmpty_of_stored stored]
    refine ⟨t, _, stored, ?_, kept⟩
    rw [← first]
    exact KeyMap.get?_insert_self _ _ _

/-- A table that is stored under its name as seen with the search path is found by the reverser. -/
theorem table?_of_stored (stored : d.catalog.tables.get? (d.resolve table).key = some t) :
    (Reverser.mk (some d.catalog) defaults).table? d.searchPath table = some t := by
  have found : d.catalog.table? table d.searchPath = some t := by
    rw [Catalog.table?, KeyMap.resolve?, ← resolve, stored]
    rfl
  exact found

theorem written_getD (h : ∀ x ∈ comment, Written x.toList) :
    Written (comment.getD "").toList := by
  cases comment with
  | none => exact .nil
  | some x => exact h x rfl

/-- A comment on a table is undone by one with the comment that is stored. -/
theorem apply_undo_commentOnTable (written : t.CommentsWritten)
    (stored : d.catalog.tables.get? (d.resolve table).key = some t)
    (reads : Statement.ofText stmt = .commentOnTable table comment)
    (undone : (Reverser.mk (some d.catalog) defaults).undo d.searchPath (Statement.ofText stmt) =
      .statement sql) (path path' : String) :
    ∃ d₁ d₂, d.apply stmt path = .ok (d₁, .changed) ∧ d₁.apply sql path' = .ok (d₂, .changed) ∧
      d.KeptBut (d.resolve table).key d₂ := by
  have operands := Statement.hasCommentOperands_ofChars stmt.toList
  rw [← Statement.ofText, reads] at operands
  rw [reads, Reverser.undo, Reverser.undoCommentOnTable, table?_of_stored stored] at undone
  obtain rfl := Reversal.statement.inj undone
  have again : Statement.ofText (tableComment table.render (t.comment.getD "")) =
      .commentOnTable table (some (t.comment.getD "")) :=
    Statement.ofChars_tableComment operands.1 (written_getD written.table)
  refine ⟨_, _, apply_commentOnTable reads d path, apply_commentOnTable again _ path', ?_⟩
  exact keptBut_mentionTable stored (t.kept_comment path path' comment)

/-- A comment on a column is undone by one with the comment that is stored. -/
theorem apply_undo_commentOnColumn (written : t.CommentsWritten)
    (stored : d.catalog.tables.get? (d.resolve table).key = some t)
    (reads : Statement.ofText stmt = .commentOnColumn table column comment)
    (undone : (Reverser.mk (some d.catalog) defaults).undo d.searchPath (Statement.ofText stmt) =
      .statement sql) (path path' : String) :
    ∃ d₁ d₂, d.apply stmt path = .ok (d₁, .changed) ∧ d₁.apply sql path' = .ok (d₂, .changed) ∧
      d.KeptBut (d.resolve table).key d₂ := by
  have operands := Statement.hasCommentOperands_ofChars stmt.toList
  rw [← Statement.ofText, reads] at operands
  rw [reads, Reverser.undo, Reverser.undoCommentOnColumn] at undone
  split at undone
  · cases undone
  rename_i noView
  -- With a view of either name, the reversal would leave the comment to the view.
  have noView : d.catalog.views.contains (d.resolve table).key = false := by
    refine Bool.eq_false_iff.2 fun known => noView ?_
    obtain ⟨v, found⟩ := Option.isSome_iff_exists.1 known
    show (d.catalog.view? table d.searchPath).isSome = true
    rw [Catalog.view?, KeyMap.resolve?, ← resolve, found]
    rfl
  rw [Reverser.column?, table?_of_stored stored, Option.bind_some] at undone
  cases known : t.column? column with
  | none =>
    rw [known] at undone
    cases undone
  | some c =>
    rw [known] at undone
    obtain rfl := Reversal.statement.inj undone
    have again : Statement.ofText (columnComment table.render column (c.comment.getD "")) =
        .commentOnColumn table column (some (c.comment.getD "")) :=
      Statement.ofChars_columnComment operands.1 operands.2.1
        (written_getD (written.column _ c known))
    refine ⟨_, _, apply_commentOnColumn reads path noView, apply_commentOnColumn again path' noView,
      ?_⟩
    exact keptBut_mentionTable stored (t.kept_columnComment known path path' comment)

end Draft

/--
A comment on a table or column and then its reversal, applied to a draft after any calls, both
change the draft, and keep all tables and views. Only an absent comment of the table may have become
the empty one, and the files that mention the table may have become more. This holds whenever the
table is stored under its name as seen with the search path, and the reversal with respect to the
catalog of before is a statement.
-/
theorem exists_apply_undo_comment (calls : List Draft.Call) {d : Draft}
    (reached : d = Draft.afterCalls calls) (defaults : TableDefaults) {stmt sql : String}
    {table : ObjectName} (comments : (Statement.ofText stmt).CommentsOn table)
    (stored : d.catalog.tables.contains (d.resolve table).key = true)
    (undone : (Reverser.mk (some d.catalog) defaults).undo d.searchPath (Statement.ofText stmt) =
      .statement sql) (path path' : String) :
    ∃ d₁ d₂, d.apply stmt path = .ok (d₁, .changed) ∧ d₁.apply sql path' = .ok (d₂, .changed) ∧
      d.KeptBut (d.resolve table).key d₂ := by
  obtain ⟨t, stored⟩ := Option.isSome_iff_exists.1 stored
  have written : t.CommentsWritten := by
    subst reached
    exact Draft.commentsWritten_afterCalls calls _ t stored
  obtain ⟨comment, reads⟩ | ⟨column, comment, reads⟩ := comments
  · exact Draft.apply_undo_commentOnTable written stored reads undone path path'
  · exact Draft.apply_undo_commentOnColumn written stored reads undone path path'

/-- The statements after which a column has a comment with a doubled quote. -/
def commentedCalls : List Draft.Call :=
  [.apply "CREATE TABLE t (a INT, b INT);" "t.sql",
    .apply "COMMENT ON COLUMN t.a IS 'it''s';" "t.sql"]

/-- A comment with a doubled quote is removed and put back as it is stored. -/
theorem exists_apply_undo_comment_doubled :
    ∃ d₁ d₂, (Draft.afterCalls commentedCalls).apply "COMMENT ON COLUMN T.A IS NULL;" "c.sql" =
        .ok (d₁, .changed) ∧
      d₁.apply "COMMENT ON COLUMN T.A IS 'it''s';" "c.sql" = .ok (d₂, .changed) ∧
      (Draft.afterCalls commentedCalls).KeptBut
        ((Draft.afterCalls commentedCalls).resolve ⟨none, "T"⟩).key d₂ := by
  have reads : Statement.ofText "COMMENT ON COLUMN T.A IS NULL;" =
      .commentOnColumn ⟨none, "T"⟩ "A" none := by
    decide +kernel
  have stored : (Draft.afterCalls commentedCalls).catalog.tables.contains
      ((Draft.afterCalls commentedCalls).resolve ⟨none, "T"⟩).key = true := by
    decide +kernel
  have undone : (Reverser.mk (some (Draft.afterCalls commentedCalls).catalog) .none).undo
      (Draft.afterCalls commentedCalls).searchPath
      (Statement.ofText "COMMENT ON COLUMN T.A IS NULL;") =
        .statement "COMMENT ON COLUMN T.A IS 'it''s';" := by
    decide +kernel
  exact exists_apply_undo_comment commentedCalls rfl .none (.inr ⟨_, _, reads⟩) stored undone
    "c.sql" "c.sql"

end Rollback

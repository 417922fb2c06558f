import Rollback.Proofs.Reversal.CommentReversal

/-!
# Targets of column comments

A draft sets a comment on a column of the table that is stored under the name in the statement as
seen with the search path. The reversal looks for a view first, and for that under the bare name as
well. So the two mean the same column, unless the name has no schema, a schema is in effect, and a
view without a schema has that name: then nothing undoes the comment.

- `Draft.column?`: the column whose comment a statement sets
- `exists_apply_commentOnColumn`: what the statement does to that column
- `Reverser.undo_commentOnColumn_eq`: how it is undone
- `undo_commentOnColumn_restores`: the reversal sets the comment of before, unless a view hides the
  table
-/

set_option autoImplicit false

namespace Rollback

open Sql (Written)

/-- The column with a name in the table that is stored under a name as seen with the search path. -/
def Draft.column? (d : Draft) (table : ObjectName) (column : String) : Option Column :=
  (d.catalog.tables.get? (d.resolve table).key).bind fun t => t.column? column

variable {d : Draft} {table : ObjectName} {column stmt : String} {comment : Option String}
  {c : Column}

/-! ## The draft -/

/-- A change of a known column is seen under its name. -/
theorem Draft.column?_mentionTable (known : d.column? table column = some c) (path : String)
    (change : Column → Column) :
    (d.mentionTable table path fun t => t.withColumn column change).column? table column =
      some (change c) := by
  obtain ⟨t, stored, inTable⟩ := Option.bind_eq_some_iff.1 known
  have after : (d.mentionTable table path fun t => t.withColumn column change).catalog.tables.get?
      (d.resolve table).key = some ((t.withSource path).withColumn column change) := by
    rw [← Draft.tableOrEmpty_of_stored stored]
    exact KeyMap.get?_insert_self _ _ _
  have changed : (t.withSource path).withColumn column change =
      { t.withSource path with columns := t.columns.insert column.lowerCase (change c) } :=
    Table.withColumn_of_known (t := t.withSource path) inTable change
  refine Option.bind_eq_some_iff.2 ⟨_, after, ?_⟩
  rw [changed]
  exact KeyMap.get?_insert_self _ _ _

/-- Without a view of its own name, a known column gets the comment of the statement. -/
theorem exists_apply_commentOnColumn
    (reads : Statement.ofText stmt = .commentOnColumn table column comment)
    (noView : d.catalog.views.contains (d.resolve table).key = false)
    (known : d.column? table column = some c) (path : String) :
    ∃ d₁, d.apply stmt path = .ok (d₁, .changed) ∧
      d₁.catalog.views = d.catalog.views ∧ d₁.searchPath = d.searchPath ∧
      d₁.column? table column = some { c with comment } :=
  ⟨_, Draft.apply_commentOnColumn reads path noView, rfl, rfl,
    Draft.column?_mentionTable known path fun c => { c with comment }⟩

/-! ## The reversal -/

/-- Only a view under the bare name keeps the reversal from the stored column. -/
theorem Reverser.undo_commentOnColumn_eq (defaults : TableDefaults)
    (noView : d.catalog.views.contains (d.resolve table).key = false)
    (known : d.column? table column = some c) :
    (Reverser.mk (some d.catalog) defaults).undo d.searchPath
        (.commentOnColumn table column comment) =
      if d.catalog.views.contains table.key then .skipped
      else .statement (columnComment table.render column (c.comment.getD "")) := by
  obtain ⟨t, stored, inTable⟩ := Option.bind_eq_some_iff.1 known
  have view : ((Reverser.mk (some d.catalog) defaults).view? d.searchPath table).isSome =
      d.catalog.views.contains table.key := by
    -- There is no view under the resolved key, so the look-up goes on to the bare one.
    have absent : d.catalog.views.get? (d.resolve table).key = none :=
      Option.not_isSome_iff_eq_none.1 (Bool.eq_false_iff.1 noView)
    show (d.catalog.views.get? (d.resolve table).key <|> d.catalog.views.get? table.key).isSome = _
    rw [absent]
    rfl
  rw [undo, undoCommentOnColumn, view, column?, Draft.table?_of_stored stored, Option.bind_some,
    inTable]

/-- A view under the bare name is another object only if a schema is in effect for that name. -/
theorem unqualified_of_hidden (noView : d.catalog.views.contains (d.resolve table).key = false)
    (hidden : d.catalog.views.contains table.key = true) :
    table.isQualified = false ∧ d.searchPath.isSome = true := by
  have moved : d.resolve table ≠ table := fun same => by
    rw [same, hidden] at noView
    cases noView
  constructor
  · exact Bool.eq_false_iff.2 fun qualified => moved (ObjectName.resolve_of_qualified qualified _)
  · cases path : d.searchPath with
    | some schema => rfl
    | none =>
      refine absurd ?_ moved
      rw [Draft.resolve, path, ObjectName.resolve_none]

/--
A comment that a draft sets on a known column is undone by a statement with the comment of before,
which a draft reads as one on the same column and which brings a stored comment back. The only
exception is a table without a schema in its name that is found with the search path, while a view
has the bare name: then the comment is taken for one on that view, and nothing undoes it.
-/
theorem undo_commentOnColumn_restores
    (reads : Statement.ofText stmt = .commentOnColumn table column comment)
    (noView : d.catalog.views.contains (d.resolve table).key = false)
    (known : d.column? table column = some c) (defaults : TableDefaults) (path path' : String) :
    let back := columnComment table.render column (c.comment.getD "")
    ∃ d₁, d.apply stmt path = .ok (d₁, .changed) ∧
      d₁.column? table column = some { c with comment } ∧
      (Reverser.mk (some d.catalog) defaults).undo d.searchPath (Statement.ofText stmt) =
        (if d.catalog.views.contains table.key then .skipped else .statement back) ∧
      (d.catalog.views.contains table.key = true →
        table.isQualified = false ∧ d.searchPath.isSome = true) ∧
      ((∀ x ∈ c.comment, Written x.toList) →
        ∃ d₂, d₁.apply back path' = .ok (d₂, .changed) ∧
          d₂.column? table column = some { c with comment := keptComment c.comment }) := by
  obtain ⟨d₁, applied, views, searchPath, set⟩ :=
    exists_apply_commentOnColumn reads noView known path
  refine ⟨d₁, applied, set, ?_, unqualified_of_hidden noView, fun written => ?_⟩
  · rw [reads, Reverser.undo_commentOnColumn_eq defaults noView known]
  · have operands := Statement.hasCommentOperands_ofChars stmt.toList
    rw [← Statement.ofText, reads] at operands
    have again : Statement.ofText (columnComment table.render column (c.comment.getD "")) =
        .commentOnColumn table column (some (c.comment.getD "")) :=
      Statement.ofChars_columnComment operands.1 operands.2.1 (Draft.written_getD written)
    have noView : d₁.catalog.views.contains (d₁.resolve table).key = false := by
      rw [Draft.resolve, views, searchPath]
      exact noView
    obtain ⟨d₂, reverted, -, -, restored⟩ := exists_apply_commentOnColumn again noView set path'
    exact ⟨d₂, reverted, restored⟩

/-- A view without a schema, and then a table of the same name in the schema in effect. -/
def hiddenTableCalls : List Draft.Call :=
  [.apply "CREATE VIEW t AS SELECT 1;" "v.sql", .apply "SET search_path = s;" "t.sql",
    .apply "CREATE TABLE t (a INT);" "t.sql", .apply "COMMENT ON COLUMN t.a IS 'old';" "t.sql"]

/-- With its schema, the name stands for the table only. -/
theorem undo_commentOnColumn_restores_qualified :
    let d := Draft.afterCalls hiddenTableCalls
    let table : ObjectName := ⟨some "s", "t"⟩
    Statement.ofText "COMMENT ON COLUMN s.t.a IS 'new';" =
        .commentOnColumn table "a" (some "new") ∧
      d.catalog.views.contains (d.resolve table).key = false ∧
      d.column? table "a" = some { Column.declared "a" "INT" 0 with comment := some "old" } ∧
      (Reverser.mk (some d.catalog) .none).undo d.searchPath
          (Statement.ofText "COMMENT ON COLUMN s.t.a IS 'new';") =
        .statement "COMMENT ON COLUMN s.t.a IS 'old';" ∧
      ∃ d₁, d.apply "COMMENT ON COLUMN s.t.a IS 'new';" "c.sql" = .ok (d₁, .changed) ∧
        (d₁.column? table "a").map Column.comment = some (some "new") := by
  intro d table
  have reads : Statement.ofText "COMMENT ON COLUMN s.t.a IS 'new';" =
      .commentOnColumn table "a" (some "new") := by
    decide +kernel
  have noView : (Draft.afterCalls hiddenTableCalls).catalog.views.contains
      ((Draft.afterCalls hiddenTableCalls).resolve ⟨some "s", "t"⟩).key = false := by
    decide +kernel
  have known : (Draft.afterCalls hiddenTableCalls).column? ⟨some "s", "t"⟩ "a" =
      some { Column.declared "a" "INT" 0 with comment := some "old" } := by
    decide +kernel
  have bare : (Draft.afterCalls hiddenTableCalls).catalog.views.contains "s.t" = false := by
    decide +kernel
  obtain ⟨d₁, applied, set, undone, -, -⟩ :=
    undo_commentOnColumn_restores reads noView known .none "c.sql" "c.sql"
  refine ⟨reads, noView, known, undone.trans ?_, d₁, applied, ?_⟩
  · exact if_neg (Bool.eq_false_iff.1 bare)
  · exact congrArg (Option.map Column.comment) set

/-- Without it, the comment on the column of the table is not undone. -/
theorem undo_commentOnColumn_hidden :
    let d := Draft.afterCalls hiddenTableCalls
    let table : ObjectName := ⟨none, "t"⟩
    Statement.ofText "COMMENT ON COLUMN t.a IS 'new';" =
        .commentOnColumn table "a" (some "new") ∧
      d.catalog.views.contains (d.resolve table).key = false ∧
      (d.column? table "a").map Column.comment = some (some "old") ∧
      (Reverser.mk (some d.catalog) .none).undo d.searchPath
        (Statement.ofText "COMMENT ON COLUMN t.a IS 'new';") = .skipped := by
  decide +kernel

end Rollback

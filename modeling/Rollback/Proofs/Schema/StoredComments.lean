import Rollback.Proofs.Schema.DeclarationOrder
import Rollback.Proofs.Sql.CommentOperands

/-!
# Stored comments

A statement changes one table in one of three ways, so what holds of a new table and is preserved by
these holds of all tables of a draft. One such property is that the comments of a table and its
columns can be written between quotes again: they come from statements, which have them between
quotes.

- `Table.Step`: what a statement does to the table that it mentions
- `Draft.tables_applyTrimmed`: what a statement does to the tables of a draft
- `Draft.table_induction`: what every step preserves holds of every table
- `Table.CommentsWritten`: comments that can be written again
- `Draft.commentsWritten_afterCalls`: all comments of a draft are such
-/

set_option autoImplicit false

namespace Rollback

open Sql (Written)

/-- What a statement does to the table that it mentions. -/
inductive Table.Step : (Table → Table) → Prop where
  | declare (n : ObjectName) (d : Declaration) : Step fun t => t.declare n d
  | comment (comment : Option String) (written : ∀ x ∈ comment, Written x.toList) :
      Step fun t => { t with comment }
  | columnComment (column : String) (comment : Option String)
      (written : ∀ x ∈ comment, Written x.toList) :
      Step fun t => t.withColumn column fun c => { c with comment }

namespace Draft

variable {d d' : Draft} {source : String}

/-- A statement leaves the tables as they are or does one of these things to one of them. -/
theorem tables_applyTrimmed {stmt : List Char} {did : Applied}
    (h : d.applyTrimmed stmt source = .ok (d', did)) :
    d'.catalog.tables = d.catalog.tables ∨
      ∃ n change, Table.Step change ∧
        d'.catalog.tables = (d.mentionTable n source change).catalog.tables := by
  have operands := Statement.hasCommentOperands_ofChars stmt
  cases effect_applyTrimmed h with
  | @table name declaration kind read => exact .inr ⟨name, _, .declare _ declaration, rfl⟩
  | @tableComment table comment kind =>
    rw [kind] at operands
    exact .inr ⟨table, _, .comment comment operands.2, rfl⟩
  | @columnComment table column comment kind unknown =>
    rw [kind] at operands
    exact .inr ⟨table, _, .columnComment column comment operands.2.2, rfl⟩
  | _ => exact .inl rfl

section

variable {p : Table → Prop} (new : ∀ n, p (Table.empty n))
  (withSource : ∀ t path, p t → p (t.withSource path))
  (step : ∀ change, Table.Step change → ∀ t, p t → p (change t))

include new withSource step in

/-- What the empty table has and all changes keep is kept by a statement for all tables. -/
theorem tables_of_applyTrimmed (h : ∀ k t, d.catalog.tables.get? k = some t → p t)
    {stmt : List Char} {did : Applied} (hd : d.applyTrimmed stmt source = .ok (d', did)) :
    ∀ k t, d'.catalog.tables.get? k = some t → p t := by
  rcases tables_applyTrimmed hd with same | ⟨n, change, did, changed⟩
  · rw [same]
    exact h
  · intro k t found
    rw [changed] at found
    simp only [mentionTable, Catalog.updateTable, KeyMap.get?_insert] at found
    split at found
    · obtain rfl := Option.some.inj found
      refine step _ did _ (withSource _ _ ?_)
      rw [Catalog.tableOrEmpty]
      cases known : d.catalog.tables.get? (d.resolve n).key with
      | none => exact new _
      | some t => exact h _ t known
    · exact h k t found

include new withSource step in
/-- What holds of a table without columns, and is preserved by the steps, holds of every table of a
draft after any calls. -/
theorem table_induction (calls : List Call) :
    ∀ k t, (afterCalls calls).catalog.tables.get? k = some t → p t :=
  afterCalls_induction (P := fun d => ∀ k t, d.catalog.tables.get? k = some t → p t)
    (by rintro k t ⟨⟩)
    (fun h applied => tables_of_applyTrimmed new withSource step h applied) (fun _ _ h => h) calls

end

end Draft

/-! ## Comments -/

/-- The comments of a table and its columns can be written between quotes. -/
structure Table.CommentsWritten (t : Table) : Prop where
  table : ∀ x ∈ t.comment, Written x.toList
  column : ∀ k c, t.columns.get? k = some c → ∀ x ∈ c.comment, Written x.toList

namespace Table.CommentsWritten

variable {t : Table}

theorem empty (name : ObjectName) : CommentsWritten (Table.empty name) where
  table := by
    rintro x ⟨⟩
  column := by
    intro k c found
    cases found

/-- A declaration keeps the comments on the columns that it names, and those on the others. -/
theorem declare (h : CommentsWritten t) (n : ObjectName) (d : Declaration) :
    CommentsWritten (t.declare n d) where
  table := h.table
  column := by
    intro k c found
    rcases get?_declare_cases found with ⟨e, -, rfl⟩ | ⟨-, before, known, rfl⟩
    · cases known : t.columns.get? k with
      | none => rintro x ⟨⟩
      | some before => exact h.column k before known
    · exact h.column k before known

/-- A written comment on a column is kept as one. -/
theorem withColumn (h : CommentsWritten t) (column : String) {comment : Option String}
    (written : ∀ x ∈ comment, Written x.toList) :
    CommentsWritten (t.withColumn column fun c => { c with comment }) where
  table := h.table
  column := by
    intro k c found
    rw [get?_withColumn] at found
    split at found
    · obtain rfl := Option.some.inj found
      exact written
    · exact h.column k c found

theorem step (h : CommentsWritten t) {change : Table → Table} (did : Step change) :
    CommentsWritten (change t) := by
  cases did with
  | declare n d => exact h.declare n d
  | comment comment written => exact ⟨written, h.column⟩
  | columnComment column comment written => exact h.withColumn column written

end Table.CommentsWritten

/-- All comments of a draft after any calls can be written between quotes. -/
theorem Draft.commentsWritten_afterCalls (calls : List Call) :
    ∀ k t, (afterCalls calls).catalog.tables.get? k = some t → t.CommentsWritten :=
  table_induction .empty
    (fun _ _ h => ⟨h.table, h.column⟩) (fun _ did _ h => h.step did) calls

end Rollback

import Rollback.Proofs.Reversal.Endings
import Rollback.Proofs.Schema.TableNames
import Rollback.Proofs.Sql.CanonicalScripts

/-!
# Drops of all tables

The script that drops the tables of a catalog has one part for each table, the last key first. A
part is one statement, which drops the table by a name that has its key: the name is plain code if
it has no pair of dashes, and the note before the statement is one comment, whatever the comment on
the table holds.

- `statementTexts_plainCode`: plain code up to a semicolon is one statement
- `isSingleComment_dropNote`: a note is one comment
- `DropsOnly`: a text that drops a table and does nothing else
- `Table.IsNamed.dropsOnly`: what is written for a table drops it
- `drops_coverTables`: the script drops each table of a catalog once
-/

set_option autoImplicit false

namespace Rollback

open Text Sql

/-! ## Plain code as a statement -/

namespace Sql

/-- Trimmed plain code is read as it is. -/
theorem IsPlainCode.readsAs {s : List Char} (h : IsPlainCode s) (trimmed : Trimmed s) :
    ReadsAs s (s.map .code) where
  reading := by
    have all := isReading_lex .code s
    rwa [h.lex_eq] at all
  spells := by
    rw [Spell, List.map_map]
    rfl
  trimmed := trimmed

/-- Plain code up to a semicolon is one statement. -/
theorem statementTexts_plainCode {s : List Char} (h : IsPlainCode s) (clean : ';' ∉ s)
    (nonempty : s ≠ []) (first : ∀ c ∈ s.head?, Text.isBlank c = false) :
    statementTexts (s ++ [';']) = [s ++ [';']] := by
  have code : IsPlainCode (s ++ [';']) := h.before (by decide)
  have reads := code.readsAs (trimmed_of_body nonempty first)
  refine reads.statementTexts_eq (.inl ⟨s.map .code, List.map_append, ?_⟩) ?_
  · intro l mem
    obtain ⟨c, inside, rfl⟩ := List.mem_map.1 mem
    exact beq_eq_false_iff_ne.2 fun same => clean (Lexeme.code.inj same ▸ inside)
  · obtain ⟨c, more, rfl⟩ := List.exists_cons_of_ne_nil nonempty
    exact isSubstantial_of_mem List.mem_cons_self (first c rfl)
      fun same => clean (same ▸ List.mem_cons_self)

end Sql

/-- A bare name without a pair of dashes is plain code. -/
theorem BareObject.isPlainCode {n : ObjectName} (h : BareObject n)
    (dashes : LacksPair '-' '-' n.render.toList) : IsPlainCode n.render.toList where
  chars := h.forall_chars (by decide) fun _ => forall_identifierChar
    (p := fun c => opensLiteral c = false ∧ c ≠ '/' ∧ c ≠ '*') (by decide)
  dashes := dashes

/-- A written DROP TABLE is one statement. -/
theorem statements_tableDrop {n : ObjectName} (h : BareObject n)
    (dashes : LacksPair '-' '-' n.render.toList) :
    statements (tableDrop n.render) = [tableDrop n.render] := by
  have clean : ';' ∉ "DROP TABLE IF EXISTS ".toList ++ n.render.toList := by
    rw [List.mem_append, not_or]
    refine ⟨by decide, fun mem => ?_⟩
    exact h.forall_chars (p := (· ≠ ';')) (by decide)
      (fun _ => forall_identifierChar (p := (· ≠ ';')) (by decide)) _ mem rfl
  have all := statementTexts_plainCode ((h.isPlainCode dashes).after (by decide)) clean
    (List.cons_ne_nil _ _) (by simp +decide)
  rw [← toList_tableDrop] at all
  rw [statements, all, List.map_singleton, String.ofList_toList]

/-! ## Notes -/

variable {t : Table} {n : ObjectName} {key : String}

/-- The note on a table is one comment, whatever the comment on the table holds. -/
theorem isSingleComment_dropNote (h : t.IsNamed n) :
    IsSingleComment (blockComment t.dropNote).toList := by
  rw [isSingleComment_iff]
  have name : '*' ∉ n.render.toList := fun mem => h.bare.forall_chars (p := (· ≠ '*')) (by decide)
    (fun _ => forall_identifierChar (p := (· ≠ '*')) (by decide)) _ mem rfl
  have start : '*' ∉ ("table: " ++ n.render).toList := by
    rw [String.toList_append, List.mem_append, not_or]
    exact ⟨by decide, name⟩
  rw [Table.dropNote, h.qualifiedName_eq]
  cases t.comment with
  | none => exact IsCommentable.of_star_notMem start
  | some comment =>
    have before : '*' ∉ ("table: " ++ n.render ++ " (").toList := by
      rw [String.toList_append, List.mem_append, not_or]
      exact ⟨start, by decide⟩
    exact (IsCommentable.append_iff_left (by decide)).2
      ((IsCommentable.append_iff_right before).2 (IsCommentable.softenCommentEnds comment))

/-! ## Parts of the script -/

/-- The text is one statement, up to blanks and comments, and it drops the table with a key. -/
def DropsOnly (key text : String) : Prop :=
  ∃ stmt name, statements text = [stmt] ∧ Statement.ofText stmt = .dropTable name ∧ name.key = key

/-- What is written to drop a table does so, with and without a note. -/
theorem Table.IsNamed.dropsOnly (h : t.IsNamed n) (dashes : LacksPair '-' '-' t.fullName.toList)
    (annotate : Bool) : DropsOnly n.key (t.drop annotate) := by
  rw [h.fullName] at dashes
  have single := statements_tableDrop h.bare dashes
  refine ⟨tableDrop n.render, n, ?_, Statement.ofChars_tableDrop h.bare, rfl⟩
  rw [Table.drop]
  cases annotate with
  | false =>
    rw [if_neg Bool.false_ne_true, h.qualifiedName_eq]
    exact single
  | true =>
    have note := isSingleComment_dropNote h
    have text : (blockComment t.dropNote ++ "\n" ++ tableDrop n.render).toList =
        (blockComment t.dropNote).toList ++ '\n' :: (tableDrop n.render).toList := by simp
    rw [if_pos rfl, h.qualifiedName_eq, statements, text,
      statementTexts_append_newline note.endsStatements, statementTexts_of_isSingleComment note,
      List.nil_append, ← statements, single]

/-! ## The script -/

/--
After any statements and files that set no other search paths than identifiers, if no table has a
name with a pair of dashes, the script that drops all tables has one part for each table, with the
keys in descending order, with and without notes. Each part is one statement up to blanks and
comments, and drops the table with its key.
-/
theorem drops_coverTables {calls : List Draft.Call} (paths : Draft.SetsBarePaths calls)
    (time : Option Instant) (annotate : Bool)
    (dashes : ∀ t ∈ ((Draft.afterCalls calls).finish time).tables.values,
      LacksPair '-' '-' t.fullName.toList) :
    let c := (Draft.afterCalls calls).finish time
    c.tables.keys.reverse.Pairwise (· > ·) ∧
      List.Forall₂ DropsOnly c.tables.keys.reverse (c.drops annotate) := by
  refine ⟨KeyMap.pairwise_reverse_keys _, ?_⟩
  rw [Catalog.drops, KeyMap.keys, KeyMap.values, ← List.map_reverse, ← List.map_reverse,
    List.map_map, List.forall₂_map_left_iff, List.forall₂_map_right_iff, List.forall₂_same]
  rintro ⟨k, t⟩ mem
  rw [List.mem_reverse] at mem
  obtain ⟨n, rfl, named⟩ := Draft.exists_isNamed_afterCalls paths mem
  exact named.dropsOnly (dashes t (List.mem_map_of_mem mem)) annotate

/-- A file with a search path and a comment full of marks, and a statement with a quoted name. -/
def markedCalls : List Draft.Call :=
  [.ingest "orders.sql"
    "SET search_path = App;\nCREATE TABLE Orders (Id INT);\nCOMMENT ON TABLE orders IS '*/ ; -- \x22 /*';",
    .apply "CREATE TABLE \x22Public\x22.\x22Change-Log\x22 (Line TEXT)" "log.sql"]

/-- The keys, names and comments of the tables after these calls. -/
def markedTables : List (String × String × Option String) :=
  [("app.orders", "app.Orders", some "*/ ; -- \x22 /*"),
    ("public.change-log", "Public.Change-Log", none)]

theorem entries_markedCalls :
    ((Draft.afterCalls markedCalls).catalog.tables.entries.map fun e =>
      (e.1, e.2.fullName, e.2.comment)) = markedTables := by
  decide +kernel

/-- The comment of one table does not get out of its note, and both tables are dropped by their
keys. -/
theorem drops_coverTables_marked :
    let c := (Draft.afterCalls markedCalls).finish none
    c.tables.keys.reverse = ["public.change-log", "app.orders"] ∧
      List.Forall₂ DropsOnly ["public.change-log", "app.orders"] (c.drops true) := by
  have paths : ∀ c ∈ Draft.oneByOne markedCalls, ∀ s ∈ c.searchPath?, PlainName s := by
    decide +kernel
  have dashes : ∀ e ∈ markedTables, LacksPair '-' '-' e.2.1.toList := by decide
  rw [← entries_markedCalls, List.forall_mem_map] at dashes
  have keys := congrArg (List.map Prod.fst) entries_markedCalls
  rw [List.map_map] at keys
  have reversed : ((Draft.afterCalls markedCalls).finish none).tables.keys.reverse =
      ["public.change-log", "app.orders"] :=
    congrArg List.reverse keys
  refine ⟨reversed, ?_⟩
  rw [← reversed]
  exact (drops_coverTables (fun c mem s set => (paths c mem s set).bare) none true
    (List.forall_mem_map.2 dashes)).2

end Rollback

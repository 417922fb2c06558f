import Rollback.Deployment.Batch
import Rollback.Proofs.Lists
import Rollback.Proofs.Reversal.Endings

/-!
# Bounds of statements in a rollback

The rollback of a file is the text of its reversals with empty lines between them. It is cut into
the statements of the single reversals if each of them but the last ends its statements. All
reversals do, apart from what they repeat of a catalog as it was written: the definition of a view
that a file ends without a semicolon runs together with the reversal after it.

- `Batch.renderings`: the texts of the reversals in a rollback
- `statements_reverseScript`: a rollback is cut into the statements of its reversals
-/

set_option autoImplicit false

namespace Rollback

/-- The texts that stand in the rollback of a script, the last statement first. -/
def Batch.renderings (b : Batch) (script : String) : List String :=
  (b.reversals (Sql.actions script)).filterMap fun (_, reversal) => reversal.script?

theorem statement_of_mem_placeStatements {stmts : List String} :
    ∀ {searchPath : Option String} {p : PlacedStatement},
      p ∈ placeStatements searchPath stmts → p.statement = Statement.ofText p.text := by
  induction stmts with
  | nil => exact fun mem => nomatch mem
  | cons text rest ih =>
    intro searchPath p mem
    rw [placeStatements] at mem
    rcases List.mem_cons.1 mem with rfl | mem
    · rfl
    · exact ih mem

/-- The texts of a rollback are those of the statements in backward order that have one. -/
theorem Batch.renderings_eq (b : Batch) (script : String) :
    ∃ createsOnly, b.renderings script =
      (placeStatements none (Sql.actions script)).reverse.filterMap fun p =>
        (b.reversePlaced createsOnly p).script? :=
  ⟨_, List.filterMap_map⟩

/-- What stands in a rollback for a statement is the reversal of it or nothing. -/
theorem Batch.undo_of_reversePlaced (b : Batch) {createsOnly : Bool} {p : PlacedStatement}
    {text : String} (h : (b.reversePlaced createsOnly p).script? = some text) :
    (b.reverser.undo p.searchPath p.statement).script? = some text := by
  rw [Batch.reversePlaced] at h
  split at h
  · cases h
  · exact h

/--
Without annotations, a rollback is cut into the statements of its reversals, if the names in all
statements but the first start no comment and the stored texts that their reversals repeat leave
plain code as it was.
-/
theorem statements_reverseScript (b : Batch) (bare : b.style.annotate = false) (script : String)
    (h : ∀ p ∈ (placeStatements none (Sql.actions script)).tail,
      p.statement.LacksDashes ∧ b.reverser.WritesClosed p.searchPath p.statement) :
    Sql.statements (b.reverseScript script).1 = (b.renderings script).flatMap Sql.statements := by
  have passages : (b.reversals (Sql.actions script)).filterMap (fun (stmt, reversal) =>
      b.passage? stmt reversal) = b.renderings script := by
    refine List.filterMap_congr fun (stmt, reversal) _ => ?_
    simp [Batch.passage?, bare]
  have ended : ∀ part ∈ ((b.renderings script).map String.toList).dropLast,
      Sql.EndsStatements part := by
    intro part hpart
    rw [← List.map_dropLast] at hpart
    obtain ⟨text, mem, rfl⟩ := List.mem_map.1 hpart
    obtain ⟨createsOnly, all⟩ := b.renderings_eq script
    rw [all] at mem
    obtain ⟨p, hp, found⟩ := mem_tail_of_mem_dropLast mem
    obtain ⟨dashes, closed⟩ := h p hp
    have same := statement_of_mem_placeStatements (List.mem_of_mem_tail hp)
    have names : p.statement.HasIdentifiers := same ▸ Statement.hasIdentifiers_ofText p.text
    exact b.reverser.endsStatements_of_undo p.searchPath names dashes closed
      (b.undo_of_reversePlaced found)
  have text : (b.reverseScript script).1.toList =
      ['\n', '\n'].intercalate ((b.renderings script).map String.toList) := by
    rw [Batch.reverseScript, Batch.reverseStatements, passages, Text.join,
      String.toList_intercalate]
    rfl
  rw [Sql.statements, text, Sql.statementTexts_join_of_endsStatements ended, List.flatMap_map,
    List.map_flatMap]
  rfl

/-- A rollback without annotations, with the catalog of one file that creates a view. -/
def afterView (definition : String) : Batch :=
  ⟨⟨(Draft.ofFiles [("v.sql", definition)]).catalog, .none⟩, ⟨"rollback_", false⟩⟩

/-- A file that creates a table and drops the view. -/
def viewDrop : String := "CREATE TABLE t (id INT); DROP VIEW v;"

theorem tail_placeStatements_viewDrop :
    (placeStatements none (Sql.actions viewDrop)).tail =
      [⟨"DROP VIEW v;", .dropView ⟨none, "v"⟩, none⟩] := rfl

theorem viewDefinition?_afterView :
    (afterView "CREATE VIEW v AS SELECT 1;").reverser.viewDefinition? none ⟨none, "v"⟩ =
      some "CREATE VIEW v AS SELECT 1;" := by
  decide +kernel

/-- A view whose definition ends is put back by a statement of its own. -/
theorem statements_reverseScript_endedView :
    Sql.statements ((afterView "CREATE VIEW v AS SELECT 1;").reverseScript viewDrop).1 =
      ["CREATE VIEW v AS SELECT 1;", "DROP TABLE IF EXISTS t;"] := by
  have closed : ∀ p ∈ (placeStatements none (Sql.actions viewDrop)).tail,
      p.statement.LacksDashes ∧
        (afterView "CREATE VIEW v AS SELECT 1;").reverser.WritesClosed p.searchPath
          p.statement := by
    rw [tail_placeStatements_viewDrop]
    intro p hp
    obtain rfl := List.mem_singleton.1 hp
    refine ⟨fun x hx => ?_, fun text known => ?_⟩
    · obtain rfl := List.mem_singleton.1 hx
      decide
    · obtain rfl := Option.some.inj (viewDefinition?_afterView.symm.trans known)
      decide
  rw [statements_reverseScript (afterView "CREATE VIEW v AS SELECT 1;") rfl viewDrop closed]
  decide +kernel

/-- The definition of a view that ends without a semicolon takes the next reversal with it. -/
theorem statements_reverseScript_openView :
    Sql.statements ((afterView "CREATE VIEW v AS SELECT 1").reverseScript viewDrop).1 =
        ["CREATE VIEW v AS SELECT 1\n\nDROP TABLE IF EXISTS t;"] ∧
      ((afterView "CREATE VIEW v AS SELECT 1").renderings viewDrop).flatMap Sql.statements =
        ["CREATE VIEW v AS SELECT 1", "DROP TABLE IF EXISTS t;"] :=
  ⟨by decide +kernel, by decide +kernel⟩

end Rollback

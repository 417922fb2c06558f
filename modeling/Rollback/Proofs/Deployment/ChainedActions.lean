import Rollback.Proofs.Deployment.CatalogUse
import Rollback.Proofs.Lists
import Rollback.Proofs.Sql.ActionExpansion
import Rollback.Proofs.Sql.ViewStatements
import Rollback.Schema.Draft

/-!
# Chained actions alone and in a file

An ALTER TABLE statement that chains actions can be undone alone or as the only statement of a file.
Both ways undo the same actions, the last one first, and differ only in what stands between the
texts. An action never creates a table, sets the search path or comments on anything, so in a file
it is undone without a search path, and none of its reversals is left out.

- `Statement.AltersOnly`: statements that do not change how others are undone and are never left out
- `Statement.altersOnly_ofText_of_chained`: chained actions are such statements
- `Batch.reversals_of_altersOnly`: how a file of such statements is undone
- `reverse_reverseScript_of_chained`: the two ways agree
-/

set_option autoImplicit false

namespace Rollback

/-! ## What an action is -/

namespace Statement

/-- The statement neither creates a table, nor sets the search path, nor comments on an object. -/
structure AltersOnly (s : Statement) : Prop where
  table : s.isCreateTable = false
  path : s.isSetSearchPath = false
  comment : s.isComment = false

open Sql Pattern

/-- A text that starts with the letter A creates no table, sets no search path and is no comment. -/
theorem altersOnly_ofChars {text : List Char}
    (start : startsIn (.same 'A') (Text.trim text) = true) : (ofChars text).AltersOnly := by
  have refuse {p : Phrase} {d : Char} (first : p.firsts = (.same d, false))
      (other : 'A'.toLower ≠ d.toLower) : p.match? (Text.trim text) = none := by
    refine (stuck_of_firsts (congrArg Prod.snd first) ?_).match?
    rw [first]
    exact startsIn_same_eq_false other start
  cases read : ofChars text with
  | createTable name =>
    have made : createTable? (Text.trim text) = some (.createTable name) := ruleOf_ofChars read rfl
    rw [createTable?, refuse (d := 'C') rfl (by decide)] at made
    cases made
  | setSearchPath schema =>
    have made : setSearchPath? (Text.trim text) = some (.setSearchPath schema) :=
      ruleOf_ofChars read rfl
    rw [setSearchPath?, refuse (d := 'S') rfl (by decide)] at made
    cases made
  | commentOnTable | commentOnColumn | commentOnView =>
    have comment : (ofChars text).isComment = true := by rw [read]; rfl
    have other := startsIn_same_eq_false (d := 'C') (by decide) start
    rw [startsIn_of_ofChars (.inr comment)] at other
    cases other
  | _ => exact ⟨rfl, rfl, rfl⟩

/-- A chained action only alters a table. -/
theorem altersOnly_ofText_of_chained {s act : String} {acts : List String}
    (chained : expandActions? s = some acts) (mem : act ∈ acts) : (ofText act).AltersOnly := by
  obtain ⟨texts, expanded, rfl⟩ := Option.map_eq_some_iff.1 chained
  obtain ⟨text, inside, rfl⟩ := List.mem_map.1 mem
  rw [ofText, String.toList_ofList]
  exact altersOnly_ofChars
    (startsIn_trim (by decide) (startsIn_of_mem_expandActionTexts? expanded inside))

end Statement

/-! ## Reversals that are not left out -/

namespace Reverser

/-- Nothing but search paths and comments is undone by nothing. -/
theorem undo_ne_skipped (r : Reverser) (searchPath : Option String) {s : Statement}
    (alters : s.AltersOnly) : r.undo searchPath s ≠ .skipped := by
  have path := alters.path
  have comment := alters.comment
  cases s with
  | setSearchPath => cases path
  | commentOnTable | commentOnColumn | commentOnView => cases comment
  | addPartition table partition bounds => cases partition <;> exact Reversal.noConfusion
  | dropTable | addColumn | dropColumn | modifyColumn | createView | dropView =>
    grind [undo, undoDropTable, undoAddColumn, undoDropColumn, undoModifyColumn, undoCreateView,
      undoDropView, Reversal.marked]
  | _ => exact Reversal.noConfusion

/-- An action of an ALTER statement has a text that undoes it, even if only a marker. -/
theorem exists_script?_undo (r : Reverser) (searchPath : Option String) {s : Statement}
    (alters : s.AltersOnly) : ∃ text, (r.undo searchPath s).script? = some text := by
  have rendered := r.undo_ne_skipped searchPath alters
  cases undone : r.undo searchPath s with
  | skipped => exact absurd undone rendered
  | _ => exact ⟨_, rfl⟩

end Reverser

/-! ## Files -/

/-- Statements that do not set the search path are all seen with the path from before them. -/
theorem placeStatements_of_path (searchPath : Option String) {stmts : List String}
    (h : ∀ stmt ∈ stmts, (Statement.ofText stmt).isSetSearchPath = false) :
    placeStatements searchPath stmts =
      stmts.map fun stmt => ⟨stmt, Statement.ofText stmt, searchPath⟩ := by
  induction stmts with
  | nil => rfl
  | cons stmt rest ih =>
    obtain ⟨first, others⟩ := List.forall_mem_cons.1 h
    have same : (Statement.ofText stmt).searchPathAfter searchPath = searchPath := by
      cases read : Statement.ofText stmt with
      | setSearchPath schema =>
        rw [read] at first
        cases first
      | _ => rfl
    rw [placeStatements, same, ih others, List.map_cons]

/-- Statements that only alter tables are undone one by one, without a search path. -/
theorem Batch.reversals_of_altersOnly (b : Batch) {stmts : List String}
    (h : ∀ stmt ∈ stmts, (Statement.ofText stmt).AltersOnly) :
    b.reversals stmts =
      stmts.reverse.map fun stmt => (stmt, b.reverser.undo none (Statement.ofText stmt)) := by
  have placed := placeStatements_of_path none fun stmt mem => (h stmt mem).path
  have creates : onlyCreatesTables
      ((placeStatements none stmts).map PlacedStatement.statement) = false := by
    rw [placed, List.map_map, onlyCreatesTables, Bool.and_eq_false_iff]
    -- Such a file has no table whose comments could go with it.
    refine .inl (List.any_eq_false.2 fun s mem => ?_)
    obtain ⟨stmt, inside, rfl⟩ := List.mem_map.1 mem
    exact Bool.eq_false_iff.1 (h stmt inside).table
  rw [reversals, creates, placed, ← List.map_reverse, List.map_map]
  rfl

theorem Sql.actions_of_single {s : String} {acts : List String}
    (single : statements s = [s.trimBlanks]) (chained : expandActions? s = some acts) :
    actions s = acts := by
  have trimmed : expandActions? s.trimBlanks = expandActions? s := by
    rw [expandActions?, expandActionTexts?, String.trimBlanks, String.toList_ofList,
      (Text.trimmed_trim s.toList).trim_eq]
    rfl
  rw [actions, single, List.flatMap_singleton, trimmed, chained, Option.getD_some]

/-! ## Both ways -/

/-- Reversals with texts are combined into one text, line after line. -/
theorem Reverser.script?_combine {parts : List Reversal}
    (rendered : parts.filterMap Reversal.script? ≠ []) :
    (combine parts).script? = some (Text.join "\n" (parts.filterMap Reversal.script?)) := by
  rw [combine]
  split
  · contradiction
  · split <;> rfl

namespace Batch

variable (b : Batch) (stmts : List String)

/-- Without annotations only the texts of the reversals stand in the rollback of a file. -/
theorem content_of_bare (bare : b.style.annotate = false) :
    (b.reverseStatements stmts).1 =
      Text.join "\n\n" (((b.reversals stmts).map Prod.snd).filterMap Reversal.script?) := by
  have plain : (fun r : String × Reversal => b.passage? r.1 r.2) = fun r => r.2.script? := by
    funext r
    rw [passage?, bare]
    exact Option.map_id'
  rw [reverseStatements, List.filterMap_map]
  exact congrArg (fun f => Text.join "\n\n" ((b.reversals stmts).filterMap f)) plain

theorem stats_eq_count :
    (b.reverseStatements stmts).2 = .count ((b.reversals stmts).map Prod.snd) := by
  rw [reverseStatements, ← BatchStats.sum_ofReversal, List.map_map]
  rfl

end Batch

/--
A statement that chains actions is undone in the same way alone and as the only one of a file: every
action has a text that undoes it, the last action first, and alone the texts stand on lines of their
own, in the file with empty lines between them. Neither way leaves anything out, and alone the
reversal is complete exactly if in the file nothing is left to be done by hand.
-/
theorem reverse_reverseScript_of_chained (b : Batch) (bare : b.style.annotate = false) {s : String}
    {acts : List String} (single : Sql.statements s = [s.trimBlanks])
    (chained : Sql.expandActions? s = some acts) :
    ∃ texts : List String,
      (acts.reverse.map fun act => (b.reverser.undo none (Statement.ofText act)).script?) =
        texts.map some ∧
      (b.reverser.reverse none s).script? = some (Text.join "\n" texts) ∧
      (b.reverseScript s).1 = Text.join "\n\n" texts ∧
      (b.reverser.reverse none s = .skipped ↔ (b.reverseScript s).1 = "") ∧
      ((b.reverser.reverse none s).isComplete = true ↔
        (b.reverseScript s).2.needsAttention = 0) := by
  let parts := acts.reverse.map fun act => b.reverser.undo none (Statement.ofText act)
  have direct : b.reverser.reverse none s = Reverser.combine parts := by
    rw [Reverser.reverse, chained]
  have inFile : (b.reversals acts).map Prod.snd = parts := by
    rw [b.reversals_of_altersOnly fun act => Statement.altersOnly_ofText_of_chained chained,
      List.map_map]
    rfl
  have texts : parts.map Reversal.script? = (parts.filterMap Reversal.script?).map some := by
    refine map_eq_map_some_filterMap fun part mem => ?_
    obtain ⟨act, inside, rfl⟩ := List.mem_map.1 mem
    exact b.reverser.exists_script?_undo none
      (Statement.altersOnly_ofText_of_chained chained (List.mem_reverse.1 inside))
  -- There are no fewer texts than actions, so neither way can come out empty.
  have two : 2 ≤ (parts.filterMap Reversal.script?).length := by
    obtain ⟨head, pieces, expansion⟩ := Sql.exists_isExpansion chained
    calc 2 ≤ acts.length := expansion.two
      _ = (parts.map Reversal.script?).length := by simp only [parts, List.length_map,
        List.length_reverse]
      _ = (parts.filterMap Reversal.script?).length := by rw [texts, List.length_map]
  have rendered := Reverser.script?_combine (List.ne_nil_of_length_pos (Nat.zero_lt_of_lt two))
  have content := b.content_of_bare acts bare
  have stats := b.stats_eq_count acts
  rw [inFile] at content stats
  rw [Batch.reverseScript, Sql.actions_of_single single chained, content, stats, direct]
  refine ⟨parts.filterMap Reversal.script?, by rw [← texts, List.map_map]; rfl, rendered, rfl,
    iff_of_false (fun skipped => ?_) (Text.join_ne_empty (by decide) two), ?_⟩
  · rw [skipped] at rendered
    cases rendered
  · rw [Reverser.isComplete_combine, BatchStats.needsAttention_count, List.countP_eq_zero,
      List.all_eq_true]
    simp only [Bool.not_eq_true', Bool.not_eq_false]

/-- A batch without annotations that knows a table with two columns. -/
def twoColumnBatch : Batch where
  reverser := ⟨(Draft.ofFiles [("t.sql", "CREATE TABLE t (a INT, b TEXT);")]).catalog, .none⟩
  style := ⟨"rollback_", false⟩

/-- Three actions, of which the last drops a column that is not known. -/
def threeActions : String :=
  "ALTER TABLE t ADD COLUMN c INT, DROP COLUMN b, DROP COLUMN x;"

/-- One added and two dropped columns, one of them unknown, are undone from the last one on. -/
theorem reverse_reverseScript_of_chained_columns :
    let undoing := ["/* MANUAL: column type needed: ALTER TABLE t ADD COLUMN x <type>; */",
      "ALTER TABLE t ADD COLUMN b TEXT;", "ALTER TABLE t DROP COLUMN IF EXISTS c;"]
    Sql.statements threeActions = [threeActions.trimBlanks] ∧
      Sql.expandActions? threeActions = some ["ALTER TABLE t ADD COLUMN c INT;",
        "ALTER TABLE t DROP COLUMN b;", "ALTER TABLE t DROP COLUMN x;"] ∧
      (twoColumnBatch.reverser.reverse none threeActions).script? =
        some (Text.join "\n" undoing) ∧
      (twoColumnBatch.reverseScript threeActions).1 = Text.join "\n\n" undoing ∧
      (twoColumnBatch.reverseScript threeActions).2.needsAttention ≠ 0 := by
  intro undoing
  have single : Sql.statements threeActions = [threeActions.trimBlanks] := by decide +kernel
  have chained : Sql.expandActions? threeActions = some ["ALTER TABLE t ADD COLUMN c INT;",
      "ALTER TABLE t DROP COLUMN b;", "ALTER TABLE t DROP COLUMN x;"] := by
    decide +kernel
  obtain ⟨texts, each, alone, inFile, -, complete⟩ :=
    reverse_reverseScript_of_chained twoColumnBatch rfl single chained
  have found : texts.map some = undoing.map some := each.symm.trans (by decide +kernel)
  obtain rfl := List.map_injective_iff.2 (fun _ _ => Option.some.inj) found
  have incomplete : (twoColumnBatch.reverser.reverse none threeActions).isComplete = false := by
    decide +kernel
  exact ⟨single, chained, alone, inFile, fun nothing =>
    Bool.eq_false_iff.1 incomplete (complete.2 nothing)⟩

end Rollback

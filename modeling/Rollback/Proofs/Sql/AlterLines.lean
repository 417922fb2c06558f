import Rollback.Proofs.Sql.ActionParts
import Rollback.Proofs.Sql.AlterTable
import Rollback.Proofs.Sql.Recognized

/-!
# Recognition of written ALTER statements

The ALTER statements that rollbacks write are recognized as what they are meant to be, with the
names that were written, even where these names are words of the statement.

- `lastName`: the end of such a statement
- `ofChars_columnDrop`: a column that is dropped, with or without the word COLUMN
- `ofChars_detachment`: a partition that is detached
- `ofChars_columnRenaming`: a column that gets another name
- `ofChars_tableRenaming`, `ofChars_viewRenaming`: a table and a view that get another name
-/

set_option autoImplicit false

namespace Rollback

open Pattern

namespace Sql

variable {n : ObjectName} {l : Option Char} {m : List (Operand × Span)} {kind w rest : List Char}
  {column source target : String}

/-! ## Names at the end of a statement -/

/-- The name that a statement ends with, and its semicolon. -/
def lastName (name : String) : List Char :=
  name.toList ++ [';']

/-- The name at the end of a line has no gaps, nor has its semicolon. -/
theorem isSolid_lastName (h : BareObject n) : IsSolid (lastName n.render) := by
  intro c mem
  rcases List.mem_append.1 mem with mem | mem
  · exact h.isSolid c mem
  · exact List.mem_singleton.1 mem ▸ rfl

theorem trimmed_alterLine (closed : rest.getLast? = some ';') :
    Text.Trimmed (alterLine kind w rest) := by
  have last : (alterLine kind w rest).getLast? = some ';' := by
    have split : alterLine kind w rest =
        "ALTER".toList ++ ' ' :: (kind ++ ' ' :: (w ++ [' '])) ++ rest := by
      rw [alterLine]
      generalize "ALTER".toList = word
      simp
    rw [split, List.getLast?_append, closed]
    rfl
  exact Text.trimmed_of_ends (c := 'A') rfl last rfl rfl

theorem isPart_of_bareName (h : BareName column) : IsPart column.toList :=
  isPart_of_inert (fun _ mem => forall_identifierChar (p := Inert) (by decide) (h.chars _ mem))
    (h.notMem (by decide))

/-! ## Columns that are dropped -/

/-- A column that is dropped if it is there. -/
def existingColumn (column : String) : List Char :=
  [' '].intercalate (["IF", "EXISTS"].map String.toList) ++ ' ' :: lastName column

/-- What follows the word DROP: after the word COLUMN, the words IF EXISTS are written too. -/
def columnDropEnd (written : Bool) (column : String) : List Char :=
  if written then "COLUMN".toList ++ ' ' :: existingColumn column else lastName column

theorem startsIn_columnDropEnd (h : BareName column) (written : Bool) :
    startsIn .gap (columnDropEnd written column) = false := by
  cases written with
  | true => rfl
  | false => exact h.startsIn_gap _

/-- At the last name, no word with a gap after it can be read. -/
theorem stuck_columnDropEnd {word : String} (h : BareName column) (written : Bool)
    (other : Stuck (keyword word ++ gap : Phrase) ⟨l, columnDropEnd true column, m⟩) :
    Stuck (keyword word ++ gap : Phrase) ⟨l, columnDropEnd written column, m⟩ := by
  cases written with
  | true => exact other
  | false => exact stuck_last _ (isSolid_lastName h.bareObject) l m

/-- The column is read at the end, and the word COLUMN before it if it was written. -/
theorem reads_columnDropEnd (h : BareName column) (written : Bool) :
    ∃ last marked, Reads (columnWord ++ (maybe ["IF", "EXISTS"] ++ mark .column identifier))
        ⟨l, columnDropEnd written column, m⟩ ⟨last, [';'], marked⟩ ∧
      marked.lookup .column = some ⟨lastName column, [';']⟩ ∧
      marked.lookup .object = m.lookup .object ∧
      (marked.lookup .columnWord).isSome = (written || (m.lookup .columnWord).isSome) := by
  have name := fun l m => (reads_identifier (l := l) (m := m) h [';'] rfl rfl).mark .column
  cases written with
  | true =>
    have solid : startsIn .gap (lastName column) = false := h.startsIn_gap _
    have keyword_ := reads_same_keyword (ι := Operand) (l := l) (m := m) "COLUMN"
      (' ' :: existingColumn column)
    have space := fun l => reads_space (ι := Operand) (l := l) (m := m)
      (show startsIn .gap (existingColumn column) = false from rfl)
    have word : Reads columnWord ⟨l, "COLUMN".toList ++ ' ' :: existingColumn column, m⟩
        ⟨some ' ', existingColumn column, (.columnWord,
          ⟨"COLUMN".toList ++ ' ' :: existingColumn column, existingColumn column⟩) :: m⟩ :=
      ((keyword_.seq (space _)).mark .columnWord).orNothing
    exact ⟨_, _, word.seq ((reads_ifExists solid).seq (name _ _)), rfl, rfl, rfl⟩
  | false =>
    -- Nothing comes after the name, so it is taken for none of the words that may be left out.
    have solid := isSolid_lastName h.bareObject
    have word : Reads columnWord ⟨l, lastName column, m⟩ ⟨l, lastName column, m⟩ :=
      ((stuck_last (keyword "COLUMN") solid l m).mark .columnWord).orNothing
    have words : Reads (maybe ["IF", "EXISTS"]) ⟨l, lastName column, m⟩ ⟨l, lastName column, m⟩ :=
      (stuck_last (keywords ["IF", "EXISTS"]) solid l m).orNothing
    exact ⟨_, _, word.seq (words.seq (name _ _)), rfl, rfl, rfl⟩

theorem getLast?_columnDrop (column : String) (written : Bool) :
    ("DROP".toList ++ ' ' :: columnDropEnd written column).getLast? = some ';' := by
  cases written with
  | true => exact List.getLast?_concat (l := "DROP COLUMN IF EXISTS ".toList ++ column.toList)
  | false => exact List.getLast?_concat (l := "DROP ".toList ++ column.toList)

/-- The end of the statement is one action. -/
theorem length_actionParts_columnDrop (h : BareName column) (written : Bool) :
    (actionParts (' ' :: ("DROP".toList ++ ' ' :: columnDropEnd written column))).length ≤ 1 := by
  obtain ⟨d, last⟩ : ∃ d, column.toList.getLast? = some d :=
    ⟨_, List.getLast?_eq_some_getLast h.nonempty⟩
  have solid : (d == ';') = false := beq_eq_false_iff_ne.2 fun same =>
    h.notMem (c := ';') (by decide) (same ▸ List.mem_of_getLast? last)
  have name := isPart_of_bareName h
  cases written with
  | true =>
    have words : IsPart " DROP COLUMN IF EXISTS ".toList :=
      isPart_of_inert (inert_of_all rfl) (by decide)
    have one := length_actionParts_le (words.append name) solid
      (by rw [List.getLast?_append, last]; rfl)
    rw [List.append_assoc] at one
    exact one
  | false =>
    have words : IsPart " DROP ".toList := isPart_of_inert (inert_of_all rfl) (by decide)
    have one := length_actionParts_le (words.append name) solid
      (by rw [List.getLast?_append, last]; rfl)
    rw [List.append_assoc] at one
    exact one

/-- An ALTER TABLE statement that drops a column. -/
def columnDropLine (table column : String) (written : Bool) : List Char :=
  alterText table.toList ("DROP".toList ++ ' ' :: columnDropEnd written column)

/-- None of the rules before the one for dropped columns accepts the line. -/
theorem rules_refuse_columnDrop (object : BareObject n) (h : BareName column) (written : Bool) :
    ∀ rule ∈ rules.take 7, rule (columnDropLine n.render column written) = none := by
  have lacks : ∀ {word : String},
      (∀ l m, Stuck (keyword word ++ gap : Phrase)
        ⟨l, "DROP".toList ++ ' ' :: columnDropEnd written column, m⟩) →
      (∀ l m, Stuck (keyword word ++ gap : Phrase) ⟨l, columnDropEnd true column, m⟩) →
      LacksAction word (columnDropLine n.render column written) := fun first second =>
    stuck_alterTable object.isSolid object.nonempty (by decide) (by decide)
      (startsIn_columnDropEnd h written) first
      fun l m => stuck_columnDropEnd h written (second l m)
  have add : LacksAction "ADD" _ := lacks (fun _ _ => rfl) fun _ _ => rfl
  have attach : LacksAction "ATTACH" _ := lacks (fun _ _ => rfl) fun _ _ => rfl
  have detach : LacksAction "DETACH" _ := lacks (fun _ _ => rfl) fun _ _ => rfl
  simp only [rules, List.take_succ_cons, List.take_zero, List.forall_mem_cons]
  exact ⟨rfl, rfl, rfl, add.addPartition?_eq_none, attach.attachPartition?_eq_none,
    detach.detachPartition?_eq_none, add.addColumn?_eq_none, by simp⟩

/-- A column that does not have the name of a clause is dropped under its name. -/
theorem ofChars_columnDrop (object : BareObject n) (h : BareName column)
    (other : Text.isOneOf clauseWords column.toList = false) (written : Bool) :
    Statement.ofChars (columnDropLine n.render column written) =
      .dropColumn n column written := by
  obtain ⟨last, marked, read, found, table, word⟩ := reads_columnDropEnd h written
    (l := some ' ') (m := [(.object, ⟨n.render.toList ++
      ' ' :: ("DROP".toList ++ ' ' :: columnDropEnd written column),
      ' ' :: ("DROP".toList ++ ' ' :: columnDropEnd written column)⟩)])
  have solid := startsIn_columnDropEnd h written
  have action : Reads dropColumnPhrase ⟨none, columnDropLine n.render column written, []⟩
      ⟨last, [';'], marked⟩ := by
    refine .assoc (.assoc (.assoc (.assoc (reads_alterTable object (by decide) (by decide) rfl solid
      ((reads_same_keyword "DROP" _).seq ((reads_space solid).seq read)) fun l m => ?_))))
    -- If the table is called ONLY, the word DROP is not read a second time after it.
    have other : Stuck (keyword "DROP" ++ gap : Phrase) ⟨l, columnDropEnd true column, m⟩ := rfl
    exact ((stuck_columnDropEnd h written other).seq_left _).of_assoc
  have single : chainsActions ⟨last, [';'], marked⟩ = false := by
    have after : Match.after? ⟨last, [';'], marked⟩ .object =
        some (' ' :: ("DROP".toList ++ ' ' :: columnDropEnd written column)) :=
      congrArg (Option.map Span.stop) table
    rw [chainsActions, after]
    exact decide_eq_false (Nat.not_lt.2 (length_actionParts_columnDrop h written))
  have marks : isMarked ⟨last, [';'], marked⟩ .columnWord = written := by
    have some_ : isMarked ⟨last, [';'], marked⟩ .columnWord = (marked.lookup .columnWord).isSome :=
      Option.isSome_map
    rw [some_, word]
    exact Bool.or_false written
  have rule := dropColumn?_of_match action.match? single (identifierAt_of_spells h.spells found)
  rw [other, objectAt_of_bareObject object table, marks, String.ofList_toList] at rule
  have trimmed : Text.Trimmed (columnDropLine n.render column written) := by
    rw [columnDropLine, alterText_eq]
    exact trimmed_alterLine (getLast?_columnDrop column written)
  exact ofChars_of_rule trimmed 7 (rules_refuse_columnDrop object h written) rfl rule

/-! ## Partitions that are detached -/

/-- An ALTER TABLE statement that detaches a partition. -/
def detachmentLine (table child : String) : List Char :=
  alterText table.toList ("DETACH".toList ++ ' ' :: ("PARTITION".toList ++ ' ' :: lastName child))

theorem trimmed_detachmentLine (table child : String) :
    Text.Trimmed (detachmentLine table child) := by
  rw [detachmentLine, alterText_eq]
  exact trimmed_alterLine (List.getLast?_concat (l := "DETACH PARTITION ".toList ++ child.toList))

theorem rules_refuse_detachment (object : BareObject n) (child : String) :
    ∀ rule ∈ rules.take 5, rule (detachmentLine n.render child) = none := by
  have lacks : ∀ {word : String},
      (∀ l m, Stuck (keyword word ++ gap : Phrase)
        ⟨l, "DETACH".toList ++ ' ' :: ("PARTITION".toList ++ ' ' :: lastName child), m⟩) →
      (∀ l m, Stuck (keyword word ++ gap : Phrase)
        ⟨l, "PARTITION".toList ++ ' ' :: lastName child, m⟩) →
      LacksAction word (detachmentLine n.render child) :=
    stuck_alterTable object.isSolid object.nonempty (by decide) (by decide) rfl
  have add : LacksAction "ADD" _ := lacks (fun _ _ => rfl) fun _ _ => rfl
  have attach : LacksAction "ATTACH" _ := lacks (fun _ _ => rfl) fun _ _ => rfl
  simp only [rules, List.take_succ_cons, List.take_zero, List.forall_mem_cons]
  exact ⟨rfl, rfl, rfl, add.addPartition?_eq_none, attach.attachPartition?_eq_none, by simp⟩

/-- A line that detaches a partition is recognized with both names. -/
theorem ofChars_detachment {child : ObjectName} (object : BareObject n) (h : BareObject child) :
    Statement.ofChars (detachmentLine n.render child.render) = .detachPartition n child := by
  have solid : startsIn .gap (lastName child.render) = false := h.startsIn_gap _
  have words := fun l m => reads_keywords (ι := Operand) (l := l) (m := m) ["DETACH", "PARTITION"]
    (' ' :: lastName child.render) rfl
  have space := fun l m => reads_space (ι := Operand) (l := l) (m := m) solid
  have name := fun l m => reads_objectName (l := l) (m := m) h .target [';'] rfl
  have read : Reads detachPartitionPhrase ⟨none, detachmentLine n.render child.render, []⟩ _ :=
    .assoc (.assoc (reads_alterTable object (by decide) (by decide) rfl rfl
      ((words _ _).seq ((space _ _).seq (name _ _))) fun _ _ => rfl))
  have rule : detachPartition? (detachmentLine n.render child.render) =
      some (.detachPartition n child) := by
    rw [detachPartition?, read.match?]
    exact congr (congrArg (fun a b => some (Statement.detachPartition a b))
      (objectAt_of_bareObject object rfl)) (objectAt_of_bareObject h rfl)
  exact ofChars_of_rule (trimmed_detachmentLine _ _) 5 (rules_refuse_detachment object _) rfl rule

/-! ## New names -/

theorem isSolid_rename : IsSolid "RENAME".toList := by decide

theorem rename_ne_nil : "RENAME".toList ≠ [] := by decide

/-- An ALTER TABLE statement that renames something is none that does anything else. -/
theorem rules_refuse_renaming (object : BareObject n) {more : List Char}
    (solid : startsIn .gap more = false)
    (other : ∀ word ∈ ["ADD", "ATTACH", "DETACH", "DROP"], ∀ l m,
      Stuck (keyword word ++ gap : Phrase) ⟨l, more, m⟩) :
    ∀ rule ∈ rules.take 10, rule (alterText n.render.toList ("RENAME".toList ++ ' ' :: more)) =
      none := by
  have lacks : ∀ word ∈ ["ADD", "ATTACH", "DETACH", "DROP"],
      (∀ l m, Stuck (keyword word ++ gap : Phrase) ⟨l, "RENAME".toList ++ ' ' :: more, m⟩) →
      LacksAction word (alterText n.render.toList ("RENAME".toList ++ ' ' :: more)) :=
    fun word mem first => stuck_alterTable object.isSolid object.nonempty (by decide) (by decide)
      solid first (other word mem)
  have add := lacks "ADD" (by simp) fun _ _ => rfl
  have attach := lacks "ATTACH" (by simp) fun _ _ => rfl
  have detach := lacks "DETACH" (by simp) fun _ _ => rfl
  have drop := lacks "DROP" (by simp) fun _ _ => rfl
  have modify : modifyColumn? (alterText n.render.toList ("RENAME".toList ++ ' ' :: more)) =
      none := by
    have start : EndsIn _ (alterText n.render.toList ("RENAME".toList ++ ' ' :: more))
        (· = "RENAME".toList ++ ' ' :: more) :=
      endsIn_alterName object.isSolid object.nonempty isSolid_rename rename_ne_nil
    have word := start.stuck_seq (q := keyword "MODIFY") (fun _ here _ _ => here ▸ rfl) none []
    have phrase : Stuck modifyColumnPhrase _ :=
      (((word.seq_left _).seq_left _).seq_left _).seq_left _
    rw [modifyColumn?, phrase.match?]
    rfl
  simp only [rules, List.take_succ_cons, List.take_zero, List.forall_mem_cons]
  exact ⟨rfl, rfl, rfl, add.addPartition?_eq_none, attach.attachPartition?_eq_none,
    detach.detachPartition?_eq_none, add.addColumn?_eq_none, drop.dropColumn?_eq_none, modify, rfl,
    by simp⟩

/-- A statement that gives something a new name ends with the old and the new one. -/
def newName (source target : String) : List Char :=
  source.toList ++ ' ' :: ("TO".toList ++ ' ' :: lastName target)

/-- An ALTER TABLE statement that renames a column. -/
def columnRenamingLine (table source target : String) : List Char :=
  alterText table.toList
    ("RENAME".toList ++ ' ' :: ("COLUMN".toList ++ ' ' :: newName source target))

theorem trimmed_columnRenamingLine (table source target : String) :
    Text.Trimmed (columnRenamingLine table source target) := by
  have ends : columnRenamingLine table source target = alterLine "TABLE".toList table.toList
      ("RENAME COLUMN ".toList ++ source.toList ++ " TO ".toList ++ target.toList ++ [';']) := by
    simp only [columnRenamingLine, alterText_eq, newName, lastName, List.append_assoc]
    rfl
  rw [ends]
  exact trimmed_alterLine List.getLast?_concat

/-- The phrase reads the line up to its semicolon and marks the three names. -/
theorem reads_columnRenaming (object : BareObject n) (old : BareName source)
    (new : BareName target) :
    ∃ last marked, Reads renameColumnPhrase ⟨none, columnRenamingLine n.render source target, []⟩
        ⟨last, [';'], marked⟩ ∧
      (∃ after, marked.lookup .object = some ⟨n.render.toList ++ after, after⟩) ∧
      (∃ after, marked.lookup .column = some ⟨source.toList ++ after, after⟩) ∧
      marked.lookup .target = some ⟨lastName target, [';']⟩ := by
  have beforeOld : startsIn .gap (newName source target) = false := old.startsIn_gap _
  have beforeTo : startsIn .gap ("TO".toList ++ ' ' :: lastName target) = false := rfl
  have beforeNew : startsIn .gap (lastName target) = false := new.startsIn_gap _
  have words := fun l m => reads_keywords (ι := Operand) (l := l) (m := m) ["RENAME", "COLUMN"]
    (' ' :: newName source target) rfl
  have first := fun l m => reads_space (ι := Operand) (l := l) (m := m) beforeOld
  have column := fun l m => (reads_identifier (l := l) (m := m) old
    (' ' :: ("TO".toList ++ ' ' :: lastName target)) rfl rfl).mark .column
  have second := fun l m => reads_space (ι := Operand) (l := l) (m := m) beforeTo
  have toWord := fun l m => reads_same_keyword (ι := Operand) (l := l) (m := m) "TO"
    (' ' :: lastName target)
  have third := fun l m => reads_space (ι := Operand) (l := l) (m := m) beforeNew
  have name := fun l m => (reads_identifier (l := l) (m := m) new [';'] rfl rfl).mark .target
  have action := fun l m => (words l m).seq ((first _ _).seq ((column _ _).seq ((second _ _).seq
    ((toWord _ _).seq ((third _ _).seq (name _ _))))))
  have read := reads_alterIfExists object isSolid_rename rename_ne_nil
    (show startsIn .word "TABLE".toList = true from rfl) (fun _ _ => rfl) (action _ _)
  exact ⟨_, _, .assoc (.assoc (.assoc (.assoc (.assoc (.assoc read))))), ⟨_, rfl⟩, ⟨_, rfl⟩, rfl⟩

theorem ofChars_columnRenaming (object : BareObject n) (old : BareName source)
    (new : BareName target) :
    Statement.ofChars (columnRenamingLine n.render source target) =
      .renameColumn n source target := by
  obtain ⟨last, marked, read, ⟨_, table⟩, ⟨_, column⟩, name⟩ := reads_columnRenaming object old new
  have rule := renameColumn?_of_match read.match? (identifierAt_of_spells old.spells column)
    (identifierAt_of_spells new.spells name)
  rw [objectAt_of_bareObject object table, String.ofList_toList, String.ofList_toList] at rule
  have other : ∀ word ∈ ["ADD", "ATTACH", "DETACH", "DROP"], ∀ l m,
      Stuck (keyword word ++ gap : Phrase)
        ⟨l, "COLUMN".toList ++ ' ' :: newName source target, m⟩ := by
    simp only [List.forall_mem_cons]
    exact ⟨fun _ _ => rfl, fun _ _ => rfl, fun _ _ => rfl, fun _ _ => rfl, by simp⟩
  have before := rules_refuse_renaming object rfl other
  exact ofChars_of_rule (trimmed_columnRenamingLine _ _ _) 10 before rfl rule

/-- The action of a statement that renames what it is about. -/
def namedTo (target : String) : List Char :=
  "RENAME".toList ++ ' ' :: ("TO".toList ++ ' ' :: lastName target)

/-- A statement that renames an object of a kind. -/
def renamingLine (kind object target : String) : List Char :=
  alterLine kind.toList object.toList (namedTo target)

theorem trimmed_renamingLine (kind object target : String) :
    Text.Trimmed (renamingLine kind object target) :=
  trimmed_alterLine (List.getLast?_concat (l := "RENAME TO ".toList ++ target.toList))

/-- The renaming of a table or view is matched with the object and the new name, and nothing else is
marked. -/
theorem match?_renamingLine {kind : String} (kindWord : startsIn .word kind.toList = true)
    (object : BareObject n) (new : BareName target) :
    (keywords ["ALTER", kind] ++ gap ++ maybe ["IF", "EXISTS"] ++ objectName .object ++ gap ++
      keywords ["RENAME", "TO"] ++ gap ++ objectName .target).match?
        (renamingLine kind n.render target) =
      some ⟨lastAfter (some ' ') target.toList, [';'], [(.target, ⟨lastName target, [';']⟩),
        (.object, ⟨n.render.toList ++ ' ' :: namedTo target, ' ' :: namedTo target⟩)]⟩ := by
  have words := fun l m => reads_keywords (ι := Operand) (l := l) (m := m) ["RENAME", "TO"]
    (' ' :: lastName target) rfl
  have solid : startsIn .gap (lastName target) = false := new.startsIn_gap _
  have space := fun l m => reads_space (ι := Operand) (l := l) (m := m) solid
  have name := fun l m => reads_objectName (l := l) (m := m) new.bareObject .target [';'] rfl
  have action := fun l m => (words l m).seq ((space _ _).seq (name _ _))
  have read := reads_alterIfExists object isSolid_rename rename_ne_nil kindWord (fun _ _ => rfl)
    (action _ _)
  exact read.assoc.assoc.match?

/-- What is renamed is the table: neither a column nor something that is not said. -/
theorem rules_refuse_tableRenaming (object : BareObject n) (new : BareName target) :
    ∀ rule ∈ rules.take 12, rule (renamingLine "TABLE" n.render target) = none := by
  have solid := isSolid_lastName new.bareObject
  have start : EndsIn _ (renamingLine "TABLE" n.render target) (· = namedTo target) :=
    endsIn_alterIfExists object.isSolid object.nonempty isSolid_rename rename_ne_nil
      (show startsIn .word "TABLE".toList = true from rfl) fun _ _ => rfl
  have column : renameColumn? (renamingLine "TABLE" n.render target) = none := by
    have words := start.stuck_seq (q := keywords ["RENAME", "COLUMN"])
      (fun _ here _ _ => here ▸ rfl) none []
    have phrase : Stuck renameColumnPhrase _ :=
      (((((words.seq_left _).seq_left _).seq_left _).seq_left _).seq_left _).seq_left _
    rw [renameColumn?, phrase.match?]
    rfl
  have bare : renameBare? (renamingLine "TABLE" n.render target) = none := by
    have first : EndsIn (keyword "RENAME" ++ gap : Phrase) (namedTo target)
        (· = "TO".toList ++ ' ' :: lastName target) := endsIn_next rfl isSolid_rename rfl
    have second : EndsIn (mark .column identifier ++ gap) ("TO".toList ++ ' ' :: lastName target)
        (· = lastName target) := endsIn_next rfl (by decide) (new.startsIn_gap _)
    have third : ∀ l m, Stuck (keyword "TO" ++ gap : Phrase) ⟨l, lastName target, m⟩ :=
      stuck_last _ solid
    have named := ((start.seq_at first).assoc.seq_at second).assoc
    have words := (named.stuck_seq (fun _ here => here ▸ third) none []).assoc
    have phrase : Stuck renameBarePhrase _ := words.seq_left _
    rw [renameBare?, phrase.match?]
    rfl
  have other : ∀ word ∈ ["ADD", "ATTACH", "DETACH", "DROP"], ∀ l m,
      Stuck (keyword word ++ gap : Phrase) ⟨l, "TO".toList ++ ' ' :: lastName target, m⟩ := by
    simp only [List.forall_mem_cons]
    exact ⟨fun _ _ => rfl, fun _ _ => rfl, fun _ _ => rfl, fun _ _ => rfl, by simp⟩
  have before := rules_refuse_renaming object rfl other
  have split : rules.take 12 = rules.take 10 ++ [renameColumn?, renameBare?] := rfl
  rw [split]
  simp only [List.forall_mem_append, List.forall_mem_cons]
  exact ⟨before, column, bare, by simp⟩

/-- A line that renames a table is recognized with both names. -/
theorem ofChars_tableRenaming (object : BareObject n) (new : BareName target) :
    Statement.ofChars (renamingLine "TABLE" n.render target) = .renameTo n ⟨none, target⟩ := by
  have rule : renameTo? (renamingLine "TABLE" n.render target) =
      some (.renameTo n ⟨none, target⟩) := by
    have read : renameToPhrase.match? (renamingLine "TABLE" n.render target) = some _ :=
      match?_renamingLine rfl object new
    rw [renameTo?, read]
    exact congr (congrArg (fun a b => some (Statement.renameTo a b))
      (objectAt_of_bareObject object rfl)) (objectAt_of_bareObject new.bareObject rfl)
  exact ofChars_of_rule (trimmed_renamingLine _ _ _) 12 (rules_refuse_tableRenaming object new) rfl
    rule

theorem ofChars_viewRenaming (object : BareObject n) (new : BareName target) :
    Statement.ofChars (renamingLine "VIEW" n.render target) = .renameView n ⟨none, target⟩ := by
  have rule : renameView? (renamingLine "VIEW" n.render target) =
      some (.renameView n ⟨none, target⟩) := by
    have read : renameViewPhrase.match? (renamingLine "VIEW" n.render target) = some _ :=
      match?_renamingLine rfl object new
    rw [renameView?, read]
    exact congr (congrArg (fun a b => some (Statement.renameView a b))
      (objectAt_of_bareObject object rfl)) (objectAt_of_bareObject new.bareObject rfl)
  have before : ∀ rule ∈ rules.take 17, rule (renamingLine "VIEW" n.render target) = none := by
    simp only [rules, List.take_succ_cons, List.take_zero, List.forall_mem_cons]
    exact ⟨rfl, rfl, rfl, rfl, rfl, rfl, rfl, rfl, rfl, rfl, rfl, rfl, rfl, rfl, rfl, rfl, rfl,
      by simp⟩
  exact ofChars_of_rule (trimmed_renamingLine _ _ _) 17 before rfl rule

end Sql

end Rollback

import Rollback.Proofs.Sql.Listings
import Rollback.Reversal.Statement
import Rollback.Schema.Draft

/-!
# Reversals of statements that list operands

Of a statement that lists several operands only the first is undone, and of a list of columns not
even that. So a reversal that counts as complete can lack what undoes the others.

- `Listing.undoneAlone`: what is left of the reversal
- `Listing.inverses`: what undoes the operands one by one
- `reverse_listing`: the reversal of every such statement, and when it undoes all operands
-/

set_option autoImplicit false

namespace Rollback

/-- If the reversal is complete, then it holds the texts of all these reversals. -/
def Reversal.Covers (whole : Reversal) (parts : List Reversal) : Prop :=
  whole.isComplete = true → ∀ part ∈ parts, ∀ text ∈ part.script?,
    ∃ sql ∈ whole.script?, text.toList <:+: sql.toList

namespace Listing

/-! ## What is undone and what is not -/

/-- The statement that undoes the renaming of a table. -/
def renameBack (names : String × String) : String :=
  s!"RENAME TABLE {names.2} TO {names.1};"

/-- The statement that undoes the addition of a partition. -/
def partitionDrop (table partition : String) : String :=
  s!"ALTER TABLE {table} DROP PARTITION {partition};"

/-- What is taken for the bounds of the first partition: all that stands after its name. -/
def boundsRead (first : String × String) (others : List (String × String)) : String :=
  listed (boundClause first.2) (others.map partitionClause)

/-- The comment that keeps these bounds. -/
def rangeNote (first : String × String) (others : List (String × String)) : String :=
  blockComment ("original range: " ++ boundsRead first others)

/-- The name of the first partition. The words VALUES and FOR are not taken for one. -/
def partitionRead (first : String × String) : Option String :=
  if Text.isOneOf ["VALUES", "FOR"] first.1.toList then none else some first.1

/-- The reversal, which undoes the first operand alone. A list of columns in parentheses is not read
at all, and the word COLUMN before it is dropped in its place. -/
def undoneAlone (r : Reverser) (searchPath : Option String) : Listing → Reversal
  | dropTables first _ => r.undoDropTable searchPath ⟨none, first⟩
  | dropViews first _ => r.undoDropView searchPath ⟨none, first⟩
  | renameTables first _ => .statement (renameBack first)
  | addPartitions table first others =>
    Reverser.undoAddPartition ⟨none, table⟩ (partitionRead first) (some (boundsRead first others))
  | addColumns table _ _ => .statement s!"ALTER TABLE {table} DROP COLUMN;"

/-- What undoes the operands one by one. -/
def inverses (r : Reverser) (searchPath : Option String) : Listing → List Reversal
  | dropTables first others =>
    (first :: others).map fun name => r.undoDropTable searchPath ⟨none, name⟩
  | dropViews first others =>
    (first :: others).map fun name => r.undoDropView searchPath ⟨none, name⟩
  | renameTables first others => (first :: others).map fun names => .statement (renameBack names)
  | addPartitions table first others =>
    (first :: others).map fun p => .statement (partitionDrop table p.1)
  | addColumns table first others =>
    (first :: others).map fun c => Reverser.undoAddColumn ⟨none, table⟩ c.1 true

/-- When nothing is lost: if the first operand is a marker, if the others repeat it, or if what
undoes them happens to stand in a text of the first, such as a comment. Columns are always lost. -/
def IsUndone (r : Reverser) (searchPath : Option String) : Listing → Prop
  | dropTables first others =>
    (r.undoDropTable searchPath ⟨none, first⟩).Covers
      (others.map fun name => r.undoDropTable searchPath ⟨none, name⟩)
  | dropViews first others =>
    (r.undoDropView searchPath ⟨none, first⟩).Covers
      (others.map fun name => r.undoDropView searchPath ⟨none, name⟩)
  | renameTables first others => ∀ names ∈ others, names = first
  | addPartitions table first others =>
    partitionRead first = none ∨ ∀ p ∈ others, p.1 = first.1 ∨
      (partitionDrop table p.1).toList <:+: (rangeNote first others).toList
  | addColumns _ _ _ => False

end Listing

open Sql Listing

/-- Whatever a statement lists, its reversal undoes the first operand alone. -/
theorem reverse_eq_undoneAlone (r : Reverser) (searchPath : Option String) {s : Listing}
    (plain : s.Plain) : r.reverse searchPath s.text = s.undoneAlone r searchPath := by
  rw [Reverser.reverse, expandActions?_listing plain]
  show r.undo searchPath (Statement.ofText s.text) = _
  cases s with
  | dropTables first others =>
    rw [ofText_dropTables (plain first List.mem_cons_self)]
    rfl
  | dropViews first others =>
    rw [ofText_dropViews (plain first List.mem_cons_self)]
    rfl
  | renameTables first others =>
    obtain ⟨source, target⟩ := plain first List.mem_cons_self
    rw [ofText_renameTables source target]
    rfl
  | addPartitions table first others =>
    obtain ⟨bounds, text⟩ :=
      ofText_addPartitions plain.1 (plain.2 first List.mem_cons_self).1 others
    rw [text, undoneAlone, partitionRead]
    cases Text.isOneOf ["VALUES", "FOR"] first.1.toList <;> rfl
  | addColumns table first others =>
    have text : "ALTER TABLE " ++ table ++ " DROP " ++ "COLUMN" ++ ";" =
        "ALTER TABLE " ++ table ++ " DROP COLUMN;" := by
      rw [String.append_assoc, String.append_assoc]
      rfl
    rw [ofText_addColumns plain.1 plain.2]
    exact congrArg Reversal.statement text

/-! ## Texts that undo an operand -/

namespace Reversal

/-- A reversal holds its own text. -/
theorem covers_cons_self (first : Reversal) (rest : List Reversal) :
    first.Covers (first :: rest) ↔ first.Covers rest := by
  refine forall_congr' fun _ => ?_
  rw [List.forall_mem_cons]
  exact and_iff_right fun text known => ⟨text, known, List.infix_rfl⟩

/-- A statement covers reversals if it holds their texts. -/
theorem statement_covers_iff {α : Type} {sql : String} (f : α → String) (xs : List α) :
    (statement sql).Covers (xs.map fun x => .statement (f x)) ↔
      ∀ x ∈ xs, (f x).toList <:+: sql.toList := by
  rw [Covers, List.forall_mem_map]
  simp [isComplete, script?]

/-- A marker promises nothing, so it covers anything. -/
theorem manual_covers (text : String) (parts : List Reversal) : (manual text).Covers parts :=
  fun complete => nomatch complete

end Reversal

namespace Listing

open Text

theorem space_notMem {name : String} (plain : PlainName name) : ' ' ∉ name.toList :=
  plain.notMem rfl

theorem toList_renameBack (names : String × String) :
    (renameBack names).toList =
      (("RENAME TABLE".toList ++ ' ' :: names.2.toList) ++ ' ' :: "TO".toList) ++
        ' ' :: names.1.toList ++ [';'] := by
  unfold renameBack
  simp only [toString_string, String.toList_append, List.append_assoc]
  rfl

theorem toList_partitionDrop (table name : String) :
    (partitionDrop table name).toList =
      ("ALTER TABLE ".toList ++ table.toList ++ " DROP PARTITION".toList) ++
        ' ' :: name.toList ++ [';'] := by
  unfold partitionDrop
  simp only [toString_string, String.toList_append, List.append_assoc]
  rfl

/-- Such a statement is found in another only if both give the same names back. -/
theorem renameBack_infix_iff {a b : String × String} (ha : PlainName a.1 ∧ PlainName a.2)
    (hb : PlainName b.1 ∧ PlainName b.2) :
    (renameBack a).toList <:+: (renameBack b).toList ↔ a = b := by
  -- The only semicolon is the last character, so one text can only be an end of the other.
  have before : ∀ names : String × String, PlainName names.1 ∧ PlainName names.2 →
      ';' ∉ (("RENAME TABLE".toList ++ ' ' :: names.2.toList) ++ ' ' :: "TO".toList) ++
        ' ' :: names.1.toList := by
    intro names plain
    have source := plain.1.notMem (c := ';') rfl
    have target := plain.2.notMem (c := ';') rfl
    simp [source, target]
  rw [toList_renameBack, toList_renameBack, append_singleton_infix_iff (before a ha) (before b hb),
    append_cons_suffix_iff (space_notMem ha.1) (space_notMem hb.1),
    append_cons_suffix_iff (by decide) (by decide),
    append_cons_suffix_iff (space_notMem ha.2) (space_notMem hb.2)]
  simp [String.toList_inj, Prod.ext_iff, and_comm]

/-- The text that drops a partition stands where it is dropped or in the note on its range. -/
theorem partitionDrop_infix_iff {table first other : String} (object : PlainName table)
    (hfirst : PlainName first) (hother : PlainName other) (note : List Char) :
    (partitionDrop table other).toList <:+:
        (partitionDrop table first).toList ++ '\n' :: note ↔
      other = first ∨ (partitionDrop table other).toList <:+: note := by
  have before : ∀ {name : String}, PlainName name →
      ';' ∉ ("ALTER TABLE ".toList ++ table.toList ++ " DROP PARTITION".toList) ++
        ' ' :: name.toList := by
    intro name plain
    have object_ := object.notMem (c := ';') rfl
    have name_ := plain.notMem (c := ';') rfl
    simp [object_, name_]
  have newline : (partitionDrop table other).toList <:+: '\n' :: note ↔
      (partitionDrop table other).toList <:+: note := by
    rw [toList_partitionDrop, List.infix_cons_iff, or_iff_right]
    simp [List.cons_prefix_cons]
  rw [← newline, toList_partitionDrop table first, List.append_assoc, List.singleton_append,
    toList_partitionDrop table other, append_singleton_infix_iff (before hother) (before hfirst),
    append_cons_suffix_iff (space_notMem hother) (space_notMem hfirst), String.toList_inj]
  simp

/-- If a partition is read with a name, it is the first one. -/
theorem eq_of_partitionRead {first : String × String} {name : String}
    (h : partitionRead first = some name) : name = first.1 := by
  rw [partitionRead] at h
  split at h
  · cases h
  · exact (Option.some.inj h).symm

/-- When what is left of the reversal undoes all operands. -/
theorem undoneAlone_covers_iff (r : Reverser) (searchPath : Option String) {s : Listing}
    (plain : s.Plain) :
    (s.undoneAlone r searchPath).Covers (s.inverses r searchPath) ↔ s.IsUndone r searchPath := by
  cases s with
  | dropTables first others => exact Reversal.covers_cons_self _ _
  | dropViews first others => exact Reversal.covers_cons_self _ _
  | renameTables first others =>
    rw [undoneAlone, inverses, Reversal.statement_covers_iff, List.forall_mem_cons,
      and_iff_right List.infix_rfl]
    refine forall₂_congr fun names mem => ?_
    exact renameBack_infix_iff (plain names (List.mem_cons_of_mem first mem))
      (plain first List.mem_cons_self)
  | addPartitions table first others =>
    obtain ⟨object, plain⟩ := plain
    rw [undoneAlone, inverses, IsUndone]
    cases name_ : partitionRead first with
    | none => exact iff_of_true (Reversal.manual_covers _ _) (.inl rfl)
    | some name =>
      obtain rfl : name = first.1 := eq_of_partitionRead name_
      have sql : (join "\n" [partitionDrop table first.1, rangeNote first others]).toList =
          (partitionDrop table first.1).toList ++ '\n' :: (rangeNote first others).toList := by
        simp [join]
      show (Reversal.statement
        (join "\n" [partitionDrop table first.1, rangeNote first others])).Covers _ ↔ _
      rw [Reversal.statement_covers_iff fun p : String × String => partitionDrop table p.1, sql,
        List.forall_mem_cons, and_iff_right ⟨[], _, rfl⟩, or_iff_right (by simp)]
      refine forall₂_congr fun p mem => ?_
      exact partitionDrop_infix_iff object (plain first List.mem_cons_self).1
        (plain p (List.mem_cons_of_mem first mem)).1 _
  | addColumns table first others =>
    rw [undoneAlone, inverses, IsUndone, iff_false]
    intro covers
    obtain ⟨sql, known, found⟩ := covers rfl _ List.mem_cons_self _ rfl
    obtain rfl := Option.some.inj known
    have table_ : toString (ObjectName.mk none table) = table := rfl
    have long : " DROP COLUMN IF EXISTS ".toList.length = 23 := rfl
    have short : " DROP COLUMN;".toList.length = 13 := rfl
    have length := found.length_le
    simp only [table_, toString_string, String.toList_append, List.length_append, long, short]
      at length
    omega

end Listing

/-- Whatever a statement lists, its reversal undoes the first operand alone; a reversal that counts
as complete holds what undoes the others only if that happens to stand in what undoes the first. -/
theorem reverse_listing (r : Reverser) (searchPath : Option String) {s : Listing}
    (plain : s.Plain) :
    r.reverse searchPath s.text = s.undoneAlone r searchPath ∧
      ((r.reverse searchPath s.text).Covers (s.inverses r searchPath) ↔
        s.IsUndone r searchPath) := by
  rw [reverse_eq_undoneAlone r searchPath plain]
  exact ⟨rfl, s.undoneAlone_covers_iff r searchPath plain⟩

/-- Of two partitions the first is dropped, of two columns not even that. -/
theorem reverse_twoPartitions_twoColumns :
    Reverser.reverse ⟨none, .none⟩ none ("ALTER TABLE a ADD PARTITION p VALUES LESS THAN " ++
          "('2024-01-01'), PARTITION q VALUES LESS THAN (MAXVALUE);") =
        .statement ("ALTER TABLE a DROP PARTITION p;\n/* original range: VALUES LESS THAN " ++
          "('2024-01-01'), PARTITION q VALUES LESS THAN (MAXVALUE) */") ∧
      Reverser.reverse ⟨none, .none⟩ none "ALTER TABLE a ADD COLUMN (c DECIMAL(10, 2), d INT);" =
        .statement "ALTER TABLE a DROP COLUMN;" := by
  have date : IsNested "'2024-01-01'".toList :=
    isNested_literal (s := "2024-01-01".toList) (by decide)
  have decimal : IsNested "DECIMAL(10, 2)".toList :=
    (isNested_of_inert (s := "DECIMAL".toList) (inert_of_all rfl)).append
      (isNested_parenthesized (s := "10, 2".toList) (isNested_of_inert (inert_of_all rfl)))
  have word : ∀ {w : String}, PlainName w → IsNested w.toList := fun plain =>
    isNested_of_inert (inert_of_word plain.word)
  have partitions := reverse_listing ⟨none, .none⟩ none
    (s := .addPartitions "a" ("p", "'2024-01-01'") [("q", "MAXVALUE")])
    ⟨by decide, List.forall_mem_cons.2 ⟨⟨by decide, date⟩,
      List.forall_mem_singleton.2 ⟨by decide, word (w := "MAXVALUE") (by decide)⟩⟩⟩
  have columns := reverse_listing ⟨none, .none⟩ none
    (s := .addColumns "a" ("c", "DECIMAL(10, 2)") [("d", "INT")])
    ⟨by decide, List.forall_mem_cons.2 ⟨⟨by decide, decimal⟩,
      List.forall_mem_singleton.2 ⟨by decide, word (w := "INT") (by decide)⟩⟩⟩
  exact ⟨partitions.1.trans (by decide +kernel), columns.1.trans (by decide +kernel)⟩

/-- A table with one column. -/
def oneColumnTable (name : String) : Table where
  name := name
  fullName := name
  schema := none
  columns := KeyMap.empty.insert "id" (.declared "id" "INT" 0)
  sources := ["t.sql"]
  comment := none
  distribution := none
  storage := none
  placementGroup := none

/-- A catalog of one file that creates two tables. -/
def afterTwoTables : Reverser where
  catalog := (Draft.ofFiles
    [("t.sql", "CREATE TABLE a (id INT); CREATE TABLE b (id INT);")]).catalog
  defaults := .none

theorem table?_afterTwoTables :
    afterTwoTables.table? none ⟨none, "a"⟩ = some (oneColumnTable "a") ∧
      afterTwoTables.table? none ⟨none, "b"⟩ = some (oneColumnTable "b") :=
  ⟨by decide +kernel, by decide +kernel⟩

theorem creation_oneColumnTable (name : String) (noDot : '.' ∉ name.toList)
    (nonempty : name ≠ "") :
    (oneColumnTable name).creation .none =
      Text.join "\n" ["CREATE TABLE " ++ name ++ " (", "  id INT", ")"] ++ ";" := by
  have columns : (oneColumnTable name).columnsInOrder = [.declared "id" "INT" 0] :=
    List.mergeSort_singleton _
  have qualified : (oneColumnTable name).qualifiedName = name := by
    rw [Table.qualifiedName, String.contains_char_eq]
    simp [oneColumnTable, noDot, nonempty]
  rw [Table.creation, Table.createStatement, Table.columnLines, Table.commentStatements, columns,
    qualified]
  rfl

/-- Of two dropped tables the first is created again, and the reversal counts as complete. -/
theorem reverse_dropTwoTables :
    afterTwoTables.reverse none "DROP TABLE a, b;" = .statement "CREATE TABLE a (\n  id INT\n);" ∧
      afterTwoTables.reverse none "DROP TABLE b;" = .statement "CREATE TABLE b (\n  id INT\n);" ∧
      ¬(afterTwoTables.reverse none "DROP TABLE a, b;").Covers
        [afterTwoTables.reverse none "DROP TABLE b;"] := by
  have undone : ∀ {stmt name : String}, Sql.expandActions? stmt = none →
      Statement.ofText stmt = .dropTable ⟨none, name⟩ →
      afterTwoTables.table? none ⟨none, name⟩ = some (oneColumnTable name) →
      afterTwoTables.reverse none stmt = .statement ((oneColumnTable name).creation .none) := by
    intro stmt name single read known
    rw [Reverser.reverse, single, read]
    show afterTwoTables.undoDropTable none ⟨none, name⟩ = _
    rw [Reverser.undoDropTable, known]
    rfl
  obtain ⟨a, b⟩ := table?_afterTwoTables
  have both : afterTwoTables.reverse none "DROP TABLE a, b;" =
      .statement "CREATE TABLE a (\n  id INT\n);" := by
    rw [undone rfl rfl a, creation_oneColumnTable "a" (by decide) (by decide)]
    decide +kernel
  have second : afterTwoTables.reverse none "DROP TABLE b;" =
      .statement "CREATE TABLE b (\n  id INT\n);" := by
    rw [undone rfl rfl b, creation_oneColumnTable "b" (by decide) (by decide)]
    decide +kernel
  refine ⟨both, second, fun covers => ?_⟩
  rw [both, second] at covers
  obtain ⟨sql, known, found⟩ := covers rfl _ List.mem_cons_self _ rfl
  obtain rfl := Option.some.inj known
  exact absurd found (by decide +kernel)

end Rollback

import Mathlib.Data.Option.Basic
import Rollback.Proofs.Sql.Comments
import Rollback.Proofs.Sql.Identifiers
import Rollback.Proofs.Sql.Recognized
import Rollback.Reversal.Statement
import Rollback.Schema.Draft

/-!
# Markers

A marker is a block comment for those who complete a rollback by hand. Its own words and the names
in it cannot end the comment. One marker quotes the statements that create a table, and with them
texts that were stored as they were written: it is a comment as a whole exactly if none of these
texts ends it.

- `Table.writtenTexts`: the texts that the statements for a table are made of
- `Reverser.quotedTable?`: the table that a marker quotes
- `isSingleComment_iff_of_undo`: when a marker is one block comment
-/

set_option autoImplicit false

namespace Rollback

open Text

/-! ## Texts without the end of a comment -/

/-- The text can stand in a block comment. -/
def IsCommentable (text : String) : Prop :=
  LacksPair '*' '/' text.toList

instance (text : String) : Decidable (IsCommentable text) :=
  inferInstanceAs (Decidable (LacksPair _ _ _))

namespace IsCommentable

variable {a b between : String}

theorem of_star_notMem (h : '*' ∉ a.toList) : IsCommentable a :=
  lacksPair_of_notMem h

/-- A text without a star leaves the decision to what follows it. -/
theorem append_iff_right (h : '*' ∉ a.toList) : IsCommentable (a ++ b) ↔ IsCommentable b := by
  rw [IsCommentable, String.toList_append, lacksPair_append_of_notMem h]
  rfl

/-- A text that keeps marks apart leaves the decision to what stands before it. -/
theorem append_iff_left (h : KeepsApart '*' '/' between.toList) :
    IsCommentable (a ++ between) ↔ IsCommentable a := by
  rw [IsCommentable, String.toList_append, h.lacksPair_append_iff]
  rfl

/-- Texts that are kept apart can be in a comment if each of them can. -/
theorem append_between_iff (h : KeepsApart '*' '/' between.toList) :
    IsCommentable (a ++ (between ++ b)) ↔ IsCommentable a ∧ IsCommentable b := by
  rw [IsCommentable, String.toList_append, String.toList_append, h.lacksPair_append_append_iff]
  rfl

/-- Texts that are kept apart can be in a comment if each of them can, however many they are. -/
theorem join_iff (h : KeepsApart '*' '/' between.toList) (parts : List String) :
    IsCommentable (join between parts) ↔ ∀ part ∈ parts, IsCommentable part := by
  rw [IsCommentable, join, String.toList_intercalate, h.lacksPair_intercalate_iff,
    List.forall_mem_map]
  rfl

/-- Softened texts can always be in a comment. -/
theorem softenCommentEnds (text : String) : IsCommentable (Rollback.softenCommentEnds text) := by
  rw [IsCommentable, Rollback.softenCommentEnds, String.toList_ofList]
  exact Sql.lacksPair_softenChars text.toList

end IsCommentable

/-! ## The statements for a table -/

namespace Table

/-- The texts that the statements for a table are made of, apart from words of the language. -/
def writtenTexts (t : Table) (defaults : TableDefaults) : List String :=
  [t.qualifiedName] ++ (t.columnsInOrder.flatMap fun c => [c.name, c.dataType]) ++
    (t.storageClause? defaults).toList ++ (t.distributionClause? defaults).toList ++
    (t.placementGroup <|> defaults.placementGroup).toList ++ t.comment.toList ++
    t.columnsInOrder.filterMap Column.comment

variable (t : Table) (defaults : TableDefaults)

theorem isCommentable_columnLines :
    IsCommentable t.columnLines ↔
      ∀ c ∈ t.columnsInOrder, IsCommentable c.name ∧ IsCommentable c.dataType := by
  rw [columnLines, IsCommentable.join_iff (by decide), List.forall_mem_map]
  refine forall₂_congr fun c _ => ?_
  rw [String.append_assoc, String.append_assoc, IsCommentable.append_iff_right (by decide),
    IsCommentable.append_between_iff (by decide)]

theorem isCommentable_closingLine :
    IsCommentable (t.closingLine defaults) ↔
      ∀ clause ∈ t.storageClause? defaults, IsCommentable clause := by
  rw [closingLine]
  cases t.storageClause? defaults with
  | none => exact iff_of_true (by decide) (fun _ mem => nomatch mem)
  | some clause => simp [IsCommentable.append_iff_right (show '*' ∉ ") ".toList by decide)]

theorem isCommentable_placementClause :
    (∀ clause ∈ t.placementClause? defaults, IsCommentable clause) ↔
      ∀ group ∈ t.placementGroup <|> defaults.placementGroup, IsCommentable group := by
  rw [placementClause?]
  cases t.placementGroup <|> defaults.placementGroup with
  | none => simp
  | some group =>
    simp only [Option.map_some, Option.mem_def, Option.some.injEq, forall_eq']
    rw [IsCommentable.append_iff_left (by decide), IsCommentable.append_iff_right (by decide)]

/-- The statement that creates a table can be in a comment if each text that it writes can. -/
theorem isCommentable_createStatement :
    IsCommentable (t.createStatement defaults) ↔
      IsCommentable t.qualifiedName ∧
        (∀ c ∈ t.columnsInOrder, IsCommentable c.name ∧ IsCommentable c.dataType) ∧
        (∀ clause ∈ t.storageClause? defaults, IsCommentable clause) ∧
        (∀ clause ∈ t.distributionClause? defaults, IsCommentable clause) ∧
        ∀ group ∈ t.placementGroup <|> defaults.placementGroup, IsCommentable group := by
  rw [createStatement, IsCommentable.append_iff_left (by decide),
    IsCommentable.join_iff (by decide), ← isCommentable_columnLines, ← isCommentable_closingLine,
      ← isCommentable_placementClause]
  simp only [List.forall_mem_append, List.forall_mem_cons, Option.mem_toList]
  rw [IsCommentable.append_iff_left (by decide), IsCommentable.append_iff_right (by decide)]
  simp [and_assoc]

theorem isCommentable_tableComment (table comment : String) :
    IsCommentable (tableComment table comment) ↔
      IsCommentable table ∧ IsCommentable comment := by
  unfold tableComment
  simp only [toString_string, String.append_assoc]
  rw [IsCommentable.append_iff_right (by decide), IsCommentable.append_between_iff (by decide),
    IsCommentable.append_iff_left (by decide)]

theorem isCommentable_columnComment (table column comment : String) :
    IsCommentable (columnComment table column comment) ↔
      IsCommentable table ∧ IsCommentable column ∧ IsCommentable comment := by
  unfold columnComment
  simp only [toString_string, String.append_assoc]
  rw [IsCommentable.append_iff_right (by decide), IsCommentable.append_between_iff (by decide),
    IsCommentable.append_between_iff (by decide), IsCommentable.append_iff_left (by decide)]

/-- The texts that a creation writes are those of its statement and the comments. -/
theorem forall_writtenTexts {p : String → Prop} :
    (∀ x ∈ t.writtenTexts defaults, p x) ↔
      (p t.qualifiedName ∧ (∀ c ∈ t.columnsInOrder, p c.name ∧ p c.dataType) ∧
        (∀ clause ∈ t.storageClause? defaults, p clause) ∧
        (∀ clause ∈ t.distributionClause? defaults, p clause) ∧
        ∀ group ∈ t.placementGroup <|> defaults.placementGroup, p group) ∧
      (∀ x ∈ t.comment, p x) ∧ ∀ c ∈ t.columnsInOrder, ∀ x ∈ c.comment, p x := by
  simp only [writtenTexts, List.forall_mem_append, List.forall_mem_flatMap,
    List.forall_mem_filterMap, List.forall_mem_cons, Option.mem_toList, Option.mem_def]
  simp [and_assoc]

/-- The statements for a table can stand in a comment exactly if all that was written can. -/
theorem isCommentable_creation :
    IsCommentable (t.creation defaults) ↔
      ∀ x ∈ t.writtenTexts defaults, IsCommentable x := by
  rw [creation, IsCommentable.join_iff (by decide), List.forall_mem_cons,
    isCommentable_createStatement, commentStatements, List.forall_mem_append, forall_writtenTexts]
  refine and_congr_right fun ⟨name, columns, _⟩ => and_congr ?_ ?_
  · simp only [Option.mem_toList, ← Option.mem_def, Option.forall_mem_map,
      isCommentable_tableComment, name, true_and]
  · rw [List.forall_mem_filterMap]
    refine forall₂_congr fun c hc => ?_
    simp only [← Option.mem_def, Option.forall_mem_map, isCommentable_columnComment, name,
      (columns c hc).1, true_and]

end Table

/-! ## The words of a marker -/

theorem star_notMem_of_isIdentifier {x : String} (h : IsIdentifier x) : '*' ∉ x.toList := by
  intro mem
  exact absurd (h '*' mem) (by decide)

theorem star_notMem_render {n : ObjectName} (h : ∀ x ∈ n.parts, IsIdentifier x) :
    '*' ∉ n.render.toList := by
  obtain ⟨schema, name⟩ := n
  have name_ := star_notMem_of_isIdentifier (h name (by simp [ObjectName.parts]))
  cases schema with
  | none => exact name_
  | some schema =>
    have schema_ := star_notMem_of_isIdentifier (h schema (by simp [ObjectName.parts]))
    simp [ObjectName.render, schema_, name_]

namespace Reverser

/-- The table whose statements a marker for a dropped table quotes if not all its types are
known. -/
def quotedTable? (r : Reverser) (searchPath : Option String) : Statement → Option Table
  | .dropTable name => (r.table? searchPath name).filter fun t => !t.columns.isEmpty
  | _ => none

/-- What a marker quotes, with a line feed after it. -/
def quotation (r : Reverser) (searchPath : Option String) (s : Statement) : String :=
  ((r.quotedTable? searchPath s).map fun t => t.creation r.defaults ++ "\n").getD ""

/-- A message without stars makes up the words of a marker that quotes nothing. -/
theorem words_of_marked {quotation message text : String} (nothing : quotation = "")
    (quiet : '*' ∉ message.toList) (h : Reversal.marked message = .manual text) :
    ∃ words, '*' ∉ words.toList ∧ text = blockComment (words ++ quotation) := by
  refine ⟨"MANUAL: " ++ message, ?_, ?_⟩
  · rw [String.toList_append, List.mem_append, not_or]
    exact ⟨by decide, quiet⟩
  · rw [nothing, String.append_empty]
    exact (Reversal.manual.inj h).symm

theorem star_notMem_columnWord (written : Bool) : '*' ∉ (columnWord written).toList := by
  cases written <;> decide

/-- Only the marker for a dropped table quotes something: the statements of a table that is known,
but not all its types. -/
theorem eq_blockComment_of_undoDropTable (r : Reverser) (searchPath : Option String)
    {name : ObjectName} (quiet : '*' ∉ name.render.toList) {text : String}
    (h : r.undoDropTable searchPath name = .manual text) :
    ∃ words, '*' ∉ words.toList ∧
      text = blockComment (words ++ r.quotation searchPath (.dropTable name)) := by
  rw [undoDropTable] at h
  split at h
  · rename_i unknown
    refine words_of_marked ?_ ?_ h
    · rw [quotation, quotedTable?, unknown]
      rfl
    · simp [toString_string, toString_name, quiet]
  · rename_i t known
    dsimp only at h
    split at h
    · cases h
    · refine ⟨"MANUAL: " ++ "column types missing from catalog for " ++ name.render ++
        ", review before running:\n", by simp [quiet], ?_⟩
      rw [quotation, quotedTable?, known, ← Reversal.manual.inj h]
      simp only [toString_string, toString_name, String.append_assoc]
      rfl

/-- A marker holds words without stars and then what it quotes. -/
theorem eq_blockComment_of_undo (r : Reverser) (searchPath : Option String) {s : Statement}
    (names : s.HasIdentifiers) {text : String} (h : r.undo searchPath s = .manual text) :
    ∃ words, '*' ∉ words.toList ∧ text = blockComment (words ++ r.quotation searchPath s) := by
  rw [Statement.hasIdentifiers_iff] at names
  have objects : ∀ n ∈ s.objectNames, '*' ∉ n.render.toList :=
    fun n hn => star_notMem_render (names.1 n hn)
  have others : ∀ x ∈ s.otherNames, '*' ∉ x.toList :=
    fun x hx => star_notMem_of_isIdentifier (names.2 x hx)
  clear names
  -- All markers but the first one name what they are about, and quote nothing.
  cases s with
  | dropTable name =>
    exact r.eq_blockComment_of_undoDropTable searchPath (objects name List.mem_cons_self) h
  | addColumn table column definition written =>
    simp only [undo, undoAddColumn] at h
    split at h <;> cases h
  | dropColumn table column written =>
    have table_ := objects table List.mem_cons_self
    have column_ := others column List.mem_cons_self
    simp only [undo, undoDropColumn] at h
    split at h
    · refine words_of_marked rfl ?_ h
      simp [toString_string, toString_name, table_, column_, star_notMem_columnWord]
    · cases h
  | modifyColumn table column definition written =>
    have table_ := objects table List.mem_cons_self
    have column_ := others column List.mem_cons_self
    simp only [undo, undoModifyColumn] at h
    split at h
    · cases h
    · refine words_of_marked rfl ?_ h
      simp [toString_string, toString_name, table_, column_, star_notMem_columnWord]
  | addPartition table partition bounds =>
    have table_ := objects table List.mem_cons_self
    simp only [undo, undoAddPartition] at h
    split at h
    · cases h
    · refine words_of_marked rfl ?_ h
      simp [toString_string, toString_name, table_]
  | detachPartition table child =>
    have table_ := objects table List.mem_cons_self
    have child_ := objects child (List.mem_cons_of_mem _ List.mem_cons_self)
    refine words_of_marked rfl ?_ h
    simp [toString_string, toString_name, table_, child_]
  | dropIndex name =>
    have name_ := objects name List.mem_cons_self
    refine words_of_marked rfl ?_ h
    simp [toString_string, toString_name, name_]
  | createView name =>
    simp only [undo, undoCreateView] at h
    split at h <;> cases h
  | dropView name =>
    have name_ := objects name List.mem_cons_self
    simp only [undo, undoDropView] at h
    split at h
    · cases h
    · refine words_of_marked rfl ?_ h
      simp [toString_string, toString_name, name_]
  | commentOnTable table comment =>
    have table_ := objects table List.mem_cons_self
    simp only [undo, undoCommentOnTable] at h
    split at h
    · cases h
    · refine words_of_marked rfl ?_ h
      simp [toString_string, toString_name, table_]
  | commentOnColumn table column comment =>
    simp only [undo, undoCommentOnColumn] at h
    split at h
    · cases h
    · split at h <;> cases h
  | _ => cases h

/-- A marker is one block comment exactly if nothing that was written about the quoted table ends
the comment. -/
theorem isSingleComment_marker_iff (r : Reverser) (searchPath : Option String) {s : Statement}
    (names : s.HasIdentifiers) {text : String} (h : r.undo searchPath s = .manual text) :
    Sql.IsSingleComment text.toList ↔
      ∀ t ∈ r.quotedTable? searchPath s, ∀ x ∈ t.writtenTexts r.defaults, IsCommentable x := by
  obtain ⟨words, quiet, rfl⟩ := r.eq_blockComment_of_undo searchPath names h
  rw [Sql.isSingleComment_iff]
  show IsCommentable _ ↔ _
  rw [IsCommentable.append_iff_right quiet, quotation]
  cases r.quotedTable? searchPath s with
  | none => exact iff_of_true (IsCommentable.of_star_notMem (a := "") (by decide)) (by simp)
  | some t =>
    simp only [Option.map_some, Option.getD_some, Option.mem_def, Option.some.injEq, forall_eq']
    rw [IsCommentable.append_iff_left (by decide), Table.isCommentable_creation]

end Reverser

/-- Whatever a catalog holds, a marker is one block comment, and then it holds no statement, exactly
if nothing that was written about the quoted table ends the comment. -/
theorem isSingleComment_iff_of_undo (r : Reverser) (searchPath : Option String)
    (stmt text : String) (h : r.undo searchPath (Statement.ofText stmt) = .manual text) :
    (Sql.IsSingleComment text.toList ↔
        ∀ t ∈ r.quotedTable? searchPath (Statement.ofText stmt),
          ∀ x ∈ t.writtenTexts r.defaults, IsCommentable x) ∧
      (Sql.IsSingleComment text.toList → Sql.statements text = []) := by
  refine ⟨r.isSingleComment_marker_iff searchPath (Statement.hasIdentifiers_ofText stmt) h, ?_⟩
  intro single
  rw [Sql.statements, Sql.statementTexts_of_isSingleComment single, List.map_nil]

/-! ## A table of which only comments are known -/

/-- A table with a comment and a column with another one, of an unknown type. -/
def commentedTable (comment : String) : Table where
  name := "t"
  fullName := "t"
  schema := none
  columns := KeyMap.empty.insert "c" { Column.stub "c" 0 with comment := some "y" }
  sources := ["t.sql"]
  comment := some comment
  distribution := none
  storage := none
  placementGroup := none

theorem columnsInOrder_commentedTable (comment : String) :
    (commentedTable comment).columnsInOrder = [{ Column.stub "c" 0 with comment := some "y" }] :=
  List.mergeSort_singleton _

theorem qualifiedName_commentedTable (comment : String) :
    (commentedTable comment).qualifiedName = "t" := by
  rw [Table.qualifiedName, String.contains_char_eq]
  simp [commentedTable]

/-- What is known after a file that sets these comments. -/
def afterComments (comment : String) : Reverser where
  catalog := (Draft.ofFiles
    [("t.sql", tableComment "t" comment ++ " COMMENT ON COLUMN t.c IS 'y';")]).catalog
  defaults := .none

theorem ofText_dropTable : Statement.ofText "DROP TABLE t;" = .dropTable ⟨none, "t"⟩ := rfl

theorem creation_commentedTable (comment : String) :
    (commentedTable comment).creation .none =
      "CREATE TABLE t (\n  c UNKNOWN\n);\nCOMMENT ON TABLE t IS '" ++ comment ++
        "';\nCOMMENT ON COLUMN t.c IS 'y';" := by
  have create : (commentedTable comment).createStatement .none =
      "CREATE TABLE t (\n  c UNKNOWN\n);" := by
    rw [Table.createStatement, Table.columnLines, columnsInOrder_commentedTable,
      qualifiedName_commentedTable]
    rfl
  have comments : (commentedTable comment).commentStatements =
      ["COMMENT ON TABLE t IS '" ++ comment ++ "';", "COMMENT ON COLUMN t.c IS 'y';"] := by
    rw [Table.commentStatements, columnsInOrder_commentedTable, qualifiedName_commentedTable]
    rfl
  rw [Table.creation, create, comments]
  exact String.toList_inj.1 (by simp [join])

variable {comment : String}

/-- The marker for the dropped table quotes the table, as a type is unknown. -/
theorem quotedTable?_afterComments
    (known : (afterComments comment).table? none ⟨none, "t"⟩ = some (commentedTable comment)) :
    (afterComments comment).quotedTable? none (Statement.ofText "DROP TABLE t;") =
      some (commentedTable comment) := by
  rw [ofText_dropTable, Reverser.quotedTable?, known]
  rfl

/-- The marker holds the whole creation of the table, comments and all. -/
theorem undo_afterComments
    (known : (afterComments comment).table? none ⟨none, "t"⟩ = some (commentedTable comment)) :
    (afterComments comment).undo none (Statement.ofText "DROP TABLE t;") =
      .manual (blockComment ("MANUAL: column types missing from catalog for t, " ++
        "review before running:\n" ++ (commentedTable comment).creation .none ++ "\n")) := by
  rw [ofText_dropTable, Reverser.undo, Reverser.undoDropTable, known]
  rfl

theorem table?_afterComments_plain :
    (afterComments "x").table? none ⟨none, "t"⟩ = some (commentedTable "x") := by
  decide +kernel

/-- A comment on a table that drops another one when it stands in a marker. -/
def droppingComment : String := "x */ DROP TABLE u; /*"

theorem table?_afterComments_dropping :
    (afterComments droppingComment).table? none ⟨none, "t"⟩ =
      some (commentedTable droppingComment) := by
  decide +kernel

/-- Stored comments that end no comment leave the marker a comment. -/
theorem isSingleComment_undo_afterComments :
    ∃ text, (afterComments "x").undo none (Statement.ofText "DROP TABLE t;") = .manual text ∧
      Sql.IsSingleComment text.toList ∧ Sql.statements text = [] := by
  have undone := undo_afterComments table?_afterComments_plain
  obtain ⟨single, nothing⟩ := isSingleComment_iff_of_undo _ _ _ _ undone
  have all : ∀ t ∈ (afterComments "x").quotedTable? none (Statement.ofText "DROP TABLE t;"),
      ∀ x ∈ t.writtenTexts .none, IsCommentable x := by
    rw [quotedTable?_afterComments table?_afterComments_plain]
    intro t ht
    obtain rfl := Option.some.inj ht
    rw [Table.writtenTexts, columnsInOrder_commentedTable, qualifiedName_commentedTable]
    decide +kernel
  exact ⟨_, undone, single.2 all, nothing (single.2 all)⟩

/-- A stored comment can end the marker, and then it drops another table. -/
theorem statements_undo_droppingComment :
    ∃ text, (afterComments droppingComment).undo none (Statement.ofText "DROP TABLE t;") =
      .manual text ∧ ¬Sql.IsSingleComment text.toList ∧
        Sql.statements text = ["DROP TABLE u;"] := by
  refine ⟨_, undo_afterComments table?_afterComments_dropping, ?_⟩
  rw [creation_commentedTable]
  exact ⟨by decide +kernel, by decide +kernel⟩

end Rollback

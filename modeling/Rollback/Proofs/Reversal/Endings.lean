import Rollback.Proofs.Reversal.Markers
import Rollback.Proofs.Sql.StatementEnds

/-!
# Reversals that end their statements

A reversal that is made of names and words of the language ends its statement with a semicolon, and
a marker is a comment. Other reversals repeat texts that a catalog keeps as they were written. If
these leave plain code as it was, and a view is defined by statements that end, then each reversal
ends its statements.

- `Sql.IsPlainCode`: texts without quotes, slashes and pairs of dashes
- `Table.WritesClosed`, `Reverser.WritesClosed`: what is asked of the texts that are repeated
- `endsStatements_of_undo`: a reversal ends its statements
-/

set_option autoImplicit false

namespace Rollback

open Text

namespace Sql

/-! ## Plain code -/

/-- Words of the language: no quotes, slashes, stars or dashes. -/
def IsWording (s : List Char) : Prop :=
  s ≠ [] ∧ ∀ c ∈ s, opensLiteral c = false ∧ c ≠ '/' ∧ c ≠ '*' ∧ c ≠ '-'

instance (s : List Char) : Decidable (IsWording s) :=
  inferInstanceAs (Decidable (_ ∧ _))

/-- A text without quotes, slashes, stars and pairs of dashes. -/
structure IsPlainCode (s : List Char) : Prop where
  chars : ∀ c ∈ s, opensLiteral c = false ∧ c ≠ '/' ∧ c ≠ '*'
  dashes : LacksPair '-' '-' s

namespace IsPlainCode

variable {s t w : List Char}

/-- Wording makes no pair of dashes with what stands around it. -/
theorem keepsApart (hw : IsWording w) : KeepsApart '-' '-' w where
  nonempty := hw.1
  first mem := (hw.2 _ mem).2.2.2 rfl
  second mem := (hw.2 _ mem).2.2.2 rfl

theorem of_isWording (hw : IsWording w) : IsPlainCode w where
  chars c hc := ⟨(hw.2 c hc).1, (hw.2 c hc).2.1, (hw.2 c hc).2.2.1⟩
  dashes := lacksPair_of_notMem (keepsApart hw).first

/-- Words of the language can stand before plain code. -/
theorem after (hw : IsWording w) (hs : IsPlainCode s) : IsPlainCode (w ++ s) where
  chars := List.forall_mem_append.2 ⟨(of_isWording hw).chars, hs.chars⟩
  dashes := (lacksPair_append_of_notMem (keepsApart hw).first).2 hs.dashes

/-- Words of the language can stand after plain code. -/
theorem before (hs : IsPlainCode s) (hw : IsWording w) : IsPlainCode (s ++ w) where
  chars := List.forall_mem_append.2 ⟨hs.chars, (of_isWording hw).chars⟩
  dashes := (keepsApart hw).lacksPair_append_iff.2 hs.dashes

/-- Words of the language can stand between texts of plain code. -/
theorem between (hs : IsPlainCode s) (hw : IsWording w) (ht : IsPlainCode t) :
    IsPlainCode (s ++ w ++ t) := by
  rw [List.append_assoc]
  exact ⟨List.forall_mem_append.2 ⟨hs.chars, (ht.after hw).chars⟩,
    (keepsApart hw).lacksPair_append_append_iff.2 ⟨hs.dashes, ht.dashes⟩⟩

theorem lex_eq (h : IsPlainCode s) : lex .code s = (s.map .code, .code) := by
  induction s with
  | nil => rfl
  | cons c s ih =>
    obtain ⟨plain, slash, -⟩ := h.chars c List.mem_cons_self
    obtain ⟨dash, dashes⟩ := lacksPair_cons.1 h.dashes
    have rest := ih ⟨fun d hd => h.chars d (List.mem_cons_of_mem c hd), dashes⟩
    rw [lex_code_cons plain (fun eq => absurd eq slash) dash, rest, List.map_cons]

/-- A semicolon after plain code ends a statement. -/
theorem endsStatements (h : IsPlainCode s) : EndsStatements (s ++ [';']) := by
  have all := (h.before (w := [';']) (by decide)).lex_eq
  refine ⟨.inl (congrArg Prod.snd all), ?_⟩
  rw [lexemes, all, List.map_append, openSegment, List.foldl_append]
  exact fun c hc => absurd hc List.not_mem_nil

/-- Plain code that does not end with a dash leaves plain code as it was. -/
theorem isClosed (h : IsPlainCode s) (last : s.getLast? ≠ some '-') : IsClosed s where
  mode := congrArg Prod.snd h.lex_eq
  last c hc := by
    obtain ⟨-, slash, star⟩ := h.chars c (List.mem_of_getLast? hc)
    exact ⟨slash, fun eq => last (eq ▸ hc), star⟩

/-- Words of the language after plain code leave plain code as it was. -/
theorem isClosed_before (hs : IsPlainCode s) (hw : IsWording w) : IsClosed (s ++ w) := by
  refine (hs.before hw).isClosed fun last => ?_
  rw [List.getLast?_append_of_ne_nil _ hw.1] at last
  exact (hw.2 _ (List.mem_of_getLast? last)).2.2.2 rfl

theorem columnWord (hs : IsPlainCode s) (hw : IsWording w) (written : Bool) (ht : IsPlainCode t) :
    IsPlainCode (s ++ w ++ (Reverser.columnWord written).toList ++ t) := by
  cases written with
  | true => exact (hs.before hw).between (by decide) ht
  | false =>
    have nothing : (Reverser.columnWord false).toList = [] := rfl
    rw [nothing, List.append_nil]
    exact hs.between hw ht

end IsPlainCode

/-- Characters of identifiers are plain code if they make up no pair of dashes. -/
theorem isPlainCode_of_isIdentifier {x : String} (h : IsIdentifier x)
    (dashes : LacksPair '-' '-' x.toList) : IsPlainCode x.toList where
  chars c hc := forall_identifierChar
    (p := fun c => opensLiteral c = false ∧ c ≠ '/' ∧ c ≠ '*') (by decide) (h c hc)
  dashes := dashes

theorem isPlainCode_render {n : ObjectName} (h : ∀ x ∈ n.parts, IsPlainCode x.toList) :
    IsPlainCode n.render.toList := by
  obtain ⟨schema, name⟩ := n
  cases schema with
  | none => exact h name (by simp [ObjectName.parts])
  | some schema =>
    have text : (ObjectName.render ⟨some schema, name⟩).toList =
        schema.toList ++ ".".toList ++ name.toList := by
      simp [ObjectName.render]
    rw [text]
    exact (h schema (by simp [ObjectName.parts])).between (by decide)
      (h name (by simp [ObjectName.parts]))

/-- Lines that end their statements do so together. -/
theorem endsStatements_join {parts : List String}
    (h : ∀ part ∈ parts, EndsStatements part.toList) : EndsStatements (join "\n" parts).toList := by
  induction parts with
  | nil => decide
  | cons part rest ih =>
    have first := h part List.mem_cons_self
    cases rest with
    | nil => simpa [join] using first
    | cons next rest =>
      have text : (join "\n" (part :: next :: rest)).toList =
          part.toList ++ '\n' :: (join "\n" (next :: rest)).toList := by
        simp [join]
      rw [text]
      exact first.append_newline (ih fun q hq => h q (List.mem_cons_of_mem part hq))

/-- Another name in the same schema is plain code, too. -/
theorem isPlainCode_withName {n m : ObjectName} (hn : ∀ x ∈ n.parts, IsPlainCode x.toList)
    (hm : ∀ x ∈ m.parts, IsPlainCode x.toList) : IsPlainCode (n.withName m.name).render.toList := by
  refine isPlainCode_render fun x hx => ?_
  rcases List.mem_append.1 hx with hx | hx
  · exact hn x (List.mem_append_left _ hx)
  · exact hm x (List.mem_append_right _ hx)

/-- Closed texts with a closed separator are closed together. -/
theorem isClosed_join {separator : String} (hs : IsClosed separator.toList) {parts : List String}
    (h : ∀ part ∈ parts, IsClosed part.toList) : IsClosed (join separator parts).toList := by
  rw [join, String.toList_intercalate]
  exact intercalate_induction .nil .append hs (List.forall_mem_map.2 h)

end Sql

open Sql

/-! ## The statements for a table -/

/-- A text between two quotes. -/
def inQuotes (quote : Char) (text : String) : List Char :=
  quote :: text.toList ++ [quote]

/-- An absent text is closed between quotes. -/
theorem isClosed_inQuotes_getD {text : Option String}
    (h : ∀ x ∈ text, IsClosed (inQuotes '\x27' x)) : IsClosed (inQuotes '\x27' (text.getD "")) := by
  cases text with
  | some x => exact h x rfl
  | none => decide

theorem endsStatements_tableComment {table comment : String}
    (before : IsClosed ("COMMENT ON TABLE ".toList ++ table.toList ++ " IS ".toList))
    (literal : IsClosed (inQuotes '\x27' comment)) :
    EndsStatements (tableComment table comment).toList := by
  have text : (tableComment table comment).toList =
      "COMMENT ON TABLE ".toList ++ table.toList ++ " IS ".toList ++
        inQuotes '\x27' comment ++ [';'] := by
    unfold tableComment
    simp [toString_string, inQuotes]
  rw [text]
  exact (before.append literal).endsStatements

theorem endsStatements_columnComment {table column comment : String}
    (before : IsClosed ("COMMENT ON COLUMN ".toList ++ table.toList ++ ".".toList ++
      column.toList ++ " IS ".toList))
    (literal : IsClosed (inQuotes '\x27' comment)) :
    EndsStatements (columnComment table column comment).toList := by
  have text : (columnComment table column comment).toList =
      "COMMENT ON COLUMN ".toList ++ table.toList ++ ".".toList ++ column.toList ++
        " IS ".toList ++ inQuotes '\x27' comment ++ [';'] := by
    unfold columnComment
    simp [toString_string, inQuotes]
  rw [text]
  exact (before.append literal).endsStatements

/-- What was written about a table leaves plain code as it was. -/
structure Table.WritesClosed (t : Table) (defaults : TableDefaults) : Prop where
  name : IsClosed t.qualifiedName.toList
  columns : ∀ c ∈ t.columnsInOrder, IsClosed c.name.toList ∧ IsClosed c.dataType.toList
  storage : ∀ clause ∈ t.storageClause? defaults, IsClosed clause.toList
  distribution : ∀ clause ∈ t.distributionClause? defaults, IsClosed clause.toList
  placement : ∀ group ∈ t.placementGroup <|> defaults.placementGroup,
    IsClosed (inQuotes '\x22' group)
  comment : ∀ x ∈ t.comment, IsClosed (inQuotes '\x27' x)
  columnComments : ∀ c ∈ t.columnsInOrder, ∀ x ∈ c.comment, IsClosed (inQuotes '\x27' x)

namespace Table.WritesClosed

variable {t : Table} {defaults : TableDefaults}

theorem columnLines (h : t.WritesClosed defaults) : IsClosed t.columnLines.toList := by
  refine isClosed_join (by decide) (List.forall_mem_map.2 fun c hc => ?_)
  obtain ⟨name, dataType⟩ := h.columns c hc
  have text : ("  " ++ c.name ++ " " ++ c.dataType).toList =
      "  ".toList ++ (c.name.toList ++ (" ".toList ++ c.dataType.toList)) := by simp
  rw [text]
  exact IsClosed.append (by decide) (name.append (IsClosed.append (by decide) dataType))

theorem closingLine (h : t.WritesClosed defaults) : IsClosed (t.closingLine defaults).toList := by
  rw [Table.closingLine]
  cases clause : t.storageClause? defaults with
  | none => decide
  | some text =>
    show IsClosed (") " ++ text).toList
    rw [String.toList_append]
    exact IsClosed.append (by decide) (h.storage text clause)

theorem placementClause (h : t.WritesClosed defaults) :
    ∀ clause ∈ t.placementClause? defaults, IsClosed clause.toList := by
  intro clause hc
  obtain ⟨group, mem, rfl⟩ := Option.map_eq_some_iff.1 hc
  have text : ("TO GROUP \x22" ++ group ++ "\x22").toList =
      "TO GROUP ".toList ++ inQuotes '\x22' group := by simp [inQuotes]
  rw [text]
  exact IsClosed.append (by decide) (h.placement group mem)

/-- The statement that creates a table ends if what it writes is closed. -/
theorem createStatement (h : t.WritesClosed defaults) :
    EndsStatements (t.createStatement defaults).toList := by
  rw [Table.createStatement, String.toList_append]
  refine IsClosed.endsStatements (isClosed_join (by decide) ?_)
  simp only [List.forall_mem_append, List.forall_mem_cons, Option.mem_toList]
  refine ⟨⟨⟨?_, h.columnLines, h.closingLine, fun _ mem => absurd mem List.not_mem_nil⟩,
    h.distribution⟩, h.placementClause⟩
  have text : ("CREATE TABLE " ++ t.qualifiedName ++ " (").toList =
      "CREATE TABLE ".toList ++ (t.qualifiedName.toList ++ " (".toList) := by simp
  rw [text]
  exact IsClosed.append (by decide) (h.name.append (by decide))

/-- The statements that bring such a table back end. -/
theorem creation (h : t.WritesClosed defaults) : EndsStatements (t.creation defaults).toList := by
  refine endsStatements_join (List.forall_mem_cons.2 ⟨h.createStatement, ?_⟩)
  rw [commentStatements, List.forall_mem_append, List.forall_mem_filterMap]
  refine ⟨?_, fun c hc text mem => ?_⟩
  · intro text mem
    obtain ⟨x, hx, rfl⟩ := Option.map_eq_some_iff.1 (Option.mem_toList.1 mem)
    refine endsStatements_tableComment ?_ (h.comment x hx)
    exact (IsClosed.append (by decide) h.name).append (by decide)
  · obtain ⟨x, hx, rfl⟩ := Option.map_eq_some_iff.1 mem
    refine endsStatements_columnComment ?_ (h.columnComments c hc x hx)
    exact (((IsClosed.append (by decide) h.name).append (by decide)).append
      (h.columns c hc).1).append (by decide)

end Table.WritesClosed

/-! ## Reversals -/

/-- No name in the statement has a pair of dashes, which would start a comment. -/
def Statement.LacksDashes (s : Statement) : Prop :=
  ∀ x ∈ s.identifiers, LacksPair '-' '-' x.toList

namespace Reverser

/-- The stored texts that the reversal of a statement repeats leave plain code as it was, a repeated
view ends its statements, and what is put into a comment does not end it. -/
def WritesClosed (r : Reverser) (searchPath : Option String) : Statement → Prop
  | .dropTable name =>
    ∀ t ∈ r.quotedTable? searchPath (.dropTable name),
      if t.columns.values.all fun c => isKnownType c.dataType then t.WritesClosed r.defaults
      else ∀ x ∈ t.writtenTexts r.defaults, IsCommentable x
  | .dropColumn table column _ =>
    ∀ c ∈ r.typedColumn? searchPath table column,
      IsClosed c.dataType.toList ∧ IsClosed c.optionClauses.toList ∧
        ∀ x ∈ c.comment, IsClosed (inQuotes '\x27' x)
  | .modifyColumn table column _ _ =>
    ∀ c ∈ r.typedColumn? searchPath table column, IsClosed c.dataType.toList
  | .addPartition _ _ bounds => ∀ x ∈ bounds, IsCommentable x
  | .createView name => ∀ text ∈ r.viewDefinition? searchPath name, EndsStatements text.toList
  | .dropView name => ∀ text ∈ r.viewDefinition? searchPath name, EndsStatements text.toList
  | .commentOnTable table _ =>
    ∀ t ∈ r.table? searchPath table, ∀ x ∈ t.comment, IsClosed (inQuotes '\x27' x)
  | .commentOnColumn table column _ =>
    ∀ c ∈ r.column? searchPath table column, ∀ x ∈ c.comment, IsClosed (inQuotes '\x27' x)
  | _ => True

section

variable (r : Reverser) (searchPath : Option String) {sql : String}

/-- A table that is created again: the statement and its comments end. -/
theorem endsStatements_undoDropTable {name : ObjectName}
    (closed : r.WritesClosed searchPath (.dropTable name))
    (h : r.undoDropTable searchPath name = .statement sql) : EndsStatements sql.toList := by
  simp only [undoDropTable] at h
  split at h
  · cases h
  · rename_i t known
    split at h
    · rename_i typed
      obtain rfl := Reversal.statement.inj h
      have written := closed t known
      rw [if_pos typed] at written
      exact written.creation
    · cases h

/-- A column that is dropped by a plain name. -/
theorem endsStatements_undoAddColumn {table : ObjectName} {column : String} {written : Bool}
    (table_ : IsPlainCode table.render.toList) (column_ : IsPlainCode column.toList)
    (h : undoAddColumn table column written = .statement sql) : EndsStatements sql.toList := by
  simp only [undoAddColumn] at h
  split at h
  all_goals
    obtain rfl := Reversal.statement.inj h
    simp only [toString_string, toString_name, String.toList_append]
    exact ((table_.after (by decide)).between (by decide) column_).endsStatements

/-- A column comes back with its type, its options and its comment. -/
theorem endsStatements_columnCreation {table : ObjectName} {column : String} {c : Column}
    (written : Bool) (table_ : IsPlainCode table.render.toList)
    (column_ : IsPlainCode column.toList)
    (dataType : IsClosed c.dataType.toList) (options : IsClosed c.optionClauses.toList)
    (comment : ∀ x ∈ c.comment, IsClosed (inQuotes '\x27' x)) :
    EndsStatements (columnCreation table column written c).toList := by
  refine endsStatements_join (List.forall_mem_cons.2 ⟨?_, ?_⟩)
  · simp only [toString_string, toString_name, String.toList_append]
    exact (((((table_.after (by decide)).columnWord (by decide) written column_).isClosed_before
      (by decide)).append dataType).append options).endsStatements
  · intro text mem
    obtain ⟨x, hx, rfl⟩ := Option.map_eq_some_iff.1 (Option.mem_toList.1 mem)
    refine endsStatements_columnComment ?_ (comment x hx)
    exact ((table_.after (by decide)).between (by decide) column_).isClosed_before (by decide)

/-- A column that is added again with a closed type. -/
theorem endsStatements_undoDropColumn {table : ObjectName} {column : String} {written : Bool}
    (table_ : IsPlainCode table.render.toList) (column_ : IsPlainCode column.toList)
    (closed : r.WritesClosed searchPath (.dropColumn table column written))
    (h : r.undoDropColumn searchPath table column written = .statement sql) :
    EndsStatements sql.toList := by
  simp only [undoDropColumn] at h
  split at h
  · cases h
  · rename_i c known
    obtain rfl := Reversal.statement.inj h
    obtain ⟨dataType, options, comment⟩ := closed c known
    exact endsStatements_columnCreation written table_ column_ dataType options comment

theorem endsStatements_undoModifyColumn {table : ObjectName} {column : String}
    {definition : Option String} {written : Bool}
    (table_ : IsPlainCode table.render.toList) (column_ : IsPlainCode column.toList)
    (closed : r.WritesClosed searchPath (.modifyColumn table column definition written))
    (h : r.undoModifyColumn searchPath table column written = .statement sql) :
    EndsStatements sql.toList := by
  simp only [undoModifyColumn] at h
  split at h
  · rename_i c known
    obtain rfl := Reversal.statement.inj h
    simp only [toString_string, toString_name, String.toList_append]
    exact ((((table_.after (by decide)).columnWord (by decide) written column_).isClosed_before
      (by decide)).append (closed c known)).endsStatements
  · cases h

/-- A partition that is dropped by a plain name; its bounds stay in their comment. -/
theorem endsStatements_undoAddPartition {table : ObjectName} {partition bounds : Option String}
    (table_ : IsPlainCode table.render.toList)
    (names : ∀ name ∈ partition, IsPlainCode name.toList)
    (closed : ∀ x ∈ bounds, IsCommentable x)
    (h : undoAddPartition table partition bounds = .statement sql) :
    EndsStatements sql.toList := by
  cases partition with
  | none => cases h
  | some name =>
    obtain rfl := Reversal.statement.inj h
    refine endsStatements_join (List.forall_mem_cons.2 ⟨?_, ?_⟩)
    · simp only [toString_string, toString_name, String.toList_append]
      exact ((table_.after (by decide)).between (by decide) (names name rfl)).endsStatements
    · intro text mem
      obtain ⟨x, hx, rfl⟩ := Option.map_eq_some_iff.1 (Option.mem_toList.1 mem)
      refine ((isSingleComment_iff _).2 ?_).endsStatements
      exact (IsCommentable.append_iff_right (by decide)).2 (closed x hx)

/-- A view that is put back with a definition that ends, or dropped by a plain name. -/
theorem endsStatements_undoCreateView {name : ObjectName}
    (name_ : IsPlainCode name.render.toList)
    (closed : r.WritesClosed searchPath (.createView name))
    (h : r.undoCreateView searchPath name = .statement sql) : EndsStatements sql.toList := by
  simp only [undoCreateView] at h
  split at h
  · rename_i text known
    obtain rfl := Reversal.statement.inj h
    exact closed text known
  · obtain rfl := Reversal.statement.inj h
    simp only [toString_string, toString_name, String.toList_append]
    exact (name_.after (by decide)).endsStatements

theorem endsStatements_undoDropView {name : ObjectName}
    (closed : r.WritesClosed searchPath (.dropView name))
    (h : r.undoDropView searchPath name = .statement sql) : EndsStatements sql.toList := by
  simp only [undoDropView] at h
  split at h
  · rename_i text known
    obtain rfl := Reversal.statement.inj h
    exact closed text known
  · cases h

/-- A table that gets a closed comment back. -/
theorem endsStatements_undoCommentOnTable {table : ObjectName} {comment : Option String}
    (table_ : IsPlainCode table.render.toList)
    (closed : r.WritesClosed searchPath (.commentOnTable table comment))
    (h : r.undoCommentOnTable searchPath table = .statement sql) : EndsStatements sql.toList := by
  simp only [undoCommentOnTable] at h
  split at h
  · rename_i t known
    obtain rfl := Reversal.statement.inj h
    refine endsStatements_tableComment ?_ (isClosed_inQuotes_getD (closed t known))
    exact (table_.after (by decide)).isClosed_before (by decide)
  · cases h

theorem endsStatements_undoCommentOnColumn {table : ObjectName} {column : String}
    {comment : Option String}
    (table_ : IsPlainCode table.render.toList) (column_ : IsPlainCode column.toList)
    (closed : r.WritesClosed searchPath (.commentOnColumn table column comment))
    (h : r.undoCommentOnColumn searchPath table column = .statement sql) :
    EndsStatements sql.toList := by
  simp only [undoCommentOnColumn] at h
  split at h
  · cases h
  · split at h
    · rename_i c known
      obtain rfl := Reversal.statement.inj h
      refine endsStatements_columnComment ?_ (isClosed_inQuotes_getD (closed c known))
      exact ((table_.after (by decide)).between (by decide) column_).isClosed_before (by decide)
    · cases h

/-- A reversal that is complete ends its statements. -/
theorem endsStatements_of_statement {s : Statement}
    (names : ∀ x ∈ s.identifiers, IsPlainCode x.toList) (closed : r.WritesClosed searchPath s)
    (h : r.undo searchPath s = .statement sql) : EndsStatements sql.toList := by
  have parts : ∀ n ∈ s.objectNames, ∀ x ∈ n.parts, IsPlainCode x.toList := fun n hn x hx =>
    names x (List.mem_append_left _ (List.mem_flatMap.2 ⟨n, hn, hx⟩))
  have objects : ∀ n ∈ s.objectNames, IsPlainCode n.render.toList := fun n hn =>
    isPlainCode_render (parts n hn)
  have others : ∀ x ∈ s.otherNames, IsPlainCode x.toList := fun x hx =>
    names x (List.mem_append_right _ hx)
  -- Names and the words between them are plain code; only stored texts need what is asked of them.
  cases s with
  | setSearchPath schema => cases h
  | createTable name =>
    have name_ := objects name List.mem_cons_self
    obtain rfl := Reversal.statement.inj h
    rw [toList_tableDrop]
    exact (name_.after (by decide)).endsStatements
  | dropTable name => exact r.endsStatements_undoDropTable searchPath closed h
  | addPartition table partition bounds =>
    refine endsStatements_undoAddPartition (objects table List.mem_cons_self) ?_ closed h
    exact fun name hname => others name (Option.mem_toList.2 hname)
  | attachPartition table child =>
    have table_ := objects table List.mem_cons_self
    have child_ := objects child (List.mem_cons_of_mem _ List.mem_cons_self)
    obtain rfl := Reversal.statement.inj h
    simp only [toString_string, toString_name, String.toList_append]
    exact ((table_.after (by decide)).between (by decide) child_).endsStatements
  | detachPartition table child => cases h
  | addColumn table column definition written =>
    exact endsStatements_undoAddColumn (objects table List.mem_cons_self)
      (others column List.mem_cons_self) h
  | dropColumn table column written =>
    exact r.endsStatements_undoDropColumn searchPath (objects table List.mem_cons_self)
      (others column List.mem_cons_self) closed h
  | modifyColumn table column definition written =>
    exact r.endsStatements_undoModifyColumn searchPath (objects table List.mem_cons_self)
      (others column List.mem_cons_self) closed h
  | renameTable source target =>
    have source_ := objects source List.mem_cons_self
    have target_ := objects target (List.mem_cons_of_mem _ List.mem_cons_self)
    obtain rfl := Reversal.statement.inj h
    simp only [toString_string, toString_name, String.toList_append]
    exact ((target_.after (by decide)).between (by decide) source_).endsStatements
  | renameColumn table source target | renameBare table source target =>
    have table_ := objects table List.mem_cons_self
    have source_ := others source List.mem_cons_self
    have target_ := others target (List.mem_cons_of_mem _ List.mem_cons_self)
    obtain rfl := Reversal.statement.inj h
    simp only [toString_string, toString_name, String.toList_append]
    exact (((table_.after (by decide)).between (by decide) target_).between (by decide)
      source_).endsStatements
  | renameTo object target | renameView object target =>
    have object_ := parts object List.mem_cons_self
    have target_ := parts target (List.mem_cons_of_mem _ List.mem_cons_self)
    have name_ := object_ object.name (List.mem_append_right _ List.mem_cons_self)
    obtain rfl := Reversal.statement.inj h
    simp only [toString_string, toString_name, String.toList_append]
    exact (((isPlainCode_withName object_ target_).after (by decide)).between (by decide)
      name_).endsStatements
  | createIndex name table unique =>
    have name_ := objects name List.mem_cons_self
    obtain rfl := Reversal.statement.inj h
    simp only [toString_string, toString_name, String.toList_append]
    exact (name_.after (by decide)).endsStatements
  | dropIndex name => cases h
  | createView name =>
    exact r.endsStatements_undoCreateView searchPath (objects name List.mem_cons_self) closed h
  | dropView name => exact r.endsStatements_undoDropView searchPath closed h
  | commentOnTable table comment =>
    exact r.endsStatements_undoCommentOnTable searchPath (objects table List.mem_cons_self)
      closed h
  | commentOnColumn table column comment =>
    exact r.endsStatements_undoCommentOnColumn searchPath (objects table List.mem_cons_self)
      (others column List.mem_cons_self) closed h
  | commentOnView view comment => cases h
  | unrecognized preview => cases h

end

/-- Where a marker quotes a table, not all of its types are known. -/
theorem isCommentable_of_writesClosed (r : Reverser) (searchPath : Option String) {s : Statement}
    (closed : r.WritesClosed searchPath s) {marker : String}
    (h : r.undo searchPath s = .manual marker) :
    ∀ t ∈ r.quotedTable? searchPath s, ∀ x ∈ t.writtenTexts r.defaults, IsCommentable x := by
  intro t known
  cases s with
  | dropTable name =>
    have written := closed t known
    split at written
    · rename_i typed
      have found : (r.table? searchPath name).filter (fun t => !t.columns.isEmpty) = some t := known
      simp only [undo, undoDropTable, found, if_pos typed] at h
      cases h
    · exact written
  | _ => cases known

/-- Whatever a statement is, what stands in a rollback for it ends its statements if the stored
texts that it repeats allow it. -/
theorem endsStatements_of_undo (r : Reverser) (searchPath : Option String) {s : Statement}
    (names : s.HasIdentifiers) (dashes : s.LacksDashes) (closed : r.WritesClosed searchPath s)
    {text : String} (h : (r.undo searchPath s).script? = some text) :
    EndsStatements text.toList := by
  cases undone : r.undo searchPath s with
  | statement sql =>
    rw [undone] at h
    obtain rfl := Option.some.inj h
    exact r.endsStatements_of_statement searchPath
      (fun x hx => isPlainCode_of_isIdentifier (names x hx) (dashes x hx)) closed undone
  | manual marker =>
    rw [undone] at h
    obtain rfl := Option.some.inj h
    refine IsSingleComment.endsStatements ?_
    rw [r.isSingleComment_marker_iff searchPath names undone]
    exact r.isCommentable_of_writesClosed searchPath closed undone
  | unsupported =>
    rw [undone] at h
    obtain rfl := Option.some.inj h
    decide
  | skipped =>
    rw [undone] at h
    cases h

end Reverser

end Rollback

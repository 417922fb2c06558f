import Mathlib.Data.List.Basic
import Rollback.Proofs.Schema.ColumnLists
import Rollback.Proofs.Schema.TableClauses
import Rollback.Proofs.Schema.TableNames
import Rollback.Proofs.Sql.CommentStatements

/-!
# Reading of reconstructed tables

The CREATE TABLE statement that is reconstructed for a table declares what the table has: its
columns in their order with their types, and its clauses.

- `Column.Plain`, `Table.Plain`: tables whose parts are written as statements can hold them
- `toList_createStatement`: the statement in parts
- `ofChars_createStatement`: the statement is recognized
- `ofChars_declaration`: what the statement declares
-/

set_option autoImplicit false

namespace Rollback

open Pattern

/-- A column with a plain name that is no word for constraints, a plain type, and a comment that can
stand between single quotes. -/
structure Column.Plain (c : Column) : Prop where
  name : PlainName c.name
  noConstraint : Text.isOneOf Sql.constraintWords c.name.toList = false
  dataType : ∃ type : ColumnType, type.Plain ∧ c.dataType.toList = type.text
  comment : ∀ x ∈ c.comment, Sql.CommentText x.toList

/-- A table with a plain name as it is written, with columns that differ in their names whatever the
letter case, and with plain clauses. The schema is the written one in lower case. -/
structure Table.Plain (t : Table) (n : ObjectName) : Prop where
  object : PlainObject n
  name : t.name = n.name
  fullName : t.fullName = n.render
  schema : t.schema = n.schema.map String.lowerCase
  nonempty : t.columns.values ≠ []
  columns : ∀ c ∈ t.columns.values, c.Plain
  distinct : t.columns.values.Pairwise fun a b => a.name.lowerCase ≠ b.name.lowerCase
  distribution : ∀ d ∈ t.distribution, d.Plain
  storage : ∀ s ∈ t.storage, s.Plain
  placementGroup : ∀ g ∈ t.placementGroup, PlainName g
  comment : ∀ x ∈ t.comment, Sql.CommentText x.toList

namespace Column

variable {c : Column}

/-- The definition of a column in the body of a statement. -/
def definition (c : Column) : List Char :=
  c.name.toList ++ ' ' :: c.dataType.toList

/-- The line of a plain column is read with its name and type. -/
theorem Plain.columnOf?_definition (h : c.Plain) :
    Sql.columnOf? c.definition = some (c.name, c.dataType) := by
  obtain ⟨type, plain, text⟩ := h.dataType
  rw [definition, text, Sql.columnOf?_eq h.name plain h.noConstraint, ← text, String.ofList_toList]

theorem Plain.isItem_definition (h : c.Plain) : Sql.IsItem c.definition := by
  obtain ⟨type, plain, text⟩ := h.dataType
  rw [definition, text]
  exact Sql.isItem_definition h.name plain

theorem Plain.isBody_definition (h : c.Plain) : Sql.IsBody c.definition := by
  obtain ⟨type, plain, text⟩ := h.dataType
  rw [definition, text]
  exact Sql.isBody_definition h.name plain

theorem Plain.trimmed_definition (h : c.Plain) : Text.Trimmed c.definition := by
  obtain ⟨type, plain, text⟩ := h.dataType
  rw [definition, text]
  exact Sql.trimmed_definition h.name plain

end Column

namespace Table

variable {t : Table} {n : ObjectName}

/-- The definitions of the columns in their order. -/
def definitions (t : Table) : List (List Char) :=
  t.columnsInOrder.map Column.definition

/-- A CREATE TABLE statement from its body on. -/
def bodyAndClauses (t : Table) : List Char :=
  '\n' :: (Sql.bodyLines t.definitions ++ '\n' :: ')' ::
    Sql.clausesText t.storage t.distribution t.placementGroup)

/-! ## The text of the statement -/

/-- A plain table is stored under the key of its name. -/
theorem Plain.isNamed (h : t.Plain n) : t.IsNamed n :=
  ⟨h.object.bare, h.fullName, h.schema⟩

theorem Plain.qualifiedName_eq (h : t.Plain n) : t.qualifiedName = n.render :=
  h.isNamed.qualifiedName_eq

theorem toList_columnLines (t : Table) :
    t.columnLines.toList = Sql.bodyLines t.definitions := by
  rw [columnLines, Text.join, String.toList_intercalate, Sql.bodyLines, definitions, List.map_map,
    List.map_map]
  refine congrArg _ (List.map_congr_left fun c _ => ?_)
  simp [Sql.bodyLine, Column.definition]

/-- With no defaults, the last line of a plain table has the storage clause only. -/
theorem Plain.toList_closingLine (h : t.Plain n) :
    (t.closingLine .none).toList = ')' :: storagePart t.storage := by
  rw [closingLine, storageClause?]
  cases storage : t.storage with
  | none => rfl
  | some s =>
    obtain @⟨options, names⟩ := h.storage s storage
    have raw := Sql.raw_ofClause options
    generalize StorageOptions.ofClause (storageText options) (optionsText options) = s at raw ⊢
    have filled : s.raw.isEmpty = false := by
      rw [String.isEmpty_eq_false_iff]
      intro empty
      rw [empty] at raw
      exact absurd raw.symm (List.cons_ne_nil _ _)
    have found : (Option.map StorageOptions.raw (some s)).filter (fun raw => !raw.isEmpty) =
        some s.raw := by
      simp [filled]
    rw [found]
    show (") " ++ s.raw).toList = ')' :: storagePart (some s)
    rw [String.toList_append]
    rfl

/-- The clauses after the options, each on a line of its own. -/
theorem lines_clauses (t : Table) :
    ((((t.distributionClause? .none).toList ++ (t.placementClause? .none).toList).map
      String.toList).flatMap ('\n' :: ·)) =
        distributionPart t.distribution ++ placementPart t.placementGroup := by
  have distribution : ((t.distributionClause? .none).toList.map String.toList).flatMap
      ('\n' :: ·) = distributionPart t.distribution := by
    have own : t.distributionClause? .none = t.distribution.bind Distribution.clause? := by
      rw [distributionClause?]
      cases t.distribution <;> rfl
    rw [own, distributionPart]
    cases t.distribution.bind Distribution.clause? with
    | none => rfl
    | some clause => exact List.append_nil _
  have placement : ((t.placementClause? .none).toList.map String.toList).flatMap
      ('\n' :: ·) = placementPart t.placementGroup := by
    rw [placementClause?]
    cases t.placementGroup with
    | none => rfl
    | some group =>
      show '\n' :: ("TO GROUP \x22" ++ group ++ "\x22").toList ++ [] = _
      rw [List.append_nil, String.toList_append, String.toList_append, List.append_assoc]
      rfl
  rw [List.map_append, List.flatMap_append, distribution, placement]

/-- The statement of a plain table: its name, the body and the clauses. -/
theorem Plain.toList_createStatement (h : t.Plain n) :
    (t.createStatement .none).toList =
      "CREATE TABLE".toList ++ ' ' :: (n.render.toList ++ ' ' :: '(' :: t.bodyAndClauses) := by
  have newline : "\n".toList = ['\n'] := rfl
  have first : ("CREATE TABLE " ++ t.qualifiedName ++ " (").toList =
      "CREATE TABLE".toList ++ ' ' :: (n.render.toList ++ [' ', '(']) := by
    rw [h.qualifiedName_eq, String.toList_append, String.toList_append, List.append_assoc]
    rfl
  rw [createStatement, Text.join, String.toList_append, String.toList_intercalate, newline,
    List.append_assoc, List.map_append, List.map_cons, List.cons_append, Text.intercalate_cons,
    List.flatMap_append, lines_clauses, first]
  simp only [List.map_cons, List.map_nil, List.flatMap_cons, List.flatMap_nil, List.append_nil,
    toList_columnLines, h.toList_closingLine, bodyAndClauses, Sql.clausesText, List.append_assoc,
    List.cons_append, List.nil_append]
  rfl

end Table

/-! ## Recognition -/

namespace Sql

variable {n : ObjectName} {rest : List Char}

/-- The start of a CREATE TABLE statement is read up to the parenthesis, even if the table is named
by a word that could stand before its name. -/
theorem reads_createTable (h : PlainObject n) (rest : List Char) :
    Reads createTablePhrase
      ⟨none, "CREATE TABLE".toList ++ ' ' :: (n.render.toList ++ ' ' :: '(' :: rest), []⟩
      ⟨lastAfter (some ' ') n.render.toList, ' ' :: '(' :: rest,
        [(.object, ⟨n.render.toList ++ ' ' :: '(' :: rest, ' ' :: '(' :: rest⟩)]⟩ := by
  have bare : Stuck (firstOf [keyword "TEMPORARY", keyword "TEMP", keyword "UNLOGGED"] : Phrase)
      ⟨some ' ', "TABLE".toList ++ ' ' :: (n.render.toList ++ ' ' :: '(' :: rest), []⟩ :=
    (stuck_keyword rfl).alt ((stuck_keyword rfl).alt (stuck_keyword rfl))
  have create := reads_same_keyword (ι := Operand) (l := none) (m := []) "CREATE"
    (' ' :: ("TABLE".toList ++ ' ' :: (n.render.toList ++ ' ' :: '(' :: rest)))
  have start := ((create.seq (reads_space rfl)).seq (bare.seq_left gap).orNothing).seq
    (reads_same_keyword "TABLE" _)
  have letters : ∀ c ∈ "IF".toList, Text.isWordChar c = true := List.all_eq_true.1 rfl
  -- After a table with the name IF there is no NOT.
  have words : Stuck (keywords ["IF", "NOT", "EXISTS"])
      (⟨some ' ', n.render.toList ++ ' ' :: '(' :: rest, []⟩ : Place Operand) := by
    obtain ⟨schema, name⟩ := n
    cases schema with
    | none => exact stuck_keywords_word letters rfl rfl _ h.name.word rfl rfl
    | some s =>
      rw [toList_render_some, List.append_assoc]
      exact stuck_keywords_word letters rfl rfl _ (h.schema s rfl).word rfl rfl
  exact ((start.seq (reads_space (h.startsIn_gap _))).seq (words.seq_left _).orNothing).seq
    (reads_objectName h.bare .object _ rfl)

theorem match?_createTable (h : PlainObject n) (rest : List Char) :
    ∃ m, createTablePhrase.match?
        ("CREATE TABLE".toList ++ ' ' :: (n.render.toList ++ ' ' :: '(' :: rest)) = some m ∧
      m.text .object = n.render.toList :=
  ⟨_, (reads_createTable h rest).match?, Span.text_append _ _⟩

/-- The body starts behind the first parenthesis. -/
theorem match?_createTableBody (h : PlainObject n) (rest : List Char) :
    ∃ m, createTableBodyPhrase.match?
        ("CREATE TABLE".toList ++ ' ' :: (n.render.toList ++ ' ' :: '(' :: rest)) = some m ∧
      m.rest = rest := by
  have space : ∀ (l : Option Char) (m : List (Operand × Span)),
      Reads gaps ⟨l, ' ' :: '(' :: rest, m⟩ ⟨some ' ', '(' :: rest, m⟩ := fun l m =>
    reads_some0 (w := [' ']) (by simp [CharSet.contains, Text.isGap]) rfl
  exact ⟨_, (((reads_createTable h rest).seq (space _ _)).seq (reads_char rfl)).match?, rfl⟩

end Sql

namespace Table

variable {t : Table} {n : ObjectName}

theorem Plain.mem_columnsInOrder (h : t.Plain n) {c : Column} (mem : c ∈ t.columnsInOrder) :
    c.Plain :=
  h.columns c (List.mem_mergeSort.1 mem)

/-- What a reconstructed statement declares. -/
def declaration (t : Table) : Declaration where
  columns := t.columnsInOrder.map fun c => (c.name, c.dataType)
  distribution := t.distribution
  storage := t.storage
  placementGroup := t.placementGroup

theorem Plain.isBody_bodyLines (h : t.Plain n) : Sql.IsBody (Sql.bodyLines t.definitions) := by
  have indent : Sql.IsBody [' ', ' '] := Sql.isBody_of_isQuiet rfl (by decide)
  refine Text.intercalate_induction (Sql.isBody_of_isQuiet rfl (by decide)) .append
    (Sql.isBody_of_isQuiet rfl (by decide)) fun line hl => ?_
  obtain ⟨definition, hd, rfl⟩ := List.mem_map.1 hl
  obtain ⟨c, hc, rfl⟩ := List.mem_map.1 hd
  exact indent.append (h.mem_columnsInOrder hc).isBody_definition

/-- The statement that creates the table. -/
def Plain.creationPassage (h : t.Plain n) : Sql.Passage where
  spacing := []
  body := "CREATE TABLE".toList ++ ' ' :: (n.render.toList ++ ' ' :: '(' ::
    '\n' :: (Sql.bodyLines t.definitions ++ '\n' :: ')' ::
      (storagePart t.storage ++ (distributionPart t.distribution ++
        placementPart t.placementGroup))))
  isSpacing := .nil
  isBody := by
    have start : Sql.IsBody "CREATE TABLE ".toList := Sql.isBody_of_isQuiet rfl (by decide)
    have opening : Sql.IsBody " (\n".toList := Sql.isBody_of_isQuiet rfl (by decide)
    have closing : Sql.IsBody "\n)".toList := Sql.isBody_of_isQuiet rfl (by decide)
    have clauses := (Sql.isBody_storagePart h.storage).append
      ((Sql.isBody_distributionPart h.distribution).append
        (Sql.isBody_placementPart h.placementGroup))
    exact start.append ((Sql.isBody_render h.object).append (opening.append
      (h.isBody_bodyLines.append (closing.append clauses))))
  nonempty := List.cons_ne_nil _ _
  first := by
    intro c hc
    obtain rfl := Option.some.inj hc
    decide

theorem Plain.statement_creationPassage (h : t.Plain n) :
    h.creationPassage.statement = (t.createStatement .none).toList := by
  rw [h.toList_createStatement, Sql.Passage.statement, creationPassage, bodyAndClauses,
    Sql.clausesText]
  simp only [List.append_assoc, List.cons_append]

theorem Plain.trimmed_createStatement (h : t.Plain n) :
    Text.Trimmed (t.createStatement .none).toList :=
  h.statement_creationPassage ▸ h.creationPassage.trimmed

/-- The reconstructed statement is recognized. -/
theorem Plain.ofChars_createStatement (h : t.Plain n) :
    Statement.ofChars (t.createStatement .none).toList = .createTable n := by
  obtain ⟨m, read, object⟩ := Sql.match?_createTable h.object t.bodyAndClauses
  rw [← h.toList_createStatement] at read
  have rule : Sql.createTable? (t.createStatement .none).toList = some (.createTable n) := by
    rw [Sql.createTable?, read]
    simp only [Option.bind_eq_bind, Option.bind_some, Sql.objectAt, object,
      ofChars_render h.object.bare]
    rfl
  have before : ∀ rule ∈ Sql.rules.take 1, rule (t.createStatement .none).toList = none := by
    rw [h.toList_createStatement]
    simp only [Sql.rules, List.take_succ_cons, List.take_zero, List.forall_mem_cons]
    exact ⟨rfl, by simp⟩
  rw [Statement.ofChars, h.trimmed_createStatement.trim_eq, Sql.findSome?_rules_drop 1 before]
  simp only [Sql.rules, List.drop_succ_cons, List.drop_zero, List.findSome?_cons, rule]
  rfl

/-! ## What is declared -/

theorem Plain.definitions_nonempty (h : t.Plain n) : t.definitions ≠ [] := by
  intro empty
  have sorted : t.columnsInOrder = [] := List.map_eq_nil_iff.1 empty
  have perm := List.mergeSort_perm t.columns.values Column.comesBefore
  rw [← columnsInOrder, sorted] at perm
  exact h.nonempty perm.symm.eq_nil

/-- What holds of the definitions of plain columns holds of all definitions. -/
theorem Plain.forall_definitions (h : t.Plain n) {p : List Char → Prop}
    (each : ∀ c : Column, c.Plain → p c.definition) : ∀ d ∈ t.definitions, p d := by
  intro d hd
  obtain ⟨c, hc, rfl⟩ := List.mem_map.1 hd
  exact each c (h.mem_columnsInOrder hc)

/-- The lines of the body are read as the columns in their order. -/
theorem Plain.filterMap_definitions (h : t.Plain n) :
    t.definitions.filterMap Sql.columnOf? =
      t.columnsInOrder.map fun c => (c.name, c.dataType) := by
  have each : ∀ c ∈ t.columnsInOrder, (Sql.columnOf? ∘ Column.definition) c =
      (some ∘ fun c : Column => (c.name, c.dataType)) c := fun c hc =>
    (h.mem_columnsInOrder hc).columnOf?_definition
  rw [definitions, List.filterMap_map, List.filterMap_congr each, List.filterMap_eq_map]

/-- The reconstructed statement declares what the table has. -/
theorem Plain.ofChars_declaration (h : t.Plain n) :
    Declaration.ofChars (t.createStatement .none).toList = .ok t.declaration := by
  have items := h.forall_definitions fun _ plain => plain.isItem_definition
  have solid : ∀ d ∈ t.definitions, d ≠ [] ∧ Text.Trimmed d :=
    h.forall_definitions fun _ plain =>
      ⟨List.append_ne_nil_of_left_ne_nil plain.name.nonempty _, plain.trimmed_definition⟩
  obtain ⟨m, read, rest⟩ := Sql.match?_createTableBody h.object t.bodyAndClauses
  rw [← h.toList_createStatement] at read
  rw [Declaration.ofChars, read]
  dsimp only
  rw [rest, bodyAndClauses, Sql.splitBody?_eq items]
  -- The clauses are searched one by one, each in the whole text after the body.
  show Except.ok (Declaration.mk _ _ _ _) = _
  rw [Sql.topLevelParts_eq items h.definitions_nonempty solid, h.filterMap_definitions,
    Sql.distributionOf?_eq h.storage h.distribution h.placementGroup,
    Sql.storageOf?_eq h.storage h.distribution h.placementGroup,
    Sql.placementOf?_eq h.storage h.distribution h.placementGroup]
  rfl

end Table

end Rollback

import Rollback.Proofs.Schema.DeclarationMerge
import Rollback.Proofs.Schema.LiteralArguments
import Rollback.Reversal.Statement

/-!
# Types of columns that are put back

A dropped column comes back with the type that the catalog has for it, and so does each column of a
dropped table. A catalog has the types in upper case, and the literals among the arguments of a type
are no exception: they come back in upper case, and the reversal is complete all the same.

- `Sql.bodyDefinitions?`: the definitions of a CREATE TABLE statement
- `HasLine`: lines of a script
- `Restores`: the reversals that put a column back
- `restores_of_definesLiterals`: the literals in the type of a column that is put back
-/

set_option autoImplicit false

namespace Rollback

/-! ## Definitions in a statement -/

/-- The definitions in the body of a CREATE TABLE statement. -/
def Sql.bodyDefinitions? (stmt : List Char) : Option (List (List Char)) := do
  let m ← createTableBodyPhrase.match? stmt
  let (body, _) ← splitBody? m.rest
  return topLevelParts .ignored body

/-- A statement with a body declares the columns that are read from its definitions. -/
theorem Declaration.exists_of_bodyDefinitions? {stmt : List Char} {definitions : List (List Char)}
    (h : Sql.bodyDefinitions? stmt = some definitions) :
    ∃ declaration, Declaration.ofChars stmt = .ok declaration ∧
      declaration.columns = definitions.filterMap Sql.columnOf? := by
  obtain ⟨m, read, rest⟩ := Option.bind_eq_some_iff.1 h
  obtain ⟨⟨body, clauses⟩, split, parts⟩ := Option.bind_eq_some_iff.1 rest
  obtain rfl := Option.some.inj parts
  simp only [Declaration.ofChars, read, split]
  exact ⟨_, rfl, rfl⟩

namespace Table

variable {t : Table}

/-- The declaration of a column after which no other one of its key comes is the last. -/
theorem lastDeclared_append_cons {k : String} (before : List (Nat × String × String))
    {after : List (Nat × String × String)} {e : Nat × String × String}
    (key : e.2.1.lowerCase = k) (last : lastDeclared k after = none) :
    lastDeclared k (before ++ e :: after) = some e := by
  have nothing : after.filter (fun e => e.2.1.lowerCase == k) = [] :=
    List.getLast?_eq_none_iff.1 last
  have here : (e :: after).filter (fun e => e.2.1.lowerCase == k) = [e] := by
    rw [List.filter_cons, nothing, key, beq_self_eq_true, if_pos rfl]
  rw [lastDeclared, List.filter_append, here, List.getLast?_concat]

/-- What is stored for the last definition of a column. -/
theorem exists_get?_declare_of_append (name : ObjectName) {d : Declaration}
    {before after : List (String × String)} {column : String × String}
    (columns : d.columns = before ++ column :: after)
    (last : ∀ later ∈ after, later.1.lowerCase ≠ column.1.lowerCase) :
    ∃ c, (t.declare name d).columns.get? column.1.lowerCase = some c ∧ c.name = column.1 ∧
      c.dataType = column.2 := by
  let rest := (after.zipIdx (before.length + 1)).map fun e => (e.2, e.1)
  have split : numbered d.columns = numbered before ++ (before.length, column) :: rest := by
    simp only [columns, numbered, List.zipIdx_append, List.zipIdx_cons, List.map_append,
      List.map_cons, Nat.zero_add]
    rfl
  have others : lastDeclared column.1.lowerCase rest = none := by
    refine (lastDeclared_eq_none_iff _ _).2 fun e mem => ?_
    obtain ⟨⟨later, place⟩, inside, rfl⟩ := List.mem_map.1 mem
    exact last later (List.fst_mem_of_mem_zipIdx inside)
  have declared : lastDeclared column.1.lowerCase (numbered d.columns) =
      some (before.length, column) := by
    rw [split]
    exact lastDeclared_append_cons _ rfl others
  exact ⟨_, get?_declare_of_declared declared, rfl, rfl⟩

end Table

/-! ## Lines of columns -/

/-- A text stands on a line of a script, alone or with a comma after it. -/
def HasLine (script line : List Char) : Prop :=
  '\n' :: (line ++ ['\n']) <:+: script ∨ '\n' :: (line ++ [',', '\n']) <:+: script

theorem HasLine.mono {script whole line : List Char} (h : HasLine script line)
    (part : script <:+: whole) : HasLine whole line :=
  h.imp (·.trans part) (·.trans part)

/-- Among lines with commas between them, each is a line. -/
theorem hasLine_intercalate {lines : List (List Char)} {line : List Char} (mem : line ∈ lines) :
    HasLine ('\n' :: ([',', '\n'].intercalate lines ++ ['\n'])) line := by
  induction lines with
  | nil => exact absurd mem List.not_mem_nil
  | cons first others ih =>
    cases others with
    | nil =>
      obtain rfl := List.mem_singleton.1 mem
      rw [List.intercalate_singleton]
      exact .inl (List.infix_refl _)
    | cons next others =>
      rw [List.intercalate_cons_cons]
      rcases List.mem_cons.1 mem with rfl | later
      · have start : '\n' :: (line ++ [',', '\n']) <+: '\n' :: (line ++ [',', '\n'] ++
            [',', '\n'].intercalate (next :: others) ++ ['\n']) := ⟨_, by simp; rfl⟩
        exact .inr start.isInfix
      · have tail : '\n' :: ([',', '\n'].intercalate (next :: others) ++ ['\n']) <:+
            '\n' :: (first ++ [',', '\n'] ++ [',', '\n'].intercalate (next :: others) ++
              ['\n']) := ⟨'\n' :: (first ++ [',']), by simp⟩
        exact (ih later).mono tail.isInfix

namespace Table

variable {t : Table} {c : Column}

/-- The lines of the columns stand in the statement that creates the table. -/
theorem infix_createStatement (t : Table) (defaults : TableDefaults) :
    '\n' :: (t.columnLines.toList ++ ['\n']) <:+: (t.createStatement defaults).toList := by
  let opening := ("CREATE TABLE " ++ t.qualifiedName ++ " (").toList
  obtain ⟨rest, split⟩ : ∃ rest, (t.createStatement defaults).toList =
      opening ++ '\n' :: (t.columnLines.toList ++ '\n' :: rest) := by
    rw [createStatement, Text.join, String.toList_append, String.toList_intercalate]
    show ∃ rest, ['\n'].intercalate _ ++ _ = _
    simp only [List.map_append, List.map_cons, List.map_nil, List.cons_append,
      Text.intercalate_cons, List.flatMap_cons, List.append_assoc]
    exact ⟨_, rfl⟩
  exact ⟨opening, rest, by simp [split]⟩

/-- The statement that creates a table comes before its comments. -/
theorem prefix_creation (t : Table) (defaults : TableDefaults) :
    (t.createStatement defaults).toList <+: (t.creation defaults).toList := by
  rw [creation, Text.join, String.toList_intercalate, List.map_cons]
  show _ <+: ['\n'].intercalate _
  rw [Text.intercalate_cons]
  exact List.prefix_append _ _

/-- The lines of the columns stand in the statements that bring a table back. -/
theorem hasLine_creation (mem : c ∈ t.columnsInOrder) (defaults : TableDefaults) :
    HasLine (t.creation defaults).toList (columnLine c.name c.dataType).toList := by
  let line := fun c : Column => (columnLine c.name c.dataType).toList
  have lines : t.columnLines.toList = [',', '\n'].intercalate (t.columnsInOrder.map line) := by
    rw [columnLines_eq, Text.join, String.toList_intercalate, List.map_map]
    rfl
  have inLines := hasLine_intercalate (List.mem_map_of_mem (f := line) mem)
  rw [← lines] at inLines
  exact inLines.mono ((infix_createStatement t defaults).trans (prefix_creation t defaults).isInfix)

end Table

/-! ## Reversals -/

/-- The reversals that put a column of a table back: that of a statement that drops the column, in
any letter case, and that of a statement that drops the table. -/
structure Restores (r : Reverser) (searchPath : Option String) (table : ObjectName) (c : Column) :
    Prop where
  column : ∀ (name : String) (written : Bool), name.lowerCase = c.name.lowerCase →
    r.undo searchPath (.dropColumn table name written) =
      .statement (Reverser.columnCreation table name written c)
  table : ∃ script, (r.undo searchPath (.dropTable table)).script? = some script ∧
    HasLine script.toList (columnLine c.name c.dataType).toList

/-- A column of a known type that is stored in a table is put back. -/
theorem restores_of_get? {r : Reverser} {searchPath : Option String} {table : ObjectName}
    {t : Table} {c : Column} (stored : r.table? searchPath table = some t)
    (inTable : t.columns.get? c.name.lowerCase = some c) (known : isKnownType c.dataType = true) :
    Restores r searchPath table c where
  column name written same := by
    have found : r.typedColumn? searchPath table name = some c := by
      rw [Reverser.typedColumn?, Reverser.column?, stored, Option.bind_some, Table.column?, same,
        inTable, Option.filter_some, if_pos known]
    rw [Reverser.undo, Reverser.undoDropColumn, found]
  table := by
    have mem : c ∈ t.columnsInOrder := List.mem_mergeSort.2 (KeyMap.mem_values_of_get? inTable)
    have line := Table.hasLine_creation mem r.defaults
    have kept : (r.table? searchPath table).filter (fun t => !t.columns.isEmpty) = some t := by
      rw [stored, Option.filter_some, KeyMap.isEmpty_eq_false_of_get? inTable]
      rfl
    rw [Reverser.undo, Reverser.undoDropTable, kept]
    dsimp only
    -- Even if the type of another column is unknown, the marker holds the whole statement.
    split
    · exact ⟨_, rfl, line⟩
    · refine ⟨_, rfl, line.mono ?_⟩
      exact ⟨("/* MANUAL: column types missing from catalog for " ++ toString table ++
        ", review before running:\n").toList, "\n */".toList, by simp [blockComment, toString]⟩

/-- A table that a draft mentions is found under all names with its key. -/
theorem Draft.table?_mentionTable (d : Draft) {name table : ObjectName} {searchPath : Option String}
    (source : String) (change : Table → Table) (time : Option Instant)
    (same : (table.resolve searchPath).key = (d.resolve name).key) :
    ((d.mentionTable name source change).finish time).table? table searchPath =
      some (change ((d.catalog.tableOrEmpty (d.resolve name)).withSource source)) := by
  have found : ((d.mentionTable name source change).finish time).tables.get?
      (table.resolve searchPath).key =
        some (change ((d.catalog.tableOrEmpty (d.resolve name)).withSource source)) := by
    rw [same]
    exact KeyMap.get?_insert_self _ _ _
  rw [Catalog.table?, KeyMap.resolve?, found]
  rfl

/-- A type with arguments is a known one. -/
theorem HasLiterals.isKnownType {type : String} {literals : List (List Char)}
    (h : HasLiterals type.toList literals) : isKnownType type = true := by
  obtain ⟨word, list, rest, split, -, -⟩ := h
  have mem : '(' ∈ type.toList := by simp [split]
  have filled : type.isEmpty = false := by
    refine String.isEmpty_eq_false_iff.2 fun empty => ?_
    rw [empty] at mem
    exact absurd mem List.not_mem_nil
  have other : Text.eqIgnoringCase type.toList unknownType.toList = false := by
    refine Bool.eq_false_iff.2 fun same => ?_
    have lowered : '(' ∈ Text.asciiLower type.toList := List.mem_map.2 ⟨'(', mem, rfl⟩
    rw [eq_of_beq same] at lowered
    exact absurd lowered (by decide)
  rw [Rollback.isKnownType, filled, other]
  rfl

/--
Take a CREATE TABLE statement with a column whose type has literals as arguments, and whose name no
later definition has. Applied to any draft, it is accepted, and from then on the column is put back
by the reversals of statements that drop it or its table, whatever search path is in effect for
them. The type that is put back has the literals in upper case: it has the literals of the
definition just if none of them changes in upper case.
-/
theorem restores_of_definesLiterals {stmt source : String} {name : ObjectName}
    {before after : List (List Char)} {definition column : List Char}
    {literals : List (List Char)} (d : Draft)
    (creates : Statement.ofText stmt = .createTable name)
    (body : Sql.bodyDefinitions? (Text.trim stmt.toList) = some (before ++ definition :: after))
    (defines : DefinesLiterals column literals definition)
    (last : ∀ later ∈ after, ∀ x ∈ Sql.columnOf? later,
      x.1.lowerCase ≠ (String.ofList column).lowerCase) :
    ∃ d' c, d.apply stmt source = .ok (d', .changed) ∧ c.name = String.ofList column ∧
      (∀ (time : Option Instant) (defaults : TableDefaults) (searchPath : Option String)
        (table : ObjectName), (table.resolve searchPath).key = (d.resolve name).key →
          Restores ⟨some (d'.finish time), defaults⟩ searchPath table c) ∧
      HasLiterals c.dataType.toList (literals.map Text.upper) ∧
      (HasLiterals c.dataType.toList literals ↔ ∀ l ∈ literals, Text.upper l = l) := by
  obtain ⟨declaration, read, columns⟩ := Declaration.exists_of_bodyDefinitions? body
  obtain ⟨type, taken, has⟩ := Sql.columnOf?_of_definesLiterals defines
  rw [List.filterMap_append, List.filterMap_cons, taken] at columns
  have others : ∀ later ∈ after.filterMap Sql.columnOf?,
      later.1.lowerCase ≠ (String.ofList column).lowerCase := by
    intro x mem
    obtain ⟨later, inside, found⟩ := List.mem_filterMap.1 mem
    exact last later inside x found
  obtain ⟨c, stored, named, typed⟩ := Table.exists_get?_declare_of_append
    (t := (d.catalog.tableOrEmpty (d.resolve name)).withSource source) (d.resolve name) columns
    others
  have typeText : c.dataType.toList = type := by rw [typed, String.toList_ofList]
  rw [← typeText] at has
  refine ⟨_, c, Draft.apply_of_declaration creates read d source, named,
    fun time defaults searchPath table same => ?_, has, fun kept => ?_, fun fixed => ?_⟩
  · have found := d.table?_mentionTable source
      (fun t => t.declare (d.resolve name) declaration) time same
    exact restores_of_get? found (named ▸ stored) has.isKnownType
  · have same : literals.map Text.upper = literals.map id :=
      (has.unique kept).trans (List.map_id _).symm
    exact List.map_inj_left.1 same
  · rwa [List.map_congr_left fixed, List.map_id'] at has

/-- One literal that stays as it is, one in lower case, and one that becomes longer. -/
theorem restores_of_definesLiterals_state :
    let stmt :=
      "CREATE TABLE s.T (id INT, \x60State\x60 Enum ('new','OLD', 'ß') NOT NULL, PRIMARY KEY (id));"
    let literals := ["new".toList, "OLD".toList, "ß".toList]
    ∃ d c, Draft.empty.apply stmt "t.sql" = .ok (d, .changed) ∧ c.name = "State" ∧
      Restores ⟨some (d.finish none), .none⟩ (some "s") ⟨none, "t"⟩ c ∧
      HasLiterals c.dataType.toList ["NEW".toList, "OLD".toList, "SS".toList] ∧
      ¬HasLiterals c.dataType.toList literals := by
  intro stmt literals
  let list := literalThen [] "new".toList ([] ++ ',' :: literalThen [] "OLD".toList
    ([] ++ ',' :: literalThen [' '] "ß".toList []))
  have written : WritesLiterals list literals :=
    .cons ⟨by decide, by decide, by decide⟩ (by decide)
      (.cons ⟨by decide, by decide, by decide⟩ (by decide)
        (.last ⟨by decide, by decide, by decide⟩ (by decide)))
  let definition := '\x60' :: ("State".toList ++ ['\x60']) ++
    ([' '] ++ ("Enum".toList ++ ([' '] ++ '(' :: (list ++ ')' :: " NOT NULL".toList))))
  have defines : DefinesLiterals "State".toList literals definition :=
    .of ⟨by decide, by decide⟩ (.quoted (.inl rfl)) (by decide) (by decide) ⟨by decide, by decide⟩
      (by decide) written
  have body : Sql.bodyDefinitions? (Text.trim stmt.toList) =
      some (["id INT".toList] ++ definition :: ["PRIMARY KEY (id)".toList]) := by decide +kernel
  obtain ⟨d, c, applied, named, restores, upper, same⟩ := restores_of_definesLiterals .empty
    (show Statement.ofText stmt = .createTable ⟨some "s", "T"⟩ by decide +kernel) body defines
    (by decide +kernel)
  refine ⟨d, c, applied, named, restores none .none (some "s") ⟨none, "t"⟩ (by decide +kernel), ?_,
    fun kept => ?_⟩
  · have images : literals.map Text.upper = ["NEW".toList, "OLD".toList, "SS".toList] := by
      decide +kernel
    rwa [images] at upper
  · exact absurd (same.1 kept "new".toList List.mem_cons_self) (by decide +kernel)

/-- A table with an enumeration. -/
def enumerated : Table where
  name := "t"
  fullName := "t"
  schema := none
  columns := .ofList [("c", .declared "c" "ENUM('NEW', 'OLD')" 0)]
  sources := ["t.sql"]
  comment := none
  distribution := none
  storage := none
  placementGroup := none

/-- The literals come back in upper case. -/
theorem creation_enumerated : enumerated.creation .none =
    "CREATE TABLE t (\n  c ENUM('NEW', 'OLD')\n);" := by
  have inOrder : enumerated.columnsInOrder =
      [.declared "c" "ENUM('NEW', 'OLD')" 0] := List.mergeSort_singleton _
  have qualified : enumerated.qualifiedName = "t" := by
    rw [Table.qualifiedName, String.contains_char_eq]
    simp [enumerated]
  rw [Table.creation, Table.createStatement, Table.columnLines, Table.commentStatements, inOrder,
    qualified]
  rfl

/-- The values of an enumeration are lost in upper case, while both reversals are complete. -/
theorem reverse_drops_enumeration :
    let stmt := "CREATE TABLE t (c ENUM('new', 'old'));"
    let r : Reverser := ⟨some ((Draft.ofFiles [("t.sql", stmt)]).finish none), .none⟩
    DefinesLiterals "c".toList ["new".toList, "old".toList]
        "c ENUM('new', 'old')".toList ∧
      Sql.bodyDefinitions? stmt.toList = some ["c ENUM('new', 'old')".toList] ∧
      r.reverse none "ALTER TABLE t DROP COLUMN c;" =
        .statement "ALTER TABLE t ADD COLUMN c ENUM('NEW', 'OLD');" ∧
      r.reverse none "DROP TABLE t;" =
        .statement "CREATE TABLE t (\n  c ENUM('NEW', 'OLD')\n);" ∧
      ¬HasLiterals "ENUM('NEW', 'OLD')".toList ["new".toList, "old".toList] := by
  intro stmt r
  have written : ∀ first second : List Char, IsLiteral [] first → IsLiteral [' '] second →
      WritesLiterals (literalThen [] first ([] ++ ',' :: literalThen [' '] second []))
        [first, second] := fun _ _ here next =>
    .cons here (by decide) (.last next (by decide))
  have small := written "new".toList "old".toList ⟨by decide, by decide, by decide⟩
    ⟨by decide, by decide, by decide⟩
  have large := written "NEW".toList "OLD".toList ⟨by decide, by decide, by decide⟩
    ⟨by decide, by decide, by decide⟩
  have defines : DefinesLiterals "c".toList ["new".toList, "old".toList]
      ("c".toList ++ ([' '] ++ ("ENUM".toList ++ ([] ++ '(' :: (_ ++ ')' :: []))))) :=
    .of ⟨by decide, by decide⟩ (.bare (by decide)) (by decide) (by decide) ⟨by decide, by decide⟩
      (by decide) small
  have has : HasLiterals "ENUM('NEW', 'OLD')".toList ["NEW".toList, "OLD".toList] :=
    ⟨"ENUM".toList, _, [], rfl, by decide, large⟩
  have stored : r.table? none ⟨none, "t"⟩ = some enumerated := by decide +kernel
  have dropped : r.reverse none "DROP TABLE t;" = r.undoDropTable none ⟨none, "t"⟩ := rfl
  refine ⟨defines, by decide +kernel, by decide +kernel, ?_, fun kept => ?_⟩
  · rw [dropped, Reverser.undoDropTable, stored, ← creation_enumerated]
    rfl
  · exact absurd (kept.unique has) (by decide)

end Rollback

import Rollback.Proofs.Lists
import Rollback.Proofs.Sql.ActionParts
import Rollback.Proofs.Sql.AlterTable
import Rollback.Proofs.Sql.Identifiers
import Rollback.Proofs.Sql.Recognized

/-!
# Statements that list operands

The patterns say nothing about the text after what they read. So a statement that lists several
tables, views, partitions or columns is recognized by the first of them.

- `Listing`: a statement that lists operands
- `ofText_dropTables`, `ofText_addPartitions`, `ofText_addColumns`: what is recognized of it
- `expandActions?_listing`: it is no chain of actions
-/

set_option autoImplicit false

namespace Rollback

open Pattern

/-- A statement that lists operands, the first of them apart. A partition has its bound and a column
its type. -/
inductive Listing where
  | dropTables (first : String) (others : List String)
  | dropViews (first : String) (others : List String)
  | renameTables (first : String × String) (others : List (String × String))
  | addPartitions (table : String) (first : String × String) (others : List (String × String))
  | addColumns (table : String) (first : String × String) (others : List (String × String))

namespace Listing

/-- The operands as they are listed. -/
def listed (first : String) (others : List String) : String :=
  Text.join ", " (first :: others)

/-- The bound of a partition, from the word VALUES on. -/
def boundClause (bound : String) : String :=
  s!"VALUES LESS THAN ({bound})"

/-- A partition with its bound, as it stands in a list. -/
def partitionClause (p : String × String) : String :=
  s!"PARTITION {p.1} {boundClause p.2}"

/-- A column with its type, as it stands in a list. -/
def columnClause (c : String × String) : String :=
  s!"{c.1} {c.2}"

/-- The old and the new name, as they stand in a list. -/
def renameClause (names : String × String) : String :=
  s!"{names.1} TO {names.2}"

/-- The text of the statement. -/
def text : Listing → String
  | dropTables first others => s!"DROP TABLE {listed first others};"
  | dropViews first others => s!"DROP VIEW {listed first others};"
  | renameTables first others =>
    s!"RENAME TABLE {listed (renameClause first) (others.map renameClause)};"
  | addPartitions table first others =>
    s!"ALTER TABLE {table} ADD {listed (partitionClause first) (others.map partitionClause)};"
  | addColumns table first others =>
    s!"ALTER TABLE {table} ADD COLUMN ({listed (columnClause first) (others.map columnClause)});"

/-- The names are plain, and what stands in parentheses leaves none of them open. -/
def Plain : Listing → Prop
  | dropTables first others => ∀ name ∈ first :: others, PlainName name
  | dropViews first others => ∀ name ∈ first :: others, PlainName name
  | renameTables first others =>
    ∀ names ∈ first :: others, PlainName names.1 ∧ PlainName names.2
  | addPartitions table first others => PlainName table ∧
    ∀ p ∈ first :: others, PlainName p.1 ∧ Sql.IsNested p.2.toList
  | addColumns table first others => PlainName table ∧
    ∀ c ∈ first :: others, PlainName c.1 ∧ Sql.IsNested c.2.toList

/-! ## Texts -/

/-- What stands after the first operand of a statement that ends with its list. -/
def listEnd (others : List String) : List Char :=
  others.flatMap (fun other => ',' :: ' ' :: other.toList) ++ [';']

theorem toList_listed (first : String) (others : List String) :
    (listed first others).toList = [','].intercalate (first.toList ::
      others.map fun other => ' ' :: other.toList) := by
  rw [listed, Text.join, String.toList_intercalate, List.map_cons]
  show [',', ' '].intercalate _ = _
  rw [Text.intercalate_pair, List.map_map]
  rfl

/-- What stands before a list belongs to its first operand. -/
theorem append_listed (before : List Char) (first : String) (others : List String) :
    before ++ (listed first others).toList = [','].intercalate ((before ++ first.toList) ::
      others.map fun other => ' ' :: other.toList) := by
  rw [toList_listed, Text.intercalate_cons, Text.intercalate_cons, List.append_assoc]

theorem listed_append (first : String) (others : List String) :
    (listed first others).toList ++ [';'] = first.toList ++ listEnd others := by
  rw [toList_listed, Text.intercalate_cons, listEnd, List.flatMap_map, List.append_assoc]

/-- The text after the first operand starts with a comma or a semicolon. -/
theorem startsIn_listEnd {set : CharSet} (comma : set.contains ',' = false)
    (semicolon : set.contains ';' = false) (others : List String) :
    startsIn set (listEnd others) = false := by
  cases others with
  | nil => exact semicolon
  | cons other others => exact comma

/-- After the first operand comes a comma or the semicolon, and no gap. -/
theorem dropWhile_isGap_listEnd (others : List String) :
    (listEnd others).dropWhile Text.isGap = listEnd others :=
  Text.dropWhile_eq_self fun c hc => by
    cases others with
    | nil => exact Option.some.inj hc ▸ rfl
    | cons other others => exact Option.some.inj hc ▸ rfl

/-- If all operands end in the same character, then so does the list. -/
theorem getLast?_listed {first : String} {others : List String} {c : Char}
    (h : ∀ part ∈ first :: others, part.toList.getLast? = some c) :
    (listed first others).toList.getLast? = some c := by
  rw [listed, Text.join, String.toList_intercalate, List.map_cons]
  refine getLast?_intercalate fun part mem => ?_
  rw [← List.map_cons] at mem
  obtain ⟨text, listed, rfl⟩ := List.mem_map.1 mem
  exact h text listed

/-- A list that ends with a closing parenthesis is cut into its operands. -/
theorem actionParts_listed {before : List Char} {first : String} {others : List String}
    (start : Sql.IsPart before) (head : Sql.IsPart first.toList)
    (tail : ∀ part ∈ others, Sql.IsPart part.toList)
    (closed : (listed first others).toList.getLast? = some ')') :
    Sql.actionParts (before ++ ((listed first others).toList ++ [';'])) =
      (((before ++ first.toList) :: others.map fun other => ' ' :: other.toList).map
        Text.trim).filter fun part => !part.isEmpty := by
  rw [← List.append_assoc, append_listed, Sql.actionParts_eq (d := ')') _ rfl]
  · rw [← append_listed, List.getLast?_append, closed]
    rfl
  · intro part mem
    rcases List.mem_cons.1 mem with rfl | mem
    · exact start.append head
    · obtain ⟨other, listed, rfl⟩ := List.mem_map.1 mem
      exact (Sql.isPart_of_inert (s := [' ']) (Sql.inert_of_all rfl) (by decide)).append
        (tail other listed)

theorem trimmed_text (s : Listing) : Text.Trimmed s.text.toList := by
  cases s
  all_goals
    unfold text
    simp only [toString_string, String.toList_append]
  · exact Text.trimmed_cons_append (c := 'D') (t := ";".toList) rfl rfl rfl
  · exact Text.trimmed_cons_append (c := 'D') (t := ";".toList) rfl rfl rfl
  · exact Text.trimmed_cons_append (c := 'R') (t := ";".toList) rfl rfl rfl
  · exact Text.trimmed_cons_append (c := 'A') (t := ";".toList) rfl rfl rfl
  · exact Text.trimmed_cons_append (c := 'A') (t := ");".toList) rfl rfl rfl

end Listing

open Sql Listing

/-! ## Tables and views -/

section

variable {name : String} {m : List (Operand × Span)} {l : Option Char}

/-- The words IF EXISTS are not there if a list goes on after a word. -/
theorem stuck_ifExists_listEnd (plain : PlainName name) (others : List String) :
    Stuck (keywords ["IF", "EXISTS"] : Phrase) ⟨l, name.toList ++ listEnd others, m⟩ := by
  refine stuck_keywords_word (by decide) (c := 'E') rfl (by decide) [] plain.word
    (startsIn_listEnd rfl rfl others) ?_
  rw [dropWhile_isGap_listEnd]
  exact startsIn_listEnd rfl rfl others

theorem reads_listedName (plain : PlainName name) (operand : Operand) (others : List String) :
    Reads (objectName operand) ⟨l, name.toList ++ listEnd others, m⟩
      ⟨lastAfter l name.toList, listEnd others,
        (operand, ⟨name.toList ++ listEnd others, listEnd others⟩) :: m⟩ :=
  reads_objectName (n := ⟨none, name⟩) ⟨plain.bare, by simp⟩ operand _
    (startsIn_listEnd rfl rfl others)

/-- The first operand is read after the words that say what is dropped. -/
theorem reads_firstDropped (kind : String) (solid : startsIn .word kind.toList = true)
    (plain : PlainName name) (others : List String) :
    Reads (keywords ["DROP", kind] ++ gap ++ maybe ["IF", "EXISTS"] ++ objectName .object)
      ⟨none, "DROP ".toList ++ (kind.toList ++ ' ' :: (name.toList ++ listEnd others)), []⟩
      ⟨lastAfter (some ' ') name.toList, listEnd others,
        [(.object, ⟨name.toList ++ listEnd others, listEnd others⟩)]⟩ := by
  have words := reads_keywords (ι := Operand) (l := none) (m := []) ["DROP", kind]
    (' ' :: (name.toList ++ listEnd others)) (by simp [solid]; rfl)
  have shape : [' '].intercalate (["DROP", kind].map String.toList) ++
      ' ' :: (name.toList ++ listEnd others) =
      "DROP ".toList ++ (kind.toList ++ ' ' :: (name.toList ++ listEnd others)) := by
    simp [List.intercalate]
  rw [shape] at words
  exact ((words.seq (reads_space (plain.startsIn_gap _))).seq
    ((stuck_ifExists_listEnd plain others).seq_left gap).orNothing).seq
    (reads_listedName plain .object others)

end

theorem toList_dropTables (first : String) (others : List String) :
    (dropTables first others).text.toList =
      "DROP TABLE ".toList ++ (first.toList ++ listEnd others) := by
  unfold Listing.text
  simp only [toString_string, String.toList_append]
  rw [← listed_append]
  rfl

theorem toList_dropViews (first : String) (others : List String) :
    (dropViews first others).text.toList =
      "DROP VIEW ".toList ++ (first.toList ++ listEnd others) := by
  unfold Listing.text
  simp only [toString_string, String.toList_append]
  rw [← listed_append]
  rfl

/-- Of all the tables that are listed, the first one is dropped. -/
theorem ofText_dropTables {first : String} (plain : PlainName first) (others : List String) :
    Statement.ofText (dropTables first others).text = .dropTable ⟨none, first⟩ := by
  have rule : dropTable? ("DROP TABLE ".toList ++ (first.toList ++ listEnd others)) =
      some (.dropTable ⟨none, first⟩) := by
    have read : dropTablePhrase.match? ("DROP TABLE ".toList ++ (first.toList ++ listEnd others)) =
        some _ := (reads_firstDropped "TABLE" rfl plain others).match?
    rw [dropTable?, read]
    exact congrArg (fun n => some (Statement.dropTable n)) (objectAt_of_plainName plain rfl)
  have before : ∀ rule ∈ rules.take 2,
      rule ("DROP TABLE ".toList ++ (first.toList ++ listEnd others)) = none := by
    simp only [rules, List.take_succ_cons, List.take_zero, List.forall_mem_cons]
    exact ⟨rfl, rfl, by simp⟩
  have trimmed := toList_dropTables first others ▸ (dropTables first others).trimmed_text
  rw [Statement.ofText, toList_dropTables]
  exact ofChars_of_rule trimmed 2 before rfl rule

theorem ofText_dropViews {first : String} (plain : PlainName first) (others : List String) :
    Statement.ofText (dropViews first others).text = .dropView ⟨none, first⟩ := by
  have rule : dropView? ("DROP VIEW ".toList ++ (first.toList ++ listEnd others)) =
      some (.dropView ⟨none, first⟩) := by
    have read : dropViewPhrase.match? ("DROP VIEW ".toList ++ (first.toList ++ listEnd others)) =
        some _ := (reads_firstDropped "VIEW" rfl plain others).match?
    rw [dropView?, read]
    exact congrArg (fun n => some (Statement.dropView n)) (objectAt_of_plainName plain rfl)
  have before : ∀ rule ∈ rules.take 16,
      rule ("DROP VIEW ".toList ++ (first.toList ++ listEnd others)) = none := by
    simp only [rules, List.take_succ_cons, List.take_zero, List.forall_mem_cons]
    exact ⟨rfl, rfl, rfl, rfl, rfl, rfl, rfl, rfl, rfl, rfl, rfl, rfl, rfl, rfl, rfl, rfl, by simp⟩
  have trimmed := toList_dropViews first others ▸ (dropViews first others).trimmed_text
  rw [Statement.ofText, toList_dropViews]
  exact ofChars_of_rule trimmed 16 before rfl rule

/-! ## New names of tables -/

theorem toList_renameTables (first : String × String) (others : List (String × String)) :
    (renameTables first others).text.toList =
      renameLine first.1 first.2 (listEnd (others.map renameClause)) := by
  have clause : (renameClause first).toList =
      first.1.toList ++ ' ' :: ("TO".toList ++ ' ' :: first.2.toList) := by
    unfold renameClause
    simp only [toString_string, String.toList_append, List.append_assoc]
    rfl
  have list := listed_append (renameClause first) (others.map renameClause)
  rw [clause] at list
  unfold Listing.text renameLine
  simp only [toString_string, String.toList_append]
  rw [List.append_assoc, show ";".toList = [';'] from rfl, list]
  simp only [List.append_assoc, List.cons_append]

/-- Of all the renamings that are listed, the first one is read. -/
theorem ofText_renameTables {first : String × String} (source : PlainName first.1)
    (target : PlainName first.2) (others : List (String × String)) :
    Statement.ofText (renameTables first others).text =
      .renameTable ⟨none, first.1⟩ ⟨none, first.2⟩ := by
  have trimmed := toList_renameTables first others ▸ (renameTables first others).trimmed_text
  rw [Statement.ofText, toList_renameTables]
  have stop : startsIn nameGoesOn (listEnd (others.map renameClause)) = false :=
    startsIn_listEnd rfl rfl _
  have line := ofChars_renameLine source.bare.bareObject target.bare.bareObject stop trimmed
  exact line

/-! ## Partitions -/

/-- What stands after the name of a partition. -/
def boundsText (bound : String) (others : List String) : List Char :=
  (boundClause bound).toList ++ listEnd others

/-- The list of the partitions to add. -/
def partitionsText (first : String × String) (others : List String) : List Char :=
  "PARTITION".toList ++ ' ' :: (first.1.toList ++ ' ' :: boundsText first.2 others)

theorem toList_partitionClause (p : String × String) :
    (partitionClause p).toList =
      "PARTITION".toList ++ ' ' :: (p.1.toList ++ ' ' :: (boundClause p.2).toList) := by
  unfold partitionClause
  simp only [toString_string, String.toList_append, List.append_assoc]
  rfl

theorem partitionsText_eq (first : String × String) (others : List String) :
    partitionsText first others = (listed (partitionClause first) others).toList ++ [';'] := by
  rw [listed_append, toList_partitionClause]
  unfold partitionsText boundsText
  simp only [List.append_assoc, List.cons_append]

theorem toList_addPartitions (table : String) (first : String × String)
    (others : List (String × String)) :
    (addPartitions table first others).text.toList = alterText table.toList
      ("ADD".toList ++ ' ' :: partitionsText first (others.map partitionClause)) := by
  rw [partitionsText_eq]
  unfold Listing.text alterText
  simp only [toString_string, String.toList_append, List.append_assoc]
  rfl

theorem withoutSemicolon_concat (rest : List Char) : withoutSemicolon (rest ++ [';']) = rest := by
  have ends : ((rest ++ [';']).reverse.dropWhile Text.isGap) = ';' :: rest.reverse := by
    rw [List.reverse_append]
    rfl
  rw [withoutSemicolon, ends]
  exact List.reverse_reverse rest

theorem boundClause_ends (bound : String) :
    ∃ w, (boundClause bound).toList = 'V' :: w ++ [')'] := by
  unfold boundClause
  simp only [toString_string, String.toList_append]
  exact ⟨_, rfl⟩

theorem partitionClause_ends (p : String × String) :
    ∃ w, (partitionClause p).toList = 'P' :: w ++ [')'] := by
  obtain ⟨w, hw⟩ := boundClause_ends p.2
  unfold partitionClause
  simp only [toString_string, String.toList_append, hw]
  rw [← List.append_assoc]
  exact ⟨_, rfl⟩

theorem getLast?_partitionClause (p : String × String) :
    (partitionClause p).toList.getLast? = some ')' := by
  obtain ⟨w, hw⟩ := partitionClause_ends p
  rw [hw]
  exact List.getLast?_concat (l := 'P' :: w)

theorem getLast?_partitionClauses {first : String} (last : first.toList.getLast? = some ')')
    (others : List (String × String)) :
    (listed first (others.map partitionClause)).toList.getLast? = some ')' := by
  refine getLast?_listed fun clause mem => ?_
  rcases List.mem_cons.1 mem with rfl | mem
  · exact last
  · obtain ⟨p, -, rfl⟩ := List.mem_map.1 mem
    exact getLast?_partitionClause p

/-- What is left of the end of a statement without its semicolon and the space before. -/
theorem clause?_withoutSemicolon {c : Char} {rest : List Char} (first : Text.isBlank c = false)
    (last : (c :: rest).getLast? = some ')') :
    clause? (withoutSemicolon (' ' :: (c :: rest ++ [';']))) = some (c :: rest) := by
  have trimmed : Text.Trimmed (c :: rest) := Text.trimmed_of_ends rfl last first rfl
  rw [← List.cons_append, withoutSemicolon_concat, clause?, trimmed.trim_space]
  rfl

/-- The bounds are what stands before the semicolon. -/
theorem clause?_bounds (bound : String) (others : List (String × String)) :
    clause? (withoutSemicolon (' ' :: boundsText bound (others.map partitionClause))) =
      some (listed (boundClause bound) (others.map partitionClause)).toList := by
  obtain ⟨w, hw⟩ := boundClause_ends bound
  have last := getLast?_partitionClauses (hw ▸ List.getLast?_concat (l := 'V' :: w)) others
  obtain ⟨v, hv⟩ : ∃ v, (listed (boundClause bound) (others.map partitionClause)).toList =
      'V' :: v := by
    rw [toList_listed, Text.intercalate_cons, hw]
    exact ⟨_, rfl⟩
  rw [hv] at last
  rw [boundsText, ← listed_append, hv, clause?_withoutSemicolon rfl last]

/-- After the start of the statement, the name of the partition is read. -/
theorem reads_addPartition {table : String} {first : String × String} (object : PlainName table)
    (partition : PlainName first.1) (others : List String) :
    Reads addPartitionPhrase
      ⟨none, alterText table.toList ("ADD".toList ++ ' ' :: partitionsText first others), []⟩
      ⟨lastAfter (some ' ') first.1.toList, ' ' :: boundsText first.2 others,
        [(.partition, ⟨first.1.toList ++ ' ' :: boundsText first.2 others,
          ' ' :: boundsText first.2 others⟩),
         (.object, ⟨table.toList ++ ' ' :: ("ADD".toList ++ ' ' :: partitionsText first others),
          ' ' :: ("ADD".toList ++ ' ' :: partitionsText first others)⟩)]⟩ := by
  have words := reads_keywords (ι := Operand) (l := some ' ')
    (m := [(.object, ⟨table.toList ++ ' ' :: ("ADD".toList ++ ' ' :: partitionsText first others),
      ' ' :: ("ADD".toList ++ ' ' :: partitionsText first others)⟩)]) ["ADD", "PARTITION"]
    (' ' :: (first.1.toList ++ ' ' :: boundsText first.2 others)) rfl
  have space : ∀ l m, Reads (gaps : Phrase)
      ⟨l, ' ' :: (first.1.toList ++ ' ' :: boundsText first.2 others), m⟩
      ⟨some ' ', first.1.toList ++ ' ' :: boundsText first.2 others, m⟩ := fun l m =>
    reads_some0 (w := [' ']) (by simp; rfl) (partition.startsIn_gap _)
  have name := fun l m => ((reads_identifier (l := l) (m := m) partition.bare
    (' ' :: boundsText first.2 others) rfl rfl).mark .partition).orNothing
  exact .assoc (.assoc (.assoc (reads_alterTable object.bare.bareObject (by decide) (by decide) rfl
    rfl (words.seq ((reads_wordEdge rfl).seq ((space _ _).seq (name _ _)))) fun l m => rfl)))

/-- The words VALUES and FOR are not taken for the name of a partition. -/
theorem addPartition?_of_match {stmt name bounds : List Char} {m : Match Operand}
    (read : addPartitionPhrase.match? stmt = some m) (found : identifierAt m .partition = name)
    (some_ : name ≠ []) (rest : clause? (withoutSemicolon m.rest) = some bounds) :
    ∃ others, addPartition? stmt = some (
      if Text.isOneOf ["VALUES", "FOR"] name then .addPartition (objectAt m .object) none others
      else .addPartition (objectAt m .object) (some (String.ofList name))
        (some (String.ofList bounds))) := by
  have nonempty : name.isEmpty = false := List.isEmpty_eq_false_iff.2 some_
  rw [addPartition?, read]
  simp only [Option.bind_eq_bind, Option.bind_some, Option.pure_def, found, nonempty, rest]
  cases Text.isOneOf ["VALUES", "FOR"] name with
  | true => exact ⟨_, rfl⟩
  | false => exact ⟨none, rfl⟩

/-- Of all partitions that are listed, the first one is added, and what follows its name is taken
for its bounds. -/
theorem ofText_addPartitions {table : String} {first : String × String} (object : PlainName table)
    (partition : PlainName first.1) (others : List (String × String)) :
    ∃ bounds, Statement.ofText (addPartitions table first others).text =
      if Text.isOneOf ["VALUES", "FOR"] first.1.toList then
        .addPartition ⟨none, table⟩ none bounds
      else
        .addPartition ⟨none, table⟩ (some first.1)
          (some (listed (boundClause first.2) (others.map partitionClause))) := by
  have trimmed := toList_addPartitions table first others ▸
    (addPartitions table first others).trimmed_text
  have bounds := clause?_bounds first.2 others
  rw [Statement.ofText, toList_addPartitions]
  generalize others.map partitionClause = others at trimmed bounds ⊢
  have before : ∀ rule ∈ rules.take 3, rule (alterText table.toList
      ("ADD".toList ++ ' ' :: partitionsText first others)) = none := by
    simp only [rules, List.take_succ_cons, List.take_zero, List.forall_mem_cons]
    exact ⟨rfl, rfl, rfl, by simp⟩
  obtain ⟨further, rule⟩ := addPartition?_of_match
    (reads_addPartition object partition others).match?
    (identifierAt_of_spells partition.spells rfl) partition.nonempty bounds
  rw [objectAt_of_plainName object rfl, String.ofList_toList, String.ofList_toList] at rule
  exact ⟨further, ofChars_of_rule trimmed 3 before rfl rule⟩

/-! ## Parts of the statement -/

/-- A partition with its bound has no comma at the top level. -/
theorem isPart_partitionClause {p : String × String} (plain : PlainName p.1)
    (nested : IsNested p.2.toList) : IsPart (partitionClause p).toList := by
  have bound : (boundClause p.2).toList =
      "VALUES LESS THAN ".toList ++ ('(' :: p.2.toList ++ [')']) := by
    unfold boundClause
    simp only [toString_string, String.toList_append, List.append_assoc]
    rfl
  have words : IsPart "PARTITION ".toList := isPart_of_inert (inert_of_all rfl) (by decide)
  have more : IsPart " VALUES LESS THAN ".toList := isPart_of_inert (inert_of_all rfl) (by decide)
  have parts := words.append ((isPart_of_word plain.word).append
    (more.append (isPart_parenthesized nested)))
  rw [toList_partitionClause, bound]
  exact parts

theorem trimmed_partitionClause (p : String × String) :
    Text.Trimmed (partitionClause p).toList := by
  obtain ⟨w, hw⟩ := partitionClause_ends p
  have last : ('P' :: w ++ [')']).getLast? = some ')' := List.getLast?_concat (l := 'P' :: w)
  rw [hw]
  exact Text.trimmed_of_ends (c := 'P') (d := ')') rfl last rfl rfl

/-- A further partition is no action of its own. -/
theorem startsWithAction_partitionClause (p : String × String) :
    startsWithAction (partitionClause p).toList = false := by
  rw [toList_partitionClause]
  rfl

/-- Only the first part of a list of partitions can start with an action word. -/
theorem actionParts_partitions (before : List Char) (isPart : IsPart before)
    {first : String × String} {others : List (String × String)}
    (h : ∀ p ∈ first :: others, PlainName p.1 ∧ IsNested p.2.toList) :
    (actionParts (before ++ partitionsText first (others.map partitionClause))).length ≤ 1 ∨
      ∃ part ∈ actionParts (before ++ partitionsText first (others.map partitionClause)),
        startsWithAction part = false := by
  have clause : ∀ p ∈ first :: others, IsPart (partitionClause p).toList := fun p hp =>
    isPart_partitionClause (h p hp).1 (h p hp).2
  have tail : ∀ part ∈ others.map partitionClause, IsPart part.toList := by
    intro part mem
    obtain ⟨p, hp, rfl⟩ := List.mem_map.1 mem
    exact clause p (List.mem_cons_of_mem first hp)
  have parts := actionParts_listed isPart (clause first List.mem_cons_self) tail
    (getLast?_partitionClauses (getLast?_partitionClause first) others)
  rw [partitionsText_eq, parts]
  cases others with
  | nil => exact .inl (List.length_filter_le _ _)
  | cons p others =>
    refine .inr ⟨(partitionClause p).toList, List.mem_filter.2 ⟨?_, ?_⟩,
      startsWithAction_partitionClause p⟩
    · rw [List.map_cons, List.map_cons, List.map_cons, List.map_cons,
        (trimmed_partitionClause p).trim_space]
      exact List.mem_cons_of_mem _ List.mem_cons_self
    · obtain ⟨w, hw⟩ := partitionClause_ends p
      rw [hw]
      rfl

/-- A list of partitions is no chain of actions, as only its first part starts with an action. -/
theorem expandActions?_addPartitions {table : String} {first : String × String}
    {others : List (String × String)} (object : PlainName table)
    (h : ∀ p ∈ first :: others, PlainName p.1 ∧ IsNested p.2.toList) :
    expandActions? (addPartitions table first others).text = none := by
  have trimmed := toList_addPartitions table first others ▸
    (addPartitions table first others).trimmed_text
  rw [← String.ofList_toList (s := (addPartitions table first others).text), toList_addPartitions]
  refine expandActions?_eq_none_of_parts trimmed fun m found => ?_
  have action : IsPart "ADD ".toList := isPart_of_inert (inert_of_all rfl) (by decide)
  -- The actions start with the word ADD or, if the table is called ONLY, after it.
  rcases rest_of_match?_head object.isSolid object.nonempty (by decide) (by decide) rfl rfl found
    with rest | rest
  · have split : "ADD".toList ++ ' ' :: partitionsText first (others.map partitionClause) =
        "ADD ".toList ++ partitionsText first (others.map partitionClause) := rfl
    rw [rest, split]
    exact actionParts_partitions _ action h
  · rw [rest]
    exact actionParts_partitions [] (isPart_of_word (by simp)) h

/-! ## Columns -/

/-- A list of columns in parentheses, with the word COLUMN before it. -/
def columnsText (list : String) : List Char :=
  "COLUMN".toList ++ ' ' :: ('(' :: list.toList ++ [')', ';'])

theorem toList_addColumns (table : String) (first : String × String)
    (others : List (String × String)) :
    (addColumns table first others).text.toList = alterText table.toList
      ("ADD".toList ++ ' ' :: columnsText
        (listed (columnClause first) (others.map columnClause))) := by
  unfold Listing.text alterText columnsText
  simp only [toString_string, String.toList_append, List.append_assoc]
  rfl

/-- The list cannot be read as the name of a column, so the word COLUMN is read as one. -/
theorem reads_addColumn {table : String} (object : PlainName table) (list : String) :
    Reads addColumnPhrase
      ⟨none, alterText table.toList ("ADD".toList ++ ' ' :: columnsText list), []⟩
      ⟨some 'N', ' ' :: ('(' :: list.toList ++ [')', ';']),
        [(.column, ⟨columnsText list, ' ' :: ('(' :: list.toList ++ [')', ';'])⟩),
         (.object, ⟨table.toList ++ ' ' :: ("ADD".toList ++ ' ' :: columnsText list),
          ' ' :: ("ADD".toList ++ ' ' :: columnsText list)⟩)]⟩ := by
  have add := fun l m => reads_same_keyword (ι := Operand) (l := l) (m := m) "ADD"
    (' ' :: columnsText list)
  have space : ∀ l m, Reads (gap : Phrase) ⟨l, ' ' :: columnsText list, m⟩
      ⟨some ' ', columnsText list, m⟩ := fun _ _ => reads_space rfl
  have none_ := fun l m => (show Stuck (keywords ["IF", "NOT", "EXISTS"] ++ gap : Phrase)
    ⟨l, columnsText list, m⟩ from rfl).orNothing
  have plain : PlainName "COLUMN" := by decide
  have name := fun l m => (reads_identifier (l := l) (m := m) plain.bare
    (' ' :: ('(' :: list.toList ++ [')', ';'])) rfl rfl).mark .column
  have bare := fun l m => (show Stuck (gap ++ mark .definition columnDefinition : Phrase)
    ⟨l, ' ' :: ('(' :: list.toList ++ [')', ';']), m⟩ from rfl).orNothing
  -- After the word COLUMN no name can be read, and that choice is given up.
  refine .assoc (.assoc (.assoc (.assoc (.assoc
    (reads_alterTable object.bare.bareObject (by decide) (by decide) rfl rfl
      ((add _ _).seq ((space _ _).seq (.skip ?_ ((none_ _ _).seq ((name _ _).seq (bare _ _))))))
      fun l m => ?_)))))
  · rfl
  · rfl

/-- A list in parentheses is no part of its own. -/
theorem actionParts_columns (before : List Char) {list : String} (isPart : IsPart before)
    (nested : IsNested list.toList) :
    (actionParts (before ++ columnsText list)).length ≤ 1 := by
  have word : IsPart "COLUMN ".toList := isPart_of_inert (inert_of_all rfl) (by decide)
  have split : before ++ columnsText list =
      before ++ ("COLUMN ".toList ++ ('(' :: list.toList ++ [')'])) ++ [';'] := by
    unfold columnsText
    simp only [List.append_assoc, List.cons_append]
    rfl
  rw [split]
  refine length_actionParts_le (isPart.append (word.append (isPart_parenthesized nested)))
    (d := ')') rfl ?_
  rw [List.getLast?_append, List.getLast?_append, List.getLast?_concat (l := '(' :: list.toList)]
  rfl

/-- A list can stand in parentheses if its operands can. -/
theorem isNested_listed {first : String} {others : List String}
    (h : ∀ part ∈ first :: others, IsNested part.toList) :
    IsNested (listed first others).toList := by
  rw [listed, Text.join, String.toList_intercalate]
  refine Text.intercalate_induction .nil .append (isNested_of_inert (inert_of_all rfl)) ?_
  intro part mem
  obtain ⟨text, listed, rfl⟩ := List.mem_map.1 mem
  exact h text listed

theorem isNested_columnClauses {first : String × String} {others : List (String × String)}
    (h : ∀ c ∈ first :: others, PlainName c.1 ∧ IsNested c.2.toList) :
    IsNested (listed (columnClause first) (others.map columnClause)).toList := by
  refine isNested_listed fun part mem => ?_
  rw [← List.map_cons] at mem
  obtain ⟨c, hc, rfl⟩ := List.mem_map.1 mem
  obtain ⟨plain, nested⟩ := h c hc
  unfold columnClause
  simp only [toString_string, String.toList_append]
  exact ((isNested_of_inert (inert_of_word plain.word)).append
    (isNested_of_inert (inert_of_all rfl))).append nested

/-- Columns in parentheses are one part, so they are no chain of actions. -/
theorem expandActions?_addColumns {table : String} {first : String × String}
    {others : List (String × String)} (object : PlainName table)
    (h : ∀ c ∈ first :: others, PlainName c.1 ∧ IsNested c.2.toList) :
    expandActions? (addColumns table first others).text = none := by
  have trimmed := toList_addColumns table first others ▸
    (addColumns table first others).trimmed_text
  have nested := isNested_columnClauses h
  rw [← String.ofList_toList (s := (addColumns table first others).text), toList_addColumns]
  generalize listed (columnClause first) (others.map columnClause) = list at trimmed nested ⊢
  refine expandActions?_eq_none_of_parts trimmed fun m found => .inl ?_
  have action : IsPart "ADD ".toList := isPart_of_inert (inert_of_all rfl) (by decide)
  rcases rest_of_match?_head object.isSolid object.nonempty (by decide) (by decide) rfl rfl found
    with rest | rest
  · have split : "ADD".toList ++ ' ' :: columnsText list = "ADD ".toList ++ columnsText list := rfl
    rw [rest, split]
    exact actionParts_columns _ action nested
  · rw [rest]
    exact actionParts_columns [] (isPart_of_word (by simp)) nested

/-- The rules before the one for columns want other words. -/
theorem rules_refuse_addColumns {table : String} (object : PlainName table) (list : String) :
    ∀ rule ∈ rules.take 6,
      rule (alterText table.toList ("ADD".toList ++ ' ' :: columnsText list)) = none := by
  have stuck : ∀ q : Phrase, (∀ l m, Stuck q ⟨l, "ADD".toList ++ ' ' :: columnsText list, m⟩) →
      (∀ l m, Stuck q ⟨l, columnsText list, m⟩) → Stuck (alterTable ["ONLY"] ++ q)
        ⟨none, alterText table.toList ("ADD".toList ++ ' ' :: columnsText list), []⟩ := fun _ =>
    stuck_alterTable object.isSolid object.nonempty (by decide) (by decide) rfl
  have words := stuck (keywords ["ADD", "PARTITION"]) (fun _ _ => rfl) fun _ _ => rfl
  have phrase : Stuck addPartitionPhrase _ := ((words.seq_left _).seq_left _).seq_left _
  have partition : addPartition? (alterText table.toList
      ("ADD".toList ++ ' ' :: columnsText list)) = none := by
    rw [addPartition?, phrase.match?]
    rfl
  have attach : LacksAction "ATTACH" _ := stuck _ (fun _ _ => rfl) fun _ _ => rfl
  have detach : LacksAction "DETACH" _ := stuck _ (fun _ _ => rfl) fun _ _ => rfl
  simp only [rules, List.take_succ_cons, List.take_zero, List.forall_mem_cons]
  exact ⟨rfl, rfl, rfl, partition, attach.attachPartition?_eq_none,
    detach.detachPartition?_eq_none, by simp⟩

theorem ofText_addColumns {table : String} {first : String × String}
    {others : List (String × String)} (object : PlainName table)
    (h : ∀ c ∈ first :: others, PlainName c.1 ∧ IsNested c.2.toList) :
    Statement.ofText (addColumns table first others).text =
      .addColumn ⟨none, table⟩ "COLUMN" none false := by
  have trimmed := toList_addColumns table first others ▸
    (addColumns table first others).trimmed_text
  have nested := isNested_columnClauses h
  rw [Statement.ofText, toList_addColumns]
  generalize listed (columnClause first) (others.map columnClause) = list at trimmed nested ⊢
  have action : IsPart " ADD ".toList := isPart_of_inert (inert_of_all rfl) (by decide)
  have single : ¬(actionParts (' ' :: ("ADD".toList ++ ' ' :: columnsText list))).length > 1 := by
    have split : ' ' :: ("ADD".toList ++ ' ' :: columnsText list) =
        " ADD ".toList ++ columnsText list := rfl
    rw [split]
    exact Nat.not_lt.2 (actionParts_columns _ action nested)
  have rule := addColumn?_of_match (reads_addColumn object list).match?
    (decide_eq_false single) (identifierAt_of_spells (w := "COLUMN".toList)
      (show PlainName "COLUMN" by decide).spells rfl)
  rw [objectAt_of_plainName object rfl] at rule
  exact ofChars_of_rule trimmed 6 (rules_refuse_addColumns object list) rfl rule

/-! ## No chains -/

/-- A statement that lists operands is no chain of actions. -/
theorem expandActions?_listing {s : Listing} (plain : s.Plain) : expandActions? s.text = none := by
  have other : ∀ {t : Listing}, Text.eqIgnoringCase "ALTER".toList (t.text.toList.take 5) = false →
      expandActions? t.text = none := fun {t} first => by
    rw [← String.ofList_toList (s := t.text)]
    exact expandActions?_eq_none t.trimmed_text first
  cases s with
  | dropTables first others => exact other (by rw [toList_dropTables]; rfl)
  | dropViews first others => exact other (by rw [toList_dropViews]; rfl)
  | renameTables first others => exact other (by rw [toList_renameTables]; rfl)
  | addPartitions table first others => exact expandActions?_addPartitions plain.1 plain.2
  | addColumns table first others => exact expandActions?_addColumns plain.1 plain.2

end Rollback

import Mathlib.Data.List.TakeWhile
import Rollback.Proofs.Sql.ActionParts
import Rollback.Proofs.Sql.Identifiers
import Rollback.Proofs.Sql.Recognized

/-!
# Names in double quotes

The pattern of an identifier takes a quote, the characters of identifiers after it and perhaps
another quote. It does not ask for the quotes to match, and no rule asks what stands after the name.
So of a quoted name that holds any other character only the start is captured.

- `reads_quotedIdentifier`, `stuck_quotedIdentifier`: what is read of a quoted name
- `QuotedForm`: statements with a quoted name
- `QuotedForm.ofText_addColumn`, `QuotedForm.ofText_renameColumn`: what is captured of a name
- `captures_or_unrecognized_iff`: which names are captured as a whole or not at all
-/

set_option autoImplicit false

namespace Rollback

open Pattern

namespace Sql

variable {l : Option Char} {m : List (Operand × Span)} {n x rest : List Char}

/-! ## Reading a name after its quote -/

/-- A name between double quotes, with what follows. -/
def quoted (n rest : List Char) : List Char :=
  '\x22' :: (n ++ '\x22' :: rest)

/-- An optional part is always read in some way. -/
theorem exists_reads_orNothing (p : Phrase) (s : Place Operand) : ∃ t, Reads (orNothing p) s t := by
  show ∃ t, (p.places s ++ [s]).head? = some t
  cases p.places s with
  | nil => exact ⟨s, rfl⟩
  | cons t others => exact ⟨t, rfl⟩

/-- Without a character of identifiers after the quote nothing is read. -/
theorem stuck_quotedIdentifier (h : startsIn identifierChar n = false) :
    Stuck identifier ⟨l, quoted n rest, m⟩ := by
  have after : startsIn identifierChar (n ++ '\x22' :: rest) = false := by
    cases n with
    | nil => rfl
    | cons c n => exact h
  refine Stuck.seq_left (.seq_right fun t ht => ?_) _
  have places : (orNothing nameQuote).places ⟨l, quoted n rest, m⟩ =
      [⟨some '\x22', n ++ '\x22' :: rest, m⟩, ⟨l, quoted n rest, m⟩] := rfl
  rw [places, List.mem_cons, List.mem_singleton] at ht
  rcases ht with rfl | rfl
  · exact stuck_some1 after
  · exact stuck_some1 rfl

section

variable (nonempty : x ≠ []) (chars : ∀ c ∈ x, identifierChar.contains c = true)

include nonempty chars

/-- After a quote, an identifier is read as far as its characters go. -/
theorem reads_afterQuote (ends : startsIn identifierChar rest = false) :
    Reads (orNothing nameQuote ++ some1 identifierChar)
      (⟨l, '\x22' :: (x ++ rest), m⟩ : Place Operand) ⟨lastAfter (some '\x22') x, rest, m⟩ :=
  (Reads.orNothing (reads_char rfl)).seq (reads_some1 nonempty chars ends)

/-- The characters of identifiers after the quote are read, with a quote after them if there is
one. -/
theorem reads_quotedIdentifier (ends : startsIn identifierChar rest = false) :
    ∃ w after, Spells w x ∧ '\x22' :: (x ++ rest) = w ++ after ∧
      ∃ last, Reads identifier ⟨l, '\x22' :: (x ++ rest), m⟩ ⟨last, after, m⟩ := by
  have spells : ∀ b, (∀ c ∈ b, Text.isNameQuote c = true) → Spells ('\x22' :: x ++ b) x :=
    fun b hb =>
    ⟨nonempty, chars, ['\x22'], b, rfl, fun c hc => List.mem_singleton.1 hc ▸ rfl, hb⟩
  cases closed : startsIn (.oneOf ['\x60', '\x22']) rest with
  | true =>
    cases rest with
    | nil => exact absurd closed (by decide)
    | cons c after =>
      have quote : ∀ d ∈ [c], Text.isNameQuote d = true := fun d hd =>
        List.mem_singleton.1 hd ▸ isNameQuote_of_contains closed
      exact ⟨'\x22' :: x ++ [c], after, spells [c] quote, by simp, _,
        (reads_afterQuote nonempty chars ends).seq (Reads.orNothing (reads_char closed))⟩
  | false =>
    exact ⟨'\x22' :: x ++ [], rest, spells [] (by simp), by simp, _,
      (reads_afterQuote nonempty chars ends).seq (Stuck.orNothing (stuck_char closed))⟩

theorem spells_quoted : Spells ('\x22' :: x ++ ['\x22']) x :=
  ⟨nonempty, chars, ['\x22'], ['\x22'], rfl, fun _ hc => List.mem_singleton.1 hc ▸ rfl,
    fun _ hc => List.mem_singleton.1 hc ▸ rfl⟩

/-- If all characters are those of identifiers, the name is read with both quotes. -/
theorem reads_quotedObject (operand : Operand) (stop : startsIn (.oneOf ['.']) rest = false) :
    Reads (objectName operand) ⟨l, quoted x rest, m⟩
      ⟨some '\x22', rest, (operand, ⟨quoted x rest, rest⟩) :: m⟩ :=
  Reads.mark (((reads_afterQuote nonempty chars rfl).seq (Reads.orNothing (reads_char rfl))).seq
    (((stuck_char stop).seq_left identifier).orNothing)) operand

end

/-- The start of a name that can be read, and the rest of it. -/
def readableStart (n : List Char) : List Char :=
  n.takeWhile identifierChar.contains

theorem chars_readableStart : ∀ c ∈ readableStart n, identifierChar.contains c = true :=
  List.all_eq_true.1 List.all_takeWhile

/-- A name of such characters is read as a whole. -/
theorem readableStart_eq_self (h : ∀ c ∈ n, identifierChar.contains c = true) :
    readableStart n = n :=
  List.takeWhile_eq_self_iff.2 h

theorem readableStart_eq_nil (h : startsIn identifierChar n = false) : readableStart n = [] := by
  cases n with
  | nil => rfl
  | cons c n =>
    have first : identifierChar.contains c = false := h
    rw [readableStart, List.takeWhile_cons, first]
    rfl

/-- After the quote, the start of the name is read. -/
theorem reads_readableStart (rest : List Char) (h : startsIn identifierChar n = true) :
    ∃ w after, Spells w (readableStart n) ∧ quoted n rest = w ++ after ∧
      ∃ last, Reads identifier ⟨l, quoted n rest, m⟩ ⟨last, after, m⟩ := by
  have nonempty : readableStart n ≠ [] := by
    cases n with
    | nil => exact absurd h (by decide)
    | cons c n =>
      have first : identifierChar.contains c = true := h
      rw [readableStart, List.takeWhile_cons, if_pos first]
      exact List.cons_ne_nil _ _
  have ends : startsIn identifierChar (n.dropWhile identifierChar.contains ++ '\x22' :: rest) =
      false := by
    cases dropped : n.dropWhile identifierChar.contains with
    | nil => rfl
    | cons c more =>
      have first := List.head?_dropWhile_not identifierChar.contains n
      rw [dropped] at first
      simpa using first
  have split : quoted n rest = '\x22' :: (readableStart n ++
      (n.dropWhile identifierChar.contains ++ '\x22' :: rest)) := by
    rw [quoted, ← List.append_assoc, readableStart, List.takeWhile_append_dropWhile]
  rw [split]
  exact reads_quotedIdentifier nonempty chars_readableStart ends

/-- Where the name starts readably, some object is read. -/
theorem exists_reads_quotedObject (operand : Operand) (rest : List Char)
    (h : startsIn identifierChar n = true) :
    ∃ t, Reads (objectName operand) ⟨l, quoted n rest, m⟩ t := by
  obtain ⟨w, after, -, -, last, read⟩ := reads_readableStart (l := l) (m := m) rest h
  obtain ⟨t, more⟩ := exists_reads_orNothing (literally '.' ++ identifier) ⟨last, after, m⟩
  exact ⟨_, (read.seq more).mark operand⟩

/-! ## Reading up to a name -/

/-- The words CREATE TABLE are read in one way, without a word between them. -/
theorem readsOnly_createTableWords (rest : List Char) :
    ReadsOnly (keyword "CREATE" ++ gap ++
      orNothing (firstOf [keyword "TEMPORARY", keyword "TEMP", keyword "UNLOGGED"] ++ gap) ++
      keyword "TABLE" : Phrase)
      ⟨none, "CREATE TABLE ".toList ++ rest, []⟩ ⟨some 'E', ' ' :: rest, []⟩ := by
  have other : Stuck (firstOf [keyword "TEMPORARY", keyword "TEMP", keyword "UNLOGGED"] ++ gap :
      Phrase) ⟨some ' ', "TABLE".toList ++ ' ' :: rest, []⟩ := rfl
  exact (((readsOnly_same_keyword "CREATE" _).seq (readsOnly_space rfl)).seq
    other.readsOnly_orNothing).seq (readsOnly_same_keyword "TABLE" _)

theorem readsOnly_dropTableWords (rest : List Char) :
    ReadsOnly (keywords ["DROP", "TABLE"] : Phrase)
      ⟨none, "DROP TABLE ".toList ++ rest, []⟩ ⟨some 'E', ' ' :: rest, []⟩ :=
  readsOnly_keywords_pair "DROP" "TABLE" rfl

/-- Before the quoted name, CREATE TABLE is read in one way. -/
theorem readsOnly_createTable (n rest : List Char) :
    ReadsOnly (keyword "CREATE" ++ gap ++
      orNothing (firstOf [keyword "TEMPORARY", keyword "TEMP", keyword "UNLOGGED"] ++ gap) ++
      keyword "TABLE" ++ gap ++ maybe ["IF", "NOT", "EXISTS"])
      ⟨none, "CREATE TABLE ".toList ++ quoted n rest, []⟩ ⟨some ' ', quoted n rest, []⟩ := by
  have other : Stuck (keywords ["IF", "NOT", "EXISTS"] ++ gap : Phrase)
      ⟨some ' ', quoted n rest, []⟩ := rfl
  exact ((readsOnly_createTableWords _).seq (readsOnly_space rfl)).seq other.readsOnly_orNothing

/-- A quoted name is not read as the words IF EXISTS. -/
theorem stuck_ifExists_quoted (n rest : List Char) :
    Stuck (keywords ["IF", "EXISTS"] ++ gap : Phrase) ⟨some ' ', quoted n rest, []⟩ := rfl

theorem readsOnly_dropTable (n rest : List Char) :
    ReadsOnly (keywords ["DROP", "TABLE"] ++ gap ++ maybe ["IF", "EXISTS"])
      ⟨none, "DROP TABLE ".toList ++ quoted n rest, []⟩ ⟨some ' ', quoted n rest, []⟩ :=
  ((readsOnly_dropTableWords _).seq (readsOnly_space rfl)).seq
    (stuck_ifExists_quoted n rest).readsOnly_orNothing

theorem readsOnly_dropView (n rest : List Char) :
    ReadsOnly (keywords ["DROP", "VIEW"] ++ gap ++ maybe ["IF", "EXISTS"])
      ⟨none, "DROP VIEW ".toList ++ quoted n rest, []⟩ ⟨some ' ', quoted n rest, []⟩ :=
  ((readsOnly_keywords_pair "DROP" "VIEW" rfl).seq (readsOnly_space rfl)).seq
    (stuck_ifExists_quoted n rest).readsOnly_orNothing

/-- A span of the one character `c`, with the text after it. -/
def oneCharacter (c : Char) (after : List Char) : Span :=
  ⟨c :: after, after⟩

/-- The words that may stand before the table are left out, and the table is marked. -/
theorem readsOnly_alterTable (words : List String) (rest : List Char)
    (other : Stuck (keywords words ++ gap : Phrase) ⟨some ' ', 't' :: ' ' :: rest, []⟩)
    (solid : startsIn .gap rest = false) :
    ReadsOnly (alterTable words) ⟨none, "ALTER TABLE t ".toList ++ rest, []⟩
      ⟨some ' ', rest, [(.object, oneCharacter 't' (' ' :: rest))]⟩ := by
  have table : ReadsOnly qualifiedName (⟨some ' ', 't' :: ' ' :: rest, []⟩ : Place Operand)
      ⟨some 't', ' ' :: rest, []⟩ := rfl
  exact ((((readsOnly_keywords_pair "ALTER" "TABLE" rfl).seq (readsOnly_space rfl)).seq
    other.readsOnly_orNothing).seq (table.mark .object)).seq (readsOnly_space solid)

/-- Before the quoted name, the renaming is read in one way, and its table and column are marked. -/
theorem readsOnly_renameColumn (n rest : List Char) :
    ReadsOnly (alterTable ["IF", "EXISTS"] ++ keywords ["RENAME", "COLUMN"] ++ gap ++
        mark .column identifier ++ gap ++ keyword "TO" ++ gap)
      ⟨none, "ALTER TABLE t RENAME COLUMN a TO ".toList ++ quoted n rest, []⟩
      ⟨some ' ', quoted n rest,
        [(.column, oneCharacter 'a' (" TO ".toList ++ quoted n rest)),
         (.object, oneCharacter 't' (" RENAME COLUMN a TO ".toList ++ quoted n rest))]⟩ := by
  let toName := "TO".toList ++ ' ' :: quoted n rest
  have table := readsOnly_alterTable ["IF", "EXISTS"]
    ("RENAME".toList ++ ' ' :: ("COLUMN".toList ++ ' ' :: 'a' :: ' ' :: toName)) rfl rfl
  have column : ∀ m, ReadsOnly identifier (⟨some ' ', 'a' :: ' ' :: toName, m⟩ : Place Operand)
      ⟨some 'a', ' ' :: toName, m⟩ := fun _ => rfl
  have words := (table.seq (readsOnly_keywords_pair "RENAME" "COLUMN" rfl)).seq
    (readsOnly_space rfl)
  exact (((words.seq ((column _).mark .column)).seq (readsOnly_space rfl)).seq
    (readsOnly_same_keyword "TO" _)).seq (readsOnly_space rfl)

/-- Before the word COLUMN, the addition is read in one way. -/
theorem readsOnly_add (n rest : List Char) :
    ReadsOnly (alterTable ["ONLY"] ++ keyword "ADD" ++ gap)
      ⟨none, "ALTER TABLE t ADD COLUMN ".toList ++ quoted n rest, []⟩
      ⟨some ' ', "COLUMN ".toList ++ quoted n rest,
        [(.object, oneCharacter 't' (" ADD COLUMN ".toList ++ quoted n rest))]⟩ := by
  have table := readsOnly_alterTable ["ONLY"]
    ("ADD".toList ++ ' ' :: ("COLUMN ".toList ++ quoted n rest)) rfl rfl
  have words := (table.seq (readsOnly_same_keyword "ADD" _)).seq (readsOnly_space rfl)
  exact words

theorem readsOnly_drop (n rest : List Char) :
    ReadsOnly (alterTable ["ONLY"] ++ keyword "DROP" ++ gap)
      ⟨none, "ALTER TABLE t DROP COLUMN ".toList ++ quoted n rest, []⟩
      ⟨some ' ', "COLUMN ".toList ++ quoted n rest,
        [(.object, oneCharacter 't' (" DROP COLUMN ".toList ++ quoted n rest))]⟩ := by
  have table := readsOnly_alterTable ["ONLY"]
    ("DROP".toList ++ ' ' :: ("COLUMN ".toList ++ quoted n rest)) rfl rfl
  have words := (table.seq (readsOnly_same_keyword "DROP" _)).seq (readsOnly_space rfl)
  exact words

/-! ## Columns -/

theorem readsOnly_columnWord (n rest : List Char) :
    ReadsOnly (mark .columnWord (keyword "COLUMN" ++ gap))
      ⟨l, "COLUMN ".toList ++ quoted n rest, m⟩
      ⟨some ' ', quoted n rest,
        (.columnWord, ⟨"COLUMN ".toList ++ quoted n rest, quoted n rest⟩) :: m⟩ := by
  have word : ReadsOnly (keyword "COLUMN" ++ gap)
      ⟨l, "COLUMN".toList ++ ' ' :: quoted n rest, m⟩ ⟨some ' ', quoted n rest, m⟩ :=
    (readsOnly_same_keyword "COLUMN" _).seq (readsOnly_space rfl)
  exact word.mark .columnWord

section

variable {words : List String}
  (others : ∀ l m, Stuck (keywords words ++ gap : Phrase) ⟨l, quoted n rest, m⟩)

include others

/-- After the word COLUMN the name is read as far as possible. -/
theorem reads_quotedColumn (readable : startsIn identifierChar n = true) :
    ∃ w after, Spells w (readableStart n) ∧ ∃ last word,
      Reads (columnWord ++ (maybe words ++ mark .column identifier))
        ⟨l, "COLUMN ".toList ++ quoted n rest, m⟩
        ⟨last, after, (.column, ⟨w ++ after, after⟩) :: (.columnWord, word) :: m⟩ := by
  have word := (readsOnly_columnWord (l := l) (m := m) n rest).reads.orNothing
  obtain ⟨w, after, spells, split, last, read⟩ := reads_readableStart (l := some ' ')
    (m := (.columnWord, ⟨"COLUMN ".toList ++ quoted n rest, quoted n rest⟩) :: m) rest readable
  refine ⟨w, after, spells, last, ⟨"COLUMN ".toList ++ quoted n rest, quoted n rest⟩, ?_⟩
  rw [← split]
  exact word.seq ((others _ _).orNothing.seq (read.mark .column))

/-- If the name cannot be read, then the word COLUMN is read as a name. -/
theorem reads_columnWord (unread : startsIn identifierChar n = false)
    (bare : Stuck (keywords words ++ gap : Phrase) ⟨l, "COLUMN ".toList ++ quoted n rest, m⟩) :
    ∃ last, Reads (columnWord ++ (maybe words ++ mark .column identifier))
      ⟨l, "COLUMN ".toList ++ quoted n rest, m⟩
      ⟨last, ' ' :: quoted n rest,
        (.column, ⟨"COLUMN".toList ++ ' ' :: quoted n rest, ' ' :: quoted n rest⟩) :: m⟩ := by
  have stuck := (readsOnly_columnWord (l := l) (m := m) n rest).stuck
    ((others _ _).readsOnly_orNothing.stuck ((stuck_quotedIdentifier unread).mark .column))
  have name := (reads_identifier (l := l) (m := m) (show PlainName "COLUMN" by decide).bare
    (' ' :: quoted n rest) rfl rfl).mark .column
  exact ⟨_, .skip stuck (bare.orNothing.seq name)⟩

end

/-- What is read as the name of a column: the start of the name or, failing that, the word
COLUMN. -/
def columnRead (n : List Char) : List Char :=
  if startsIn identifierChar n then readableStart n else "COLUMN".toList

/-- What is marked after a column was read, whichever name was taken for it. -/
theorem reads_columnOperand {p : Phrase} (words : List String) {text : List Char} {object : Span}
    (start : ReadsOnly p ⟨none, text, []⟩
      ⟨some ' ', "COLUMN ".toList ++ quoted n rest, [(.object, object)]⟩)
    (others : ∀ l m, Stuck (keywords words ++ gap : Phrase) ⟨l, quoted n rest, m⟩)
    (bare : ∀ l m, Stuck (keywords words ++ gap : Phrase)
      ⟨l, "COLUMN ".toList ++ quoted n rest, m⟩) :
    ∃ t, Reads (p ++ columnWord ++ maybe words ++ mark .column identifier) ⟨none, text, []⟩ t ∧
      t.marked.lookup .object = some object ∧ ∃ w after, Spells w (columnRead n) ∧
        t.marked.lookup .column = some ⟨w ++ after, after⟩ ∧
        (t.marked.lookup .columnWord).isSome = startsIn identifierChar n := by
  rw [columnRead]
  -- The optional word COLUMN is given up only if no name can be read after it.
  cases readable : startsIn identifierChar n with
  | true =>
    obtain ⟨w, after, spells, last, word, read⟩ := reads_quotedColumn (l := some ' ')
      (m := [(.object, object)]) others readable
    exact ⟨_, .assoc (.assoc (start.reads.seq read)), rfl, w, after, spells, rfl, rfl⟩
  | false =>
    obtain ⟨last, read⟩ := reads_columnWord (l := some ' ') (m := [(.object, object)]) others
      readable (bare _ _)
    exact ⟨_, .assoc (.assoc (start.reads.seq read)), rfl, _, _,
      (show PlainName "COLUMN" by decide).spells, rfl, rfl⟩

/-- A quoted name does not cut the action that it stands in. -/
theorem length_actionParts_quoted (before ending : List Char) {last : Char} (h : '\x22' ∉ n)
    (start : IsPart before) (tail : IsPart ending) (solid : (last == ';') = false)
    (ends : ('\x22' :: ending).getLast? = some last) :
    (actionParts (before ++ quoted n (ending ++ [';']))).length ≤ 1 := by
  have split : before ++ quoted n (ending ++ [';']) =
      before ++ (('\x22' :: n ++ ['\x22']) ++ ending) ++ [';'] := by
    simp [quoted]
  rw [split]
  refine length_actionParts_le (start.append ((isPart_quotedName h).append tail)) solid ?_
  rw [List.append_assoc, List.singleton_append, List.getLast?_append, List.getLast?_append, ends]
  rfl

end Sql

/-! ## Statements with a quoted name -/

/-- The statements in which a name is quoted. -/
inductive QuotedForm where
  | createTable
  | dropTable
  | dropView
  | addColumn
  | dropColumn
  | renameColumn

namespace QuotedForm

/-- The text before the name. -/
def opening : QuotedForm → String
  | createTable => "CREATE TABLE "
  | dropTable => "DROP TABLE "
  | dropView => "DROP VIEW "
  | addColumn => "ALTER TABLE t ADD COLUMN "
  | dropColumn => "ALTER TABLE t DROP COLUMN "
  | renameColumn => "ALTER TABLE t RENAME COLUMN a TO "

/-- The text after the name. -/
def ending : QuotedForm → String
  | createTable => " (id INT);"
  | addColumn => " INT;"
  | _ => ";"

/-- The statement with a name. -/
def text (form : QuotedForm) (name : String) : String :=
  form.opening ++ "\x22" ++ name ++ "\x22" ++ form.ending

/-- The statement is of the kind that was written, and has the name as a whole. -/
def Captures (form : QuotedForm) (name : String) (s : Statement) : Prop :=
  match form with
  | createTable => s = .createTable ⟨none, name⟩
  | dropTable => s = .dropTable ⟨none, name⟩
  | dropView => s = .dropView ⟨none, name⟩
  | addColumn => ∃ definition, s = .addColumn ⟨none, "t"⟩ name definition true
  | dropColumn => s = .dropColumn ⟨none, "t"⟩ name true
  | renameColumn => s = .renameColumn ⟨none, "t"⟩ "a" name

/-- The names that are captured as a whole or not at all. A column whose name cannot be read is
taken to be called COLUMN, and one is refused if the start of its name introduces another clause. -/
def IsSafe (form : QuotedForm) (name : String) : Prop :=
  match form with
  | addColumn | dropColumn => (name ≠ "" ∧ IsIdentifier name) ∨
      Text.isOneOf Sql.clauseWords (Sql.readableStart name.toList) = true
  | _ => IsIdentifier name ∨ startsIn Sql.identifierChar name.toList = false

/-- The place of the rule for the statement. -/
def ruleIndex : QuotedForm → Nat
  | createTable => 1
  | dropTable => 2
  | dropView => 16
  | addColumn => 6
  | dropColumn => 7
  | renameColumn => 10

variable (form : QuotedForm) (name : String)

theorem toList_text : (form.text name).toList =
    form.opening.toList ++ Sql.quoted name.toList form.ending.toList := by
  unfold text
  simp only [String.toList_append, List.append_assoc]
  rfl

theorem trimmed_text : Text.Trimmed (form.text name).toList := by
  unfold text
  simp only [String.toList_append]
  cases form
  · exact Text.trimmed_cons_append (c := 'C') (t := " (id INT);".toList) rfl rfl rfl
  · exact Text.trimmed_cons_append (c := 'D') (t := ";".toList) rfl rfl rfl
  · exact Text.trimmed_cons_append (c := 'D') (t := ";".toList) rfl rfl rfl
  · exact Text.trimmed_cons_append (c := 'A') (t := " INT;".toList) rfl rfl rfl
  · exact Text.trimmed_cons_append (c := 'A') (t := ";".toList) rfl rfl rfl
  · exact Text.trimmed_cons_append (c := 'A') (t := ";".toList) rfl rfl rfl

/-- The rules for other statements refuse a text before they come to the name. -/
theorem rules_refuse (name : List Char) :
    ∀ rule ∈ Sql.rules.eraseIdx form.ruleIndex,
      rule (form.opening.toList ++ Sql.quoted name form.ending.toList) = none := by
  cases form
  all_goals
    simp only [Sql.rules, ruleIndex, List.eraseIdx_cons_succ, List.eraseIdx_cons_zero,
      List.forall_mem_cons]
    exact ⟨rfl, rfl, rfl, rfl, rfl, rfl, rfl, rfl, rfl, rfl, rfl, rfl, rfl, rfl, rfl, rfl, rfl, rfl,
      rfl, rfl, by simp⟩

/-- So the statement is up to the rule for it. -/
theorem ofText_text (rule : List Char → Option Statement)
    (here : Sql.rules[form.ruleIndex]? = some rule) :
    ∃ preview, Statement.ofText (form.text name) =
      (rule (form.opening.toList ++ Sql.quoted name.toList form.ending.toList)).getD
        (.unrecognized preview) := by
  have trimmed := form.toList_text name ▸ form.trimmed_text name
  rw [Statement.ofText, toList_text]
  exact ⟨_, Sql.ofChars_of_others trimmed form.ruleIndex here (form.rules_refuse name.toList)⟩

/-- A name that is captured as a whole is one that the pattern of identifiers can take. -/
theorem isIdentifier_of_captures {stmt : String} (h : form.Captures name (Statement.ofText stmt)) :
    IsIdentifier name := by
  have identifiers := Statement.hasIdentifiers_ofText stmt
  cases form with
  | createTable | dropTable | dropView =>
    have h : Statement.ofText stmt = _ := h
    rw [h] at identifiers
    exact identifiers name
      (by simp [Statement.identifiers, Statement.objectNames, ObjectName.parts])
  | addColumn =>
    obtain ⟨definition, h⟩ := h
    rw [h] at identifiers
    exact identifiers name (by simp [Statement.identifiers, Statement.otherNames])
  | dropColumn | renameColumn =>
    have h : Statement.ofText stmt = _ := h
    rw [h] at identifiers
    exact identifiers name (by simp [Statement.identifiers, Statement.otherNames])

/-- A form that is refused exactly if the start of the name cannot be read. -/
theorem captures_or_refused_iff {form : QuotedForm} {name stmt : String}
    (refused : startsIn Sql.identifierChar name.toList = false →
      (Statement.ofText stmt).isRecognized = false)
    (accepted : startsIn Sql.identifierChar name.toList = true →
      (Statement.ofText stmt).isRecognized = true)
    (whole : startsIn Sql.identifierChar name.toList = true → IsIdentifier name →
      form.Captures name (Statement.ofText stmt)) :
    form.Captures name (Statement.ofText stmt) ∨ (Statement.ofText stmt).isRecognized = false ↔
      IsIdentifier name ∨ startsIn Sql.identifierChar name.toList = false := by
  cases start : startsIn Sql.identifierChar name.toList with
  | false => exact iff_of_true (.inr (refused start)) (.inr rfl)
  | true =>
    rw [accepted start]
    constructor
    · rintro (captured | nothing)
      · exact .inl (form.isIdentifier_of_captures name captured)
      · exact absurd nothing (by decide)
    · rintro (identifier | nothing)
      · exact .inl (whole start identifier)
      · exact absurd nothing (by decide)

/-- A rule that makes a statement of an object whose name ends what it reads. -/
theorem captures_or_refused_object {form : QuotedForm} {name : String} {p : Sql.Phrase}
    {f : ObjectName → Statement} {rule : List Char → Option Statement}
    (here : Sql.rules[form.ruleIndex]? = some rule)
    (shape : ∀ stmt, rule stmt = ((p ++ Sql.objectName .object).match? stmt).bind fun m =>
      some (f (Sql.objectAt m .object)))
    (start : ReadsOnly p
      ⟨none, form.opening.toList ++ Sql.quoted name.toList form.ending.toList, []⟩
      ⟨some ' ', Sql.quoted name.toList form.ending.toList, []⟩)
    (recognized : ∀ n, (f n).isRecognized = true)
    (captures : form.Captures name (f ⟨none, name⟩))
    (stop : startsIn (.oneOf ['.']) form.ending.toList = false) :
    form.Captures name (Statement.ofText (form.text name)) ∨
        (Statement.ofText (form.text name)).isRecognized = false ↔
      IsIdentifier name ∨ startsIn Sql.identifierChar name.toList = false := by
  obtain ⟨preview, text⟩ := form.ofText_text name rule here
  rw [shape] at text
  refine captures_or_refused_iff (fun unread => ?_) (fun readable => ?_) fun readable chars => ?_
  · have stuck : Stuck (p ++ Sql.objectName .object) _ :=
      start.stuck (((Sql.stuck_quotedIdentifier unread).seq_left _).mark .object)
    rw [text, stuck.match?]
    rfl
  · obtain ⟨t, read⟩ := Sql.exists_reads_quotedObject (l := some ' ') (m := []) .object
      form.ending.toList readable
    rw [text, (start.reads.seq read).match?]
    exact recognized _
  · have nonempty : name.toList ≠ [] := fun empty => by
      rw [empty] at readable
      exact absurd readable (by decide)
    have read := Sql.reads_quotedObject (l := some ' ') (m := []) nonempty chars .object stop
    have split : Sql.quoted name.toList form.ending.toList =
        ('\x22' :: name.toList ++ ['\x22']) ++ form.ending.toList := by
      simp [Sql.quoted]
    have object : Sql.objectAt ⟨some '\x22', form.ending.toList, [(.object,
        ⟨Sql.quoted name.toList form.ending.toList, form.ending.toList⟩)]⟩ .object =
        ⟨none, String.ofList name.toList⟩ := by
      rw [split]
      exact Sql.objectAt_of_spells (Sql.spells_quoted nonempty chars) rfl
    rw [text, (start.reads.seq read).match?]
    show form.Captures name (f (Sql.objectAt _ .object))
    rw [object, String.ofList_toList]
    exact captures

/-- CREATE TABLE takes the name or refuses the statement exactly for safe names. -/
theorem createTable_iff (name : String) :
    createTable.Captures name (Statement.ofText (createTable.text name)) ∨
        (Statement.ofText (createTable.text name)).isRecognized = false ↔
      createTable.IsSafe name :=
  captures_or_refused_object rfl (fun _ => rfl) (Sql.readsOnly_createTable _ _) (fun _ => rfl) rfl
    rfl

theorem dropTable_iff (name : String) :
    dropTable.Captures name (Statement.ofText (dropTable.text name)) ∨
        (Statement.ofText (dropTable.text name)).isRecognized = false ↔
      dropTable.IsSafe name :=
  captures_or_refused_object rfl (fun _ => rfl) (Sql.readsOnly_dropTable _ _) (fun _ => rfl) rfl rfl

theorem dropView_iff (name : String) :
    dropView.Captures name (Statement.ofText (dropView.text name)) ∨
        (Statement.ofText (dropView.text name)).isRecognized = false ↔
      dropView.IsSafe name :=
  captures_or_refused_object rfl (fun _ => rfl) (Sql.readsOnly_dropView _ _) (fun _ => rfl) rfl rfl

/-- A new name of a column is as much of the written one as can be read. -/
theorem ofText_renameColumn {name : String}
    (readable : startsIn Sql.identifierChar name.toList = true) :
    Statement.ofText (renameColumn.text name) =
      .renameColumn ⟨none, "t"⟩ "a" (String.ofList (Sql.readableStart name.toList)) := by
  obtain ⟨preview, text⟩ := renameColumn.ofText_text name Sql.renameColumn? rfl
  obtain ⟨w, after, spells, split, last, read⟩ := Sql.reads_readableStart (l := some ' ')
    (m := _) renameColumn.ending.toList readable
  have phrase : Sql.renameColumnPhrase.match? (renameColumn.opening.toList ++
      Sql.quoted name.toList renameColumn.ending.toList) = some _ :=
    ((Sql.readsOnly_renameColumn _ _).reads.seq (read.mark .target)).match?
  have rule := Sql.renameColumn?_of_match phrase
    (Sql.identifierAt_of_spells (show PlainName "a" by decide).spells rfl)
    (Sql.identifierAt_of_spells spells (show _ = some (Span.mk (w ++ after) after) by
      rw [← split]; rfl))
  rw [Sql.objectAt_of_plainName (show PlainName "t" by decide) rfl] at rule
  rw [text, rule]
  rfl

/-- The new name of a column is the only operand that can go wrong. -/
theorem renameColumn_iff (name : String) :
    renameColumn.Captures name (Statement.ofText (renameColumn.text name)) ∨
        (Statement.ofText (renameColumn.text name)).isRecognized = false ↔
      renameColumn.IsSafe name := by
  refine captures_or_refused_iff (fun unread => ?_) (fun readable => ?_) fun readable chars => ?_
  · obtain ⟨preview, text⟩ := renameColumn.ofText_text name Sql.renameColumn? rfl
    have stuck : Stuck Sql.renameColumnPhrase ⟨none, renameColumn.opening.toList ++
        Sql.quoted name.toList renameColumn.ending.toList, []⟩ :=
      (Sql.readsOnly_renameColumn _ _).stuck ((Sql.stuck_quotedIdentifier unread).mark .target)
    rw [text, Sql.renameColumn?, stuck.match?]
    rfl
  · rw [ofText_renameColumn readable]
    rfl
  · rw [ofText_renameColumn readable, Sql.readableStart_eq_self chars, String.ofList_toList]
    rfl

/-! ### Columns -/

variable {name : String}

/-- A dropped column is the one that was read, unless its name introduces another clause. -/
theorem ofText_dropColumn (plain : '\x22' ∉ name.toList) :
    ∃ preview, Statement.ofText (dropColumn.text name) =
      if Text.isOneOf Sql.clauseWords (Sql.columnRead name.toList) then .unrecognized preview
      else .dropColumn ⟨none, "t"⟩ (String.ofList (Sql.columnRead name.toList))
        (startsIn Sql.identifierChar name.toList) := by
  obtain ⟨preview, text⟩ := dropColumn.ofText_text name Sql.dropColumn? rfl
  obtain ⟨m, read, object, w, after, spells, column, word⟩ :=
    Sql.reads_columnOperand ["IF", "EXISTS"] (Sql.readsOnly_drop name.toList [';'])
      (fun _ _ => rfl) fun _ _ => rfl
  have phrase : Sql.dropColumnPhrase.match? (dropColumn.opening.toList ++
      Sql.quoted name.toList dropColumn.ending.toList) = some m := read.match?
  have single : Sql.chainsActions m = false := by
    rw [Sql.chainsActions, Match.after?, object]
    exact decide_eq_false (Nat.not_lt.2 (Sql.length_actionParts_quoted " DROP COLUMN ".toList []
      plain (Sql.isPart_of_inert (Sql.inert_of_all rfl) (by decide)) (Sql.isPart_of_word (by simp))
      rfl rfl))
  have rule := Sql.dropColumn?_of_match phrase single (Sql.identifierAt_of_spells spells column)
  rw [Sql.objectAt_of_plainName (show PlainName "t" by decide) object, Sql.isMarked, Match.text?,
    Option.isSome_map, word] at rule
  refine ⟨preview, ?_⟩
  rw [text, rule]
  split <;> rfl

/-- An addition with a quoted column is refused if the start of the name is the word of another
clause; otherwise this start is the column. -/
theorem ofText_addColumn (plain : '\x22' ∉ name.toList) :
    ∃ preview definition, Statement.ofText (addColumn.text name) =
      if Text.isOneOf Sql.clauseWords (Sql.columnRead name.toList) then .unrecognized preview
      else .addColumn ⟨none, "t"⟩ (String.ofList (Sql.columnRead name.toList)) definition
        (startsIn Sql.identifierChar name.toList) := by
  obtain ⟨preview, text⟩ := addColumn.ofText_text name Sql.addColumn? rfl
  obtain ⟨s, read, object, w, after, spells, column, word⟩ :=
    Sql.reads_columnOperand ["IF", "NOT", "EXISTS"]
      (Sql.readsOnly_add name.toList " INT;".toList) (fun _ _ => rfl) fun _ _ => rfl
  obtain ⟨m, more⟩ := Sql.exists_reads_orNothing (gap ++ mark .definition Sql.columnDefinition) s
  have mem : m ∈ Sql.maybeDefinition.places s := List.mem_of_head? more
  replace object := (lookup_of_mem_places rfl mem).trans object
  replace column := (lookup_of_mem_places rfl mem).trans column
  rw [← lookup_of_mem_places rfl mem] at word
  have phrase : Sql.addColumnPhrase.match? (addColumn.opening.toList ++
      Sql.quoted name.toList addColumn.ending.toList) = some m := (read.seq more).match?
  have single : Sql.chainsActions m = false := by
    rw [Sql.chainsActions, Match.after?, object]
    exact decide_eq_false (Nat.not_lt.2 (Sql.length_actionParts_quoted " ADD COLUMN ".toList
      " INT".toList plain (Sql.isPart_of_inert (Sql.inert_of_all rfl) (by decide))
      (Sql.isPart_of_inert (Sql.inert_of_all rfl) (by decide)) rfl rfl))
  have rule := Sql.addColumn?_of_match phrase single (Sql.identifierAt_of_spells spells column)
  rw [Sql.objectAt_of_plainName (show PlainName "t" by decide) object, Sql.isMarked, Match.text?,
    Option.isSome_map, word] at rule
  refine ⟨preview, (Sql.clauseAt? m .definition).map String.ofList, ?_⟩
  rw [text, rule]
  split <;> rfl

/-- An identifier that is not empty starts with a character of identifiers. -/
theorem startsIn_of_isIdentifier (some_ : name ≠ "") (identifier : IsIdentifier name) :
    startsIn Sql.identifierChar name.toList = true := by
  cases chars : name.toList with
  | nil => exact absurd (String.toList_inj.1 chars) some_
  | cons c rest => exact identifier c (chars ▸ List.mem_cons_self)

/-- A name is read as a whole exactly if it is an identifier. -/
theorem ofList_readableStart_eq_iff :
    String.ofList (Sql.readableStart name.toList) = name ↔ IsIdentifier name := by
  constructor
  · intro whole
    have chars := Sql.chars_readableStart (n := name.toList)
    rw [← whole, IsIdentifier, String.toList_ofList]
    exact chars
  · intro identifier
    rw [Sql.readableStart_eq_self identifier, String.ofList_toList]

/-- A form that reads the word COLUMN instead of a name that it cannot read. -/
theorem captures_or_refused_column {form : QuotedForm} {stmt preview : String} {s : Statement}
    (text : Statement.ofText stmt =
      if Text.isOneOf Sql.clauseWords (Sql.columnRead name.toList) then .unrecognized preview
      else s)
    (recognized : s.isRecognized = true)
    (captures : form.Captures name s ↔ startsIn Sql.identifierChar name.toList = true ∧
      String.ofList (Sql.columnRead name.toList) = name) :
    form.Captures name (Statement.ofText stmt) ∨ (Statement.ofText stmt).isRecognized = false ↔
      (name ≠ "" ∧ IsIdentifier name) ∨
        Text.isOneOf Sql.clauseWords (Sql.readableStart name.toList) = true := by
  rw [Sql.columnRead] at text captures
  cases readable : startsIn Sql.identifierChar name.toList with
  | false =>
    have other : Text.isOneOf Sql.clauseWords "COLUMN".toList = false := by decide
    have nothing : Text.isOneOf Sql.clauseWords [] = false := by decide
    rw [readable, if_neg Bool.false_ne_true, other, if_neg Bool.false_ne_true] at text
    rw [text, captures, recognized, Sql.readableStart_eq_nil readable, nothing, readable]
    refine iff_of_false (by simp) ?_
    rintro (⟨some_, identifier⟩ | clause)
    · exact absurd (startsIn_of_isIdentifier some_ identifier) (Bool.eq_false_iff.1 readable)
    · exact absurd clause Bool.false_ne_true
  | true =>
    rw [readable, if_pos rfl] at text captures
    cases clause : Text.isOneOf Sql.clauseWords (Sql.readableStart name.toList) with
    | true =>
      rw [clause, if_pos rfl] at text
      rw [text]
      exact iff_of_true (.inr rfl) (.inr rfl)
    | false =>
      rw [clause, if_neg Bool.false_ne_true] at text
      rw [text, captures, recognized, ofList_readableStart_eq_iff]
      have some_ : name ≠ "" := by
        rintro rfl
        exact absurd readable (by decide)
      simp [some_]

/-- DROP COLUMN takes the name or refuses the statement exactly for safe names. -/
theorem dropColumn_iff (plain : '\x22' ∉ name.toList) :
    dropColumn.Captures name (Statement.ofText (dropColumn.text name)) ∨
        (Statement.ofText (dropColumn.text name)).isRecognized = false ↔
      dropColumn.IsSafe name := by
  obtain ⟨preview, text⟩ := ofText_dropColumn plain
  refine captures_or_refused_column text rfl ?_
  simp [Captures, and_comm]

theorem addColumn_iff (plain : '\x22' ∉ name.toList) :
    addColumn.Captures name (Statement.ofText (addColumn.text name)) ∨
        (Statement.ofText (addColumn.text name)).isRecognized = false ↔
      addColumn.IsSafe name := by
  obtain ⟨preview, definition, text⟩ := ofText_addColumn plain
  refine captures_or_refused_column text rfl ?_
  simp [Captures, and_comm]

end QuotedForm

/-! ## Names of three parts -/

namespace Sql

variable {a b : String} {l : Option Char} {m : List (Operand × Span)}

/-- A name of three parts from the first on, with what follows the second. -/
def dotted (a b : String) (rest : List Char) : List Char :=
  (ObjectName.render ⟨some a, b⟩).toList ++ '.' :: rest

section

variable (first : PlainName a) (second : PlainName b) (rest : List Char)

include first

/-- A name of three parts does not start with words that could stand before it. -/
theorem stuck_dotted {word next : String} {c : Char} {more : List Char} (others : List String)
    (letters : ∀ c ∈ word.toList, Text.isWordChar c = true) (head : next.toList = c :: more)
    (letter : Text.isWordChar c = true) (other : (CharSet.same c).contains '.' = false) :
    Stuck (keywords (word :: next :: others) : Phrase) ⟨l, dotted a b rest, m⟩ := by
  rw [dotted, toList_render_some, List.append_assoc]
  exact stuck_keywords_word letters head letter others first.word rfl other

theorem startsIn_gap_dotted : startsIn .gap (dotted a b rest) = false := by
  rw [dotted, toList_render_some, List.append_assoc]
  exact first.startsIn_gap _

include second

/-- The first two parts are read as the name of an object. -/
theorem reads_dotted (operand : Operand) :
    Reads (objectName operand) ⟨l, dotted a b rest, m⟩
      ⟨lastAfter (some '.') b.toList, '.' :: rest,
        (operand, ⟨dotted a b rest, '.' :: rest⟩) :: m⟩ := by
  have name : Reads identifier ⟨l, a.toList ++ '.' :: (b.toList ++ '.' :: rest), m⟩
      ⟨lastAfter l a.toList, '.' :: (b.toList ++ '.' :: rest), m⟩ :=
    reads_identifier first.bare _ rfl rfl
  have dot : Reads (literally '.')
      ⟨lastAfter l a.toList, '.' :: (b.toList ++ '.' :: rest), m⟩
      ⟨some '.', b.toList ++ '.' :: rest, m⟩ := reads_char rfl
  have further := (dot.seq (reads_identifier second.bare ('.' :: rest) rfl rfl)).orNothing
  have text : dotted a b rest = a.toList ++ '.' :: (b.toList ++ '.' :: rest) := by
    rw [dotted, toList_render_some, List.append_assoc]
    rfl
  rw [text]
  exact (name.seq further).mark operand

/-- The object that is marked has two parts, whatever follows them. -/
theorem objectAt_dotted {place : Match Operand} {operand : Operand}
    (found : place.marked.lookup operand = some ⟨dotted a b rest, '.' :: rest⟩) :
    objectAt place operand = ⟨some a, b⟩ :=
  objectAt_of_bareObject ⟨second.bare, fun _ hs => Option.some.inj hs ▸ first.bare⟩ found

end

end Sql

namespace Statement

variable {a b : String} (first : PlainName a) (second : PlainName b)

/-- Where the rules before it refuse the text, a rule decides on a statement with such a name. -/
theorem ofText_dotted {s : Statement} {rule : List Char → Option Statement}
    (opening ending c : String) (index : Nat)
    (trimmed : Text.Trimmed (opening ++ a ++ "." ++ b ++ "." ++ c ++ ending).toList)
    (before : ∀ rule ∈ Sql.rules.take index,
      rule (opening.toList ++ Sql.dotted a b (c.toList ++ ending.toList)) = none)
    (here : Sql.rules[index]? = some rule)
    (made : rule (opening.toList ++ Sql.dotted a b (c.toList ++ ending.toList)) = some s) :
    ofText (opening ++ a ++ "." ++ b ++ "." ++ c ++ ending) = s := by
  have text : (opening ++ a ++ "." ++ b ++ "." ++ c ++ ending).toList =
      opening.toList ++ Sql.dotted a b (c.toList ++ ending.toList) := by
    simp only [String.toList_append, Sql.dotted, toList_render_some, List.append_assoc]
    rfl
  rw [text] at trimmed
  rw [ofText, text]
  exact Sql.ofChars_of_rule trimmed index before here made

include first second

/-- A table whose name has a third part is not the one that is dropped. -/
theorem dropTable?_dotted (rest : List Char) :
    Sql.dropTable? ("DROP TABLE ".toList ++ Sql.dotted a b rest) =
      some (.dropTable ⟨some a, b⟩) := by
  have space := reads_space (ι := Sql.Operand) (l := some 'E') (m := [])
    (Sql.startsIn_gap_dotted (b := b) first rest)
  have words : Stuck (keywords ["IF", "EXISTS"] : Sql.Phrase) ⟨some ' ', Sql.dotted a b rest, []⟩ :=
    Sql.stuck_dotted first rest [] (by decide) (c := 'E') rfl rfl rfl
  have read : Sql.dropTablePhrase.match? ("DROP TABLE ".toList ++ Sql.dotted a b rest) = some _ :=
    ((((Sql.readsOnly_dropTableWords _).reads.seq space).seq (words.seq_left gap).orNothing).seq
      (Sql.reads_dotted first second rest .object)).match?
  rw [Sql.dropTable?, read]
  exact congrArg (fun n => some (Statement.dropTable n)) (Sql.objectAt_dotted first second rest rfl)

/-- Of a name with three parts, the first two are taken. -/
theorem createTable?_dotted (rest : List Char) :
    Sql.createTable? ("CREATE TABLE ".toList ++ Sql.dotted a b rest) =
      some (.createTable ⟨some a, b⟩) := by
  have space := reads_space (ι := Sql.Operand) (l := some 'E') (m := [])
    (Sql.startsIn_gap_dotted (b := b) first rest)
  have words : Stuck (keywords ["IF", "NOT", "EXISTS"] : Sql.Phrase)
      ⟨some ' ', Sql.dotted a b rest, []⟩ :=
    Sql.stuck_dotted first rest ["EXISTS"] (by decide) (c := 'N') rfl rfl rfl
  have read : Sql.createTablePhrase.match? ("CREATE TABLE ".toList ++ Sql.dotted a b rest) =
      some _ :=
    ((((Sql.readsOnly_createTableWords _).reads.seq space).seq
      (words.seq_left gap).orNothing).seq (Sql.reads_dotted first second rest .object)).match?
  rw [Sql.createTable?, read]
  exact congrArg (fun n => some (Statement.createTable n))
    (Sql.objectAt_dotted first second rest rfl)

/-- A table with three parts in its name is dropped by the first two. -/
theorem ofText_dropTable_dotted (c : String) :
    ofText s!"DROP TABLE {a}.{b}.{c};" = .dropTable ⟨some a, b⟩ := by
  refine ofText_dotted "DROP TABLE " ";" c 2 ?_ ?_ rfl (dropTable?_dotted first second _)
  · simp only [String.toList_append]
    exact Text.trimmed_cons_append (c := 'D') (t := ";".toList) rfl rfl rfl
  · simp only [Sql.rules, List.take_succ_cons, List.take_zero, List.forall_mem_cons]
    exact ⟨rfl, rfl, by simp⟩

/-- A table with three parts in its name is created under the first two. -/
theorem ofText_createTable_dotted (c : String) :
    ofText s!"CREATE TABLE {a}.{b}.{c} (id INT);" = .createTable ⟨some a, b⟩ := by
  refine ofText_dotted "CREATE TABLE " " (id INT);" c 1 ?_ ?_ rfl
    (createTable?_dotted first second _)
  · simp only [String.toList_append]
    exact Text.trimmed_cons_append (c := 'C') (t := " (id INT);".toList) rfl rfl rfl
  · simp only [Sql.rules, List.take_succ_cons, List.take_zero, List.forall_mem_cons]
    exact ⟨rfl, by simp⟩

end Statement

/-! ## Which names are captured -/

/-- A quoted name is captured as a whole, or the statement is not recognized, exactly if the name is
safe in that statement; and of a name of three parts the first two are taken. -/
theorem captures_or_unrecognized_iff (form : QuotedForm) (name : String)
    (plain : '\x22' ∉ name.toList) {a b : String} (first : PlainName a) (second : PlainName b)
    (c : String) :
    (form.Captures name (Statement.ofText (form.text name)) ∨
        (Statement.ofText (form.text name)).isRecognized = false ↔ form.IsSafe name) ∧
      Statement.ofText s!"DROP TABLE {a}.{b}.{c};" = .dropTable ⟨some a, b⟩ ∧
      Statement.ofText s!"CREATE TABLE {a}.{b}.{c} (id INT);" = .createTable ⟨some a, b⟩ := by
  refine ⟨?_, Statement.ofText_dropTable_dotted first second c,
    Statement.ofText_createTable_dotted first second c⟩
  cases form with
  | createTable => exact QuotedForm.createTable_iff name
  | dropTable => exact QuotedForm.dropTable_iff name
  | dropView => exact QuotedForm.dropView_iff name
  | addColumn => exact QuotedForm.addColumn_iff plain
  | dropColumn => exact QuotedForm.dropColumn_iff plain
  | renameColumn => exact QuotedForm.renameColumn_iff name

/-- A name with a space is not safe, and neither is a name of three parts. -/
theorem captures_or_unrecognized_spaced_dotted :
    (¬(QuotedForm.dropTable.Captures "a b" (Statement.ofText "DROP TABLE \x22a b\x22;") ∨
        (Statement.ofText "DROP TABLE \x22a b\x22;").isRecognized = false)) ∧
      Statement.ofText "DROP TABLE a.b.c;" = .dropTable ⟨some "a", "b"⟩ := by
  obtain ⟨quoted, dotted, -⟩ := captures_or_unrecognized_iff .dropTable "a b" (by decide)
    (show PlainName "a" by decide) (show PlainName "b" by decide) "c"
  have spaced : ¬QuotedForm.dropTable.IsSafe "a b" := by
    rintro (identifier | unread)
    · exact absurd (identifier ' ' (by decide)) (by decide)
    · exact absurd unread (by decide)
  exact ⟨fun safe => spaced (quoted.1 safe), dotted⟩

/-- Another table is dropped than the one whose name is quoted. -/
theorem ofText_dropTable_spaced :
    Statement.ofText "DROP TABLE \x22a b\x22;" = .dropTable ⟨none, "a"⟩ := by
  decide +kernel

end Rollback

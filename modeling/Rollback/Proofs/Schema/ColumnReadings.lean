import Mathlib.Data.List.TakeWhile
import Rollback.Proofs.Pattern.TakenTexts
import Rollback.Proofs.Schema.ColumnDefinitions
import Rollback.Proofs.Sql.Identifiers
import Rollback.Reversal.Reconstruction

/-!
# Columns that are read again

Whatever a definition looks like, the type that is read from it is in parts: words in upper case,
each with its arguments, and the brackets of an array. So the line that is written for the column is
read as the same column, but for one thing: the line has no quotes, and in a definition without
quotes some names start the declaration of a constraint.

- `WritesArguments`: the arguments of a word of a type as they are written
- `TypeWord.stored`: the word of a type that is stored for one that is written
- `exists_of_columnOf?`: what is known of a column that is read
- `columnLine`: the line that is written for a column
- `columnOf?_columnLine`: which columns are lost when their lines are read
-/

set_option autoImplicit false

namespace Rollback

open Pattern

/-! ## Words of types as they are written -/

/-- Arguments as they are written, with gaps before them, and the text in the parentheses. -/
inductive WritesArguments : List Char → Option (List Char) → Prop
  | nothing : WritesArguments [] none
  | inside {gaps inside : List Char} (gap : ∀ c ∈ gaps, Text.isGap c = true)
      (closed : ')' ∉ inside) :
      WritesArguments (gaps ++ '(' :: (inside ++ [')'])) (some inside)

/-- A word that a type can start with, in any letter case. -/
structure IsTypeName (word : List Char) : Prop where
  first : startsIn .letter word = true
  chars : ∀ c ∈ word, Sql.columnNameChar.contains c = true

/-- The word of a type that is stored for a word with arguments. -/
def TypeWord.stored (word : List Char) (arguments : Option (List Char)) : TypeWord :=
  ⟨Text.upper word, arguments.map Text.upper⟩

namespace Sql

theorem normalizeType_of_notMem {raw : List Char} (h : '(' ∉ Text.upper raw) :
    normalizeType raw = Text.upper raw := by
  have all : ∀ c ∈ Text.upper raw, (c != '(') = true := fun c hc =>
    bne_iff_ne.2 fun same => h (same ▸ hc)
  rw [normalizeType, List.takeWhile_eq_self_iff.2 all, List.dropWhile_eq_nil_iff.2 all]

theorem normalizeType_of_eq {raw name arguments : List Char}
    (h : Text.upper raw = name ++ '(' :: arguments) (outside : '(' ∉ name) :
    normalizeType raw = Text.trimEnd name ++ '(' :: arguments := by
  have all : ∀ c ∈ name, (c != '(') = true := fun c hc =>
    bne_iff_ne.2 fun same => outside (same ▸ hc)
  rw [normalizeType, h, List.takeWhile_append_of_pos all, List.dropWhile_append_of_pos all,
    List.takeWhile_cons_of_neg (by decide), List.append_nil]
  rfl

end Sql

namespace IsTypeName

variable {word text : List Char} {arguments : Option (List Char)}

theorem nonempty (h : IsTypeName word) : word ≠ [] := by
  rintro rfl
  exact absurd h.first (by decide)

theorem notMem (h : IsTypeName word) {c : Char} (outside : Sql.columnNameChar.contains c = false) :
    c ∉ word :=
  fun mem => Bool.eq_false_iff.1 outside (h.chars c mem)

/-- In upper case, the word is one of the same characters. -/
theorem upper (h : IsTypeName word) : IsTypeName (Text.upper word) := by
  have images : ∀ c, Sql.columnNameChar.contains c = true →
      Text.upperChar c = [c.toUpper] ∧ Sql.columnNameChar.contains c.toUpper = true := fun c hc =>
    Sql.forall_columnNameChar (p := fun c =>
      Text.upperChar c = [c.toUpper] ∧ Sql.columnNameChar.contains c.toUpper = true) (by decide) hc
  obtain ⟨first, chars⟩ := h
  cases word with
  | nil => exact absurd first (by decide)
  | cons c word =>
    obtain ⟨image, -⟩ := images c (chars c List.mem_cons_self)
    refine ⟨?_, fun d mem => ?_⟩
    · rw [Text.upper_cons, image]
      have letter : Sql.columnNameChar.contains c = true → CharSet.letter.contains c = true →
          CharSet.letter.contains c.toUpper = true := fun inside =>
        Sql.forall_columnNameChar (p := fun c => CharSet.letter.contains c = true →
          CharSet.letter.contains c.toUpper = true) (by decide) inside
      exact letter (chars c List.mem_cons_self) first
    · obtain ⟨e, inside, became⟩ := List.mem_flatMap.1 mem
      obtain ⟨image, kept⟩ := images e (chars e inside)
      rw [image, List.mem_singleton] at became
      exact became ▸ kept

/-- What is stored for a word with its arguments stays as it is. -/
theorem normal_stored (h : IsTypeName word) (written : WritesArguments text arguments) :
    (TypeWord.stored word arguments).Normal where
  first := h.upper.first
  upper := Text.upper_upper word
  word := h.upper.chars
  arguments a ha := by
    cases written with
    | nothing => cases ha
    | inside gap closed =>
      obtain rfl := Option.some.inj ha
      exact ⟨Text.upper_upper _, fun mem => closed ((Text.mem_upper_iff (by decide) rfl).1 mem)⟩

/-- The normal form of a written word is the text of the word that is stored. -/
theorem normalizeType_eq (h : IsTypeName word) (written : WritesArguments text arguments) :
    Sql.normalizeType (word ++ text) = (TypeWord.stored word arguments).text := by
  have open_ : '(' ∉ Text.upper word := h.upper.notMem (by decide)
  have solid : Text.Trimmed (Text.upper word) := Sql.trimmed_of_columnNameChar h.upper.chars
  cases written with
  | nothing =>
    rw [List.append_nil]
    exact (Sql.normalizeType_of_notMem open_).trans (List.append_nil _).symm
  | @inside gaps inside gap closed =>
    have raised : Text.upper (word ++ (gaps ++ '(' :: (inside ++ [')']))) =
        Text.upper word ++ gaps ++ '(' :: (Text.upper inside ++ [')']) := by
      rw [Text.upper_append, Text.upper_append, Text.upper_of_gap gap, Text.upper_cons,
        Text.upper_append, List.append_assoc]
      rfl
    have gapOpen : '(' ∉ Text.upper word ++ gaps := by
      rw [List.mem_append, not_or]
      exact ⟨open_, fun mem => Bool.noConfusion (gap _ mem)⟩
    have trimmed : Text.trimEnd (Text.upper word ++ gaps) = Text.upper word := by
      rw [Text.trimEnd,
        Text.dropEndWhile_append_of_all fun c hc => Text.isBlank_of_isGap (gap c hc)]
      exact solid.trimEnd_eq
    rw [Sql.normalizeType_of_eq raised gapOpen, trimmed]
    rfl

end IsTypeName

namespace Sql

open ColumnType

variable {w : List Char}

/-! ## What the phrases take -/

theorem eq_of_contains_oneOf {c d : Char} (h : (CharSet.oneOf [d]).contains c = true) : c = d :=
  List.mem_singleton.1 (List.contains_iff_mem.1 h)

theorem columnNameChar_of_letter {c : Char} (h : CharSet.letter.contains c = true) :
    columnNameChar.contains c = true := by
  have word : Text.isWordChar c = true := by
    rcases Bool.or_eq_true_iff.1 h with alpha | underscore
    · simp [Text.isWordChar, Char.isAlphanum, alpha]
    · simp [Text.isWordChar, underscore]
  simp [columnNameChar, CharSet.contains, word]

/-- What is taken as arguments is nothing, or a text in parentheses after gaps. -/
theorem exists_writesArguments (h : (orNothing (gaps ++ parenthesized) : Phrase).ReadsText w) :
    ∃ arguments, WritesArguments w arguments := by
  rcases h.of_orNothing with some_ | rfl
  · obtain ⟨blanks, text, rfl, before, contents⟩ := some_.of_seq
    obtain ⟨front, last, rfl, opened, closing⟩ := contents.of_seq
    obtain ⟨first, inside, rfl, opening, free⟩ := opened.of_seq
    obtain ⟨c, isOpening, rfl⟩ := opening.of_char
    obtain ⟨d, isClosing, rfl⟩ := closing.of_char
    obtain rfl := eq_of_contains_oneOf isOpening
    obtain rfl := eq_of_contains_oneOf isClosing
    have closed : ')' ∉ inside := fun mem => Bool.noConfusion (free.of_stretch ')' mem)
    exact ⟨some inside, .inside before.of_some0 closed⟩
  · exact ⟨none, .nothing⟩

/-- What is taken as the first word of a type is a word with its arguments. -/
theorem exists_firstTypeWord
    (h : (char .letter ++ some0 columnNameChar ++ orNothing (gaps ++ parenthesized) :
      Phrase).ReadsText w) :
    ∃ word text arguments, w = word ++ text ∧ IsTypeName word ∧ WritesArguments text arguments := by
  obtain ⟨word, text, rfl, name, after⟩ := h.of_seq
  obtain ⟨first, others, rfl, letter, more⟩ := name.of_seq
  obtain ⟨c, isLetter, rfl⟩ := letter.of_char
  obtain ⟨arguments, written⟩ := exists_writesArguments after
  have chars : ∀ d ∈ c :: others, columnNameChar.contains d = true :=
    List.forall_mem_cons.2 ⟨columnNameChar_of_letter isLetter, more.of_some0⟩
  exact ⟨_, text, arguments, rfl, ⟨isLetter, chars⟩, written⟩

/-- One of the words that a type goes on with is stored in upper case. -/
theorem furtherTypeWord_of_eqIgnoringCase {listed : String} (mem : listed ∈ furtherTypeWords)
    {word : List Char} (same : Text.eqIgnoringCase listed.toList word = true) :
    String.ofList (Text.upper word) ∈ furtherTypeWords ∧ IsTypeName word := by
  have all : ∀ listed ∈ furtherTypeWords, String.ofList (Text.upper listed.toList) = listed ∧
      listed.toList ≠ [] ∧ ∀ c ∈ listed.toList, CharSet.letter.contains c = true := by decide
  obtain ⟨raised, nonempty, letters⟩ := all listed mem
  -- The case of a letter is lost, but it stays a letter.
  have letter : ∀ d ∈ word, CharSet.letter.contains d = true := by
    intro d hd
    have lowered : d.toLower ∈ Text.asciiLower listed.toList :=
      eq_of_beq same ▸ List.mem_map_of_mem hd
    obtain ⟨c, hc, equal⟩ := List.mem_map.1 lowered
    have kept := Text.apply_toLower CharSet.letter.contains (by decide)
    rw [← kept d, ← equal, kept c]
    exact letters c hc
  refine ⟨?_, ?_, fun d hd => columnNameChar_of_letter (letter d hd)⟩
  · rwa [Text.upper_eq_of_eqIgnoringCase same, raised]
  · cases word with
    | nil =>
      have length := eqIgnoringCase_length same
      exact absurd (List.length_eq_zero_iff.1 length) nonempty
    | cons d word => exact letter d List.mem_cons_self

/-- What is taken as one more word of a type is gaps and one of the words for that, with its
arguments. -/
theorem exists_furtherTypeWord {m : Match Operand} {rest : List Char}
    (h : typeWordPhrase.match? rest = some m) :
    ∃ before word text arguments, m.text .dataType = before ++ (word ++ text) ∧
      (∀ c ∈ before, Text.isGap c = true) ∧ String.ofList (Text.upper word) ∈ furtherTypeWords ∧
      IsTypeName word ∧ WritesArguments text arguments := by
  obtain ⟨part, mem, taken⟩ := Match.readsText_text h .dataType rfl
  obtain rfl := List.mem_singleton.1 mem
  obtain ⟨front, text, split, named, after⟩ := taken.of_seq
  obtain ⟨middle, edge, rfl, worded, atEdge⟩ := named.of_seq
  obtain ⟨before, word, rfl, gap, choice⟩ := worded.of_seq
  obtain rfl := atEdge.of_wordEdge
  obtain ⟨phrase, isListed, reads⟩ := choice.of_firstOf
  obtain ⟨listed, further, rfl⟩ := List.mem_map.1 isListed
  obtain ⟨arguments, written⟩ := exists_writesArguments after
  obtain ⟨raised, name⟩ := furtherTypeWord_of_eqIgnoringCase further reads.of_keyword
  refine ⟨before, word, text, arguments, ?_, gap.of_some1.2, raised, name, written⟩
  rw [split, List.append_nil, List.append_assoc]

/-! ## What is read -/

/-- A word of a type with its arguments starts and ends with a character that is not blank. -/
theorem trimmed_written {word text : List Char} {arguments : Option (List Char)}
    (name : IsTypeName word) (written : WritesArguments text arguments) :
    Text.Trimmed (word ++ text) := by
  have letters := trimmed_of_columnNameChar name.chars
  cases written with
  | nothing => rwa [List.append_nil]
  | @inside gaps inside gap closed =>
    have last : (('(' :: inside) ++ [')']).getLast? = some ')' := List.getLast?_concat
    have contents : Text.Trimmed ('(' :: (inside ++ [')'])) := Text.trimmed_of_ends rfl last rfl rfl
    exact letters.append_between gaps contents name.nonempty (List.cons_ne_nil _ _)

/-- The words after the first are stored words that a type goes on with. -/
theorem exists_typeWords (fuel : Nat) : ∀ rest : List Char, ∃ further : List TypeWord,
    (∀ w ∈ further, w.Normal ∧ String.ofList w.word ∈ furtherTypeWords) ∧
      (typeWords fuel rest).1 = further.map TypeWord.text := by
  induction fuel with
  | zero => exact fun rest => ⟨[], List.forall_mem_nil _, rfl⟩
  | succ fuel ih =>
    intro rest
    rw [typeWords]
    cases read : typeWordPhrase.match? rest with
    | none => exact ⟨[], List.forall_mem_nil _, rfl⟩
    | some m =>
      obtain ⟨before, word, text, arguments, split, gap, mem, name, written⟩ :=
        exists_furtherTypeWord read
      obtain ⟨further, all, more⟩ := ih m.rest
      have cut : Text.trim (m.text .dataType) = word ++ text := by
        rw [split]
        have trimmed := (trimmed_written name written).trim_append
          (fun c hc => Text.isBlank_of_isGap (gap c hc)) (List.forall_mem_nil _)
        rwa [List.append_nil] at trimmed
      refine ⟨.stored word arguments :: further,
        List.forall_mem_cons.2 ⟨⟨name.normal_stored written, mem⟩, all⟩, ?_⟩
      rw [List.map_cons, ← more, ← name.normalizeType_eq written, ← cut]

theorem filter_gaps {blanks : List Char} (h : (gaps : Phrase).ReadsText blanks) :
    (blanks.filter fun c => !Text.isBlank c) = [] :=
  List.filter_eq_nil_iff.2 fun c hc => by simp [Text.isBlank_of_isGap (h.of_some0 c hc)]

theorem filter_brackets (h : (literally '[' ++ gaps ++ literally ']' : Phrase).ReadsText w) :
    (w.filter fun c => !Text.isBlank c) = ['[', ']'] := by
  obtain ⟨front, last, rfl, opened, closing⟩ := h.of_seq
  obtain ⟨first, blanks, rfl, opening, between⟩ := opened.of_seq
  obtain ⟨c, isOpening, rfl⟩ := opening.of_char
  obtain ⟨d, isClosing, rfl⟩ := closing.of_char
  obtain rfl := eq_of_contains_oneOf isOpening
  obtain rfl := eq_of_contains_oneOf isClosing
  rw [List.filter_append, List.filter_append, filter_gaps between]
  rfl

/-- Each turn of a repetition of brackets leaves one pair of them. -/
theorem filter_flatten_brackets {turns : List (List Char)} (all : ∀ v ∈ turns,
    v ≠ [] ∧ (literally '[' ++ gaps ++ literally ']' : Phrase).ReadsText v) :
    (turns.flatten.filter fun c => !Text.isBlank c) = brackets turns.length := by
  induction turns with
  | nil => rfl
  | cons v turns ih =>
    obtain ⟨⟨-, here⟩, later⟩ := List.forall_mem_cons.1 all
    rw [List.flatten_cons, List.filter_append, filter_brackets here, ih later]
    rfl

/-- The brackets of an array are stored without blanks. -/
theorem exists_arraySuffix (rest : List Char) :
    ∃ dimensions, arraySuffix rest = brackets dimensions := by
  rw [arraySuffix]
  cases read : arrayPhrase.match? rest with
  | none => exact ⟨0, rfl⟩
  | some m =>
    obtain ⟨part, mem, taken⟩ := Match.readsText_text read .dataType rfl
    obtain rfl := List.mem_singleton.1 mem
    obtain ⟨front, others, split, opened, more⟩ := taken.of_seq
    obtain ⟨blanks, pair, rfl, before, first⟩ := opened.of_seq
    obtain ⟨turns, all, rfl⟩ := more.of_many
    refine ⟨turns.length + 1, ?_⟩
    show (Text.words (m.text .dataType)).flatten = _
    rw [Text.flatten_words, split, List.filter_append, List.filter_append, filter_gaps before,
      filter_brackets first, filter_flatten_brackets all]
    rfl

/-- A definition that starts with a quote; a reading keeps the quote. -/
theorem exists_quote {definition : List Char} {m : Match Operand}
    (h : columnPhrase.match? definition = some m) (quoted : (m.text .quote).isEmpty = false) :
    ∃ c ∈ definition.head?, Text.isNameQuote c = true := by
  have read : Reads columnPhrase ⟨none, definition, []⟩ m := by
    rw [match?_eq] at h
    exact h
  obtain ⟨u, hu, more⟩ := read.of_assoc.of_assoc.of_assoc.exists_mem
  obtain ⟨v, hv, rfl⟩ := List.mem_map.1 hu
  obtain ⟨a, quotes, split⟩ := mem_places_nameQuote hv
  have kept : m.marked.lookup .quote = some ⟨definition, v.rest⟩ :=
    lookup_of_mem_places rfl (List.mem_of_head? more)
  have text : m.text .quote = a := by
    rw [Match.text, Match.text?, kept]
    exact Span.text_of_suffix split
  have start : definition = a ++ v.rest := split
  cases a with
  | nil => rw [text] at quoted; exact Bool.noConfusion quoted
  | cons c a => exact ⟨c, by rw [start]; rfl, quotes c List.mem_cons_self⟩

/-- A column that is read has a name that can be read without quotes and a type in parts. Only in
quotes it has a name that starts the declaration of a constraint. -/
theorem exists_of_columnOf? {definition : List Char} {name type : String}
    (h : columnOf? definition = some (name, type)) :
    IsColumnName name.toList ∧ (∃ stored : ColumnType, stored.Normal ∧ type.toList = stored.text) ∧
      (Text.isOneOf constraintWords name.toList = true →
        ∃ c ∈ definition.head?, Text.isNameQuote c = true) := by
  rw [columnOf?] at h
  simp only [Option.bind_eq_bind] at h
  obtain ⟨m, read, h⟩ := Option.bind_eq_some_iff.1 h
  split at h
  · cases h
  · rename_i allowed
    obtain ⟨rfl, rfl⟩ := Prod.mk.inj (Option.some.inj h)
    obtain ⟨part, mem, named⟩ := Match.readsText_text read .column rfl
    obtain rfl := List.mem_singleton.1 mem
    obtain ⟨part, mem, typed⟩ := Match.readsText_text read .dataType rfl
    obtain rfl := List.mem_singleton.1 mem
    obtain ⟨nonempty, chars⟩ := named.of_some1
    obtain ⟨word, text, arguments, raw, start, written⟩ := exists_firstTypeWord typed
    obtain ⟨further, all, words⟩ := exists_typeWords m.rest.length m.rest
    obtain ⟨dimensions, suffix⟩ := exists_arraySuffix (typeWords m.rest.length m.rest).2
    rw [String.toList_ofList, String.toList_ofList]
    refine ⟨⟨nonempty, chars⟩, ⟨⟨.stored word arguments, further, dimensions⟩,
      ⟨start.normal_stored written, all⟩, ?_⟩, fun constraint => exists_quote read ?_⟩
    · rw [words, suffix, raw, start.normalizeType_eq written, intercalate_texts]
    · simpa [constraint] using allowed

end Sql

/-! ## Lines of columns -/

/-- The line that is written for a column in the body of a CREATE TABLE statement. -/
def columnLine (name type : String) : String :=
  "  " ++ name ++ " " ++ type

theorem Table.columnLines_eq (t : Table) :
    t.columnLines = Text.join ",\n" (t.columnsInOrder.map fun c => columnLine c.name c.dataType) :=
  rfl

namespace Sql

theorem trim_columnLine {name text : String} {type : ColumnType} (bare : IsColumnName name.toList)
    (h : type.Normal) (same : text.toList = type.text) :
    Text.trim (columnLine name text).toList = name.toList ++ ' ' :: type.text := by
  have line : (columnLine name text).toList =
      ' ' :: ' ' :: (name.toList ++ ' ' :: type.text) := by
    simp [columnLine, same]
  have trimmed := trimmed_nameAndType bare h
  rw [line]
  exact trimmed.trim_space

/--
The line that is written for a column that was read is read as the same column, unless the name
starts the declaration of a constraint: then nothing is read, although the definition, in which the
name stood in quotes, declared a column.
-/
theorem columnOf?_columnLine {definition : List Char} {name type : String}
    (read : columnOf? definition = some (name, type)) :
    columnOf? (Text.trim (columnLine name type).toList) =
        (if Text.isOneOf constraintWords name.toList then none else some (name, type)) ∧
      (Text.isOneOf constraintWords name.toList = true →
        ∃ c ∈ definition.head?, Text.isNameQuote c = true) := by
  obtain ⟨bare, ⟨stored, normal, text⟩, quoted⟩ := exists_of_columnOf? read
  refine ⟨?_, quoted⟩
  rw [trim_columnLine bare normal text, columnOf?_text bare normal, ← text, String.ofList_toList,
    String.ofList_toList]

/-- A type in several words that is kept, and a name that starts the declaration of a constraint. -/
theorem columnOf?_columnLine_quoted :
    columnOf? (Text.trim (columnLine "Net$" "DOUBLE PRECISION(9, 'SS')[]").toList) =
        some ("Net$", "DOUBLE PRECISION(9, 'SS')[]") ∧
      columnOf? (Text.trim (columnLine "Check" "INT").toList) = none := by
  have kept : columnOf? "\x22Net$\x22 double  precision (9, \x27ß\x27) [ ] NOT NULL".toList =
      some ("Net$", "DOUBLE PRECISION(9, 'SS')[]") := by decide
  have lost : columnOf? "\x60Check\x60 int".toList = some ("Check", "INT") := by decide
  exact ⟨(columnOf?_columnLine kept).1.trans (if_neg (by decide)),
    (columnOf?_columnLine lost).1.trans (if_pos (by decide))⟩

/-- A column with a name in quotes is read, but not from the line that is written for it. -/
theorem columnOf?_columnLine_primary :
    columnOf? "\x22primary\x22 INT".toList = some ("primary", "INT") ∧
      columnLine "primary" "INT" = "  primary INT" ∧
      columnOf? (Text.trim (columnLine "primary" "INT").toList) = none := by
  decide

end Sql

end Rollback

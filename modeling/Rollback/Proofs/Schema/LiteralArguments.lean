import Rollback.Proofs.Schema.ColumnReadings

/-!
# Types with literals

The arguments of a type can be literals in single quotes, as the values of an enumeration are. The
column that is read from a definition has a type with as many literals, but these are in upper case
like the rest of the type.

- `WritesLiterals`: the texts of lists of literals
- `HasLiterals`: the literals that a type has as arguments
- `DefinesLiterals`: definitions of columns with such a type
- `columnOf?_of_definesLiterals`: what is read from these definitions
-/

set_option autoImplicit false

namespace Rollback

open Pattern

/-! ## Lists of literals -/

/-- What can stand between single quotes as an argument of a type, and the gaps before it. -/
structure IsLiteral (before literal : List Char) : Prop where
  gap : ∀ c ∈ before, Text.isGap c = true
  quote : '\x27' ∉ literal
  closed : ')' ∉ literal

/-- A text that starts with a literal in single quotes. -/
def literalThen (before literal rest : List Char) : List Char :=
  before ++ '\x27' :: (literal ++ '\x27' :: rest)

/-- A list of literals as it is written, with gaps around literals and commas between them. -/
inductive WritesLiterals : List Char → List (List Char) → Prop
  | last {before literal after : List Char} (first : IsLiteral before literal)
      (gap : ∀ c ∈ after, Text.isGap c = true) :
      WritesLiterals (literalThen before literal after) [literal]
  | cons {before literal after text : List Char} {literals : List (List Char)}
      (first : IsLiteral before literal) (gap : ∀ c ∈ after, Text.isGap c = true)
      (more : WritesLiterals text literals) :
      WritesLiterals (literalThen before literal (after ++ ',' :: text)) (literal :: literals)

theorem literalThen_inj {before before' literal literal' rest rest' : List Char}
    (h : IsLiteral before literal) (h' : IsLiteral before' literal')
    (same : literalThen before literal rest = literalThen before' literal' rest') :
    literal = literal' ∧ rest = rest' := by
  obtain ⟨-, inside⟩ :=
    Text.append_cons_inj (Text.notMem_of_gap h.gap rfl) (Text.notMem_of_gap h'.gap rfl) same
  exact Text.append_cons_inj h.quote h'.quote inside

namespace WritesLiterals

variable {text : List Char} {literals others : List (List Char)}

/-- A text is a list of literals in one way only. -/
theorem unique (h : WritesLiterals text literals) (h' : WritesLiterals text others) :
    literals = others := by
  -- Gaps hold no comma, so what follows a literal tells whether there is another one.
  have comma : ∀ {after more : List Char}, (∀ c ∈ after ++ ',' :: more, Text.isGap c = true) →
      False := fun gap => Text.notMem_of_gap gap rfl (List.mem_append_right _ List.mem_cons_self)
  induction h generalizing others with
  | last first gap =>
    generalize same : literalThen _ _ _ = text at h'
    cases h' with
    | last first' gap' =>
      obtain ⟨rfl, -⟩ := literalThen_inj first first' same
      rfl
    | cons first' gap' more' =>
      obtain ⟨-, rfl⟩ := literalThen_inj first first' same
      exact (comma gap).elim
  | cons first gap more ih =>
    generalize same : literalThen _ _ _ = text at h'
    cases h' with
    | last first' gap' =>
      obtain ⟨-, rfl⟩ := literalThen_inj first first' same
      exact (comma gap').elim
    | cons first' gap' more' =>
      obtain ⟨rfl, rest⟩ := literalThen_inj first first' same
      obtain ⟨-, rfl⟩ :=
        Text.append_cons_inj (Text.notMem_of_gap gap rfl) (Text.notMem_of_gap gap' rfl) rest
      rw [ih more']

/-- There is no closing parenthesis in a list of literals. -/
theorem closed (h : WritesLiterals text literals) : ')' ∉ text := by
  have one : ∀ {before literal rest : List Char}, IsLiteral before literal → ')' ∉ rest →
      ')' ∉ literalThen before literal rest := by
    intro before literal rest first outside
    have gap := Text.notMem_of_gap (c := ')') first.gap rfl
    simp [literalThen, gap, first.closed, outside]
  induction h with
  | last first gap => exact one first (Text.notMem_of_gap gap rfl)
  | cons first gap more ih =>
    refine one first ?_
    simp [Text.notMem_of_gap (c := ')') gap rfl, ih]

/-- In upper case, a list of literals is the list of the literals in upper case. -/
theorem upper (h : WritesLiterals text literals) :
    WritesLiterals (Text.upper text) (literals.map Text.upper) := by
  have raised : ∀ {before literal : List Char} (rest : List Char), IsLiteral before literal →
      IsLiteral before (Text.upper literal) ∧ Text.upper (literalThen before literal rest) =
        literalThen before (Text.upper literal) (Text.upper rest) := by
    intro before literal rest first
    refine ⟨⟨first.gap, fun mem => first.quote ((Text.mem_upper_iff (by decide) rfl).1 mem),
      fun mem => first.closed ((Text.mem_upper_iff (by decide) rfl).1 mem)⟩, ?_⟩
    rw [literalThen, Text.upper_append, Text.upper_cons, Text.upper_append, Text.upper_cons,
      Text.upper_of_gap first.gap]
    rfl
  induction h with
  | last first gap =>
    obtain ⟨literal, text⟩ := raised _ first
    rw [text, Text.upper_of_gap gap]
    exact .last literal gap
  | cons first gap more ih =>
    obtain ⟨literal, text⟩ := raised _ first
    rw [text, Text.upper_append, Text.upper_of_gap gap, Text.upper_cons]
    exact .cons literal gap ih

end WritesLiterals

/-! ## Literals of a type -/

/-- A type with literals as the arguments of its first word. -/
def HasLiterals (type : List Char) (literals : List (List Char)) : Prop :=
  ∃ word list rest, type = word ++ '(' :: (list ++ ')' :: rest) ∧ '(' ∉ word ∧
    WritesLiterals list literals

/-- A type tells what its literals are. -/
theorem HasLiterals.unique {type : List Char} {literals others : List (List Char)}
    (h : HasLiterals type literals) (h' : HasLiterals type others) : literals = others := by
  obtain ⟨word, list, rest, rfl, outside, writes⟩ := h
  obtain ⟨word', list', rest', same, outside', writes'⟩ := h'
  obtain ⟨-, inside⟩ := Text.append_cons_inj outside outside' same
  obtain ⟨rfl, -⟩ := Text.append_cons_inj writes.closed writes'.closed inside
  exact writes.unique writes'

/-! ## Definitions -/

/-- The name of a column as it is written: in quotes, or else no word for constraints. -/
inductive WritesColumnName (name : List Char) : List Char → Prop
  | bare (other : Text.isOneOf Sql.constraintWords name = false) : WritesColumnName name name
  | quoted {quote : Char} (isQuote : quote = '\x60' ∨ quote = '\x22') :
      WritesColumnName name (quote :: (name ++ [quote]))

/-- The definition of a column whose type has literals as arguments; options of any kind can follow
the arguments. -/
inductive DefinesLiterals (name : List Char) (literals : List (List Char)) : List Char → Prop
  | of {written blanks word gaps list rest : List Char} (column : Sql.IsColumnName name)
      (writes : WritesColumnName name written) (nonempty : blanks ≠ [])
      (blank : ∀ c ∈ blanks, Text.isGap c = true) (type : IsTypeName word)
      (gap : ∀ c ∈ gaps, Text.isGap c = true) (arguments : WritesLiterals list literals) :
      DefinesLiterals name literals
        (written ++ (blanks ++ (word ++ (gaps ++ '(' :: (list ++ ')' :: rest)))))

namespace Sql

variable {l : Option Char} {m : List (Operand × Span)}
  {name written blanks word gaps inside rest : List Char}

theorem startsIn_of_gap {set : CharSet} (rest : List Char) (nonempty : blanks ≠ [])
    (blank : ∀ c ∈ blanks, Text.isGap c = true)
    (outside : ∀ c, Text.isGap c = true → set.contains c = false) :
    startsIn set (blanks ++ rest) = false := by
  cases blanks with
  | nil => exact absurd rfl nonempty
  | cons c blanks => exact outside c (blank c List.mem_cons_self)

/-- Gaps end names, also those in quotes. -/
theorem contains_of_gap {c : Char} (gap : Text.isGap c = true) :
    columnNameChar.contains c = false ∧ (CharSet.oneOf ['\x60', '\x22']).contains c = false := by
  refine ⟨Bool.eq_false_iff.2 fun name => ?_, contains_oneOf_eq_false rfl gap⟩
  have solid : Text.isGap c = false :=
    forall_columnNameChar (p := fun c => Text.isGap c = false) (by decide) name
  exact Bool.eq_false_iff.1 solid gap

/-- A word of a type is read with its arguments, however these are written. -/
theorem reads_writtenTypeWord (rest : List Char) (type : IsTypeName word)
    (gap : ∀ c ∈ gaps, Text.isGap c = true) (closed : ')' ∉ inside) :
    Reads (char .letter ++ some0 columnNameChar ++ orNothing (Pattern.gaps ++ parenthesized))
      ⟨l, word ++ (gaps ++ '(' :: (inside ++ ')' :: rest)), m⟩ ⟨some ')', rest, m⟩ := by
  have stop : startsIn columnNameChar (gaps ++ '(' :: (inside ++ ')' :: rest)) = false := by
    cases gaps with
    | nil => rfl
    | cons c gaps => exact (contains_of_gap (gap c List.mem_cons_self)).1
  have arguments : ∀ l, Reads (orNothing (Pattern.gaps ++ parenthesized))
      ⟨l, gaps ++ '(' :: (inside ++ ')' :: rest), m⟩ ⟨some ')', rest, m⟩ := fun l =>
    Reads.orNothing ((reads_some0 gap rfl).seq
      (reads_parenthesized fun c hc same => closed (same ▸ hc)))
  obtain ⟨first, chars⟩ := type
  cases word with
  | nil => exact absurd first (by decide)
  | cons c word =>
    exact ((reads_char first).seq
      (reads_some0 (fun d hd => chars d (List.mem_cons_of_mem c hd)) stop)).seq (arguments _)

/-- A name of a column is read up to the gap after it, with or without its quotes. -/
theorem reads_columnName (rest : List Char) (column : IsColumnName name)
    (writes : WritesColumnName name written) (nonempty : blanks ≠ [])
    (blank : ∀ c ∈ blanks, Text.isGap c = true) :
    ∃ last quote more, Reads
        (mark .quote (orNothing nameQuote) ++ mark .column (some1 columnNameChar) ++
          orNothing nameQuote)
        ⟨none, written ++ (blanks ++ rest), []⟩
        ⟨last, blanks ++ rest, [(.column, ⟨name ++ more, more⟩), (.quote, quote)]⟩ ∧
      (quote.text.isEmpty = true → Text.isOneOf constraintWords name = false) := by
  have stop := startsIn_of_gap rest nonempty blank fun c gap => (contains_of_gap gap).1
  have open_ := startsIn_of_gap rest nonempty blank fun c gap => (contains_of_gap gap).2
  have unquoted : ∀ l m, Reads (orNothing nameQuote : Phrase) ⟨l, blanks ++ rest, m⟩
      ⟨l, blanks ++ rest, m⟩ := fun l m => (stuck_char open_).orNothing
  cases writes with
  | bare other =>
    have first : startsIn (.oneOf ['\x60', '\x22']) (name ++ (blanks ++ rest)) = false :=
      startsIn_columnName column.nonempty column.chars (by decide) _
    have start := (stuck_char (ι := Operand) (l := none) (m := []) first).orNothing.mark
      Operand.quote
    have named := fun m => (reads_some1 (l := none) (m := m) column.nonempty column.chars stop).mark
      Operand.column
    exact ⟨_, _, _, (start.seq (named _)).seq (unquoted _ _), fun _ => other⟩
  | @quoted quote isQuote =>
    have opens : (CharSet.oneOf ['\x60', '\x22']).contains quote = true := by
      rcases isQuote with rfl | rfl <;> rfl
    have ends : startsIn columnNameChar (quote :: (blanks ++ rest)) = false := by
      rcases isQuote with rfl | rfl <;> rfl
    have shape : quote :: (name ++ [quote]) ++ (blanks ++ rest) =
        quote :: (name ++ quote :: (blanks ++ rest)) := by simp
    have opening : Reads nameQuote ⟨none, quote :: (name ++ quote :: (blanks ++ rest)), []⟩
        ⟨some quote, name ++ quote :: (blanks ++ rest), []⟩ := reads_char opens
    have start := opening.orNothing.mark Operand.quote
    have named := fun m => (reads_some1 (l := some quote) (m := m) column.nonempty column.chars
      ends).mark Operand.column
    have closing : ∀ l m, Reads (orNothing nameQuote : Phrase) ⟨l, quote :: (blanks ++ rest), m⟩
        ⟨some quote, blanks ++ rest, m⟩ := fun l m => Reads.orNothing (reads_char opens)
    rw [shape]
    refine ⟨_, _, _, (start.seq (named _)).seq (closing _ _), fun empty => ?_⟩
    have text := Span.text_append [quote] (name ++ quote :: (blanks ++ rest))
    rw [List.singleton_append] at text
    rw [text] at empty
    exact Bool.noConfusion empty

/-- A definition with arguments is read up to their closing parenthesis. -/
theorem match?_definition (rest : List Char) (column : IsColumnName name)
    (writes : WritesColumnName name written) (nonempty : blanks ≠ [])
    (blank : ∀ c ∈ blanks, Text.isGap c = true) (type : IsTypeName word)
    (gap : ∀ c ∈ gaps, Text.isGap c = true) (closed : ')' ∉ inside) :
    ∃ m, columnPhrase.match?
        (written ++ (blanks ++ (word ++ (gaps ++ '(' :: (inside ++ ')' :: rest))))) = some m ∧
      m.text .column = name ∧ m.text .dataType = word ++ (gaps ++ '(' :: (inside ++ [')'])) ∧
      ((m.text .quote).isEmpty = true → Text.isOneOf constraintWords name = false) := by
  have solid : startsIn .gap (word ++ (gaps ++ '(' :: (inside ++ ')' :: rest))) = false :=
    startsIn_columnName type.nonempty type.chars (by decide) _
  obtain ⟨last, quote, more, named, free⟩ := reads_columnName
    (word ++ (gaps ++ '(' :: (inside ++ ')' :: rest))) column writes nonempty blank
  have spaces : ∀ l m, Reads (Pattern.gap : Phrase)
      ⟨l, blanks ++ (word ++ (gaps ++ '(' :: (inside ++ ')' :: rest))), m⟩
      ⟨lastAfter l blanks, word ++ (gaps ++ '(' :: (inside ++ ')' :: rest)), m⟩ := fun l m =>
    reads_some1 nonempty blank solid
  have typed := fun l m => (reads_writtenTypeWord (l := l) (m := m) rest type gap closed).mark
    Operand.dataType
  exact ⟨_, ((named.seq (spaces _ _)).seq (typed _ _)).match?, Span.text_append name more,
    Span.text_of_suffix (by simp), free⟩

/-- The type that is read starts with the normal form of its first word. -/
theorem exists_columnOf?_of_match {definition : List Char} {m : Match Operand}
    (read : columnPhrase.match? definition = some m)
    (free : (m.text .quote).isEmpty = true →
      Text.isOneOf constraintWords (m.text .column) = false) :
    ∃ more, columnOf? definition = some (String.ofList (m.text .column),
      String.ofList (normalizeType (m.text .dataType) ++ more)) := by
  have allowed : ((m.text .quote).isEmpty && Text.isOneOf constraintWords (m.text .column)) =
      false := by
    cases quote : (m.text .quote).isEmpty with
    | false => rfl
    | true => exact free quote
  refine ⟨(typeWords m.rest.length m.rest).1.flatMap (' ' :: ·) ++
    arraySuffix (typeWords m.rest.length m.rest).2, ?_⟩
  rw [columnOf?, read, ← List.append_assoc, ← Text.intercalate_cons]
  simp only [Option.bind_eq_bind, Option.bind_some, allowed]
  rfl

/-- The column that is read from a definition with literals has a type with these literals in upper
case. -/
theorem columnOf?_of_definesLiterals {literals : List (List Char)} {definition : List Char}
    (h : DefinesLiterals name literals definition) :
    ∃ type, columnOf? definition = some (String.ofList name, String.ofList type) ∧
      HasLiterals type (literals.map Text.upper) := by
  obtain @⟨written, blanks, word, gaps, list, rest, column, writes, nonempty, blank, type, gap,
    arguments⟩ := h
  obtain ⟨m, read, rfl, raw, free⟩ :=
    match?_definition rest column writes nonempty blank type gap arguments.closed
  obtain ⟨more, taken⟩ := exists_columnOf?_of_match read free
  have stored := type.normalizeType_eq (.inside gap arguments.closed)
  refine ⟨_, taken, Text.upper word, Text.upper list, more, ?_, type.upper.notMem rfl,
    arguments.upper⟩
  rw [raw, stored]
  simp [TypeWord.text, TypeWord.argumentText, TypeWord.stored]

end Sql

end Rollback

import Rollback.Proofs.Pattern.Searches
import Rollback.Proofs.Sql.PlainNames
import Rollback.Proofs.Sql.Scripts
import Rollback.Proofs.Text.UpperCase
import Rollback.Schema.Declaration

/-!
# Definitions of columns

The types that a catalog holds are written in upper case: a word, more words of the kind that types
go on with, and the brackets of an array, where each word may have arguments. A definition that is
made of a name and of such a type is read as the column that it declares, unless the name starts the
declaration of a constraint.

- `TypeWord`, `ColumnType`: types in parts, with their texts
- `reads_typeWord`, `typeWords_eq`: the words of a type are read one after another
- `columnOf?_text`, `columnOf?_eq`: the column that a definition declares
-/

set_option autoImplicit false

namespace Rollback

open Pattern

/-! ## Types in parts -/

/-- A word of a type, with the text between the parentheses of its arguments. -/
structure TypeWord where
  word : List Char
  arguments : Option (List Char)

/-- Arguments in upper case, without quotes, parentheses, semicolons and comments. -/
structure PlainArguments (arguments : List Char) : Prop where
  upper : Text.upper arguments = arguments
  inside : ∀ c ∈ arguments, Sql.isQuote c = false ∧ c ≠ '(' ∧ c ≠ ')' ∧ c ≠ ';'
  quiet : Sql.isQuiet (arguments ++ [')']) = true

instance (arguments : List Char) : Decidable (PlainArguments arguments) :=
  decidable_of_iff
    (Text.upper arguments = arguments ∧
      (arguments.all fun c => !Sql.isQuote c && c != '(' && c != ')' && c != ';') = true ∧
      Sql.isQuiet (arguments ++ [')']) = true) <| by
    simp only [List.all_eq_true, Bool.and_eq_true, Bool.not_eq_true', bne_iff_ne, and_assoc]
    exact ⟨fun h => ⟨h.1, h.2.1, h.2.2⟩, fun h => ⟨h.upper, h.inside, h.quiet⟩⟩

namespace TypeWord

/-- The arguments of a word in their parentheses. -/
def argumentText (w : TypeWord) : List Char :=
  match w.arguments with
  | none => []
  | some arguments => '(' :: (arguments ++ [')'])

/-- A word of a type as it is written. -/
def text (w : TypeWord) : List Char :=
  w.word ++ w.argumentText

/-- A word of letters in upper case, digits and underscores, with plain arguments. -/
structure Plain (w : TypeWord) : Prop where
  first : startsIn .letter w.word = true
  upper : Text.upper w.word = w.word
  word : ∀ c ∈ w.word, Text.isWordChar c = true
  arguments : ∀ arguments ∈ w.arguments, PlainArguments arguments

/-- A word as it is stored: in upper case, with arguments that end at the first parenthesis. -/
structure Normal (w : TypeWord) : Prop where
  first : startsIn .letter w.word = true
  upper : Text.upper w.word = w.word
  word : ∀ c ∈ w.word, Sql.columnNameChar.contains c = true
  arguments : ∀ arguments ∈ w.arguments, Text.upper arguments = arguments ∧ ')' ∉ arguments

theorem Plain.normal {w : TypeWord} (h : w.Plain) : w.Normal where
  first := h.first
  upper := h.upper
  word c hc := by simp [Sql.columnNameChar, CharSet.contains, h.word c hc]
  arguments arguments mem :=
    ⟨(h.arguments arguments mem).upper,
      fun closed => ((h.arguments arguments mem).inside ')' closed).2.2.1 rfl⟩

instance (w : TypeWord) : Decidable w.Plain :=
  decidable_of_iff
    (startsIn .letter w.word = true ∧ Text.upper w.word = w.word ∧
      w.word.all Text.isWordChar = true ∧
      (w.arguments.all fun arguments => decide (PlainArguments arguments)) = true) <| by
    simp only [List.all_eq_true, Option.all_eq_true, decide_eq_true_eq]
    exact ⟨fun h => ⟨h.1, h.2.1, h.2.2.1, h.2.2.2⟩,
      fun h => ⟨h.first, h.upper, h.word, h.arguments⟩⟩

end TypeWord

/-- The words that a type can go on with. -/
def furtherTypeWords : List String :=
  ["PRECISION", "VARYING", "WITHOUT", "WITH", "TIME", "ZONE", "UNSIGNED"]

/-- A type in parts. -/
structure ColumnType where
  first : TypeWord
  further : List TypeWord
  /-- The number of dimensions of an array. -/
  dimensions : Nat

namespace ColumnType

/-- The brackets of an array. -/
def brackets : Nat → List Char
  | 0 => []
  | dimensions + 1 => '[' :: ']' :: brackets dimensions

/-- The words of a type after the first, with a space before each, and its brackets. -/
def restText (further : List TypeWord) (dimensions : Nat) : List Char :=
  further.flatMap (fun w => ' ' :: w.text) ++ brackets dimensions

/-- A type as it is written. -/
def text (type : ColumnType) : List Char :=
  type.first.text ++ restText type.further type.dimensions

/-- A type whose words are plain and which goes on with the words for that only. -/
structure Plain (type : ColumnType) : Prop where
  first : type.first.Plain
  further : ∀ w ∈ type.further, w.Plain ∧ String.ofList w.word ∈ furtherTypeWords

/-- A type as it is stored. -/
structure Normal (type : ColumnType) : Prop where
  first : type.first.Normal
  further : ∀ w ∈ type.further, w.Normal ∧ String.ofList w.word ∈ furtherTypeWords

theorem Plain.normal {type : ColumnType} (h : type.Plain) : type.Normal where
  first := h.first.normal
  further w hw := ⟨(h.further w hw).1.normal, (h.further w hw).2⟩

instance (type : ColumnType) : Decidable type.Plain :=
  decidable_of_iff
    (type.first.Plain ∧ (type.further.all fun w =>
      decide w.Plain && furtherTypeWords.contains (String.ofList w.word)) = true) <| by
    simp only [List.all_eq_true, Bool.and_eq_true, decide_eq_true_eq, List.contains_iff_mem]
    exact ⟨fun h => ⟨h.1, h.2⟩, fun h => ⟨h.first, h.further⟩⟩

theorem restText_nil (dimensions : Nat) : restText [] dimensions = brackets dimensions := rfl

theorem restText_cons (w : TypeWord) (further : List TypeWord) (dimensions : Nat) :
    restText (w :: further) dimensions = ' ' :: (w.text ++ restText further dimensions) := by
  simp [restText]

/-- Each further word takes a character at least, so the text bounds their number. -/
theorem length_le_restText (further : List TypeWord) (dimensions : Nat) :
    further.length ≤ (restText further dimensions).length := by
  induction further with
  | nil => exact Nat.zero_le _
  | cons w further ih =>
    rw [restText_cons, List.length_cons, List.length_cons, List.length_append]
    omega

theorem isBlank_brackets (dimensions : Nat) :
    ∀ c ∈ brackets dimensions, (!Text.isBlank c) = true := by
  induction dimensions with
  | zero => exact fun c hc => absurd hc List.not_mem_nil
  | succ dimensions ih =>
    simp only [brackets, List.forall_mem_cons]
    exact ⟨rfl, rfl, ih⟩

end ColumnType

/-- What holds of the pieces of types, and is kept when they are put together, holds of a type. -/
theorem ColumnType.Plain.text_induction {type : ColumnType} {p : List Char → Prop}
    (h : type.Plain) (append : ∀ {a b}, p a → p b → p (a ++ b))
    (word : ∀ s, (∀ c ∈ s, Text.isWordChar c = true) → p s)
    (arguments : ∀ s, PlainArguments s → p ('(' :: (s ++ [')']))) (space : p [' '])
    (pair : p ['[', ']']) : p type.text := by
  have nil : p [] := word [] fun c hc => absurd hc List.not_mem_nil
  have one : ∀ w : TypeWord, w.Plain → p w.text := by
    rintro ⟨letters, args⟩ plain
    refine append (word letters plain.word) ?_
    cases args with
    | none => exact nil
    | some args => exact arguments args (plain.arguments args rfl)
  have brackets : ∀ dimensions, p (brackets dimensions) := by
    intro dimensions
    induction dimensions with
    | zero => exact nil
    | succ dimensions ih => exact append pair ih
  have rest : ∀ further : List TypeWord, (∀ w ∈ further, w.Plain) →
      p (restText further type.dimensions) := by
    intro further
    induction further with
    | nil => exact fun _ => brackets type.dimensions
    | cons w further ih =>
      intro all
      have first := append space (one w (all w List.mem_cons_self))
      rw [restText_cons]
      exact append first (ih fun v hv => all v (List.mem_cons_of_mem w hv))
  exact append (one type.first h.first) (rest type.further fun w hw => (h.further w hw).1)

/-! ## Characters of names -/

/-- What holds of the characters of names in ASCII holds of them all. -/
theorem Sql.forall_columnNameChar {p : Char → Prop}
    (h : ∀ n < 128, columnNameChar.contains (Char.ofNat n) = true → p (Char.ofNat n)) {c : Char}
    (hc : columnNameChar.contains c = true) : p c := by
  have ascii : c.toNat < 128 := by
    rcases Bool.or_eq_true_iff.1 hc with word | dollar
    · exact Text.ascii_of_isWordChar word
    · have same : c = '$' := by simpa [CharSet.contains] using dollar
      exact same ▸ by decide
  exact Text.forall_ascii (p := fun c => columnNameChar.contains c = true → p c) h ascii hc

theorem Sql.trimmed_of_columnNameChar {s : List Char}
    (h : ∀ c ∈ s, columnNameChar.contains c = true) : Text.Trimmed s :=
  Text.trimmed_of_solid fun c hc =>
    forall_columnNameChar (p := fun c => Text.isBlank c = false) (by decide) (h c hc)

/-! ## Words in upper case -/

namespace TypeWord

variable {w : TypeWord}

theorem Normal.nonempty (h : w.Normal) : w.word ≠ [] := by
  intro empty
  have first := h.first
  rw [empty] at first
  exact absurd first (by decide)

/-- A normal word is in upper case already. -/
theorem Normal.upper_text (h : w.Normal) : Text.upper w.text = w.text := by
  obtain ⟨word, arguments⟩ := w
  cases arguments with
  | none =>
    rw [text, Text.upper_append, h.upper]
    rfl
  | some arguments =>
    have same := (h.arguments arguments rfl).1
    have shape : Text.upper ('(' :: (arguments ++ [')'])) = '(' :: (arguments ++ [')']) := by
      rw [Text.upper_cons, Text.upper_append, same]
      rfl
    rw [text, Text.upper_append, h.upper]
    exact congrArg (word ++ ·) shape

/-- A word of a type is kept in its normal form. -/
theorem Normal.normalizeType_eq (h : w.Normal) : Sql.normalizeType w.text = w.text := by
  have open_ : ∀ c ∈ w.word, (c != '(') = true := fun c hc =>
    Sql.forall_columnNameChar (p := fun c => (c != '(') = true) (by decide) (h.word c hc)
  rw [Sql.normalizeType, h.upper_text, text, List.takeWhile_append_of_pos open_,
    List.dropWhile_append_of_pos open_]
  obtain ⟨word, arguments⟩ := w
  cases arguments with
  | none => rfl
  | some arguments =>
    have trimmed : Text.Trimmed word := Sql.trimmed_of_columnNameChar h.word
    show Text.trimEnd (word ++ []) ++ '(' :: (arguments ++ [')']) = _
    rw [List.append_nil, trimmed.trimEnd_eq]
    rfl

/-- A word of a type has no blanks at its ends. -/
theorem Normal.trimmed (h : w.Normal) : Text.Trimmed w.text := by
  obtain ⟨word, arguments⟩ := w
  have letters : Text.Trimmed word := Sql.trimmed_of_columnNameChar h.word
  refine letters.append ?_
  cases arguments with
  | none => exact .nil
  | some arguments =>
    have last : (('(' :: arguments) ++ [')']).getLast? = some ')' := List.getLast?_concat
    exact Text.trimmed_of_ends rfl last (by decide) (by decide)

end TypeWord

namespace Sql

open ColumnType

variable {l : Option Char} {m : List (Operand × Span)} {rest : List Char} {w : TypeWord}

/-! ## Words of a type -/

/-- A text after a word of a type that is neither more of the word nor its arguments. -/
structure EndsTypeWord (rest : List Char) : Prop where
  word : startsIn columnNameChar rest = false
  arguments : startsIn (.oneOf ['(']) (rest.dropWhile Text.isGap) = false

theorem reads_parenthesized {inside : List Char} (h : ∀ c ∈ inside, c ≠ ')') :
    Reads parenthesized ⟨l, '(' :: (inside ++ ')' :: rest), m⟩ ⟨some ')', rest, m⟩ := by
  have first : Reads (literally '(') ⟨l, '(' :: (inside ++ ')' :: rest), m⟩
      ⟨some '(', inside ++ ')' :: rest, m⟩ := reads_char rfl
  have body : Reads (stretch inParentheses) ⟨some '(', inside ++ ')' :: rest, m⟩
      ⟨lastAfter (some '(') inside, ')' :: rest, m⟩ := by
    refine reads_stretch (fun c hc => ?_) rfl
    simp [inParentheses, CharSet.contains, h c hc]
  exact (first.seq body).seq (reads_char rfl)

/-- The arguments of a type are read, if it has any. -/
theorem reads_arguments (h : ∀ arguments ∈ w.arguments, ')' ∉ arguments)
    (ends : EndsTypeWord rest) :
    Reads (orNothing (gaps ++ parenthesized)) ⟨l, w.argumentText ++ rest, m⟩
      ⟨lastAfter l w.argumentText, rest, m⟩ := by
  obtain ⟨word, arguments⟩ := w
  cases arguments with
  | none =>
    have first : OnlyFrom parenthesized (.oneOf ['(']) := ((OnlyFrom.char _).seq _).seq _
    have solid : ∀ c, Text.isGap c = true → (CharSet.oneOf ['(']).contains c = false :=
      fun _ => contains_oneOf_eq_false (p := Text.isGap) rfl
    exact Stuck.orNothing (first.stuck_gaps solid ends.arguments)
  | some arguments =>
    have closed : ∀ c ∈ arguments, c ≠ ')' := fun c hc same =>
      h arguments rfl (same ▸ hc)
    have last : lastAfter l ('(' :: (arguments ++ [')'])) = some ')' := by
      simp [lastAfter_append]
    have shape : '(' :: (arguments ++ [')']) ++ rest = '(' :: (arguments ++ ')' :: rest) := by
      simp
    show Reads _ ⟨l, '(' :: (arguments ++ [')']) ++ rest, m⟩
      ⟨lastAfter l ('(' :: (arguments ++ [')'])), rest, m⟩
    rw [last, shape]
    exact Reads.orNothing ((reads_none0 rfl).seq (reads_parenthesized closed))

/-- After a word come its arguments or its end, and no character of a name. -/
theorem startsIn_argumentText (ends : EndsTypeWord rest) :
    startsIn columnNameChar (w.argumentText ++ rest) = false := by
  obtain ⟨word, arguments⟩ := w
  cases arguments with
  | none => exact ends.word
  | some arguments => rfl

/-- The first word of a type is read with its arguments. -/
theorem reads_firstTypeWord (h : w.Normal) (ends : EndsTypeWord rest) :
    Reads (char .letter ++ some0 columnNameChar ++ orNothing (gaps ++ parenthesized))
      ⟨l, w.text ++ rest, m⟩ ⟨lastAfter l w.text, rest, m⟩ := by
  have args := fun l => reads_arguments (l := l) (m := m) (fun a ha => (h.arguments a ha).2) ends
  have stop := startsIn_argumentText (w := w) ends
  have first := h.first
  have inside := h.word
  rw [TypeWord.text, List.append_assoc, lastAfter_append]
  generalize w.word = word at first inside ⊢
  cases word with
  | nil => exact absurd first (by decide)
  | cons c word =>
    have goesOn : ∀ d ∈ word, columnNameChar.contains d = true := fun d hd =>
      inside d (List.mem_cons_of_mem c hd)
    rw [lastAfter_cons]
    exact ((reads_char first).seq (reads_some0 goesOn stop)).seq (args _)

/-- The words that a type goes on with are told apart. -/
theorem reads_furtherWord {word : String} (mem : word ∈ furtherTypeWords)
    (ends : startsIn .word rest = false) :
    Reads (firstOf (furtherTypeWords.map keyword)) ⟨l, word.toList ++ rest, m⟩
      ⟨lastAfter l word.toList, rest, m⟩ := by
  have here := reads_same_keyword (l := l) (m := m) word rest
  -- WITHOUT is tried before WITH, which is too short for it.
  have short : Stuck (keyword "WITHOUT") ⟨l, "WITH".toList ++ rest, m⟩ := by
    refine stuck_keyword (Bool.eq_false_iff.2 fun same => ?_)
    have letters : ∀ c ∈ "WITHOUT".toList, Text.isWordChar c = true :=
      List.all_eq_true.1 (by decide)
    have length := keyword_length_le letters ends same
    exact absurd length (by decide)
  simp only [furtherTypeWords, List.mem_cons, List.not_mem_nil, or_false] at mem
  rcases mem with rfl | rfl | rfl | rfl | rfl | rfl | rfl
  · exact here.left
  · exact .right rfl here.left
  · exact .right rfl (.right rfl here.left)
  · exact .right rfl (.right rfl (.right short here.left))
  · exact .right rfl (.right rfl (.right rfl (.right rfl here.left)))
  · exact .right rfl (.right rfl (.right rfl (.right rfl (.right rfl here.left))))
  · exact .right rfl (.right rfl (.right rfl (.right rfl (.right rfl (.right rfl here)))))

/-- What no character of names is, names do not start with. -/
theorem startsIn_columnName {set : CharSet} {name : List Char} (nonempty : name ≠ [])
    (chars : ∀ c ∈ name, columnNameChar.contains c = true)
    (other : ∀ n < 128, columnNameChar.contains (Char.ofNat n) = true →
      set.contains (Char.ofNat n) = false) (rest : List Char) :
    startsIn set (name ++ rest) = false := by
  cases name with
  | nil => exact absurd rfl nonempty
  | cons c name =>
    exact forall_columnNameChar (p := fun c => set.contains c = false) other
      (chars c List.mem_cons_self)

/-- A word does not start with a character that no name has. -/
theorem startsIn_text (h : w.Normal) {set : CharSet}
    (other : ∀ n < 128, columnNameChar.contains (Char.ofNat n) = true →
      set.contains (Char.ofNat n) = false) (rest : List Char) :
    startsIn set (w.text ++ rest) = false := by
  rw [TypeWord.text, List.append_assoc]
  exact startsIn_columnName h.nonempty h.word other _

theorem startsIn_gap_text (h : w.Normal) (rest : List Char) :
    startsIn .gap (w.text ++ rest) = false :=
  startsIn_text h (by decide) rest

/-- The words that a type goes on with are made of letters. -/
theorem isWordChar_of_furtherWord (mem : String.ofList w.word ∈ furtherTypeWords) :
    ∀ c ∈ w.word, Text.isWordChar c = true := by
  have all : (furtherTypeWords.all fun word => word.toList.all Text.isWordChar) = true := by decide
  have letters := List.all_eq_true.1 all _ mem
  rw [String.toList_ofList] at letters
  exact List.all_eq_true.1 letters

/-- A word that a type goes on with is read with the space before it. -/
theorem reads_typeWord (h : w.Normal) (mem : String.ofList w.word ∈ furtherTypeWords)
    (ends : EndsTypeWord rest) :
    Reads typeWordPhrase ⟨l, ' ' :: (w.text ++ rest), m⟩
      ⟨lastAfter (some ' ') w.text, rest, (.dataType, ⟨' ' :: (w.text ++ rest), rest⟩) :: m⟩ := by
  have stop : startsIn .word (w.argumentText ++ rest) = false := by
    refine startsIn_eq_false_of_subset (fun c inside => ?_) (startsIn_argumentText ends)
    simp [columnNameChar, CharSet.contains, show Text.isWordChar c = true from inside]
  have space : Reads gap ⟨l, ' ' :: (w.text ++ rest), m⟩ ⟨some ' ', w.text ++ rest, m⟩ :=
    reads_space (startsIn_gap_text h rest)
  have word := reads_furtherWord (l := some ' ') (m := m) mem stop
  rw [String.toList_ofList] at word
  have text : w.text ++ rest = w.word ++ (w.argumentText ++ rest) := List.append_assoc _ _ _
  have last : lastAfter (some ' ') w.text = lastAfter (lastAfter (some ' ') w.word)
      w.argumentText := lastAfter_append _ _ _
  rw [text] at space ⊢
  rw [last]
  have edge := reads_wordEnd (l := some ' ') (m := m) h.nonempty (isWordChar_of_furtherWord mem)
    stop
  exact (((space.seq word).seq edge).seq
    (reads_arguments (fun a ha => (h.arguments a ha).2) ends)).mark .dataType

theorem dropWhile_isGap_eq_self {text : List Char} (solid : startsIn .gap text = false) :
    text.dropWhile Text.isGap = text := by
  refine Text.dropWhile_eq_self fun c hc => ?_
  cases text with
  | nil => exact absurd hc (by simp)
  | cons d text => exact Option.some.inj hc ▸ solid

/-- What follows a word of a type ends it. -/
theorem endsTypeWord_restText (further : List TypeWord) (dimensions : Nat)
    (h : ∀ w ∈ further, w.Normal) : EndsTypeWord (restText further dimensions) := by
  cases further with
  | nil => cases dimensions <;> exact ⟨rfl, rfl⟩
  | cons w further =>
    have normal := h w List.mem_cons_self
    have solid := startsIn_gap_text normal (restText further dimensions)
    have word : startsIn (.oneOf ['(']) (w.text ++ restText further dimensions) = false :=
      startsIn_text normal (by decide) _
    rw [restText_cons]
    refine ⟨rfl, ?_⟩
    show startsIn _ ((w.text ++ _).dropWhile Text.isGap) = false
    rwa [dropWhile_isGap_eq_self solid]

/-- The words after the first are read one after another, up to the brackets. -/
theorem typeWords_eq {further : List TypeWord} (dimensions : Nat)
    (h : ∀ w ∈ further, w.Normal ∧ String.ofList w.word ∈ furtherTypeWords) :
    ∀ fuel, further.length ≤ fuel →
      typeWords fuel (restText further dimensions) =
        (further.map TypeWord.text, brackets dimensions) := by
  induction further with
  | nil =>
    intro fuel _
    cases fuel with
    | zero => rfl
    | succ fuel =>
      have stuck : Stuck typeWordPhrase ⟨none, brackets dimensions, []⟩ := by
        cases dimensions <;> rfl
      rw [restText_nil, typeWords, stuck.match?]
      rfl
  | cons w further ih =>
    intro fuel enough
    obtain ⟨normal, mem⟩ := h w List.mem_cons_self
    have others := fun v hv => h v (List.mem_cons_of_mem w hv)
    rw [List.length_cons] at enough
    obtain ⟨fuel, rfl⟩ : ∃ k, fuel = k + 1 := ⟨fuel - 1, by omega⟩
    have ends := endsTypeWord_restText further dimensions fun v hv => (others v hv).1
    have read := (reads_typeWord (l := none) (m := []) normal mem ends).match?
    have trimmed : Text.trim (' ' :: w.text) = w.text := by
      have cut : Text.trim ([' '] ++ w.text ++ []) = w.text :=
        normal.trimmed.trim_append (List.all_eq_true.1 rfl) (by simp)
      simpa using cut
    have marked : Span.text ⟨' ' :: (w.text ++ restText further dimensions),
        restText further dimensions⟩ = ' ' :: w.text :=
      Span.text_append (' ' :: w.text) _
    rw [restText_cons, typeWords, read]
    simp only [ih others fuel (by omega), Match.text, Match.text?, List.lookup_cons_self,
      Option.map_some, Option.getD_some, marked, trimmed, normal.normalizeType_eq, List.map_cons]

/-! ## Brackets -/

/-- The brackets of an array are read to the end. -/
theorem turns_brackets (dimensions : Nat) :
    ∀ l : Option Char, Turns (literally '[' ++ gaps ++ literally ']')
      ⟨l, brackets dimensions, m⟩ ⟨lastAfter l (brackets dimensions), [], m⟩ := by
  induction dimensions with
  | zero => exact fun l => .stop rfl
  | succ dimensions ih =>
    intro l
    rw [brackets, lastAfter_cons, lastAfter_cons]
    refine .turn (t := ⟨some ']', brackets dimensions, m⟩) rfl ?_ (ih _)
    simp only [List.length_cons]
    omega

theorem arraySuffix_brackets (dimensions : Nat) :
    arraySuffix (brackets dimensions) = brackets dimensions := by
  cases dimensions with
  | zero => rfl
  | succ dimensions =>
    have first : Reads (gaps ++ (literally '[' ++ gaps ++ literally ']') : Phrase)
        ⟨none, brackets (dimensions + 1), []⟩ ⟨some ']', brackets dimensions, []⟩ := rfl
    have read := (first.seq (turns_brackets dimensions _).reads).mark .dataType
    have marked : Span.text ⟨brackets (dimensions + 1), []⟩ = brackets (dimensions + 1) := by
      have whole := Span.text_append (brackets (dimensions + 1)) []
      rwa [List.append_nil] at whole
    have phrase : arrayPhrase.match? (brackets (dimensions + 1)) =
        some ⟨lastAfter (some ']') (brackets dimensions), [],
          [(.dataType, ⟨brackets (dimensions + 1), []⟩)]⟩ := read.match?
    rw [arraySuffix, phrase]
    simp only [Match.text, Match.text?, List.lookup_cons_self, Option.map_some, Option.getD_some,
      marked, Text.flatten_words, List.filter_eq_self.2 (isBlank_brackets _)]

/-! ## Whole definitions -/

/-- A name that can be read without quotes. -/
structure IsColumnName (name : List Char) : Prop where
  nonempty : name ≠ []
  chars : ∀ c ∈ name, columnNameChar.contains c = true

theorem isColumnName_of_plain {name : String} (plain : PlainName name) :
    IsColumnName name.toList where
  nonempty := plain.nonempty
  chars c hc := by simp [columnNameChar, CharSet.contains, plain.word c hc]

theorem trimmed_brackets (dimensions : Nat) : Text.Trimmed (brackets dimensions) := by
  induction dimensions with
  | zero => exact .nil
  | succ dimensions ih =>
    have pair : Text.Trimmed ['[', ']'] := Text.trimmed_of_ends rfl rfl rfl rfl
    exact pair.append ih

theorem nonempty_text (h : w.Normal) (rest : List Char) : w.text ++ rest ≠ [] :=
  List.append_ne_nil_of_left_ne_nil (List.append_ne_nil_of_left_ne_nil h.nonempty _) _

/-- The words of a type, with spaces between them, have no blanks at their ends. -/
theorem trimmed_typeText (dimensions : Nat) {further : List TypeWord} (h : w.Normal)
    (others : ∀ v ∈ further, v.Normal) :
    Text.Trimmed (w.text ++ restText further dimensions) := by
  induction further generalizing w with
  | nil => exact h.trimmed.append (trimmed_brackets dimensions)
  | cons v further ih =>
    have next := others v List.mem_cons_self
    have more := ih next fun u hu => others u (List.mem_cons_of_mem v hu)
    have text : w.text ≠ [] := List.append_ne_nil_of_left_ne_nil h.nonempty _
    rw [restText_cons]
    exact h.trimmed.append_between [' '] more text (nonempty_text next _)

variable {name : List Char}

theorem trimmed_nameAndType (bare : IsColumnName name) {type : ColumnType} (h : type.Normal) :
    Text.Trimmed (name ++ ' ' :: type.text) := by
  have text := trimmed_typeText type.dimensions h.first fun w hw => (h.further w hw).1
  exact (trimmed_of_columnNameChar bare.chars).append_between [' '] text bare.nonempty
    (nonempty_text h.first _)

/-- A name and the first word of a type are read, with the name apart. -/
theorem reads_column (bare : IsColumnName name) (h : w.Normal) (ends : EndsTypeWord rest) :
    Reads columnPhrase ⟨none, name ++ ' ' :: (w.text ++ rest), []⟩
      ⟨lastAfter (some ' ') w.text, rest,
        [(.dataType, ⟨w.text ++ rest, rest⟩),
          (.column, ⟨name ++ ' ' :: (w.text ++ rest), ' ' :: (w.text ++ rest)⟩),
          (.quote, ⟨name ++ ' ' :: (w.text ++ rest), name ++ ' ' :: (w.text ++ rest)⟩)]⟩ := by
  have quote : startsIn (.oneOf ['\x60', '\x22']) (name ++ ' ' :: (w.text ++ rest)) = false :=
    startsIn_columnName bare.nonempty bare.chars (by decide) _
  have unquoted := (stuck_char (ι := Operand) (l := none) (m := []) quote).orNothing.mark
    Operand.quote
  have named : ∀ m : List (Operand × Span), Reads (some1 columnNameChar)
      ⟨none, name ++ ' ' :: (w.text ++ rest), m⟩
      ⟨lastAfter none name, ' ' :: (w.text ++ rest), m⟩ := fun m =>
    reads_some1 bare.nonempty bare.chars rfl
  have closed : ∀ (l : Option Char) (m : List (Operand × Span)), Reads (orNothing nameQuote)
      ⟨l, ' ' :: (w.text ++ rest), m⟩ ⟨l, ' ' :: (w.text ++ rest), m⟩ := fun l m =>
    (stuck_char rfl).orNothing
  have space := fun l (m : List (Operand × Span)) =>
    reads_space (l := l) (m := m) (startsIn_gap_text h rest)
  exact (((unquoted.seq ((named _).mark .column)).seq (closed _ _)).seq (space _ _)).seq
    ((reads_firstTypeWord h ends).mark .dataType)

/-- The phrase for columns takes the name and the first word of the type. -/
theorem match?_column (bare : IsColumnName name) (h : w.Normal) (ends : EndsTypeWord rest) :
    ∃ m, columnPhrase.match? (name ++ ' ' :: (w.text ++ rest)) = some m ∧
      m.rest = rest ∧ m.text .quote = [] ∧ m.text .column = name ∧ m.text .dataType = w.text :=
  ⟨_, (reads_column bare h ends).match?, rfl, Span.text_append [] _,
    Span.text_append name _, Span.text_append w.text rest⟩

/-- The words of a type with spaces between them, and the brackets, are the text of the type. -/
theorem intercalate_texts (first : TypeWord) (further : List TypeWord) (dimensions : Nat) :
    [' '].intercalate (first.text :: further.map TypeWord.text) ++ brackets dimensions =
      ColumnType.text ⟨first, further, dimensions⟩ := by
  rw [Text.intercalate_cons, List.flatMap_map, List.append_assoc]
  rfl

/-- A definition that is made of a name and a type declares a column with these, unless the name
starts the declaration of a constraint. -/
theorem columnOf?_text {type : ColumnType} (bare : IsColumnName name) (h : type.Normal) :
    columnOf? (name ++ ' ' :: type.text) =
      if Text.isOneOf constraintWords name then none
      else some (String.ofList name, String.ofList type.text) := by
  obtain ⟨first, further, dimensions⟩ := type
  have ends := endsTypeWord_restText further dimensions fun w hw => (h.further w hw).1
  obtain ⟨m, read, rest, quote, column, dataType⟩ := match?_column bare h.first ends
  have words := typeWords_eq dimensions h.further _ (length_le_restText further dimensions)
  rw [columnOf?, ColumnType.text, read]
  simp only [Option.bind_eq_bind, Option.bind_some, column, quote, dataType, rest, words,
    h.first.normalizeType_eq, arraySuffix_brackets, intercalate_texts, List.isEmpty_nil,
    Bool.true_and]
  rfl

/-- A definition that is made of a plain name and a plain type declares a column with these. -/
theorem columnOf?_eq {name : String} {type : ColumnType} (plain : PlainName name) (h : type.Plain)
    (other : Text.isOneOf constraintWords name.toList = false) :
    columnOf? (name.toList ++ ' ' :: type.text) = some (name, String.ofList type.text) := by
  rw [columnOf?_text (isColumnName_of_plain plain) h.normal, other, String.ofList_toList]
  rfl

end Sql

end Rollback

import Mathlib.Data.List.Forall2
import Rollback.Proofs.Json.Scalars

/-!
# Printed documents

A value without doubles is read from what is printed for it, at any level of indentation and with
anything behind it that does not go on with a number.

- `Value.isPlain`: values without doubles
- `Value.node`: the part of a document that a value becomes
- `ReadsAs`: a text that is read as a part, whatever follows it
- `readsAs_array`, `readsAs_object`: items between brackets, on lines of their own
- `parse?_pretty`: a printed value
-/

set_option autoImplicit false

namespace Rollback.Json

namespace Value

mutual

/-- Whether a value holds no doubles. -/
def isPlain : Value → Bool
  | number (.double _) => false
  | array items => arePlain items
  | object fields => hasPlainFields fields
  | _ => true

/-- Whether all values of a list hold no doubles. -/
def arePlain : List Value → Bool
  | [] => true
  | item :: rest => isPlain item && arePlain rest

/-- Whether the values of all fields hold no doubles. -/
def hasPlainFields : List (String × Value) → Bool
  | [] => true
  | (_, value) :: rest => isPlain value && hasPlainFields rest

end

mutual

/-- The part of a document that is read from a printed value; a double does not matter here. -/
def node : Value → Node
  | null => .null
  | bool b => .bool b
  | number (.integer i) => .number (integerText i)
  | number (.double _) => .null
  | string s => .string (some s)
  | array items => .array (nodes items)
  | object fields => .object (fieldNodes fields)

/-- The parts for the items of a list. -/
def nodes : List Value → List Node
  | [] => []
  | item :: rest => node item :: nodes rest

/-- The parts for the fields of an object. -/
def fieldNodes : List (String × Value) → List (Option String × Node)
  | [] => []
  | (name, value) :: rest => (some name, node value) :: fieldNodes rest

end

end Value

/-! ## Blanks -/

section Blanks

variable {blank : List Char} (blanks : ∀ c ∈ blank, isSpace c = true)

include blanks in

theorem skipSpace_append (s : List Char) : skipSpace (blank ++ s) = skipSpace s :=
  List.dropWhile_append_of_pos blanks

include blanks in

/-- A value is read in the same way after blanks. -/
theorem readNode_blank (fuel : Nat) (s : List Char) :
    readNode fuel (blank ++ s) = readNode fuel s := by
  cases fuel with
  | zero => rfl
  | succ fuel => rw [readNode, readNode, skipSpace_append blanks]

include blanks in

theorem readFields_blank (fuel : Nat) (s : List Char) :
    readFields fuel (blank ++ s) = readFields fuel s := by
  cases fuel with
  | zero => rfl
  | succ fuel => rw [readFields, readFields, skipSpace_append blanks]

end Blanks

theorem skipSpace_of_first {c : Char} (h : isSpace c = false) (s : List Char) :
    skipSpace (c :: s) = c :: s :=
  List.dropWhile_cons_of_neg (by rw [h]; exact Bool.false_ne_true)

theorem toList_lineBreak (level : Nat) :
    (Value.lineBreak level).toList = '\n' :: List.replicate (2 * level) ' ' := by
  simp [Value.lineBreak]

theorem isSpace_lineBreak (level : Nat) :
    ∀ c ∈ (Value.lineBreak level).toList, isSpace c = true := by
  intro c hc
  rw [toList_lineBreak] at hc
  rcases List.mem_cons.1 hc with rfl | hc
  · decide
  · rw [List.eq_of_mem_replicate hc]
    decide

/-! ## Texts that are read as a part of a document -/

/-- A character that starts a part of a document. -/
def startsNode (c : Char) : Bool :=
  !isSpace c && c != ']'

/-- A text is read as a part of a document, if what follows does not go on with a number. -/
structure ReadsAs (text : List Char) (node : Node) : Prop where
  first : ∃ c more, text = c :: more ∧ startsNode c = true
  reads : ∀ rest, EndsNumber rest → ∀ fuel, text.length ≤ fuel →
    readNode fuel (text ++ rest) = some (node, rest)

/-- A scalar is read by its first character or as one of the words and numbers. -/
theorem ReadsAs.scalar {text : List Char} {c : Char} {more : List Char} {node : Node}
    (first : text = c :: more) (starts : startsNode c = true)
    (other : c ≠ '\x22' ∧ c ≠ '[' ∧ c ≠ '\x7b')
    (reads : ∀ rest, EndsNumber rest → readScalar (text ++ rest) = some (node, rest)) :
    ReadsAs text node where
  first := ⟨c, more, first, starts⟩
  reads := by
    intro rest ends fuel enough
    have solid : isSpace c = false := by
      simp only [startsNode, Bool.and_eq_true, Bool.not_eq_true'] at starts
      exact starts.1
    cases fuel with
    | zero =>
      rw [first] at enough
      exact absurd enough (Nat.not_succ_le_zero _)
    | succ fuel =>
      have scalar := reads rest ends
      rw [first, List.cons_append] at scalar ⊢
      rw [readNode, skipSpace_of_first solid]
      simp only [beq_iff_eq, other.1, other.2.1, other.2.2, if_false]
      exact scalar

/-! ## Arrays -/

section Brackets

variable {blank before rest : List Char} (blanks : ∀ c ∈ blank, isSpace c = true)
  (blanksBefore : ∀ c ∈ before, isSpace c = true)

theorem endsNumber_nil : EndsNumber [] where
  digits := by
    rintro c ⟨⟩
  others := by
    rintro c ⟨⟩

/-- A number ends before a character that cannot go on with it. -/
theorem endsNumber_cons {c : Char}
    (h : c.isDigit = false ∧ c ≠ '.' ∧ c ≠ 'e' ∧ c ≠ 'E') (rest : List Char) :
    EndsNumber (c :: rest) where
  digits := Text.endsDigits_cons h.1 rest
  others := by
    rintro d ⟨⟩
    exact h.2

include blanksBefore in
/-- Blanks and then a character that ends a number end it as well. -/
theorem endsNumber_blank {c : Char} (h : c.isDigit = false ∧ c ≠ '.' ∧ c ≠ 'e' ∧ c ≠ 'E') :
    EndsNumber (before ++ c :: rest) := by
  cases before with
  | nil => exact endsNumber_cons h rest
  | cons d before =>
    refine endsNumber_cons ?_ _
    have space := blanksBefore d List.mem_cons_self
    simp only [isSpace, Bool.or_eq_true, beq_iff_eq] at space
    rcases space with ((rfl | rfl) | rfl) | rfl <;> decide

/-- Texts with a comma and blanks between them. -/
def separated (blank : List Char) : List (List Char) → List Char
  | [] => []
  | [text] => text
  | text :: others => text ++ ',' :: (blank ++ separated blank others)

variable (rest) in
include blanks blanksBefore in
/-- Items with blanks before each of them are read up to the bracket that ends the array. -/
theorem readItems_separated {texts : List (List Char)} {nodes : List Node}
    (h : List.Forall₂ ReadsAs texts nodes) (nonempty : texts ≠ []) :
    ∀ fuel, (separated blank texts).length < fuel →
      readItems fuel (blank ++ (separated blank texts ++ (before ++ ']' :: rest))) =
        some (nodes, rest) := by
  induction h with
  | nil => exact absurd rfl nonempty
  | @cons text node others nodes reads more ih =>
    intro fuel enough
    obtain ⟨fuel, rfl⟩ : ∃ n, fuel = n + 1 := ⟨fuel - 1, by omega⟩
    rw [readItems, readNode_blank blanks]
    cases more with
    | nil =>
      rw [separated] at enough ⊢
      rw [reads.reads _ (endsNumber_blank blanksBefore (by decide)) fuel (by omega)]
      simp only [Option.bind_eq_bind, Option.bind_some, skipSpace_append blanksBefore]
      rfl
    | @cons next _ others' _ _ _ =>
      have shape : separated blank (text :: next :: others') =
          text ++ ',' :: (blank ++ separated blank (next :: others')) := rfl
      rw [shape, List.length_append, List.length_cons, List.length_append] at enough
      rw [shape, List.append_assoc, List.cons_append, List.append_assoc,
        reads.reads _ (endsNumber_cons (by decide) _) fuel (by omega)]
      simp only [Option.bind_eq_bind, Option.bind_some]
      rw [skipSpace_of_first (by decide)]
      simp only [ih (List.cons_ne_nil _ _) fuel (by omega)]
      rfl

/-- A name in quotes and a text behind a colon. -/
def fieldText (name : String) (text : List Char) : List Char :=
  (quoted name).toList ++ ':' :: ' ' :: text

/-- A field is read, and then the fields behind a comma or the brace that ends the object. -/
theorem readFields_fieldText (name : String) {text s : List Char} {node : Node}
    (reads : ReadsAs text node) (ends : EndsNumber s) {fuel : Nat} (enough : text.length ≤ fuel) :
    readFields (fuel + 1) (fieldText name text ++ s) =
      match skipSpace s with
      | [] => none
      | c :: rest =>
        if c == ',' then
          (readFields fuel rest).map fun (fields, rest) => ((some name, node) :: fields, rest)
        else if c == '\x7d' then some ([(some name, node)], rest)
        else none := by
  have shape : fieldText name text ++ s =
      '\x22' :: (name.toList.flatMap escapeChar ++ '\x22' :: ':' :: ([' '] ++ (text ++ s))) := by
    rw [fieldText, toList_quoted]
    simp
  have value : readNode fuel ([' '] ++ (text ++ s)) = some (node, s) := by
    rw [readNode_blank (by simp [isSpace])]
    exact reads.reads s ends fuel enough
  rw [shape, readFields, skipSpace_of_first (by decide)]
  simp only [bne_self_eq_false, Bool.false_eq_true, if_false, readText_quoted, Option.bind_eq_bind,
    Option.bind_some]
  rw [skipSpace_of_first (by decide)]
  simp only [value, Option.bind_some]
  cases skipSpace s with
  | nil => rfl
  | cons c rest =>
    simp only
    split
    · cases readFields fuel rest <;> rfl
    · rfl

/-- A text is read as a field with a name and a part. -/
def ReadsAsField (text : List Char) (field : Option String × Node) : Prop :=
  ∃ name value, text = fieldText name value ∧ field.1 = some name ∧ ReadsAs value field.2

variable (rest) in
include blanks blanksBefore in
/-- Fields with blanks before each of them are read up to the brace that ends the object. -/
theorem readFields_separated {texts : List (List Char)} {fields : List (Option String × Node)}
    (h : List.Forall₂ ReadsAsField texts fields) (nonempty : texts ≠ []) :
    ∀ fuel, (separated blank texts).length < fuel →
      readFields fuel (blank ++ (separated blank texts ++ (before ++ '\x7d' :: rest))) =
        some (fields, rest) := by
  induction h with
  | nil => exact absurd rfl nonempty
  | @cons _ field others fields first more ih =>
    intro fuel enough
    obtain ⟨fuel, rfl⟩ : ∃ n, fuel = n + 1 := ⟨fuel - 1, by omega⟩
    obtain ⟨name, text, rfl, named, reads⟩ := first
    have shorter : text.length ≤ (fieldText name text).length := by
      rw [fieldText, List.length_append, List.length_cons, List.length_cons]
      omega
    rw [readFields_blank blanks]
    cases more with
    | nil =>
      rw [separated] at enough ⊢
      rw [readFields_fieldText name reads (endsNumber_blank blanksBefore (by decide)) (by omega),
        skipSpace_append blanksBefore, ← named]
      rfl
    | @cons next _ others' _ _ _ =>
      have shape : separated blank (fieldText name text :: next :: others') =
          fieldText name text ++ ',' :: (blank ++ separated blank (next :: others')) := rfl
      rw [shape, List.length_append, List.length_cons, List.length_append] at enough
      rw [shape, List.append_assoc, List.cons_append, List.append_assoc,
        readFields_fieldText name reads (endsNumber_cons (by decide) _) (by omega),
        skipSpace_of_first (by decide)]
      simp only [beq_self_eq_true, if_true, ih (List.cons_ne_nil _ _) fuel (by omega),
        Option.map_some, ← named]

end Brackets

/-- The items are separated by a comma and blanks. -/
theorem separated_eq_intercalate (blank : List Char) (texts : List (List Char)) :
    separated blank texts = (',' :: blank).intercalate texts := by
  induction texts with
  | nil => rfl
  | cons text others ih =>
    cases others with
    | nil => rw [separated, List.intercalate_singleton]
    | cons next others =>
      rw [List.intercalate_cons_cons, ← ih]
      simp [separated]

/-- Items between brackets stand on lines of their own. -/
theorem toList_bracketed (opening closing : String) (level : Nat) {texts : List String}
    (nonempty : texts ≠ []) :
    (Value.bracketed opening closing level texts).toList =
      opening.toList ++ ((Value.lineBreak (level + 1)).toList ++
        (separated (Value.lineBreak (level + 1)).toList (texts.map String.toList) ++
          ((Value.lineBreak level).toList ++ closing.toList))) := by
  cases texts with
  | nil => exact absurd rfl nonempty
  | cons text others =>
    rw [Value.bracketed, separated_eq_intercalate]
    · simp only [String.toList_append, String.toList_intercalate, List.append_assoc]
      rfl
    · rintro ⟨⟩

/-! ## Arrays and objects -/

/-- Items between brackets are an array, unless the bracket at the end comes first. -/
theorem readNode_array {fuel : Nat} {s rest : List Char} {nodes : List Node}
    (items : readItems fuel s = some (nodes, rest)) {c : Char} {tail : List Char}
    (first : skipSpace s = c :: tail) (other : c ≠ ']') :
    readNode (fuel + 1) ('[' :: s) = some (.array nodes, rest) := by
  rw [readNode, skipSpace_of_first (by decide)]
  simp only [beq_iff_eq, beq_self_eq_true, if_true, Char.reduceEq, if_false, first]
  split
  · rename_i eq
    exact absurd (List.cons.inj eq).1 other
  · rw [items]
    rfl

/-- Fields between braces are an object, unless the brace at the end comes first. -/
theorem readNode_object {fuel : Nat} {s rest : List Char} {fields : List (Option String × Node)}
    (items : readFields fuel s = some (fields, rest)) {c : Char} {tail : List Char}
    (first : skipSpace s = c :: tail) (other : c ≠ '\x7d') :
    readNode (fuel + 1) ('\x7b' :: s) = some (.object fields, rest) := by
  rw [readNode, skipSpace_of_first (by decide)]
  simp only [beq_iff_eq, beq_self_eq_true, if_true, Char.reduceEq, if_false, first, other, items]
  rfl

variable {texts : List String} {level : Nat}

/-- Blanks before items do not hide the character that the first of them starts with. -/
theorem skipSpace_separated {blank : List Char} (blanks : ∀ c ∈ blank, isSpace c = true)
    {c : Char} (solid : isSpace c = false) {text more : List Char} (start : text = c :: more)
    (others : List (List Char)) (s : List Char) :
    ∃ tail, skipSpace (blank ++ (separated blank (text :: others) ++ s)) = c :: tail := by
  subst start
  rw [skipSpace_append blanks]
  cases others with
  | nil => exact ⟨_, skipSpace_of_first solid _⟩
  | cons next others => exact ⟨_, skipSpace_of_first solid _⟩

/-- Items that are read as values make an array of them, at any indentation. -/
theorem readsAs_array {nodes : List Node}
    (h : List.Forall₂ (fun text node => ReadsAs text.toList node) texts nodes) :
    ReadsAs (Value.bracketed "[" "]" level texts).toList (.array nodes) := by
  cases h with
  | nil =>
    have shape : (Value.bracketed "[" "]" level []).toList = ['[', ']'] := by
      simp [Value.bracketed]
    rw [shape]
    refine ⟨⟨'[', [']'], rfl, rfl⟩, fun rest _ fuel enough => ?_⟩
    obtain ⟨fuel, rfl⟩ : ∃ n, fuel = n + 1 := ⟨fuel - 1, by simp at enough; omega⟩
    rfl
  | @cons text node others nodes first more =>
    have items := List.forall₂_map_left_iff.2 (.cons first more)
    have shape := toList_bracketed "[" "]" level (List.cons_ne_nil text others)
    rw [shape]
    refine ⟨⟨'[', _, rfl, rfl⟩, fun rest _ fuel enough => ?_⟩
    obtain ⟨fuel, rfl⟩ : ∃ n, fuel = n + 1 := ⟨fuel - 1, by simp at enough; omega⟩
    have read := readItems_separated rest (isSpace_lineBreak (level + 1))
      (isSpace_lineBreak level) items (by simp) fuel (by simp at enough ⊢; omega)
    -- The first item does not start with the bracket that ends an empty array.
    obtain ⟨c, tail, start, starts⟩ := first.first
    simp only [startsNode, Bool.and_eq_true, Bool.not_eq_true', bne_iff_ne] at starts
    obtain ⟨tail, visible⟩ := skipSpace_separated (isSpace_lineBreak (level + 1)) starts.1 start
      (others.map String.toList) ((Value.lineBreak level).toList ++ ']' :: rest)
    have array := readNode_array read visible starts.2
    simpa using array

/-- Fields that are read make an object of them, at any indentation. -/
theorem readsAs_object {fields : List (Option String × Node)}
    (h : List.Forall₂ (fun text field => ReadsAsField text.toList field) texts fields) :
    ReadsAs (Value.bracketed "\x7b" "\x7d" level texts).toList (.object fields) := by
  cases h with
  | nil =>
    have shape : (Value.bracketed "\x7b" "\x7d" level []).toList = ['\x7b', '\x7d'] := by
      simp [Value.bracketed]
    rw [shape]
    refine ⟨⟨'\x7b', ['\x7d'], rfl, rfl⟩, fun rest _ fuel enough => ?_⟩
    obtain ⟨fuel, rfl⟩ : ∃ n, fuel = n + 1 := ⟨fuel - 1, by simp at enough; omega⟩
    rfl
  | @cons text field others fields first more =>
    have items := List.forall₂_map_left_iff.2 (.cons first more)
    have shape := toList_bracketed "\x7b" "\x7d" level (List.cons_ne_nil text others)
    rw [shape]
    refine ⟨⟨'\x7b', _, rfl, rfl⟩, fun rest _ fuel enough => ?_⟩
    obtain ⟨fuel, rfl⟩ : ∃ n, fuel = n + 1 := ⟨fuel - 1, by simp at enough; omega⟩
    have read := readFields_separated rest (isSpace_lineBreak (level + 1))
      (isSpace_lineBreak level) items (by simp) fuel (by simp at enough ⊢; omega)
    obtain ⟨name, value, start, -⟩ := first
    rw [fieldText, toList_quoted] at start
    obtain ⟨tail, visible⟩ := skipSpace_separated (isSpace_lineBreak (level + 1))
      (c := '\x22') (by decide) start (others.map String.toList)
      ((Value.lineBreak level).toList ++ '\x7d' :: rest)
    have object := readNode_object read visible (by decide)
    simpa using object

/-! ## Values -/

theorem readsAs_string (s : String) : ReadsAs (quoted s).toList (.string (some s)) := by
  rw [toList_quoted]
  refine ⟨⟨'\x22', _, rfl, rfl⟩, fun rest _ fuel enough => ?_⟩
  obtain ⟨fuel, rfl⟩ : ∃ n, fuel = n + 1 := ⟨fuel - 1, by simp at enough; omega⟩
  have text := readText_quoted s rest
  rw [List.cons_append, List.append_assoc, List.cons_append, List.nil_append, readNode,
    skipSpace_of_first (by decide)]
  simp only [beq_self_eq_true, if_true, text]
  rfl

/-- What starts with neither a letter nor a quote or bracket is read as a number. -/
theorem readScalar_of_first {c : Char} (other : c ≠ 'n' ∧ c ≠ 't' ∧ c ≠ 'f') (s : List Char) :
    readScalar (c :: s) = (readNumber (c :: s)).map fun (n, rest) => (.number n, rest) := by
  unfold readScalar
  split
  · rename_i eq
    exact absurd (List.cons.inj eq).1 other.1
  · rename_i eq
    exact absurd (List.cons.inj eq).1 other.2.1
  · rename_i eq
    exact absurd (List.cons.inj eq).1 other.2.2
  · rfl

/-- An integer starts with a digit or a minus sign. -/
theorem toList_integer (i : Int) :
    ∃ c more, (toString i).toList = c :: more ∧ (c = '-' ∨ c.isDigit = true) := by
  cases i with
  | ofNat n =>
    obtain ⟨c, more, shape, -⟩ := toDigits_shape n
    have text : (toString (Int.ofNat n)).toList = Nat.toDigits 10 n := Nat.toList_repr
    exact ⟨c, more, text.trans shape,
      .inr (Text.isDigit_of_mem_toDigits (shape ▸ List.mem_cons_self))⟩
  | negSucc n =>
    refine ⟨'-', (Nat.repr (n + 1)).toList, ?_, .inl rfl⟩
    show ("-" ++ Nat.repr (n + 1)).toList = _
    rw [String.toList_append]
    rfl

theorem readsAs_integer (i : Int) : ReadsAs (toString i).toList (.number (integerText i)) := by
  obtain ⟨c, more, start, first⟩ := toList_integer i
  have other : startsNode c = true ∧ (c ≠ '\x22' ∧ c ≠ '[' ∧ c ≠ '\x7b') ∧
      c ≠ 'n' ∧ c ≠ 't' ∧ c ≠ 'f' := by
    rcases first with rfl | digit
    · decide
    · have solid : isSpace c = false := by
        refine Bool.eq_false_iff.2 fun space => ?_
        simp only [isSpace, Bool.or_eq_true, beq_iff_eq] at space
        rcases space with ((rfl | rfl) | rfl) | rfl <;> exact absurd digit (by decide)
      have ne : ∀ d : Char, d.isDigit = false → c ≠ d := by
        rintro d no rfl
        exact absurd digit (by rw [no]; exact Bool.false_ne_true)
      have bracket : c ≠ ']' := ne _ (by decide)
      refine ⟨?_, ⟨ne _ (by decide), ne _ (by decide), ne _ (by decide)⟩, ne _ (by decide),
        ne _ (by decide), ne _ (by decide)⟩
      simp [startsNode, solid, bracket]
  refine .scalar start other.1 other.2.1 fun rest ends => ?_
  have number := readNumber_integer i ends
  rw [start, List.cons_append] at number ⊢
  rw [readScalar_of_first other.2.2, number]
  rfl

mutual

/-- A value without doubles is read from what is printed for it at any level. -/
theorem readsAs_prettyAt : ∀ (v : Value) (level : Nat), v.isPlain = true →
    ReadsAs (v.prettyAt level).toList v.node
  | .null, level, _ => by
    rw [Value.prettyAt]
    exact .scalar (c := 'n') rfl rfl (by decide) fun _ _ => rfl
  | .bool true, level, _ => by
    rw [Value.prettyAt]
    exact .scalar (c := 't') rfl rfl (by decide) fun _ _ => rfl
  | .bool false, level, _ => by
    rw [Value.prettyAt]
    exact .scalar (c := 'f') rfl rfl (by decide) fun _ _ => rfl
  | .number (.integer i), _, _ => readsAs_integer i
  | .number (.double _), _, plain => absurd plain Bool.false_ne_true
  | .string s, _, _ => readsAs_string s
  | .array items, level, plain => readsAs_array (readsAs_prettyItems items (level + 1) plain)
  | .object fields, level, plain => readsAs_object (readsAs_prettyFields fields (level + 1) plain)

/-- The items of a list without doubles are read as they are. -/
theorem readsAs_prettyItems : ∀ (items : List Value) (level : Nat), Value.arePlain items = true →
    List.Forall₂ (fun text node => ReadsAs text.toList node) (Value.prettyItems level items)
      (Value.nodes items)
  | [], _, _ => .nil
  | item :: rest, level, plain => by
    rw [Value.arePlain, Bool.and_eq_true] at plain
    exact .cons (readsAs_prettyAt item level plain.1) (readsAs_prettyItems rest level plain.2)

/-- The fields of an object without doubles are read as they are. -/
theorem readsAs_prettyFields : ∀ (fields : List (String × Value)) (level : Nat),
    Value.hasPlainFields fields = true →
      List.Forall₂ (fun text field => ReadsAsField text.toList field)
        (Value.prettyFields level fields) (Value.fieldNodes fields)
  | [], _, _ => .nil
  | (name, value) :: rest, level, plain => by
    rw [Value.hasPlainFields, Bool.and_eq_true] at plain
    have field : ReadsAsField (quoted name ++ ": " ++ value.prettyAt level).toList
        (some name, value.node) := by
      refine ⟨name, _, ?_, rfl, readsAs_prettyAt value level plain.1⟩
      simp [fieldText]
    exact .cons field (readsAs_prettyFields rest level plain.2)

end

/-- A document that was printed is read as the value that it was printed for. -/
theorem parse?_pretty {v : Value} (plain : v.isPlain = true) :
    Node.parse? v.pretty = some v.node := by
  have read := (readsAs_prettyAt v 0 plain).reads [] endsNumber_nil
    (2 * v.pretty.toList.length + 2) (by rw [Value.pretty]; omega)
  rw [List.append_nil] at read
  rw [Node.parse?, Value.pretty] at *
  simp only [read, Option.bind_eq_bind, Option.bind_some]
  rfl

end Rollback.Json

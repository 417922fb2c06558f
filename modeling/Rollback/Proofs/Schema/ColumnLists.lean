import Rollback.Proofs.Schema.ColumnDefinitions
import Rollback.Schema.Table

/-!
# Lists of columns

The body of a CREATE TABLE statement is found again, and cut into the definitions that it was made
of, because neither of them holds a quote, an open parenthesis or a comma outside parentheses.

- `IsItem`: a text that goes through both scans as a whole
- `splitBody?_eq`: the body ends at its closing parenthesis
- `topLevelParts_eq`: the parts of the body are its definitions
-/

set_option autoImplicit false

namespace Rollback

namespace Sql

/-! ## Scans -/

/-- Characters that change nothing but the text that was read. -/
structure Inert (c : Char) : Prop where
  quote : isQuote c = false
  opening : c ≠ '('
  closing : c ≠ ')'

instance (c : Char) : Decidable (Inert c) :=
  decidable_of_iff (isQuote c = false ∧ c ≠ '(' ∧ c ≠ ')')
    ⟨fun ⟨quote, opening, closing⟩ => ⟨quote, opening, closing⟩,
      fun ⟨quote, opening, closing⟩ => ⟨quote, opening, closing⟩⟩

/-- Inert characters join the part that is read. -/
theorem partsFrom_of_inert {escapes : Escapes} {s : List Char} (depth : Nat)
    (h : ∀ c ∈ s, Inert c) (commas : depth = 0 → ',' ∉ s) :
    ∀ part rest, partsFrom escapes none depth part (s ++ rest) =
      partsFrom escapes none depth (s.reverse ++ part) rest := by
  induction s with
  | nil => intro part rest; rfl
  | cons c s ih =>
    intro part rest
    obtain ⟨quote, opening, closing⟩ := h c List.mem_cons_self
    have comma : (c == ',' && depth == 0) = false := by
      refine Bool.eq_false_iff.2 fun both => ?_
      rw [Bool.and_eq_true, beq_iff_eq, beq_iff_eq] at both
      exact commas both.2 (both.1 ▸ List.mem_cons_self)
    have step : partsFrom escapes none depth part (c :: (s ++ rest)) =
        partsFrom escapes none depth (c :: part) (s ++ rest) := by
      rw [partsFrom, quote, beq_eq_false_iff_ne.2 opening, beq_eq_false_iff_ne.2 closing, comma]
      rfl
    rw [List.cons_append, step, ih (fun d hd => h d (List.mem_cons_of_mem c hd))
      fun outside mem => commas outside (List.mem_cons_of_mem c mem)]
    simp

theorem splitBodyFrom_of_inert {s : List Char} (depth : Nat) (h : ∀ c ∈ s, Inert c) :
    ∀ body rest, splitBodyFrom none depth body (s ++ rest) =
      splitBodyFrom none depth (s.reverse ++ body) rest := by
  induction s with
  | nil => intro body rest; rfl
  | cons c s ih =>
    intro body rest
    obtain ⟨quote, opening, closing⟩ := h c List.mem_cons_self
    have step : splitBodyFrom none depth body (c :: (s ++ rest)) =
        splitBodyFrom none depth (c :: body) (s ++ rest) := by
      rw [splitBodyFrom.eq_def]
      simp only [quote, beq_eq_false_iff_ne.2 opening, beq_eq_false_iff_ne.2 closing]
      rfl
    rw [List.cons_append, step, ih fun d hd => h d (List.mem_cons_of_mem c hd)]
    simp

/-- A text that is read as a piece of the body, whatever follows it. -/
def IsInBody (s : List Char) : Prop :=
  ∀ body rest, splitBodyFrom none 0 body (s ++ rest) = splitBodyFrom none 0 (s.reverse ++ body) rest

theorem IsInBody.nil : IsInBody [] := fun _ _ => rfl

theorem IsInBody.append {s t : List Char} (hs : IsInBody s) (ht : IsInBody t) :
    IsInBody (s ++ t) := by
  intro body rest
  rw [List.append_assoc, hs, ht, List.reverse_append, List.append_assoc]

/-- A text that is read as a piece of one part of the body, whatever follows it. -/
structure IsItem (s : List Char) : Prop where
  inBody : IsInBody s
  part : ∀ part rest, partsFrom .ignored none 0 part (s ++ rest) =
    partsFrom .ignored none 0 (s.reverse ++ part) rest

theorem IsItem.append {s t : List Char} (hs : IsItem s) (ht : IsItem t) : IsItem (s ++ t) where
  inBody := hs.inBody.append ht.inBody
  part part rest := by
    rw [List.append_assoc, hs.part, ht.part, List.reverse_append, List.append_assoc]

theorem isItem_of_inert {s : List Char} (h : ∀ c ∈ s, Inert c) (commas : ',' ∉ s) : IsItem s :=
  ⟨splitBodyFrom_of_inert 0 h, partsFrom_of_inert 0 h fun _ => commas⟩

theorem inert_of_word {s : List Char} (h : ∀ c ∈ s, Text.isWordChar c = true) :
    ∀ c ∈ s, Inert c := fun c hc =>
  Text.forall_ascii (p := fun c => Text.isWordChar c = true → Inert c) (by decide)
    (Text.ascii_of_isWordChar (h c hc)) (h c hc)

theorem isItem_of_word {s : List Char} (h : ∀ c ∈ s, Text.isWordChar c = true) : IsItem s :=
  isItem_of_inert (inert_of_word h) fun mem => absurd (h _ mem) (by decide)

/-- Inside parentheses commas do not separate. -/
theorem isItem_parenthesized {s : List Char} (h : ∀ c ∈ s, Inert c) :
    IsItem ('(' :: (s ++ [')'])) := by
  have shape : ∀ rest, '(' :: (s ++ [')']) ++ rest = '(' :: (s ++ ')' :: rest) := by simp
  constructor
  · intro body rest
    have inside := splitBodyFrom_of_inert 1 h ('(' :: body) (')' :: rest)
    have first : splitBodyFrom none 0 body ('(' :: (s ++ ')' :: rest)) =
        splitBodyFrom none 1 ('(' :: body) (s ++ ')' :: rest) := rfl
    have last : splitBodyFrom none 1 (s.reverse ++ '(' :: body) (')' :: rest) =
        splitBodyFrom none 0 (')' :: (s.reverse ++ '(' :: body)) rest := rfl
    rw [shape, first, inside, last]
    simp
  · intro part rest
    have inside : partsFrom .ignored none 1 ('(' :: part) (s ++ ')' :: rest) =
        partsFrom .ignored none 1 (s.reverse ++ '(' :: part) (')' :: rest) :=
      partsFrom_of_inert 1 h (fun outside => nomatch outside) ('(' :: part) (')' :: rest)
    have first : partsFrom .ignored none 0 part ('(' :: (s ++ ')' :: rest)) =
        partsFrom .ignored none 1 ('(' :: part) (s ++ ')' :: rest) := rfl
    have last : partsFrom .ignored none 1 (s.reverse ++ '(' :: part) (')' :: rest) =
        partsFrom .ignored none 0 (')' :: (s.reverse ++ '(' :: part)) rest := rfl
    rw [shape, first, inside, last]
    simp

/-! ## Lines -/

/-- The line for a definition in a body. -/
def bodyLine (definition : List Char) : List Char :=
  ' ' :: ' ' :: definition

/-- The lines of a body with commas between them. -/
def bodyLines (definitions : List (List Char)) : List Char :=
  [',', '\n'].intercalate (definitions.map bodyLine)

theorem inert_of_all {s : List Char}
    (h : (s.all fun c => !isQuote c && c != '(' && c != ')') = true) : ∀ c ∈ s, Inert c := by
  intro c hc
  have inert := List.all_eq_true.1 h c hc
  simp only [Bool.and_eq_true, Bool.not_eq_true', bne_iff_ne] at inert
  exact ⟨inert.1.1, inert.1.2, inert.2⟩

/-- A line of the body is an item if its definition is. -/
theorem isItem_bodyLine {definition : List Char} (h : IsItem definition) :
    IsItem (bodyLine definition) :=
  (isItem_of_inert (s := [' ', ' ']) (inert_of_all rfl) (by decide)).append h

/-- The body of a statement ends at its closing parenthesis. -/
theorem splitBody?_eq {definitions : List (List Char)} (items : ∀ d ∈ definitions, IsItem d)
    (rest : List Char) :
    splitBody? ('\n' :: (bodyLines definitions ++ '\n' :: ')' :: rest)) =
      some ('\n' :: (bodyLines definitions ++ ['\n']), rest) := by
  have lines : IsInBody (bodyLines definitions) := by
    refine Text.intercalate_induction .nil .append (splitBodyFrom_of_inert 0 (inert_of_all rfl)) ?_
    intro line hl
    obtain ⟨d, hd, rfl⟩ := List.mem_map.1 hl
    exact (isItem_bodyLine (items d hd)).inBody
  have first : splitBody? ('\n' :: (bodyLines definitions ++ '\n' :: ')' :: rest)) =
      splitBodyFrom none 0 ['\n'] (bodyLines definitions ++ '\n' :: ')' :: rest) := rfl
  have last : ∀ body, splitBodyFrom none 0 body ('\n' :: ')' :: rest) =
      some (('\n' :: body).reverse, rest) := fun _ => rfl
  rw [first, lines, last]
  simp

theorem isBlank_newline : ∀ c ∈ ['\n'], Text.isBlank c = true := List.all_eq_true.1 rfl

/-- The blanks before a definition are a part of its line. -/
theorem reverse_bodyLine (definition before : List Char) :
    ((bodyLine definition).reverse ++ before).reverse =
      before.reverse ++ [' ', ' '] ++ definition := by
  simp [bodyLine]

theorem isBlank_indent {before : List Char} (h : ∀ c ∈ before, Text.isBlank c = true) :
    ∀ c ∈ before.reverse ++ [' ', ' '], Text.isBlank c = true := by
  intro c hc
  rcases List.mem_append.1 hc with hc | hc
  · exact h c (List.mem_reverse.1 hc)
  · have pad : ([' ', ' '].all Text.isBlank) = true := rfl
    exact List.all_eq_true.1 pad c hc

/-- The lines of a body are cut into its definitions. A line break belongs to the part that comes
next, so a part may start with blanks. -/
theorem map_trim_partsFrom {definitions : List (List Char)} (nonempty : definitions ≠ [])
    (items : ∀ d ∈ definitions, IsItem d) (trimmed : ∀ d ∈ definitions, Text.Trimmed d) :
    ∀ before : List Char, (∀ c ∈ before, Text.isBlank c = true) →
      (partsFrom .ignored none 0 before (bodyLines definitions ++ ['\n'])).map Text.trim =
        definitions := by
  induction definitions with
  | nil => exact absurd rfl nonempty
  | cons d rest ih =>
    intro before blank
    have line := (isItem_bodyLine (items d List.mem_cons_self)).part before
    have own := trimmed d List.mem_cons_self
    have indent := isBlank_indent blank
    cases rest with
    | nil =>
      have last : ∀ part, partsFrom .ignored none 0 part ['\n'] = [('\n' :: part).reverse] :=
        fun _ => rfl
      rw [bodyLines, List.map_singleton, List.intercalate_singleton, line, last,
        List.reverse_cons, reverse_bodyLine, List.map_singleton,
        own.trim_append indent isBlank_newline]
    | cons next rest =>
      have more := ih (List.cons_ne_nil next rest)
        (fun e he => items e (List.mem_cons_of_mem d he))
        (fun e he => trimmed e (List.mem_cons_of_mem d he)) ['\n'] isBlank_newline
      have shape : bodyLines (d :: next :: rest) ++ ['\n'] =
          bodyLine d ++ ',' :: '\n' :: (bodyLines (next :: rest) ++ ['\n']) := by
        simp [bodyLines, List.intercalate_cons_cons]
      have cut : ∀ part rest, partsFrom .ignored none 0 part (',' :: '\n' :: rest) =
          part.reverse :: partsFrom .ignored none 0 ['\n'] rest := fun _ _ => rfl
      have first : Text.trim (before.reverse ++ [' ', ' '] ++ d ++ []) = d :=
        own.trim_append indent (by simp)
      rw [List.append_nil] at first
      rw [shape, line, cut, List.map_cons, more, reverse_bodyLine, first]

/-- The parts of a body are the definitions that it was made of. -/
theorem topLevelParts_eq {definitions : List (List Char)} (items : ∀ d ∈ definitions, IsItem d)
    (nonempty : definitions ≠ [])
    (solid : ∀ d ∈ definitions, d ≠ [] ∧ Text.Trimmed d) :
    topLevelParts .ignored ('\n' :: (bodyLines definitions ++ ['\n'])) = definitions := by
  have parts := map_trim_partsFrom nonempty items (fun d hd => (solid d hd).2) ['\n']
    isBlank_newline
  have first : partsFrom .ignored none 0 [] ('\n' :: (bodyLines definitions ++ ['\n'])) =
      partsFrom .ignored none 0 ['\n'] (bodyLines definitions ++ ['\n']) := rfl
  rw [topLevelParts, first, parts, List.filter_eq_self]
  intro d hd
  have some_ := (solid d hd).1
  cases d with
  | nil => exact absurd rfl some_
  | cons c d => rfl

/-! ## Definitions -/

variable {name : String} {type : ColumnType}

/-- The definition of a plain column is an item, whatever arguments its type has. -/
theorem isItem_definition (plain : PlainName name) (h : type.Plain) :
    IsItem (name.toList ++ ' ' :: type.text) := by
  have space : IsItem [' '] := isItem_of_inert (inert_of_all rfl) (by decide)
  have brackets : IsItem ['[', ']'] := isItem_of_inert (inert_of_all rfl) (by decide)
  have arguments : ∀ s, PlainArguments s → IsItem ('(' :: (s ++ [')'])) := by
    intro s plain
    refine isItem_parenthesized fun c hc => ?_
    obtain ⟨quote, opening, closing, -⟩ := plain.inside c hc
    exact ⟨quote, opening, closing⟩
  have text : IsItem type.text :=
    h.text_induction .append (fun _ => isItem_of_word) arguments space brackets
  exact (isItem_of_word plain.word).append (space.append text)

/-- The definition of a plain column can stand in a statement. -/
theorem isBody_definition (plain : PlainName name) (h : type.Plain) :
    IsBody (name.toList ++ ' ' :: type.text) := by
  have space : IsBody [' '] := isBody_of_isQuiet rfl (by decide)
  have brackets : IsBody ['[', ']'] := isBody_of_isQuiet rfl (by decide)
  have arguments : ∀ s, PlainArguments s → IsBody ('(' :: (s ++ [')'])) := by
    intro s plain
    have inside : IsBody (s ++ [')']) := by
      refine isBody_of_isQuiet plain.quiet fun mem => ?_
      rcases List.mem_append.1 mem with mem | mem
      · exact (plain.inside _ mem).2.2.2 rfl
      · exact absurd mem (by decide)
    exact (isBody_of_isQuiet (s := ['(']) rfl (by decide)).append inside
  have text : IsBody type.text :=
    h.text_induction .append (fun _ => isBody_of_word) arguments space brackets
  exact (isBody_of_word plain.word).append (space.append text)

theorem trimmed_definition (plain : PlainName name) (h : type.Plain) :
    Text.Trimmed (name.toList ++ ' ' :: type.text) :=
  trimmed_nameAndType (isColumnName_of_plain plain) h.normal

end Sql

end Rollback

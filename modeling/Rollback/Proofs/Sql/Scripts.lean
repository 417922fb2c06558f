import Rollback.Proofs.Sql.Lexing
import Rollback.Sql.AlterActions

/-!
# Scripts put together

A script that is made of statements, with blanks and comments between them, is cut into these
statements again.

- `IsBody`: the text of a statement up to its semicolon
- `IsSpacing`: blanks and comments between statements
- `statementTexts_append`: the first statement of a script is cut off
- `statementTexts_join`: passages put together are cut into their statements
-/

set_option autoImplicit false

namespace Rollback.Sql

/-! ## Lexemes without a terminator -/

/-- Lexemes without a terminator belong to the segment that is read. -/
theorem segmentsFrom_append {ls : List Lexeme} (h : ∀ l ∈ ls, l.isTerminator = false) :
    ∀ (segment rest : List Lexeme), segmentsFrom segment (ls ++ rest) =
      segmentsFrom (ls.reverse ++ segment) rest := by
  induction ls with
  | nil => intro segment rest; rfl
  | cons l ls ih =>
    intro segment rest
    rw [List.cons_append, segmentsFrom, h l List.mem_cons_self, if_neg Bool.false_ne_true,
      ih (fun k hk => h k (List.mem_cons_of_mem _ hk)), List.reverse_cons, List.append_assoc]
    rfl

/-- The text of a part of a statement: it has no terminator and is kept as it is. -/
def IsBody (s : List Char) : Prop :=
  ∃ ls, LexesTo s ls ∧ (∀ l ∈ ls, l.isTerminator = false) ∧
    ∀ text, ls.foldl extendText text = s.reverse ++ text

/-- Blanks and comments: of these at most blanks are kept. -/
def IsSpacing (s : List Char) : Prop :=
  ∃ ls, LexesTo s ls ∧ (∀ l ∈ ls, l.isTerminator = false) ∧
    ∀ text, (∀ c ∈ text, Text.isBlank c = true) →
      ∀ c ∈ ls.foldl extendText text, Text.isBlank c = true

theorem IsBody.append {s t : List Char} (hs : IsBody s) (ht : IsBody t) : IsBody (s ++ t) := by
  obtain ⟨ls, lexes, clean, kept⟩ := hs
  obtain ⟨ms, lexes', clean', kept'⟩ := ht
  refine ⟨ls ++ ms, lexes.append lexes', ?_, ?_⟩
  · intro l hl
    rcases List.mem_append.1 hl with hl | hl
    · exact clean l hl
    · exact clean' l hl
  · intro text
    rw [List.foldl_append, kept, kept', List.reverse_append, List.append_assoc]

theorem foldl_extendText_code (s text : List Char) :
    (s.map Lexeme.code).foldl extendText text = s.reverse ++ text := by
  induction s generalizing text with
  | nil => rfl
  | cons c s ih => rw [List.map_cons, List.foldl_cons, ih, extendText]; simp

theorem foldl_extendText_literal (s text : List Char) :
    (s.map Lexeme.literal).foldl extendText text = s.reverse ++ text := by
  induction s generalizing text with
  | nil => rfl
  | cons c s ih => rw [List.map_cons, List.foldl_cons, ih, extendText]; simp

/-- A quiet text without semicolons is a part of a statement. -/
theorem isBody_of_isQuiet {s : List Char} (quiet : isQuiet s = true) (clean : ';' ∉ s) :
    IsBody s := by
  refine ⟨s.map .code, lexesTo_of_isQuiet quiet, ?_, foldl_extendText_code s⟩
  intro l hl
  obtain ⟨c, hc, rfl⟩ := List.mem_map.1 hl
  have other : c ≠ ';' := fun eq => clean (eq ▸ hc)
  simp [Lexeme.isTerminator, other]

theorem isBody_of_word {s : List Char} (h : ∀ c ∈ s, Text.isWordChar c = true) : IsBody s :=
  isBody_of_isQuiet (isQuiet_of_word h) fun mem => absurd (h _ mem) (by decide)

/-- A literal can stand in a statement, semicolons and all. -/
theorem isBody_of_lexesTo_literal {s : List Char} (h : LexesTo s (s.map .literal)) : IsBody s := by
  refine ⟨_, h, ?_, foldl_extendText_literal _⟩
  intro l hl
  obtain ⟨c, -, rfl⟩ := List.mem_map.1 hl
  rfl

/-- A literal is a part of a statement, whatever its text is. -/
theorem isBody_literal {x : List Char} (h : CommentText x) :
    IsBody ('\x27' :: x ++ ['\x27']) :=
  isBody_of_lexesTo_literal (lexesTo_literal h)

theorem isBody_quotedWord {w : List Char} (h : ∀ c ∈ w, Text.isWordChar c = true) :
    IsBody ('\x22' :: w ++ ['\x22']) :=
  isBody_of_lexesTo_literal (lexesTo_quotedWord rfl h)

theorem IsSpacing.nil : IsSpacing [] :=
  ⟨[], .nil, by simp, fun _ h => h⟩

theorem IsSpacing.append {s t : List Char} (hs : IsSpacing s) (ht : IsSpacing t) :
    IsSpacing (s ++ t) := by
  obtain ⟨ls, lexes, clean, blank⟩ := hs
  obtain ⟨ms, lexes', clean', blank'⟩ := ht
  refine ⟨ls ++ ms, lexes.append lexes', ?_, ?_⟩
  · intro l hl
    rcases List.mem_append.1 hl with hl | hl
    · exact clean l hl
    · exact clean' l hl
  · intro text h
    rw [List.foldl_append]
    exact blank' _ (blank _ h)

theorem isSpacing_of_blank {s : List Char} (quiet : isQuiet s = true)
    (blank : s.all Text.isBlank = true) : IsSpacing s := by
  have h := List.all_eq_true.1 blank
  refine ⟨s.map .code, lexesTo_of_isQuiet quiet, ?_, ?_⟩
  · intro l hl
    obtain ⟨c, hc, rfl⟩ := List.mem_map.1 hl
    have other : c ≠ ';' := fun eq => absurd (h c hc) (eq ▸ by decide)
    simp [Lexeme.isTerminator, other]
  · intro text ht c hc
    rw [foldl_extendText_code, List.mem_append, List.mem_reverse] at hc
    rcases hc with hc | hc
    · exact h c hc
    · exact ht c hc

/-- A block comment is no statement, as its contents cannot end it. -/
theorem isSpacing_blockComment {before : List Char} (text : List Char) (quiet : '*' ∉ before) :
    IsSpacing ('/' :: '*' :: (before ++ softenChars text) ++ " */".toList) := by
  refine ⟨[.blockEnd], lexesTo_blockComment before text quiet, by simp [Lexeme.isTerminator], ?_⟩
  intro seen h c hc
  simp only [List.foldl_cons, List.foldl_nil, extendText] at hc
  split at hc
  · exact absurd hc List.not_mem_nil
  · split at hc
    · exact h c hc
    · rcases List.mem_cons.1 hc with rfl | hc
      · decide
      · exact h c hc

/-! ## Statements -/

/-- A text with a character that is neither a blank nor a semicolon is more than nothing. -/
theorem isSubstantial_of_mem {s : List Char} {c : Char} (mem : c ∈ s)
    (solid : Text.isBlank c = false) (other : c ≠ ';') : isSubstantial s = true := by
  have kept : c ∈ Text.trim (Text.dropEndWhile (· == ';') s) :=
    Text.mem_trim (Text.mem_dropEndWhile mem (by simpa using other)) solid
  rw [isSubstantial]
  cases text : Text.trim (Text.dropEndWhile (· == ';') s) with
  | nil => exact absurd (text ▸ kept) List.not_mem_nil
  | cons d more => rfl

/-- Statements have no blanks around them. -/
theorem trimmed_of_mem_statementTexts {script text : List Char}
    (mem : text ∈ statementTexts script) : Text.Trimmed text := by
  obtain ⟨segment, -, rfl⟩ := List.mem_map.1 (List.mem_filter.1 mem).1
  exact Text.trimmed_trim _

theorem trimmed_of_body {body : List Char} (nonempty : body ≠ [])
    (first : ∀ c ∈ body.head?, Text.isBlank c = false) : Text.Trimmed (body ++ [';']) := by
  cases body with
  | nil => exact absurd rfl nonempty
  | cons c body =>
    exact Text.trimmed_of_ends rfl List.getLast?_concat (first c rfl) (by decide)

/-- The first statement of a script is cut off. -/
theorem statementTexts_append {spacing body : List Char} (hs : IsSpacing spacing)
    (hb : IsBody body) (nonempty : body ≠ [])
    (first : ∀ c ∈ body.head?, Text.isBlank c = false ∧ c ≠ ';') (rest : List Char) :
    statementTexts (spacing ++ (body ++ ';' :: rest)) =
      (body ++ [';']) :: statementTexts rest := by
  obtain ⟨ls, lexes, clean, blank⟩ := hs
  obtain ⟨ms, lexes', clean', kept⟩ := hb
  have semicolon : LexesTo [';'] [.code ';'] := lexesTo_of_isQuiet (s := [';']) rfl
  have all : lexemes (spacing ++ (body ++ ';' :: rest)) =
      ls ++ (ms ++ .code ';' :: lexemes rest) := by
    rw [lexes.lexemes_append, lexes'.lexemes_append, ← List.singleton_append (l := rest),
      semicolon.lexemes_append]
    rfl
  -- Neither part ends a statement before the semicolon does.
  have segments : segmentsFrom [] (ls ++ (ms ++ .code ';' :: lexemes rest)) =
      (ls ++ (ms ++ [.code ';'])) :: segmentsFrom [] (lexemes rest) := by
    rw [segmentsFrom_append clean, segmentsFrom_append clean', segmentsFrom]
    simp [Lexeme.isTerminator]
  have trimmed := trimmed_of_body nonempty fun c hc => (first c hc).1
  have text : Text.trim (segmentText (ls ++ (ms ++ [.code ';']))) = body ++ [';'] := by
    have before := blank [] (by simp)
    rw [segmentText, List.foldl_append, List.foldl_append, kept]
    generalize ls.foldl extendText [] = seen at before ⊢
    have shape : ([Lexeme.code ';'].foldl extendText (body.reverse ++ seen)).reverse =
        seen.reverse ++ (body ++ [';']) ++ [] := by
      simp [extendText]
    rw [shape]
    exact trimmed.trim_append (fun c hc => before c (List.mem_reverse.1 hc)) (by simp)
  have substantial : isSubstantial (body ++ [';']) = true := by
    cases body with
    | nil => exact absurd rfl nonempty
    | cons c body =>
      obtain ⟨solid, other⟩ := first c (by simp)
      exact isSubstantial_of_mem List.mem_cons_self solid other
  rw [statementTexts, all, segments, List.map_cons, text, List.filter_cons, substantial]
  rfl

/-- Blanks and comments hold no statement. -/
theorem statementTexts_spacing {spacing : List Char} (hs : IsSpacing spacing) :
    statementTexts spacing = [] := by
  obtain ⟨ls, lexes, clean, blank⟩ := hs
  have all : lexemes spacing = ls := by
    have := lexes.lexemes_append []
    simpa [lexemes, lex] using this
  have segments : segmentsFrom [] ls = [ls] := by
    have := segmentsFrom_append clean [] []
    simpa [segmentsFrom] using this
  have nothing : Text.trim (segmentText ls) = [] := by
    have before := blank [] (by simp)
    rw [segmentText]
    generalize ls.foldl extendText [] = seen at before ⊢
    have trimmed : Text.Trimmed [] := ⟨by simp, by simp⟩
    have cut : Text.trim (seen.reverse ++ [] ++ []) = [] :=
      trimmed.trim_append (fun c hc => before c (List.mem_reverse.1 hc)) (by simp)
    simpa using cut
  rw [statementTexts, all, segments, List.map_cons, nothing, List.map_nil]
  rfl

/-- A statement up to its semicolon, with blanks and comments before it. -/
structure Passage where
  spacing : List Char
  body : List Char
  isSpacing : IsSpacing spacing
  isBody : IsBody body
  nonempty : body ≠ []
  first : ∀ c ∈ body.head?, Text.isBlank c = false ∧ c ≠ ';'

namespace Passage

/-- The statement of a passage. -/
def statement (p : Passage) : List Char :=
  p.body ++ [';']

/-- The text of a passage. -/
def text (p : Passage) : List Char :=
  p.spacing ++ p.statement

theorem trimmed (p : Passage) : Text.Trimmed p.statement :=
  trimmed_of_body p.nonempty fun c hc => (p.first c hc).1

end Passage

/-- The statements of passages are their statements, whatever spacing stands before and between
them. -/
theorem statementTexts_spacing_join {separator : List Char} (hs : IsSpacing separator)
    {passages : List Passage} (some_ : passages ≠ []) {before : List Char}
    (hb : IsSpacing before) :
    statementTexts (before ++ separator.intercalate (passages.map Passage.text)) =
      passages.map Passage.statement := by
  induction passages generalizing before with
  | nil => exact absurd rfl some_
  | cons p rest ih =>
    have spacing := hb.append p.isSpacing
    cases rest with
    | nil =>
      rw [List.map_singleton, List.intercalate_singleton, Passage.text, Passage.statement,
        ← List.append_assoc, statementTexts_append spacing p.isBody p.nonempty p.first,
        statementTexts_spacing .nil, List.map_singleton]
      rfl
    | cons q rest =>
      have shape : before ++ separator.intercalate ((p :: q :: rest).map Passage.text) =
          before ++ p.spacing ++ (p.body ++ ';' ::
            (separator ++ separator.intercalate ((q :: rest).map Passage.text))) := by
        simp [List.intercalate_cons_cons, Passage.text, Passage.statement]
      rw [shape, statementTexts_append spacing p.isBody p.nonempty p.first,
        ih (List.cons_ne_nil q rest) hs, List.map_cons]
      rfl

/-- Passages with blanks between them are cut into their statements. -/
theorem statementTexts_join {separator : List Char} (hs : IsSpacing separator)
    (passages : List Passage) :
    statementTexts (separator.intercalate (passages.map Passage.text)) =
      passages.map Passage.statement := by
  cases passages with
  | nil => exact statementTexts_spacing .nil
  | cons p rest => exact statementTexts_spacing_join hs (List.cons_ne_nil p rest) .nil

end Rollback.Sql

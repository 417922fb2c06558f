import Rollback.Proofs.Lists
import Rollback.Proofs.Sql.Comments

/-!
# Ends of statements

A script that ends its statements can be followed by any other on a new line: the statements of both
are those of the first and then those of the second. It must not end inside a literal or a block
comment, and after its last semicolon there may be blanks and comments only.

- `EndsStatements`: scripts that end their statements
- `statementTexts_append_newline`: such a script and what follows it are cut apart
- `IsClosed.endsStatements`: a text without open quotes and comments ends with a semicolon
-/

set_option autoImplicit false

namespace Rollback.Sql

/-! ## Texts read one after another -/

/-- No mark of a comment arises where one text is put after another. -/
def MeetsPlainly (s t : List Char) : Prop :=
  ∀ c ∈ s.getLast?, ∀ d ∈ t.head?,
    ¬(c = '/' ∧ d = '*') ∧ ¬(c = '-' ∧ d = '-') ∧ ¬(c = '*' ∧ d = '/')

/-- What meets a text plainly does so without its first character. -/
theorem MeetsPlainly.tail {c : Char} {s t : List Char} (h : MeetsPlainly (c :: s) t) :
    MeetsPlainly s t := by
  cases s with
  | nil => exact fun d hd => nomatch hd
  | cons d s => exact fun e he => h e (by rwa [List.getLast?_cons_cons])

/-- A text is read in the mode in which the text before it ends. -/
theorem lex_append {s t : List Char} (h : MeetsPlainly s t) (mode : Mode) :
    lex mode (s ++ t) =
      ((lex mode s).1 ++ (lex (lex mode s).2 t).1, (lex (lex mode s).2 t).2) := by
  -- Along the reading of the first text. Where a step looks at the next character and the text
  -- ends, no mark of a comment arises with the second one.
  induction mode, s using lex.induct with
  | case1 mode => cases mode <;> simp [lex]
  | case2 s ih => rw [List.cons_append, List.cons_append, lex, lex, ih h.tail.tail]
  | case3 s ih => rw [List.cons_append, List.cons_append, lex, lex, ih h.tail.tail]
  | case4 c s slash dash opens after mode eq ih =>
    rw [List.cons_append, lex_code_quote opens, lex_code_quote opens, ih h.tail, List.cons_append]
  | case5 c s slash dash plain after mode eq ih =>
    have plain := Bool.eq_false_iff.2 plain
    have here := lex_code_cons plain (fun eq => head?_ne_of_forall fun more => slash more eq)
      (fun eq => head?_ne_of_forall fun more => dash more eq)
    have on : lex .code (c :: (s ++ t)) =
        (.code c :: (lex .code (s ++ t)).1, (lex .code (s ++ t)).2) := by
      refine lex_code_cons plain (fun isSlash => ?_) (fun isDash => ?_)
      · refine head?_append_ne (fun more => slash more isSlash) ?_
        rintro rfl star
        exact (h c rfl '*' star).1 ⟨isSlash, rfl⟩
      · refine head?_append_ne (fun more => dash more isDash) ?_
        rintro rfl second
        exact (h c rfl '-' second).2.1 ⟨isDash, rfl⟩
    rw [List.cons_append, on, here, ih h.tail, List.cons_append]
  | case6 quote escaping c s after mode eq ih =>
    rw [List.cons_append, lex_literal_cons, lex_literal_cons, ih h.tail, List.cons_append]
  | case7 s after mode eq ih =>
    rw [List.cons_append, List.cons_append, lex, lex, ih h.tail.tail, List.cons_append]
  | case8 c s notEnd ih =>
    have on : lex .blockComment (c :: (s ++ t)) = lex .blockComment (s ++ t) := by
      refine lex_blockComment_cons fun isStar => ?_
      refine head?_append_ne (fun more => notEnd more isStar) ?_
      rintro rfl slash
      exact (h c rfl '/' slash).2.2 ⟨isStar, rfl⟩
    have here := lex_blockComment_cons fun isStar =>
      head?_ne_of_forall fun more => notEnd more isStar
    rw [List.cons_append, on, here, ih h.tail]
  | case9 c s lineEnd after mode eq ih =>
    rw [List.cons_append, lex, lex, if_pos lineEnd, if_pos lineEnd, ih h.tail, List.cons_append]
  | case10 c s other ih =>
    rw [List.cons_append, lex, lex, if_neg other, if_neg other, ih h.tail]

/-- Before a line break, no mark of a comment arises. -/
theorem meetsPlainly_newline (s rest : List Char) : MeetsPlainly s ('\n' :: rest) := by
  intro c _ d hd
  obtain rfl := Option.some.inj hd
  simp

/-! ## What is left after the last terminator -/

/-- The lexemes after the last terminator, in reverse, where some are given that come before. -/
def openSegment (segment ls : List Lexeme) : List Lexeme :=
  ls.foldl (fun segment l => if l.isTerminator then [] else l :: segment) segment

/-- A terminator closes the open segment, and any other lexeme goes into it. -/
theorem openSegment_cons (segment : List Lexeme) (l : Lexeme) (ls : List Lexeme) :
    openSegment segment (l :: ls) =
      openSegment (if l.isTerminator then [] else l :: segment) ls := rfl

/-- The segments that a text completes do not depend on what comes after it. -/
theorem exists_segmentsFrom_append (ls : List Lexeme) :
    ∀ segment, ∃ closed, ∀ rest,
      segmentsFrom segment (ls ++ rest) = closed ++ segmentsFrom (openSegment segment ls) rest := by
  induction ls with
  | nil => exact fun segment => ⟨[], fun rest => rfl⟩
  | cons l ls ih =>
    intro segment
    by_cases terminator : l.isTerminator = true
    · obtain ⟨closed, h⟩ := ih []
      refine ⟨(l :: segment).reverse :: closed, fun rest => ?_⟩
      rw [List.cons_append, segmentsFrom, if_pos terminator, h, openSegment_cons,
        if_pos terminator]
      rfl
    · obtain ⟨closed, h⟩ := ih (l :: segment)
      refine ⟨closed, fun rest => ?_⟩
      rw [List.cons_append, segmentsFrom, if_neg terminator, h, openSegment_cons,
        if_neg terminator]

/-- What comes before a text matters for what is left only if the text has no terminator. -/
theorem openSegment_append (before ls : List Lexeme) :
    ∀ segment, openSegment (segment ++ before) ls = openSegment segment ls ∨
      openSegment (segment ++ before) ls = openSegment segment ls ++ before := by
  induction ls with
  | nil => exact fun segment => .inr rfl
  | cons l ls ih =>
    intro segment
    rw [openSegment_cons, openSegment_cons]
    split
    · exact .inl rfl
    · exact ih (l :: segment)

/-- Blanks before a text stay before it. -/
theorem foldl_extendText_of_blank {before : List Char} (h : ∀ c ∈ before, Text.isBlank c = true)
    (ls : List Lexeme) :
    ∀ text, ls.foldl extendText (text ++ before) = ls.foldl extendText text ++ before := by
  induction ls with
  | nil => exact fun text => rfl
  | cons l ls ih =>
    intro text
    rw [List.foldl_cons, List.foldl_cons, ← ih]
    congr 1
    cases l with
    | code c => rfl
    | literal c => rfl
    | lineEnd => rfl
    | blockEnd =>
      cases text with
      | nil =>
        cases before with
        | nil => rfl
        | cons c before => exact if_pos (h c List.mem_cons_self)
      | cons c text =>
        show (if Text.isBlank c then c :: text ++ before else ' ' :: (c :: text ++ before)) =
          (if Text.isBlank c then c :: text else ' ' :: c :: text) ++ before
        split <;> rfl

/-- Blanks before a text are trimmed off. -/
theorem trim_append_of_blank {before : List Char} (h : ∀ c ∈ before, Text.isBlank c = true)
    (text : List Char) : Text.trim (before ++ text) = Text.trim text := by
  rw [Text.trim, Text.trim, Text.trimStart, Text.trimStart, List.dropWhile_append_of_pos h]

theorem trim_eq_nil {text : List Char} (h : ∀ c ∈ text, Text.isBlank c = true) :
    Text.trim text = [] := by
  have all := trim_append_of_blank h []
  rwa [List.append_nil] at all

/-- Lexemes of which only blanks are kept put blanks before a segment. -/
theorem segmentText_append {before : List Lexeme}
    (h : ∀ c ∈ segmentText before, Text.isBlank c = true) (ls : List Lexeme) :
    segmentText (before ++ ls) = segmentText before ++ segmentText ls := by
  have blank : ∀ c ∈ before.foldl extendText [], Text.isBlank c = true :=
    fun c hc => h c (List.mem_reverse.2 hc)
  have split := foldl_extendText_of_blank blank ls []
  rw [List.nil_append] at split
  rw [segmentText, List.foldl_append, split, List.reverse_append]
  rfl

/-- Lexemes that stand for blanks do not matter at the start of a segment. -/
theorem trim_segmentText_append {before : List Lexeme}
    (h : ∀ c ∈ segmentText before, Text.isBlank c = true) (ls : List Lexeme) :
    Text.trim (segmentText (before ++ ls)) = Text.trim (segmentText ls) := by
  rw [segmentText_append h, trim_append_of_blank h]

/-- Blanks that a segment starts with are trimmed off. -/
theorem map_segmentsFrom_append {segment : List Lexeme}
    (h : ∀ c ∈ segmentText segment.reverse, Text.isBlank c = true) (ls more : List Lexeme) :
    (segmentsFrom (more ++ segment) ls).map (fun segment => Text.trim (segmentText segment)) =
      (segmentsFrom more ls).map fun segment => Text.trim (segmentText segment) := by
  induction ls generalizing more with
  | nil =>
    rw [segmentsFrom, segmentsFrom, List.map_singleton, List.map_singleton, List.reverse_append,
      trim_segmentText_append h]
  | cons l ls ih =>
    rw [segmentsFrom, segmentsFrom]
    split
    · rw [List.map_cons, List.map_cons, ← List.cons_append, List.reverse_append,
        trim_segmentText_append h]
    · exact ih (l :: more)

/-- A segment that holds blanks so far does not change the trimmed texts. -/
theorem map_segmentsFrom_of_blank {segment : List Lexeme}
    (h : ∀ c ∈ segmentText segment.reverse, Text.isBlank c = true) (ls : List Lexeme) :
    (segmentsFrom segment ls).map (fun segment => Text.trim (segmentText segment)) =
      (segmentsFrom [] ls).map fun segment => Text.trim (segmentText segment) :=
  map_segmentsFrom_append h ls []

/-! ## Scripts that end their statements -/

/-- A script that ends in plain code or in a line comment, after a semicolon with nothing but blanks
and comments after it. -/
structure EndsStatements (script : List Char) : Prop where
  mode : endMode script = .code ∨ endMode script = .lineComment
  left : ∀ c ∈ segmentText (openSegment [] (lexemes script)).reverse, Text.isBlank c = true

instance (script : List Char) : Decidable (EndsStatements script) :=
  decidable_of_iff
    ((endMode script = .code ∨ endMode script = .lineComment) ∧
      ∀ c ∈ segmentText (openSegment [] (lexemes script)).reverse, Text.isBlank c = true)
    ⟨fun h => ⟨h.1, h.2⟩, fun h => ⟨h.mode, h.left⟩⟩

section

variable {a b : List Char}

/-- After such a script a new line is read as one, and then a script from its start. -/
theorem EndsStatements.exists_lexemes_append (h : EndsStatements a) (b : List Char) :
    ∃ l : Lexeme, l.isTerminator = false ∧ (∀ text, extendText text l = '\n' :: text) ∧
      lexemes (a ++ '\n' :: b) = lexemes a ++ l :: lexemes b ∧
        endMode (a ++ '\n' :: b) = endMode b := by
  have code : lex .code ('\n' :: b) = (.code '\n' :: (lex .code b).1, (lex .code b).2) :=
    lex_code_cons rfl (fun eq => absurd eq (by decide)) fun eq => absurd eq (by decide)
  have comment : lex .lineComment ('\n' :: b) = (.lineEnd :: (lex .code b).1, (lex .code b).2) := by
    rw [lex, if_pos (by decide)]
  have all := lex_append (meetsPlainly_newline a b) .code
  -- The new line is a blank of plain code, or it ends the comment that the script ends in.
  rcases h.mode with mode | mode
  · refine ⟨.code '\n', rfl, fun _ => rfl, ?_⟩
    rw [endMode] at mode
    rw [mode, code] at all
    exact Prod.mk.inj all
  · refine ⟨.lineEnd, rfl, fun _ => rfl, ?_⟩
    rw [endMode] at mode
    rw [mode, comment] at all
    exact Prod.mk.inj all

/-- What is left of a script that ends its statements is blank, also with a line feed after it. -/
theorem EndsStatements.blank_cons (h : EndsStatements a) {l : Lexeme}
    (newline : ∀ text, extendText text l = '\n' :: text) :
    ∀ c ∈ segmentText (l :: openSegment [] (lexemes a)).reverse, Text.isBlank c = true := by
  intro c hc
  rw [segmentText, List.mem_reverse, List.reverse_cons, List.foldl_append, List.foldl_cons,
    List.foldl_nil, newline] at hc
  rcases List.mem_cons.1 hc with rfl | hc
  · decide
  · exact h.left c (List.mem_reverse.2 hc)

/-- A script that ends its statements and what follows it are cut apart. -/
theorem statementTexts_append_newline (h : EndsStatements a) (b : List Char) :
    statementTexts (a ++ '\n' :: b) = statementTexts a ++ statementTexts b := by
  obtain ⟨l, plain, newline, all, -⟩ := h.exists_lexemes_append b
  obtain ⟨closed, segments⟩ := exists_segmentsFrom_append (lexemes a) []
  have alone := segments []
  rw [List.append_nil, segmentsFrom] at alone
  have last : isSubstantial
      (Text.trim (segmentText (openSegment [] (lexemes a)).reverse)) = false := by
    rw [trim_eq_nil h.left]
    rfl
  rw [statementTexts, all, segments, segmentsFrom, plain, if_neg Bool.false_ne_true,
    List.map_append, map_segmentsFrom_of_blank (h.blank_cons newline), List.filter_append]
  rw [statementTexts, alone, List.map_append, List.filter_append, List.map_singleton,
    List.filter_singleton, last]
  simp [statementTexts]

/-- Two scripts that end their statements make up one that does. -/
theorem EndsStatements.append_newline (ha : EndsStatements a) (hb : EndsStatements b) :
    EndsStatements (a ++ '\n' :: b) := by
  obtain ⟨l, plain, newline, all, mode⟩ := ha.exists_lexemes_append b
  refine ⟨mode ▸ hb.mode, ?_⟩
  have before := ha.blank_cons newline
  have left : openSegment [] (lexemes (a ++ '\n' :: b)) =
      openSegment (l :: openSegment [] (lexemes a)) (lexemes b) := by
    rw [all, openSegment, List.foldl_append, List.foldl_cons, plain, if_neg Bool.false_ne_true]
    rfl
  rw [left]
  -- The second script has a terminator, or what is left of the first comes before all of it.
  rcases openSegment_append (l :: openSegment [] (lexemes a)) (lexemes b) [] with same | longer
  · rw [List.nil_append] at same
    rw [same]
    exact hb.left
  · rw [List.nil_append] at longer
    rw [longer, List.reverse_append, segmentText_append before]
    intro c hc
    rcases List.mem_append.1 hc with hc | hc
    · exact before c hc
    · exact hb.left c hc

/-- The first lines of a script may be empty. -/
theorem statementTexts_newline (b : List Char) : statementTexts ('\n' :: b) = statementTexts b :=
  statementTexts_append_newline (a := []) (by decide) b

/-- Line breaks at the start do not matter, however many. -/
theorem statementTexts_newlines (count : Nat) (b : List Char) :
    statementTexts (List.replicate count '\n' ++ b) = statementTexts b := by
  induction count with
  | zero => rfl
  | succ count ih => rw [List.replicate_succ, List.cons_append, statementTexts_newline, ih]

/-- Of scripts put together with a new line and perhaps empty lines between them, all but the last
have to end their statements. -/
theorem statementTexts_intercalate_lines {parts : List (List Char)} (more : Nat)
    (h : ∀ part ∈ parts.dropLast, EndsStatements part) :
    statementTexts (('\n' :: List.replicate more '\n').intercalate parts) =
      parts.flatMap statementTexts := by
  induction parts with
  | nil => rfl
  | cons part rest ih =>
    cases rest with
    | nil => simp
    | cons next rest =>
      rw [List.intercalate_cons_cons, List.append_assoc, List.cons_append,
        statementTexts_append_newline (h part List.mem_cons_self), statementTexts_newlines,
        ih fun q hq => h q (List.mem_cons_of_mem part hq), List.flatMap_cons (x := part)]

/-- The same with empty lines between the scripts. -/
theorem statementTexts_join_of_endsStatements {parts : List (List Char)}
    (h : ∀ part ∈ parts.dropLast, EndsStatements part) :
    statementTexts (['\n', '\n'].intercalate parts) = parts.flatMap statementTexts :=
  statementTexts_intercalate_lines 1 h

end

/-! ## Texts that end their statements -/

/-- A comment ends no statement and starts none. -/
theorem IsSingleComment.endsStatements {text : List Char} (h : IsSingleComment text) :
    EndsStatements text := by
  have comment : lex .code text = ([.blockEnd], .code) := h
  refine ⟨.inl (congrArg Prod.snd comment), ?_⟩
  rw [lexemes, comment]
  exact fun c hc => absurd hc List.not_mem_nil

/-- A text that leaves plain code as it was: no quote and no comment is open at its end, and no mark
of one arises with what follows. -/
structure IsClosed (s : List Char) : Prop where
  mode : endMode s = .code
  last : ∀ c ∈ s.getLast?, c ≠ '/' ∧ c ≠ '-' ∧ c ≠ '*'

instance (s : List Char) : Decidable (IsClosed s) :=
  decidable_of_iff (endMode s = .code ∧ ∀ c ∈ s.getLast?, c ≠ '/' ∧ c ≠ '-' ∧ c ≠ '*')
    ⟨fun h => ⟨h.1, h.2⟩, fun h => ⟨h.mode, h.last⟩⟩

namespace IsClosed

variable {s t : List Char}

/-- A closed text meets any other one plainly. -/
theorem meetsPlainly (h : IsClosed s) (t : List Char) : MeetsPlainly s t := by
  intro c hc d _
  obtain ⟨slash, dash, star⟩ := h.last c hc
  exact ⟨fun eq => slash eq.1, fun eq => dash eq.1, fun eq => star eq.1⟩

theorem lexesTo (h : IsClosed s) : LexesTo s (lexemes s) := by
  intro rest
  have mode : (lex .code s).2 = .code := h.mode
  rw [lex_append (h.meetsPlainly rest), mode]
  rfl

theorem nil : IsClosed [] := by decide

theorem append (hs : IsClosed s) (ht : IsClosed t) : IsClosed (s ++ t) where
  mode := by
    have all := hs.lexesTo t
    rw [endMode, all]
    exact ht.mode
  last c hc := by
    rw [List.getLast?_append, Option.mem_def, Option.or_eq_some_iff] at hc
    rcases hc with hc | ⟨-, hc⟩
    · exact ht.last c hc
    · exact hs.last c hc

/-- A semicolon after such a text ends a statement. -/
theorem endsStatements (h : IsClosed s) : EndsStatements (s ++ [';']) := by
  have all : lex .code (s ++ [';']) = (lexemes s ++ [.code ';'], .code) := h.lexesTo [';']
  refine ⟨.inl (congrArg Prod.snd all), ?_⟩
  rw [lexemes, all, openSegment, List.foldl_append]
  exact fun c hc => absurd hc List.not_mem_nil

end IsClosed

end Rollback.Sql

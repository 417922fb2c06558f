import Rollback.Proofs.Sql.LexemeReadings
import Rollback.Proofs.Text.Dots

/-!
# Canonical scripts

The statements of a script, one after another on lines of their own, make up a script without
comments that has the same statements. The lexemes of a segment are followed through all that is
done to its text: comments are taken out and blanks are trimmed off, also inside a literal that is
open at the end of the script.

- `ReadsAs`: a text without blanks at its ends and the lexemes that it is read as
- `KeepsSegment`, `EndsSegment`: what a statement keeps of its segment, and how it ends
- `statements_intercalate_statements`: splitting is canonical
-/

set_option autoImplicit false

namespace Rollback.Sql

/-! ## Statements -/

/-- The text is read as the lexemes, which are its characters, and has no blanks at its ends. -/
structure ReadsAs (text : List Char) (ls : List Lexeme) : Prop where
  reading : IsReading .code ls
  spells : Spell ls text
  trimmed : Text.Trimmed text

/-- Without a terminator, lexemes of which no other is solid spell blanks. -/
theorem Spell.blank_of_unterminated {text : List Char} {ls : List Lexeme} (h : Spell ls text)
    (clean : Unterminated ls) (nothing : ∀ l ∈ solid ls, l.isTerminator = true) :
    ∀ c ∈ text, Text.isBlank c = true := by
  intro c mem
  obtain ⟨l, inside, char⟩ := h.exists_mem mem
  by_contra shown
  have kept : l ∈ solid ls :=
    List.mem_filter.2 ⟨inside, by rw [Lexeme.isSolid_of_char? char, Bool.eq_false_iff.2 shown]; rfl⟩
  exact absurd (nothing l kept) (Bool.eq_false_iff.1 (clean l inside))

/-- Where lexemes spell a text, all of its characters are kept. -/
theorem Spell.foldl_extendText {text : List Char} {ls : List Lexeme} (spells : Spell ls text)
    (seen : List Char) : ls.foldl extendText seen = text.reverse ++ seen := by
  induction ls generalizing text seen with
  | nil =>
    obtain rfl : text = [] := List.map_eq_nil_iff.1 spells.symm
    rfl
  | cons l ls ih =>
    obtain ⟨c, text, rfl, char, rest⟩ := spells.exists_of_cons
    have extended : extendText seen l = c :: seen := by
      cases l with
      | code d => rw [← Option.some.inj char]; rfl
      | literal d => rw [← Option.some.inj char]; rfl
      | blockEnd => cases char
      | lineEnd => cases char
    rw [List.foldl_cons, extended, ih rest]
    simp

/-- Blanks and semicolons are no statement. -/
theorem isSubstantial_blank_append {blanks semicolons : List Char}
    (blank : ∀ c ∈ blanks, Text.isBlank c = true) (all : ∀ c ∈ semicolons, (c == ';') = true) :
    isSubstantial (blanks ++ semicolons) = false := by
  have cut : Text.trim (Text.dropEndWhile (· == ';') blanks) = [] :=
    trim_eq_nil fun c mem => blank c (Text.mem_of_mem_dropEndWhile mem)
  rw [isSubstantial, Text.dropEndWhile_append_of_all all, cut]
  rfl

namespace ReadsAs

variable {text : List Char} {ls part : List Lexeme}

/-- The reading of a text that reads as lexemes is these, and ends where they lead. -/
theorem lex_eq (h : ReadsAs text ls) : lex .code text = (ls, ls.foldl Mode.next .code) :=
  lex_of_isReading h.reading h.spells

theorem lexemes_eq (h : ReadsAs text ls) : lexemes text = ls :=
  congrArg Prod.fst h.lex_eq

theorem segmentText_eq (h : ReadsAs text ls) : segmentText ls = text := by
  rw [segmentText, h.spells.foldl_extendText, List.append_nil, List.reverse_reverse]

/-- The characters of solid lexemes are not blank, and a literal starts with a quote. -/
theorem isSubstantial_of_mem (h : ReadsAs text ls) {l : Lexeme} (mem : l ∈ solid ls)
    (other : l.isTerminator = false) : isSubstantial text = true := by
  obtain ⟨inside, shown⟩ := List.mem_filter.1 mem
  cases l with
  | code c =>
    have different : c ≠ ';' := fun eq => absurd other (eq ▸ by decide)
    rw [Lexeme.isSolid_of_char? rfl, Bool.not_eq_true'] at shown
    exact Sql.isSubstantial_of_mem (h.spells.mem_of_char? inside rfl) shown different
  | literal c =>
    obtain ⟨q, mem, opens⟩ := h.reading.exists_quote inside
    have written := h.spells.mem_of_char? mem rfl
    simp only [opensLiteral, Bool.or_eq_true, beq_iff_eq] at opens
    rcases opens with rfl | rfl
    · exact Sql.isSubstantial_of_mem written (by decide) (by decide)
    · exact Sql.isSubstantial_of_mem written (by decide) (by decide)
  | blockEnd => exact absurd shown (by decide)
  | lineEnd => exact absurd shown (by decide)

/-- A text with no other solid lexeme than its terminator is not substantial. -/
theorem isSubstantial_eq_false (h : ReadsAs text ls) (ends : Terminated ls ∨ Unterminated ls)
    (nothing : ∀ l ∈ solid ls, l.isTerminator = true) : isSubstantial text = false := by
  rcases ends with ⟨body, rfl, clean⟩ | clean
  · obtain ⟨t, last, rfl, spells, semicolon⟩ := h.spells.exists_of_append
    obtain ⟨c, rfl, char⟩ := semicolon.exists_of_singleton
    obtain rfl : ';' = c := Option.some.inj char
    refine isSubstantial_blank_append (spells.blank_of_unterminated clean fun l mem => ?_) (by simp)
    exact nothing l (solid_append _ _ ▸ List.mem_append_left _ mem)
  · have all := isSubstantial_blank_append (h.spells.blank_of_unterminated clean nothing)
      (List.forall_mem_nil fun c => (c == ';') = true)
    rwa [List.append_nil] at all

/-- A statement is read as one statement. -/
theorem statementTexts_eq (h : ReadsAs text ls) (ends : Terminated ls ∨ Unterminated ls)
    (substantial : isSubstantial text = true) : statementTexts text = [text] := by
  have whole : Text.trim (segmentText ls) = text := by rw [h.segmentText_eq, h.trimmed.trim_eq]
  rw [statementTexts, h.lexemes_eq]
  rcases ends with ⟨body, rfl, clean⟩ | clean
  · have segments : segmentsFrom [] (body ++ [.code ';']) = [body ++ [.code ';'], []] := by
      rw [segmentsFrom_append clean, List.append_nil, segmentsFrom, if_pos (by decide),
        List.reverse_cons, List.reverse_reverse]
      rfl
    rw [segments, List.map_cons, whole, List.filter_cons_of_pos substantial]
    rfl
  · have segments : segmentsFrom [] ls = [ls] := by
      have all := segmentsFrom_append clean [] []
      rwa [List.append_nil, List.append_nil, segmentsFrom, List.reverse_reverse] at all
    rw [segments, List.map_singleton, whole, List.filter_cons_of_pos substantial]
    rfl

theorem endMode_eq (h : ReadsAs text ls) (ends : Terminated ls) : endMode text = .code := by
  obtain ⟨body, rfl, -⟩ := ends
  rw [endMode, h.lex_eq, List.foldl_append]
  rfl

/-- A text that ends with a terminator ends its statements. -/
theorem endsStatements (h : ReadsAs text ls) (ends : Terminated ls) : EndsStatements text := by
  refine ⟨.inl (h.endMode_eq ends), ?_⟩
  obtain ⟨body, rfl, -⟩ := ends
  rw [h.lexemes_eq, openSegment, List.foldl_append]
  exact fun c mem => absurd mem List.not_mem_nil

/-- Blanks and comments add no terminator. -/
theorem unterminated (same : solid ls = solid part) (clean : Unterminated part) :
    Unterminated ls := by
  intro l mem
  by_contra terminator
  rw [Bool.not_eq_false] at terminator
  have inside : l ∈ part := (mem_solid_of_isTerminator terminator).1
    (same ▸ (mem_solid_of_isTerminator terminator).2 mem)
  exact absurd terminator (Bool.eq_false_iff.1 (clean l inside))

/-- Where the terminators of a text are is seen from its solid lexemes. -/
theorem terminated (h : ReadsAs text ls) (same : solid ls = solid part)
    (ends : Terminated part) : Terminated ls := by
  obtain ⟨body, rfl, clean⟩ := ends
  have tail : solid [Lexeme.code ';'] = [.code ';'] := rfl
  rw [solid_append, tail] at same
  rcases List.eq_nil_or_concat ls with rfl | ⟨init, l, rfl⟩
  · exact absurd same.symm (List.append_ne_nil_of_right_ne_nil _ (List.cons_ne_nil _ _))
  · rw [List.concat_eq_append] at h same ⊢
    obtain ⟨t, last, rfl, -, spells⟩ := h.spells.exists_of_append
    obtain ⟨c, rfl, char⟩ := spells.exists_of_singleton
    have shown : Text.isBlank c = false := h.trimmed.last c (by simp)
    have solidLast : solid [l] = [l] := List.filter_eq_self.2 fun k mem => by
      rw [List.mem_singleton.1 mem, Lexeme.isSolid_of_char? char, shown]
      rfl
    rw [solid_append, solidLast] at same
    obtain ⟨sameInit, sameLast⟩ := List.append_inj' same rfl
    obtain rfl : l = .code ';' := (List.cons_eq_cons.1 sameLast).1
    exact ⟨init, rfl, unterminated sameInit clean⟩

end ReadsAs

/-- The text of a segment without comments and without blanks at its ends. -/
def statementText (part : List Lexeme) : List Char :=
  Text.trim (segmentText part)

/-- The text of a segment is read as the segment without its comments, less the blanks before and
after it. -/
theorem exists_readsAs_between {part : List Lexeme} (h : IsReading .code part) :
    ∃ first ls last before after, spacedFrom none part = first ++ (ls ++ last) ∧
      ReadsAs (statementText part) ls ∧
      (Spell first before ∧ ∀ c ∈ before, Text.isBlank c = true) ∧
      (Spell last after ∧ ∀ c ∈ after, Text.isBlank c = true) := by
  obtain ⟨text, written, spells⟩ := spell_spacedFrom part []
  have whole : segmentText part = text := by
    rw [segmentText, written, List.append_nil, List.reverse_reverse]
  obtain ⟨before, after, shape, blankBefore, blankAfter⟩ := Text.exists_trim text
  rw [shape] at spells
  obtain ⟨first, others, eq, spellsFirst, spellsOthers⟩ := spells.exists_append
  obtain ⟨ls, last, rfl, spellsText, spellsLast⟩ := spellsOthers.exists_append
  have spaced := h.spacedFrom none
  rw [List.head?_nil] at eq
  rw [eq] at spaced
  rw [← whole] at spellsText
  have kept := (IsReading.drop_blank spellsFirst blankBefore spaced).left
  exact ⟨first, ls, last, before, after, eq, ⟨kept, spellsText, Text.trimmed_trim _⟩,
    ⟨spellsFirst, blankBefore⟩, spellsLast, blankAfter⟩

/-- The text of a segment is read as in the script, but for blanks. -/
theorem exists_readsAs {part : List Lexeme} (h : IsReading .code part) :
    ∃ ls, ReadsAs (statementText part) ls ∧ solid ls = solid part := by
  obtain ⟨first, ls, last, before, after, eq, reads, ⟨spellsFirst, blankBefore⟩, spellsLast,
    blankAfter⟩ := exists_readsAs_between h
  refine ⟨ls, reads, ?_⟩
  rw [← solid_spacedFrom part none, eq, solid_append, solid_append,
    spellsFirst.solid_eq_nil blankBefore, spellsLast.solid_eq_nil blankAfter, List.nil_append,
    List.append_nil]

/-- What is known of the text of a segment. -/
structure KeepsSegment (part : List Lexeme) (text : List Char) : Prop where
  spells : Spell (lexemes text) text
  solid : solid (lexemes text) = Sql.solid part
  substantial : isSubstantial text = true ↔ ∃ l ∈ Sql.solid part, l.isTerminator = false
  alone : isSubstantial text = true → statementTexts text = [text]
  ends : Terminated (lexemes text) ∨ Unterminated (lexemes text)

/-- A segment with at most one terminator at its end is kept by its text. -/
theorem keepsSegment {part : List Lexeme} (h : IsReading .code part)
    (ends : Terminated part ∨ Unterminated part) : KeepsSegment part (statementText part) := by
  obtain ⟨ls, reads, same⟩ := exists_readsAs h
  have ends : Terminated ls ∨ Unterminated ls :=
    ends.imp (reads.terminated same) (ReadsAs.unterminated same)
  refine ⟨reads.lexemes_eq ▸ reads.spells, reads.lexemes_eq ▸ same, ?_,
    reads.statementTexts_eq ends, reads.lexemes_eq ▸ ends⟩
  rw [← same]
  constructor
  · intro substantial
    by_contra none
    have nothing : ∀ l ∈ solid ls, l.isTerminator = true := fun l mem =>
      Decidable.byContradiction fun other => none ⟨l, mem, Bool.eq_false_iff.2 other⟩
    rw [reads.isSubstantial_eq_false ends nothing] at substantial
    exact absurd substantial (by decide)
  · rintro ⟨l, mem, other⟩
    exact reads.isSubstantial_of_mem mem other

/-- The text of a terminated segment ends its statements. -/
structure EndsSegment (text : List Char) : Prop where
  terminated : Terminated (lexemes text)
  mode : endMode text = .code
  endsStatements : EndsStatements text

/-- A terminated segment ends with its text. -/
theorem endsSegment {part : List Lexeme} (h : IsReading .code part) (ends : Terminated part) :
    EndsSegment (statementText part) := by
  obtain ⟨ls, reads, same⟩ := exists_readsAs h
  have ends := reads.terminated same ends
  exact ⟨reads.lexemes_eq ▸ ends, reads.endMode_eq ends, reads.endsStatements ends⟩

/-! ## Scripts -/

/-- The segments of a script are lexemes as texts have them; all but the last one are terminated. -/
theorem exists_segments (script : List Char) :
    ∃ closed last, segmentsFrom [] (lexemes script) = closed ++ [last] ∧
      (∀ part ∈ closed, IsReading .code part ∧ Terminated part) ∧
        IsReading .code last ∧ Unterminated last := by
  obtain ⟨closed, last, eq, ends, rest⟩ :=
    exists_segmentsFrom_eq (lexemes script) [] unterminated_nil
  have reading := isReading_of_mem_segmentsFrom (lexemes script) [] (isReading_lex .code script)
  rw [eq] at reading
  refine ⟨closed, last, eq, fun part mem => ⟨reading part ?_, ends part mem⟩, reading last ?_, rest⟩
  · exact List.mem_append_left _ mem
  · exact List.mem_append_right _ List.mem_cons_self

theorem keepsSegment_of_mem {script : List Char} {part : List Lexeme}
    (mem : part ∈ segmentsFrom [] (lexemes script)) : KeepsSegment part (statementText part) := by
  obtain ⟨closed, last, eq, ends, reading, rest⟩ := exists_segments script
  rw [eq, List.mem_append, List.mem_singleton] at mem
  rcases mem with mem | rfl
  · exact keepsSegment (ends part mem).1 (.inl (ends part mem).2)
  · exact keepsSegment reading (.inr rest)

/-- The statements are the texts of the segments that hold something. -/
theorem statementTexts_eq_filter (script : List Char) :
    statementTexts script =
      ((segmentsFrom [] (lexemes script)).map statementText).filter isSubstantial := rfl

/-- Every statement keeps a segment. -/
theorem exists_keepsSegment {script text : List Char} (mem : text ∈ statementTexts script) :
    isSubstantial text = true ∧ ∃ part, KeepsSegment part text := by
  rw [statementTexts_eq_filter] at mem
  obtain ⟨inside, substantial⟩ := List.mem_filter.1 mem
  obtain ⟨part, found, rfl⟩ := List.mem_map.1 inside
  exact ⟨substantial, part, keepsSegment_of_mem found⟩

/-- All statements but the last one end a segment. -/
theorem endsSegment_of_mem_dropLast {script text : List Char}
    (mem : text ∈ (statementTexts script).dropLast) : EndsSegment text := by
  obtain ⟨closed, last, eq, ends, -, -⟩ := exists_segments script
  have early : text ∈ (closed.map statementText).filter isSubstantial := by
    rw [statementTexts_eq_filter, eq, List.map_append, List.filter_append,
      List.map_singleton] at mem
    cases substantial : isSubstantial (statementText last) with
    | true =>
      rwa [List.filter_cons_of_pos substantial, List.filter_nil, List.dropLast_concat] at mem
    | false =>
      rw [List.filter_cons_of_neg (Bool.eq_false_iff.1 substantial), List.filter_nil,
        List.append_nil] at mem
      exact (List.dropLast_sublist _).subset mem
  obtain ⟨part, inside, rfl⟩ := List.mem_map.1 (List.mem_filter.1 early).1
  exact endsSegment (ends part inside).1 (ends part inside).2

/-- Whether a segment holds more than blanks and its terminator. -/
def isBusy (part : List Lexeme) : Bool :=
  (solid part).any fun l => !l.isTerminator

/-- The segments that hold more than their terminators give the statements. -/
theorem statementTexts_eq_map (script : List Char) :
    statementTexts script =
      ((segmentsFrom [] (lexemes script)).filter isBusy).map statementText := by
  rw [statementTexts_eq_filter, List.filter_map]
  congr 1
  refine List.filter_congr fun part mem => ?_
  rw [Bool.eq_iff_iff, Function.comp_apply, (keepsSegment_of_mem mem).substantial, isBusy]
  simp

/-- Every segment that holds more than its terminator gives a statement with its solid lexemes. -/
theorem map_solid_statementTexts (script : List Char) :
    (statementTexts script).map (fun text => solid (lexemes text)) =
      ((segmentsFrom [] (lexemes script)).map solid).filter fun ls =>
        ls.any fun l => !l.isTerminator := by
  rw [statementTexts_eq_map, List.filter_map, List.map_map]
  exact List.map_congr_left fun part mem => (keepsSegment_of_mem (List.mem_filter.1 mem).1).solid

/-- Statements put together line after line are the same statements. -/
theorem statementTexts_intercalate (script : List Char) :
    statementTexts (['\n'].intercalate (statementTexts script)) = statementTexts script := by
  have ended : ∀ text ∈ (statementTexts script).dropLast, EndsStatements text :=
    fun text mem => (endsSegment_of_mem_dropLast mem).endsStatements
  have alone : ∀ text ∈ statementTexts script, statementTexts text = [text] := by
    intro text mem
    obtain ⟨substantial, part, keeps⟩ := exists_keepsSegment mem
    exact keeps.alone substantial
  calc statementTexts (['\n'].intercalate (statementTexts script))
      = (statementTexts script).flatMap statementTexts := statementTexts_intercalate_lines 0 ended
    _ = (statementTexts script).flatMap fun text => [text] := List.flatMap_congr alone
    _ = statementTexts script := List.flatMap_singleton' _

/--
Splitting is canonical: the statements on lines of their own are split into themselves. Each of them
but perhaps the last ends with a terminator in plain code, and none has another one. All characters
of a statement are plain code or stand in literals, so no comment is left or arises, and those that
are not blank are read as they were read in the script: the statements are the segments of the
script that hold more than a terminator.
-/
theorem statements_intercalate_statements (script : String) :
    statements ("\n".intercalate (statements script)) = statements script ∧
      (∀ s ∈ (statements script).dropLast,
        Terminated (lexemes s.toList) ∧ endMode s.toList = .code) ∧
      (∀ s ∈ statements script, Spell (lexemes s.toList) s.toList ∧
        (Terminated (lexemes s.toList) ∨ Unterminated (lexemes s.toList))) ∧
      (statements script).map (fun s => solid (lexemes s.toList)) =
        ((segmentsFrom [] (lexemes script.toList)).map solid).filter fun ls =>
          ls.any fun l => !l.isTerminator := by
  have chars : (statements script).map String.toList = statementTexts script.toList := by
    rw [statements, List.map_map]
    exact (List.map_congr_left fun text _ => String.toList_ofList).trans (List.map_id _)
  refine ⟨?_, ?_, ?_, ?_⟩
  · rw [statements, String.toList_intercalate, chars]
    exact congrArg (List.map String.ofList) (statementTexts_intercalate script.toList)
  · intro s mem
    have inside : s.toList ∈ (statementTexts script.toList).dropLast := by
      rw [← chars, ← List.map_dropLast]
      exact List.mem_map_of_mem mem
    have ends := endsSegment_of_mem_dropLast inside
    exact ⟨ends.terminated, ends.mode⟩
  · intro s mem
    have inside : s.toList ∈ statementTexts script.toList := chars ▸ List.mem_map_of_mem mem
    obtain ⟨-, part, keeps⟩ := exists_keepsSegment inside
    exact ⟨keeps.spells, keeps.ends⟩
  · rw [← map_solid_statementTexts, ← chars, List.map_map]
    rfl

end Rollback.Sql

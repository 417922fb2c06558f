import Rollback.Proofs.Sql.CanonicalScripts

/-!
# Statements with more lines after them

A statement of a script may be kept and get more lines after it. If it ends with a terminator, then
it stays a statement of its own. If it does not, then it goes on in these lines, up to the next
terminator, and inside a literal that is open at its end.

- `exists_readsAs_of_mem`: what a statement is read as
- `exists_lex_newline`: a line feed after a statement is a character
- `exists_head?_statementTexts`: the first statement starts with the one that was kept
-/

set_option autoImplicit false

namespace Rollback

namespace Sql

/-- A statement is read as lexemes of which only the last one can be a terminator, and not
all are. -/
theorem exists_readsAs_of_mem {script text : List Char} (mem : text ∈ statementTexts script) :
    ∃ ls, ReadsAs text ls ∧ (Terminated ls ∨ Unterminated ls) ∧
      ∃ l ∈ solid ls, l.isTerminator = false := by
  rw [statementTexts_eq_filter] at mem
  obtain ⟨inside, substantial⟩ := List.mem_filter.1 mem
  obtain ⟨part, found, rfl⟩ := List.mem_map.1 inside
  obtain ⟨closed, last, eq, ends, reading, rest⟩ := exists_segments script
  have more := (keepsSegment_of_mem found).substantial.1 substantial
  rw [eq, List.mem_append, List.mem_singleton] at found
  rcases found with found | rfl
  · obtain ⟨ls, reads, same⟩ := exists_readsAs (ends part found).1
    exact ⟨ls, reads, .inl (reads.terminated same (ends part found).2), same ▸ more⟩
  · obtain ⟨ls, reads, same⟩ := exists_readsAs reading
    exact ⟨ls, reads, .inr (ReadsAs.unterminated same rest), same ▸ more⟩

/-- The first segment starts with the lexemes that were read before. -/
theorem exists_segmentsFrom_cons (ls : List Lexeme) :
    ∀ segment, ∃ more others, segmentsFrom segment ls = (segment.reverse ++ more) :: others := by
  induction ls with
  | nil => exact fun segment => ⟨[], [], by rw [List.append_nil]; rfl⟩
  | cons l ls ih =>
    intro segment
    rw [segmentsFrom]
    split
    · exact ⟨[l], _, by rw [List.reverse_cons]⟩
    · obtain ⟨more, others, eq⟩ := ih (l :: segment)
      exact ⟨l :: more, others, by rw [eq, List.reverse_cons, List.append_assoc]; rfl⟩

/-- More lexemes add characters to the text that was read before. -/
theorem exists_foldl_extendText (ls : List Lexeme) :
    ∀ text, ∃ added, ls.foldl extendText text = added ++ text := by
  induction ls with
  | nil => exact fun text => ⟨[], rfl⟩
  | cons l ls ih =>
    intro text
    have one : ∃ added, extendText text l = added ++ text := by
      cases l with
      | code c => exact ⟨[c], rfl⟩
      | literal c => exact ⟨[c], rfl⟩
      | lineEnd => exact ⟨['\n'], rfl⟩
      | blockEnd =>
        cases text with
        | nil => exact ⟨[], rfl⟩
        | cons d text =>
          rw [extendText]
          split
          · exact ⟨[], rfl⟩
          · exact ⟨[' '], rfl⟩
    obtain ⟨added, first⟩ := one
    obtain ⟨more, rest⟩ := ih (extendText text l)
    exact ⟨more ++ added, by rw [List.foldl_cons, rest, first, List.append_assoc]⟩

/-- No lexeme leaves a comment open. -/
theorem foldl_next_cases {mode : Mode} (h : mode = .code ∨ ∃ q e, mode = .literal q e)
    (ls : List Lexeme) :
    ls.foldl Mode.next mode = .code ∨ ∃ q e, ls.foldl Mode.next mode = .literal q e := by
  induction ls generalizing mode with
  | nil => exact h
  | cons l ls ih =>
    refine ih ?_
    cases l with
    | literal c =>
      rcases h with rfl | ⟨q, e, rfl⟩
      · exact .inr ⟨_, _, rfl⟩
      · rw [Mode.next, afterLiteral]
        split
        · exact .inl rfl
        · exact .inr ⟨_, _, rfl⟩
    | _ => exact .inl rfl

/-- A line feed after any lexemes is a character of plain code or of a literal. -/
theorem exists_lex_newline (ls : List Lexeme) (more : List Char) :
    ∃ l after, (lex (ls.foldl Mode.next .code) ('\n' :: more)).1 = l :: after ∧
      l.isTerminator = false ∧ ∀ text, extendText text l = '\n' :: text := by
  rcases foldl_next_cases (.inl rfl) ls with mode | ⟨q, e, mode⟩
  · have code : lex .code ('\n' :: more) = (.code '\n' :: (lex .code more).1, (lex .code more).2) :=
      lex_code_cons rfl (fun eq => absurd eq (by decide)) fun eq => absurd eq (by decide)
    rw [mode]
    exact ⟨.code '\n', _, congrArg Prod.fst code, rfl, fun _ => rfl⟩
  · rw [mode]
    exact ⟨.literal '\n', _, congrArg Prod.fst (lex_literal_cons q e '\n' more), rfl, fun _ => rfl⟩

/-- If a statement is open at its end, then the next line belongs to its segment. -/
theorem exists_segment_of_unterminated {text : List Char} {ls : List Lexeme}
    (reads : ReadsAs text ls) (clean : Unterminated ls) (more : List Char) :
    ∃ others segments added,
      segmentsFrom [] (lexemes (text ++ '\n' :: more)) = (ls ++ others) :: segments ∧
        segmentText (ls ++ others) = text ++ '\n' :: added := by
  obtain ⟨k, after, next, plain, newline⟩ := exists_lex_newline ls more
  obtain ⟨others, segments, eq⟩ := exists_segmentsFrom_cons after (k :: ls.reverse)
  obtain ⟨added, written⟩ := exists_foldl_extendText others ('\n' :: text.reverse)
  refine ⟨k :: others, segments, added.reverse, ?_, ?_⟩
  · have all : lexemes (text ++ '\n' :: more) = ls ++ k :: after := by
      rw [lexemes, lex_append (meetsPlainly_newline text more), reads.lex_eq, next]
    rw [all, segmentsFrom_append clean, List.append_nil, segmentsFrom, plain,
      if_neg Bool.false_ne_true, eq, List.reverse_cons, List.reverse_reverse, List.append_assoc]
    rfl
  · have start : ls.foldl extendText [] = text.reverse := by
      rw [← List.reverse_eq_iff]
      exact reads.segmentText_eq
    rw [segmentText, List.foldl_append, List.foldl_cons, start, newline, written]
    simp

/-- With more lines after it, a statement is still at the start of the first one. -/
theorem exists_head?_statementTexts {script text more : List Char}
    (mem : text ∈ statementTexts script) (line : ∀ c ∈ more.head?, c = '\n') :
    ∃ further, (statementTexts (text ++ more)).head? = some (text ++ further) ∧
      ∀ c ∈ further.head?, c = '\n' := by
  obtain ⟨ls, reads, ends, l, solid, other⟩ := exists_readsAs_of_mem mem
  have substantial := reads.isSubstantial_of_mem solid other
  have alone := reads.statementTexts_eq ends substantial
  cases more with
  | nil => exact ⟨[], by rw [List.append_nil, alone]; rfl, nofun⟩
  | cons c more =>
    obtain rfl := line c rfl
    rcases ends with ends | clean
    · -- The terminator is the end of the statement, and the lines are statements after it.
      refine ⟨[], ?_, nofun⟩
      rw [statementTexts_append_newline (reads.endsStatements ends), alone, List.append_nil]
      rfl
    · obtain ⟨others, segments, added, first, segment⟩ :=
        exists_segment_of_unterminated reads clean more
      have nonempty : text ≠ [] := by
        rintro rfl
        exact absurd substantial (by decide)
      have trimmed : statementText (ls ++ others) = text ++ Text.trimEnd ('\n' :: added) := by
        rw [statementText, segment, reads.trimmed.trim_append_trimEnd nonempty]
      have here : isSubstantial (statementText (ls ++ others)) = true := by
        refine (keepsSegment_of_mem (first ▸ List.mem_cons_self)).substantial.2 ⟨l, ?_, other⟩
        rw [solid_append]
        exact List.mem_append_left _ solid
      refine ⟨Text.trimEnd ('\n' :: added), ?_, fun c hc => ?_⟩
      · rw [statementTexts_eq_filter, first, List.map_cons, List.filter_cons_of_pos here, trimmed]
        rfl
      · -- Trimming takes nothing from the front, so what is left starts with the line feed.
        obtain ⟨blanks, shape, -⟩ := Text.exists_trimEnd ('\n' :: added)
        have head : ('\n' :: added).head? = some c := by
          rw [shape, List.head?_append, hc]
          rfl
        exact (Option.some.inj head).symm

end Sql
end Rollback

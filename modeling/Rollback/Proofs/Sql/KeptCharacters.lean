import Rollback.Proofs.Sql.CanonicalScripts

/-!
# Characters that splitting keeps

Every character of a script stands in plain code, in a literal or in a comment. Splitting leaves out
the comments, blanks of plain code and the semicolons of statements without anything else in them;
it puts in blanks of plain code, and nothing else. So the statements one after another hold the
other characters in their order, and the literals as they are.

- `located`: the characters of a text with the regions they stand in
- `contents`, `dropPlainBlanks`, `dropIdleEnds`: what is compared of them
- `foldl_next_lex`, `shown_lexemes_statementText`: a segment that leaves no literal open keeps its
  literals
- `located_join_statements`: splitting loses and duplicates nothing
-/

set_option autoImplicit false

namespace Rollback.Sql

/-! ## Regions of a script -/

/-- Where a character of a script stands. -/
inductive Region where
  | code
  /-- In a literal; its quotes belong to it. -/
  | literal
  /-- In a comment; its marks belong to it, and so does the line feed that ends it. -/
  | comment
deriving DecidableEq, Repr

/-- The characters of a text that is read in a given mode, each with its region. -/
def located : Mode → List Char → List (Region × Char)
  | _, [] => []
  | .code, '/' :: '*' :: rest => (.comment, '/') :: (.comment, '*') :: located .blockComment rest
  | .code, '-' :: '-' :: rest => (.comment, '-') :: (.comment, '-') :: located .lineComment rest
  | .code, c :: rest =>
    if opensLiteral c then (.literal, c) :: located (.literal c false) rest
    else (.code, c) :: located .code rest
  | .literal quote escaping, c :: rest =>
    (.literal, c) :: located (afterLiteral quote escaping c) rest
  | .blockComment, '*' :: '/' :: rest => (.comment, '*') :: (.comment, '/') :: located .code rest
  | .blockComment, c :: rest => (.comment, c) :: located .blockComment rest
  | .lineComment, c :: rest =>
    (.comment, c) :: located (if c == '\n' then .code else .lineComment) rest

/-- The characters outside comments. -/
def contents (cs : List (Region × Char)) : List (Region × Char) :=
  cs.filter fun c => c.1 != .comment

/-- The characters without the blanks of plain code. -/
def dropPlainBlanks (cs : List (Region × Char)) : List (Region × Char) :=
  cs.filter fun c => !(c.1 == .code && Text.isBlank c.2)

/-- The characters without the semicolons of plain code that have nothing but blanks between the
semicolon before and themselves; `busy` tells whether something else came there. -/
def dropIdleEnds (busy : Bool) : List (Region × Char) → List (Region × Char)
  | [] => []
  | c :: rest =>
    if c = (.code, ';') then
      if busy then c :: dropIdleEnds false rest else dropIdleEnds false rest
    else c :: dropIdleEnds (busy || !Text.isBlank c.2) rest

/-- The characters of literals. -/
def inLiterals (cs : List (Region × Char)) : List (Region × Char) :=
  cs.filter fun c => c.1 == .literal

/-- Every character of a text has a region. -/
theorem map_snd_located (mode : Mode) (s : List Char) : (located mode s).map Prod.snd = s := by
  fun_induction located mode s with
  | case1 mode => rfl
  | case2 rest ih | case3 rest ih | case7 rest ih => rw [List.map_cons, List.map_cons, ih]
  | case4 c rest slash dash opens ih | case5 c rest slash dash plain ih | case8 c rest notEnd ih =>
    rw [List.map_cons, ih]
  | case6 quote escaping c rest ih => rw [List.map_cons, ih]
  | case9 c rest ih => rw [List.map_cons, ih]

/-- The character that a lexeme stands for, with its region. -/
def Lexeme.located? : Lexeme → Option (Region × Char)
  | code c => some (.code, c)
  | literal c => some (.literal, c)
  | blockEnd => none
  | lineEnd => none

/-- The lexemes of a text stand for its characters outside comments. -/
theorem contents_located (mode : Mode) (s : List Char) :
    contents (located mode s) = (lex mode s).1.filterMap Lexeme.located? := by
  have outside : ∀ (c : Region × Char) (cs : List (Region × Char)), c.1 ≠ .comment →
      contents (c :: cs) = c :: contents cs := fun c cs h =>
    List.filter_cons_of_pos (by simpa using h)
  have inside : ∀ (c : Char) (cs : List (Region × Char)),
      contents ((.comment, c) :: cs) = contents cs := fun c cs =>
    List.filter_cons_of_neg (by simp)
  -- By cases of the reader: comments are dropped on both sides, two characters at a time at their
  -- ends.
  fun_induction located mode s with
  | case1 mode => rw [lex]; rfl
  | case2 rest ih | case3 rest ih => rw [inside, inside, ih, lex]
  | case4 c rest slash dash opens ih =>
    rw [outside _ _ (by simp), ih, lex_code_quote opens]
    rfl
  | case5 c rest slash dash plain ih =>
    rw [outside _ _ (by simp), ih, lex_code_cons (Bool.eq_false_iff.2 plain)
      (fun eq => head?_ne_of_forall fun more => slash more eq)
      (fun eq => head?_ne_of_forall fun more => dash more eq)]
    rfl
  | case6 quote escaping c rest ih =>
    rw [outside _ _ (by simp), ih, lex_literal_cons]
    rfl
  | case7 rest ih =>
    rw [inside, inside, ih, lex]
    rfl
  | case8 c rest notEnd ih =>
    rw [inside, ih, lex]
    exact notEnd
  | case9 c rest ih =>
    rw [inside, ih, lex]
    split <;> rfl

/-! ## Modes after lexemes -/

/-- The lexemes of a text tell what the text ends in, but for a comment that is open there. -/
theorem foldl_next_lex (mode : Mode) (s : List Char) :
    (lex mode s).1.foldl Mode.next mode.beyondComment = (lex mode s).2.beyondComment := by
  induction mode, s using lex.induct with
  | case1 mode => rw [lex]; rfl
  | case2 rest ih | case3 rest ih =>
    rw [lex]
    exact ih
  | case4 c rest slash dash opens after mode eq ih =>
    rw [lex_code_quote opens]
    exact ih
  | case5 c rest slash dash plain after mode eq ih =>
    rw [lex_code_cons (Bool.eq_false_iff.2 plain)
      (fun eq => head?_ne_of_forall fun more => slash more eq)
      (fun eq => head?_ne_of_forall fun more => dash more eq)]
    exact ih
  | case6 quote escaping c rest after mode eq ih =>
    rw [lex_literal_cons]
    refine Eq.trans ?_ ih
    rw [afterLiteral]
    split <;> simp [Mode.next, Mode.beyondComment, afterLiteral, *]
  | case7 rest after mode eq ih =>
    rw [lex]
    exact ih
  | case8 c rest notEnd ih =>
    rw [lex]
    · exact ih
    · exact notEnd
  | case9 c rest lineEnd after mode eq ih =>
    rw [lex, if_pos lineEnd]
    exact ih
  | case10 c rest other ih =>
    rw [lex, if_neg other]
    exact ih

/-- Blanks in place of comments do not change the mode. -/
theorem foldl_next_spacedFrom {mode : Mode} {ls : List Lexeme} (h : IsReading mode ls) :
    ∀ last, (spacedFrom last ls).foldl Mode.next mode = ls.foldl Mode.next mode := by
  induction h with
  | nil => exact fun last => rfl
  | code plain slash dash more ih => exact fun last => ih _
  | quote opens more ih => exact fun last => ih _
  | literal more ih => exact fun last => ih _
  | lineEnd more ih => exact fun last => ih _
  | blockEnd more ih =>
    intro last
    cases last with
    | none => exact ih none
    | some c =>
      rw [spacedFrom]
      split
      · exact ih (some c)
      · exact ih (some ' ')

/-- A literal that is open after some lexemes was opened by a quote. -/
theorem IsReading.opensLiteral_of_open {mode : Mode} {ls : List Lexeme} (h : IsReading mode ls)
    (sound : ∀ q e, mode = .literal q e → opensLiteral q = true) {q : Char} {e : Bool}
    (opened : ls.foldl Mode.next mode = .literal q e) : opensLiteral q = true := by
  -- The induction is on the reading: while a literal is open, its quote stays the same.
  induction h with
  | nil => exact sound q e opened
  | code plain slash dash more ih => exact ih nofun opened
  | @quote c rest opens more ih =>
    refine ih (fun q e same => ?_) opened
    obtain ⟨rfl, -⟩ := Mode.literal.inj same
    exact opens
  | @literal quote escaping c rest more ih =>
    refine ih (fun q e same => ?_) opened
    rw [afterLiteral] at same
    split at same
    · cases same
    · obtain ⟨rfl, -⟩ := Mode.literal.inj same
      exact sound _ _ rfl
  | blockEnd more ih => exact ih nofun opened
  | lineEnd more ih => exact ih nofun opened

/-- A quote is not blank. -/
theorem isBlank_of_opensLiteral {c : Char} (opens : opensLiteral c = true) :
    Text.isBlank c = false := by
  simp only [opensLiteral, Bool.or_eq_true, beq_iff_eq] at opens
  rcases opens with rfl | rfl <;> rfl

/-! ## Segments that leave no literal open -/

/-- Whether a lexeme is a character, and not a blank of plain code. -/
def Lexeme.isShown : Lexeme → Bool
  | code c => !Text.isBlank c
  | literal _ => true
  | blockEnd => false
  | lineEnd => false

/-- The lexemes that are characters, but for blanks of plain code. -/
def shown (ls : List Lexeme) : List Lexeme :=
  ls.filter Lexeme.isShown

theorem shown_append (ls ms : List Lexeme) : shown (ls ++ ms) = shown ls ++ shown ms :=
  List.filter_append ls ms

section

variable {ks : List Lexeme} {text : List Char} (spells : Spell ks text)
  (blank : ∀ c ∈ text, Text.isBlank c = true)

include spells blank

/-- Blanks that are read in plain code are plain code. -/
theorem shown_eq_nil_of_code (h : IsReading .code ks) : shown ks = [] := by
  induction ks generalizing text with
  | nil => rfl
  | cons k ks ih =>
    obtain ⟨c, text, rfl, char, rest⟩ := spells.exists_of_cons
    have here := blank c List.mem_cons_self
    have others := fun d mem => blank d (List.mem_cons_of_mem c mem)
    cases h with
    | code _ _ _ more =>
      obtain rfl := Option.some.inj char
      rw [shown, List.filter_cons_of_neg (by simp [Lexeme.isShown, here])]
      exact ih rest others more
    | quote opens _ =>
      obtain rfl := Option.some.inj char
      rw [isBlank_of_opensLiteral opens] at here
      exact absurd here (by decide)
    | blockEnd _ => cases char
    | lineEnd _ => cases char

/-- Blanks do not end a literal. -/
theorem exists_foldl_next_literal {q : Char} {e : Bool} (opens : opensLiteral q = true)
    (h : IsReading (.literal q e) ks) :
    ∃ e', ks.foldl Mode.next (.literal q e) = .literal q e' := by
  induction ks generalizing text e with
  | nil => exact ⟨e, rfl⟩
  | cons k ks ih =>
    obtain ⟨c, text, rfl, char, rest⟩ := spells.exists_of_cons
    have here := blank c List.mem_cons_self
    have others := fun d mem => blank d (List.mem_cons_of_mem c mem)
    cases h with
    | @literal _ _ d _ more =>
      obtain rfl := Option.some.inj char
      have notQuote : d ≠ q := by
        rintro rfl
        rw [isBlank_of_opensLiteral opens] at here
        exact absurd here (by decide)
      have after : afterLiteral q e d = .literal q (d == '\\') := by
        simp [afterLiteral, notQuote]
      rw [after] at more
      obtain ⟨e', eq⟩ := ih rest others more
      refine ⟨e', ?_⟩
      rw [List.foldl_cons, ← eq, ← after]
      rfl

end

/-- The text of a segment keeps all lexemes that are shown if no literal is open at its end. -/
theorem shown_lexemes_statementText {part : List Lexeme} (h : IsReading .code part)
    (closed : part.foldl Mode.next .code = .code) :
    shown (lexemes (statementText part)) = shown part := by
  obtain ⟨first, ls, last, before, after, eq, reads, ⟨spellsFirst, blankBefore⟩, spellsLast,
    blankAfter⟩ := exists_readsAs_between h
  have spaced := h.spacedFrom none
  have ends := (foldl_next_spacedFrom h none).trans closed
  rw [eq, ← List.append_assoc] at spaced
  rw [eq, ← List.append_assoc, List.foldl_append] at ends
  -- The blanks at the end are plain code: in a literal, they would leave it open.
  have others : shown last = [] := by
    have reading := spaced.after
    have sound := fun q e => spaced.left.opensLiteral_of_open (q := q) (e := e) nofun
    generalize (first ++ ls).foldl Mode.next .code = reached at reading ends sound
    cases reached with
    | code => exact shown_eq_nil_of_code spellsLast blankAfter reading
    | literal q e =>
      obtain ⟨e', left⟩ :=
        exists_foldl_next_literal spellsLast blankAfter (sound q e rfl) reading
      rw [left] at ends
      cases ends
    | blockComment =>
      cases reading
      rfl
    | lineComment =>
      cases reading
      rfl
  calc shown (lexemes (statementText part))
      = shown ls := by rw [reads.lexemes_eq]
    _ = shown (first ++ (ls ++ last)) := by
      rw [shown_append, shown_append, others, List.append_nil,
        shown_eq_nil_of_code spellsFirst blankBefore spaced.left.left, List.nil_append]
    _ = shown part := by
      rw [← eq]
      exact filter_spacedFrom (fun c blank => by simp [Lexeme.isShown, blank]) rfl rfl part none

/-! ## Segments of a script -/

theorem flatten_segmentsFrom (ls : List Lexeme) :
    ∀ segment, (segmentsFrom segment ls).flatten = segment.reverse ++ ls := by
  induction ls with
  | nil => intro segment; simp [segmentsFrom]
  | cons l ls ih =>
    intro segment
    rw [segmentsFrom]
    split
    · rw [List.flatten_cons, ih]
      simp
    · rw [ih]
      simp

/-- A semicolon that ends a segment is plain code. -/
theorem Terminated.foldl_next {part : List Lexeme} (terminated : Terminated part) (mode : Mode) :
    part.foldl Mode.next mode = .code := by
  obtain ⟨body, rfl, -⟩ := terminated
  rw [List.foldl_append]
  rfl

/-- Segments that are terminated lead from code to code. -/
theorem foldl_next_flatten {parts : List (List Lexeme)} (ends : ∀ part ∈ parts, Terminated part) :
    parts.flatten.foldl Mode.next .code = .code := by
  induction parts with
  | nil => rfl
  | cons part parts ih =>
    obtain ⟨here, later⟩ := List.forall_mem_cons.1 ends
    rw [List.flatten_cons, List.foldl_append, here.foldl_next, ih later]

/-- A script that leaves no literal open has no segment that does. -/
theorem foldl_next_of_mem_segmentsFrom {script : List Char}
    (closed : ∀ q e, endMode script ≠ .literal q e) {part : List Lexeme}
    (mem : part ∈ segmentsFrom [] (lexemes script)) : part.foldl Mode.next .code = .code := by
  obtain ⟨parts, last, eq, ends, -, -⟩ := exists_segments script
  have whole := flatten_segmentsFrom (lexemes script) []
  rw [eq] at mem whole
  rcases List.mem_append.1 mem with early | final
  · exact (ends part early).2.foldl_next .code
  · -- The last segment leaves open what the script does.
    obtain rfl := List.mem_singleton.1 final
    have after := foldl_next_lex .code script
    have reached : part.foldl Mode.next .code = (endMode script).beyondComment := by
      rw [← List.nil_append (lex .code script).1] at after
      rw [← foldl_next_flatten fun part mem => (ends part mem).2, ← List.foldl_append]
      rw [List.flatten_append, List.flatten_singleton, List.reverse_nil] at whole
      rw [whole]
      exact after
    rw [reached]
    cases ended : endMode script with
    | code => rfl
    | literal q e => exact absurd ended (closed q e)
    | blockComment => rfl
    | lineComment => rfl

/-! ## Blanks and semicolons that are left out -/

theorem dropPlainBlanks_append (cs ds : List (Region × Char)) :
    dropPlainBlanks (cs ++ ds) = dropPlainBlanks cs ++ dropPlainBlanks ds :=
  List.filter_append cs ds

/-- Dropping blanks of plain code from characters is leaving out lexemes that are not shown. -/
theorem dropPlainBlanks_filterMap (ls : List Lexeme) :
    dropPlainBlanks (ls.filterMap Lexeme.located?) = (shown ls).filterMap Lexeme.located? := by
  rw [dropPlainBlanks, shown, List.filter_filterMap, List.filterMap_filter]
  congr 1
  funext l
  cases l with
  | code c => simp [Lexeme.located?, Lexeme.isShown, Option.filter]
  | literal c => simp [Lexeme.located?, Lexeme.isShown, Option.filter]
  | blockEnd => rfl
  | lineEnd => rfl

/-- Up to a semicolon, everything is left as it is. -/
theorem dropIdleEnds_append {body : List Lexeme} (clean : Unterminated body)
    (rest : List (Region × Char)) :
    ∀ busy, dropIdleEnds busy (body.filterMap Lexeme.located? ++ rest) =
      body.filterMap Lexeme.located? ++ dropIdleEnds (busy || body.any Lexeme.isSolid) rest := by
  induction body with
  | nil => exact fun busy => by rw [List.any_nil, Bool.or_false]; rfl
  | cons l body ih =>
    intro busy
    have others := ih fun k mem => clean k (List.mem_cons_of_mem l mem)
    have char : ∀ c, l.located? = some c → c ≠ (.code, ';') → l.isSolid = !Text.isBlank c.2 →
        dropIdleEnds busy ((l :: body).filterMap Lexeme.located? ++ rest) =
          (l :: body).filterMap Lexeme.located? ++
            dropIdleEnds (busy || (l :: body).any Lexeme.isSolid) rest := by
      intro c found other solid
      rw [List.filterMap_cons_some found, List.cons_append, dropIdleEnds, if_neg other, others,
        List.any_cons, solid, Bool.or_assoc]
      rfl
    cases l with
    | code c =>
      refine char (.code, c) rfl (fun same => ?_) (Lexeme.isSolid_of_char? rfl)
      have here := clean _ List.mem_cons_self
      rw [(Prod.mk.inj same).2] at here
      exact absurd here (by decide)
    | literal c => exact char (.literal, c) rfl (by simp) (Lexeme.isSolid_of_char? rfl)
    | blockEnd => exact others busy
    | lineEnd => exact others busy

/-- A segment without a terminator is busy if it has a solid lexeme. -/
theorem isBusy_eq {ls : List Lexeme} (clean : Unterminated ls) :
    isBusy ls = ls.any Lexeme.isSolid := by
  rw [isBusy, solid, List.any_filter, Bool.eq_iff_iff, List.any_eq_true, List.any_eq_true]
  refine exists_congr fun l => and_congr_right fun mem => ?_
  rw [clean l mem]
  simp

/-- A terminator alone makes no segment busy. -/
theorem isBusy_terminated (body : List Lexeme) : isBusy (body ++ [.code ';']) = isBusy body := by
  rw [isBusy, isBusy, solid_append, List.any_append]
  exact Bool.or_false _

/-- A segment without anything solid shows nothing, as a literal shows its quotes. -/
theorem shown_eq_nil_of_idle {ls : List Lexeme} (h : IsReading .code ls)
    (idle : ls.any Lexeme.isSolid = false) : shown ls = [] := by
  have blank : ∀ l ∈ ls, l.isSolid = false := by simpa using idle
  rw [shown, List.filter_eq_nil_iff]
  intro l mem shows
  cases l with
  | code c =>
    have here := blank _ mem
    rw [Lexeme.isSolid_of_char? rfl] at here
    rw [Lexeme.isShown, here] at shows
    exact absurd shows (by decide)
  | literal c =>
    obtain ⟨q, quote, opens⟩ := h.exists_quote mem
    have here := blank _ quote
    rw [Lexeme.isSolid_of_char? rfl, isBlank_of_opensLiteral opens] at here
    exact absurd here (by decide)
  | blockEnd => cases shows
  | lineEnd => cases shows

/-- What is shown of a segment that holds more than its terminator. -/
def shownIfBusy (part : List Lexeme) : List (Region × Char) :=
  if isBusy part then (shown part).filterMap Lexeme.located? else []

/-- A terminated segment is kept if it is busy, and the scan starts anew after it. -/
theorem drops_terminated {part : List Lexeme} (h : IsReading .code part) (ends : Terminated part)
    (rest : List (Region × Char)) :
    dropPlainBlanks (dropIdleEnds false (part.filterMap Lexeme.located? ++ rest)) =
      shownIfBusy part ++ dropPlainBlanks (dropIdleEnds false rest) := by
  obtain ⟨body, rfl, clean⟩ := ends
  rw [List.filterMap_append, List.append_assoc, dropIdleEnds_append clean, Bool.false_or,
    shownIfBusy, isBusy_terminated, isBusy_eq clean, dropPlainBlanks_append,
    dropPlainBlanks_filterMap]
  cases busy : body.any Lexeme.isSolid with
  | true =>
    have semicolon : shown [Lexeme.code ';'] = [.code ';'] := rfl
    rw [shown_append, List.filterMap_append, semicolon, if_pos rfl, List.append_assoc]
    rfl
  | false =>
    rw [shown_eq_nil_of_idle h.left busy]
    rfl

/-- What is open at the end is kept if it is busy. -/
theorem drops_unterminated {part : List Lexeme} (h : IsReading .code part)
    (clean : Unterminated part) :
    dropPlainBlanks (dropIdleEnds false (part.filterMap Lexeme.located?)) = shownIfBusy part := by
  have all := dropIdleEnds_append clean [] false
  rw [List.append_nil, Bool.false_or] at all
  have nothing : ∀ busy, dropIdleEnds busy [] = [] := fun busy => rfl
  rw [all, nothing, List.append_nil, dropPlainBlanks_filterMap, shownIfBusy, isBusy_eq clean]
  cases busy : part.any Lexeme.isSolid with
  | true => rfl
  | false =>
    rw [shown_eq_nil_of_idle h busy]
    rfl

/-- Segment by segment, what is shown of each is left. -/
theorem drops_segments {parts : List (List Lexeme)} {last : List Lexeme}
    (ends : ∀ part ∈ parts, IsReading .code part ∧ Terminated part)
    (reading : IsReading .code last) (open_ : Unterminated last) :
    dropPlainBlanks (dropIdleEnds false ((parts ++ [last]).flatten.filterMap Lexeme.located?)) =
      (parts ++ [last]).flatMap shownIfBusy := by
  induction parts with
  | nil =>
    rw [List.nil_append, List.flatten_singleton, List.flatMap_singleton]
    exact drops_unterminated reading open_
  | cons part parts ih =>
    obtain ⟨⟨here, terminated⟩, later⟩ := List.forall_mem_cons.1 ends
    rw [List.cons_append, List.flatten_cons, List.filterMap_append,
      drops_terminated here terminated, ih later]
    rfl

/-- Of a script, what is shown of its segments is left. -/
theorem drops_lexemes (script : List Char) :
    dropPlainBlanks (dropIdleEnds false ((lexemes script).filterMap Lexeme.located?)) =
      (segmentsFrom [] (lexemes script)).flatMap shownIfBusy := by
  obtain ⟨closed, last, eq, ends, reading, rest⟩ := exists_segments script
  have whole := flatten_segmentsFrom (lexemes script) []
  rw [List.reverse_nil, List.nil_append] at whole
  rw [eq] at whole ⊢
  rw [← whole]
  exact drops_segments ends reading rest

/-! ## Statements one after another -/

theorem Spell.append {ls ms : List Lexeme} {s t : List Char} (hs : Spell ls s) (ht : Spell ms t) :
    Spell (ls ++ ms) (s ++ t) := by
  rw [Spell, List.map_append, List.map_append, hs, ht]

theorem Spell.map_snd_filterMap {ls : List Lexeme} {text : List Char} (h : Spell ls text) :
    (ls.filterMap Lexeme.located?).map Prod.snd = text := by
  have snd : (fun l => Lexeme.located? l |>.map Prod.snd) = Lexeme.char? := by
    funext l
    cases l <;> rfl
  calc (ls.filterMap Lexeme.located?).map Prod.snd
      = ls.filterMap Lexeme.char? := by rw [List.map_filterMap, snd]
    _ = (ls.map Lexeme.char?).filterMap id := by rw [List.filterMap_map, Function.id_comp]
    _ = (text.map some).filterMap id := by rw [h]
    _ = text := by rw [List.filterMap_map, Function.id_comp, List.filterMap_some]

/-- A text that its lexemes spell has no comments. -/
theorem Spell.contents_eq {text : List Char} (h : Spell (lexemes text) text) :
    contents (located .code text) = located .code text := by
  have chars : (contents (located .code text)).map Prod.snd = text := by
    rw [contents_located]
    exact h.map_snd_filterMap
  refine List.filter_sublist.eq_of_length ?_
  have lengths := congrArg List.length (chars.trans (map_snd_located .code text).symm)
  rwa [List.length_map, List.length_map] at lengths

theorem EndsSegment.isClosed {text : List Char} (h : EndsSegment text)
    (spells : Spell (lexemes text) text) : IsClosed text := by
  refine ⟨h.mode, fun c last => ?_⟩
  obtain ⟨body, eq, -⟩ := h.terminated
  rw [eq] at spells
  obtain ⟨s, t, rfl, -, semicolon⟩ := spells.exists_of_append
  obtain ⟨d, rfl, char⟩ := semicolon.exists_of_singleton
  obtain rfl : ';' = d := Option.some.inj char
  rw [List.getLast?_append_cons, List.getLast?_singleton, Option.mem_some_iff] at last
  exact last ▸ by decide

/-- Closed texts are read one after the other. -/
theorem lexemes_flatten {texts : List (List Char)} (h : ∀ text ∈ texts.dropLast, IsClosed text) :
    lexemes texts.flatten = texts.flatMap lexemes := by
  induction texts with
  | nil => rfl
  | cons text rest ih =>
    cases rest with
    | nil => rw [List.flatten_singleton, List.flatMap_singleton]
    | cons next rest =>
      rw [List.dropLast_cons_cons] at h
      have others := ih fun other mem => h other (List.mem_cons_of_mem _ mem)
      rw [List.flatten_cons, (h text List.mem_cons_self).lexesTo.lexemes_append, others]
      rfl

theorem Spell.flatten {texts : List (List Char)}
    (h : ∀ text ∈ texts, Spell (lexemes text) text) :
    Spell (texts.flatMap lexemes) texts.flatten := by
  induction texts with
  | nil => rfl
  | cons text rest ih =>
    rw [List.flatMap_cons, List.flatten_cons]
    exact (h text List.mem_cons_self).append
      (ih fun other mem => h other (List.mem_cons_of_mem _ mem))

/-- One after another, the statements of a script are read as they are read alone. -/
theorem lexemes_flatten_statementTexts (script : List Char) :
    lexemes (statementTexts script).flatten = (statementTexts script).flatMap lexemes ∧
      Spell (lexemes (statementTexts script).flatten) (statementTexts script).flatten := by
  have spells : ∀ text ∈ statementTexts script, Spell (lexemes text) text := by
    intro text mem
    obtain ⟨-, part, keeps⟩ := exists_keepsSegment mem
    exact keeps.spells
  have eq := lexemes_flatten fun text mem =>
    (endsSegment_of_mem_dropLast mem).isClosed (spells text (List.dropLast_subset _ mem))
  exact ⟨eq, eq ▸ Spell.flatten spells⟩

/-- What is shown of the statements is what is shown of the segments they come from. -/
theorem shown_flatMap_statementTexts {script : List Char}
    (closed : ∀ q e, endMode script ≠ .literal q e) :
    (shown ((statementTexts script).flatMap lexemes)).filterMap Lexeme.located? =
      (segmentsFrom [] (lexemes script)).flatMap shownIfBusy := by
  have kept : ∀ part ∈ segmentsFrom [] (lexemes script),
      shown (lexemes (statementText part)) = shown part := fun part mem =>
    shown_lexemes_statementText
      (isReading_of_mem_segmentsFrom (lexemes script) [] (isReading_lex .code script) part mem)
      (foldl_next_of_mem_segmentsFrom closed mem)
  rw [statementTexts_eq_map]
  generalize segmentsFrom [] (lexemes script) = parts at kept
  induction parts with
  | nil => rfl
  | cons part parts ih =>
    have others := ih fun other mem => kept other (List.mem_cons_of_mem part mem)
    rw [List.flatMap_cons, shownIfBusy]
    cases busy : isBusy part with
    | true =>
      rw [List.filter_cons_of_pos busy, List.map_cons, List.flatMap_cons, shown_append,
        List.filterMap_append, others, kept part List.mem_cons_self, if_pos rfl]
    | false =>
      rw [List.filter_cons_of_neg (Bool.eq_false_iff.1 busy), others]
      rfl

/-! ## Literals -/

/-- Blanks of plain code are in no literal. -/
theorem inLiterals_dropPlainBlanks (cs : List (Region × Char)) :
    inLiterals (dropPlainBlanks cs) = inLiterals cs := by
  rw [inLiterals, dropPlainBlanks, List.filter_filter]
  refine List.filter_congr fun c _ => ?_
  rcases c with ⟨_ | _ | _, c⟩ <;> rfl

/-- What stands in literals is part of the contents. -/
theorem inLiterals_contents (cs : List (Region × Char)) :
    inLiterals (contents cs) = inLiterals cs := by
  rw [inLiterals, contents, List.filter_filter]
  refine List.filter_congr fun c _ => ?_
  rcases c with ⟨_ | _ | _, c⟩ <;> rfl

/-- The semicolons that are left out are in no literal. -/
theorem inLiterals_dropIdleEnds (busy : Bool) (cs : List (Region × Char)) :
    inLiterals (dropIdleEnds busy cs) = inLiterals cs := by
  induction cs generalizing busy with
  | nil => rfl
  | cons c rest ih =>
    rw [dropIdleEnds]
    split
    next semicolon =>
      have skip : ∀ more, inLiterals (c :: more) = inLiterals more := fun more =>
        List.filter_cons_of_neg (by rw [semicolon]; decide)
      rw [skip]
      split
      · exact (skip _).trans (ih false)
      · exact ih false
    next =>
      rw [inLiterals, inLiterals, List.filter_cons, List.filter_cons]
      exact congrArg (fun more => if c.1 == .literal then c :: more else more) (ih _)

/--
Splitting loses and duplicates nothing. If a script leaves no literal open, its statements one after
another have no comments, and they hold the characters of the script that are outside comments, in
their order: all of them but the semicolons that end a statement of blanks only, if the blanks of
plain code are disregarded on both sides. The characters of literals, blanks among them, are the
same.
-/
theorem located_join_statements (script : String)
    (closed : ∀ quote escaping, endMode script.toList ≠ .literal quote escaping) :
    (∀ c ∈ located .code (String.join (statements script)).toList, c.1 ≠ .comment) ∧
      dropPlainBlanks (located .code (String.join (statements script)).toList) =
        dropPlainBlanks (dropIdleEnds false (contents (located .code script.toList))) ∧
      inLiterals (located .code (String.join (statements script)).toList) =
        inLiterals (located .code script.toList) := by
  have chars : (String.join (statements script)).toList =
      (statementTexts script.toList).flatten := by
    rw [statements, String.toList_join, List.flatMap_map]
    exact (List.flatMap_congr fun text _ => String.toList_ofList).trans List.flatMap_id
  obtain ⟨eq, spells⟩ := lexemes_flatten_statementTexts script.toList
  rw [chars]
  have kept : dropPlainBlanks (located .code (statementTexts script.toList).flatten) =
      dropPlainBlanks (dropIdleEnds false (contents (located .code script.toList))) := by
    rw [← spells.contents_eq, contents_located, contents_located, dropPlainBlanks_filterMap]
    exact (eq ▸ shown_flatMap_statementTexts closed).trans (drops_lexemes script.toList).symm
  refine ⟨fun c mem => ?_, kept, ?_⟩
  · rw [← spells.contents_eq] at mem
    simpa using (List.mem_filter.1 mem).2
  · rw [← inLiterals_dropPlainBlanks, kept, inLiterals_dropPlainBlanks, inLiterals_dropIdleEnds,
      inLiterals_contents]

/-- The marks of comments and the semicolon in the literal stay; the semicolons of the statements
with blanks or a comment only do not. -/
theorem located_join_statements_sample :
    let script := "; INSERT INTO t/* 'a */VALUES (' --;\\' /*'); -- it's; \n ;/**/ ; SELECT  2"
    let output := String.join (statements script)
    endMode script.toList = .code ∧ output = "INSERT INTO t VALUES (' --;\\' /*');SELECT  2" ∧
      dropPlainBlanks (located .code output.toList) =
        dropPlainBlanks (dropIdleEnds false (contents (located .code script.toList))) ∧
      inLiterals (located .code output.toList) = inLiterals (located .code script.toList) := by
  intro script output
  have mode : endMode script.toList = .code := by decide +kernel
  have kept := located_join_statements script (mode ▸ nofun)
  exact ⟨mode, by decide +kernel, kept.2⟩

end Rollback.Sql

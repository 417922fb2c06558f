import Rollback.Proofs.Sql.StatementEnds

/-!
# Lexemes read again

What the lexemes of a text look like, and what is left of them when comments are taken out. In place
of a comment there comes a blank where its neighbours need one, so no mark of a comment, quote or
end of a statement arises, and what is left is read again as it was read before.

- `IsReading`: the lexemes that a text can have
- `solid`: lexemes that are neither blank nor the ends of comments
- `Spell`: lexemes that are the characters of a text
- `spacedFrom`: lexemes with blanks of plain code in place of comments
- `lex_of_isReading`: lexemes without comments are read from their own characters
-/

set_option autoImplicit false

namespace Rollback.Sql

namespace Lexeme

/-- The character of plain code or of a literal; the end of a comment has none. -/
def char? : Lexeme → Option Char
  | code c => some c
  | literal c => some c
  | blockEnd => none
  | lineEnd => none

/-- Neither blank nor the end of a comment. -/
def isSolid (l : Lexeme) : Bool :=
  l.char?.any fun c => !Text.isBlank c

end Lexeme

/-- A lexeme for a character is solid if the character is no blank. -/
theorem Lexeme.isSolid_of_char? {l : Lexeme} {c : Char} (h : l.char? = some c) :
    l.isSolid = !Text.isBlank c := by
  rw [isSolid, h]
  rfl

/-- The lexemes that are neither blank nor the ends of comments. -/
def solid (ls : List Lexeme) : List Lexeme :=
  ls.filter Lexeme.isSolid

theorem solid_append (ls ms : List Lexeme) : solid (ls ++ ms) = solid ls ++ solid ms :=
  List.filter_append ls ms

theorem mem_solid_of_isTerminator {l : Lexeme} {ls : List Lexeme} (h : l.isTerminator = true) :
    l ∈ solid ls ↔ l ∈ ls := by
  obtain rfl : l = .code ';' := eq_of_beq h
  rw [solid, List.mem_filter]
  exact and_iff_left rfl

/-! ## What lexemes look like -/

/-- The lexemes of a text that is read in a given mode: plain code holds no quote and no mark that
opens a comment, and what stands in a literal depends on the quote that opened it. -/
inductive IsReading : Mode → List Lexeme → Prop where
  | nil {mode : Mode} : IsReading mode []
  | code {c : Char} {rest : List Lexeme} (plain : opensLiteral c = false)
      (slash : c = '/' → rest.head? ≠ some (.code '*'))
      (dash : c = '-' → rest.head? ≠ some (.code '-')) (more : IsReading .code rest) :
      IsReading .code (.code c :: rest)
  | quote {c : Char} {rest : List Lexeme} (opens : opensLiteral c = true)
      (more : IsReading (.literal c false) rest) : IsReading .code (.literal c :: rest)
  | literal {quote : Char} {escaping : Bool} {c : Char} {rest : List Lexeme}
      (more : IsReading (afterLiteral quote escaping c) rest) :
      IsReading (.literal quote escaping) (.literal c :: rest)
  | blockEnd {rest : List Lexeme} (more : IsReading .code rest) :
      IsReading .code (.blockEnd :: rest)
  | lineEnd {rest : List Lexeme} (more : IsReading .code rest) : IsReading .code (.lineEnd :: rest)

/-- The mode in which the next lexeme is found: a comment leaves none before its end. -/
def Mode.beyondComment : Mode → Mode
  | code => code
  | literal quote escaping => literal quote escaping
  | blockComment => code
  | lineComment => code

/-- A character of plain code comes first only if it is the first of the text. -/
theorem head?_of_lex {mode : Mode} {s : List Char} {c : Char}
    (h : (lex mode s).1.head? = some (.code c)) : mode = .code ∧ s.head? = some c := by
  -- In a comment the reader goes on to its end before it yields a lexeme, which is then not one of
  -- plain code.
  induction mode, s using lex.induct with
  | case1 mode => cases mode <;> simp [lex] at h
  | case2 rest ih =>
    rw [lex] at h
    exact absurd (ih h).1 (by decide)
  | case3 rest ih =>
    rw [lex] at h
    exact absurd (ih h).1 (by decide)
  | case4 d rest slash dash opens after mode =>
    rw [lex_code_quote opens] at h
    exact absurd h (by simp)
  | case5 d rest slash dash plain after mode =>
    rw [lex_code_cons (Bool.eq_false_iff.2 plain)
      (fun eq => head?_ne_of_forall fun more => slash more eq)
      (fun eq => head?_ne_of_forall fun more => dash more eq)] at h
    obtain rfl : d = c := by simpa using h
    exact ⟨rfl, rfl⟩
  | case6 quote escaping d rest after mode =>
    rw [lex_literal_cons] at h
    exact absurd h (by simp)
  | case7 rest after mode =>
    rw [lex] at h
    exact absurd h (by simp)
  | case8 d rest notEnd ih =>
    rw [lex] at h
    · exact absurd (ih h).1 (by decide)
    · exact notEnd
  | case9 d rest lineEnd after mode =>
    rw [lex, if_pos lineEnd] at h
    exact absurd h (by simp)
  | case10 d rest other ih =>
    rw [lex, if_neg other] at h
    exact absurd (ih h).1 (by decide)

/-- What a text is read as is a reading, apart from the end of a comment. -/
theorem isReading_lex (mode : Mode) (s : List Char) :
    IsReading mode.beyondComment (lex mode s).1 := by
  induction mode, s using lex.induct with
  | case1 mode =>
    rw [lex]
    exact .nil
  | case2 rest ih =>
    rw [lex]
    exact ih
  | case3 rest ih =>
    rw [lex]
    exact ih
  | case4 c rest slash dash opens after mode eq ih =>
    rw [lex_code_quote opens]
    exact .quote opens ih
  | case5 c rest slash dash plain after mode eq ih =>
    have slash := fun eq => head?_ne_of_forall fun more => slash more eq
    have dash := fun eq => head?_ne_of_forall fun more => dash more eq
    have plain := Bool.eq_false_iff.2 plain
    rw [lex_code_cons plain slash dash]
    exact .code plain (fun isSlash star => slash isSlash (head?_of_lex star).2)
      (fun isDash second => dash isDash (head?_of_lex second).2) ih
  | case6 quote escaping c rest after mode eq ih =>
    rw [lex_literal_cons]
    refine .literal ?_
    revert ih
    rw [afterLiteral]
    split <;> exact id
  | case7 rest after mode eq ih =>
    rw [lex]
    exact .blockEnd ih
  | case8 c rest notEnd ih =>
    rw [lex]
    · exact ih
    · exact notEnd
  | case9 c rest lineEnd after mode eq ih =>
    rw [lex, if_pos lineEnd]
    exact .lineEnd ih
  | case10 c rest other ih =>
    rw [lex, if_neg other]
    exact ih

namespace IsReading

variable {mode : Mode} {ls ms : List Lexeme}

theorem left (h : IsReading mode (ls ++ ms)) : IsReading mode ls := by
  induction ls generalizing mode with
  | nil => exact .nil
  | cons l ls ih =>
    have head : ∀ k, (ls ++ ms).head? ≠ some k → ls.head? ≠ some k := by
      intro k other first
      exact other (by rw [List.head?_append, first]; rfl)
    cases h with
    | code plain slash dash more =>
      exact .code plain (fun eq => head _ (slash eq)) (fun eq => head _ (dash eq)) (ih more)
    | quote opens more => exact .quote opens (ih more)
    | literal more => exact .literal (ih more)
    | blockEnd more => exact .blockEnd (ih more)
    | lineEnd more => exact .lineEnd (ih more)

/-- After a character of plain code, what follows is read in plain code. -/
theorem right {c : Char} (h : IsReading mode (ls ++ .code c :: ms)) : IsReading .code ms := by
  induction ls generalizing mode with
  | nil =>
    cases h with
    | code plain slash dash more => exact more
  | cons l ls ih =>
    cases h with
    | code plain slash dash more => exact ih more
    | quote opens more => exact ih more
    | literal more => exact ih more
    | blockEnd more => exact ih more
    | lineEnd more => exact ih more

/-- A literal starts with a quote. -/
theorem exists_quote {c : Char} (h : IsReading .code ls) (mem : .literal c ∈ ls) :
    ∃ q, .literal q ∈ ls ∧ opensLiteral q = true := by
  induction ls with
  | nil => exact absurd mem List.not_mem_nil
  | cons l ls ih =>
    have later : IsReading .code ls → l ≠ .literal c →
        ∃ q, .literal q ∈ l :: ls ∧ opensLiteral q = true := by
      intro more other
      obtain ⟨q, inside, opens⟩ := ih more (List.mem_of_ne_of_mem other.symm mem)
      exact ⟨q, List.mem_cons_of_mem l inside, opens⟩
    cases h with
    | code _ _ _ more => exact later more (by rintro ⟨⟩)
    | @quote q _ opens _ => exact ⟨q, List.mem_cons_self, opens⟩
    | blockEnd more => exact later more (by rintro ⟨⟩)
    | lineEnd more => exact later more (by rintro ⟨⟩)

end IsReading

/-! ## Segments -/

/-- Each segment of a reading is one that starts in code. -/
theorem isReading_of_mem_segmentsFrom (ls : List Lexeme) :
    ∀ segment, IsReading .code (segment.reverse ++ ls) →
      ∀ part ∈ segmentsFrom segment ls, IsReading .code part := by
  induction ls with
  | nil =>
    intro segment h part mem
    rw [segmentsFrom, List.mem_singleton] at mem
    rw [mem]
    exact h.left
  | cons l ls ih =>
    intro segment h part mem
    have shape : segment.reverse ++ l :: ls = (l :: segment).reverse ++ ls := by simp
    rw [segmentsFrom] at mem
    split at mem
    · rename_i terminator
      rcases List.mem_cons.1 mem with rfl | later
      · rw [shape] at h
        exact h.left
      · obtain rfl : l = .code ';' := eq_of_beq terminator
        exact ih [] h.right part later
    · exact ih (l :: segment) (shape ▸ h) part mem

/-- Lexemes of which none ends a statement. -/
def Unterminated (ls : List Lexeme) : Prop :=
  ∀ l ∈ ls, l.isTerminator = false

/-- Lexemes of which the last one ends a statement and no other does. -/
def Terminated (ls : List Lexeme) : Prop :=
  ∃ body, ls = body ++ [.code ';'] ∧ Unterminated body

theorem unterminated_nil : Unterminated [] :=
  List.forall_mem_nil _

/-- All segments but the last are terminated. -/
theorem exists_segmentsFrom_eq (ls : List Lexeme) :
    ∀ segment, Unterminated segment.reverse → ∃ closed last,
      segmentsFrom segment ls = closed ++ [last] ∧ (∀ part ∈ closed, Terminated part) ∧
        Unterminated last := by
  induction ls with
  | nil => exact fun segment h => ⟨[], segment.reverse, rfl, List.forall_mem_nil _, h⟩
  | cons l ls ih =>
    intro segment h
    rw [segmentsFrom]
    split
    · rename_i terminator
      obtain ⟨closed, last, eq, ends, rest⟩ := ih [] unterminated_nil
      refine ⟨(l :: segment).reverse :: closed, last, by rw [eq]; rfl, ?_, rest⟩
      intro part mem
      rcases List.mem_cons.1 mem with rfl | mem
      · obtain rfl : l = .code ';' := eq_of_beq terminator
        exact ⟨segment.reverse, List.reverse_cons, h⟩
      · exact ends part mem
    · rename_i plain
      refine ih (l :: segment) fun k mem => ?_
      rw [List.reverse_cons, List.mem_append, List.mem_singleton] at mem
      rcases mem with mem | rfl
      · exact h k mem
      · exact Bool.eq_false_iff.2 plain

/-! ## Without comments -/

/-- The lexemes with blanks of plain code where comments end, as `extendText` writes them: a block
comment leaves a space, unless there is a blank or nothing before it. -/
def spacedFrom (last : Option Char) : List Lexeme → List Lexeme
  | [] => []
  | .code c :: rest => .code c :: spacedFrom (some c) rest
  | .literal c :: rest => .literal c :: spacedFrom (some c) rest
  | .lineEnd :: rest => .code '\n' :: spacedFrom (some '\n') rest
  | .blockEnd :: rest =>
    match last with
    | none => spacedFrom none rest
    | some c =>
      if Text.isBlank c then spacedFrom (some c) rest else .code ' ' :: spacedFrom (some ' ') rest

/-- The lexemes are characters of plain code and of literals that make up a text. -/
def Spell (ls : List Lexeme) (text : List Char) : Prop :=
  ls.map Lexeme.char? = text.map some

namespace Spell

variable {ls : List Lexeme} {text : List Char}

theorem cons {l : Lexeme} {c : Char} (h : l.char? = some c) (more : Spell ls text) :
    Spell (l :: ls) (c :: text) := by
  rw [Spell, List.map_cons, List.map_cons, h, more]

/-- A text that spells a lexeme and more starts with its character. -/
theorem exists_of_cons {l : Lexeme} (h : Spell (l :: ls) text) :
    ∃ c rest, text = c :: rest ∧ l.char? = some c ∧ Spell ls rest := by
  cases text with
  | nil => cases h
  | cons c rest =>
    obtain ⟨char, more⟩ := List.cons_eq_cons.1 h
    exact ⟨c, rest, rfl, char, more⟩

/-- A character of the text is the character of a lexeme. -/
theorem exists_mem {c : Char} (h : Spell ls text) (mem : c ∈ text) :
    ∃ l ∈ ls, l.char? = some c := by
  have found : some c ∈ ls.map Lexeme.char? := h ▸ List.mem_map_of_mem mem
  exact List.mem_map.1 found

/-- The character of a lexeme stands in the text that is spelled. -/
theorem mem_of_char? {l : Lexeme} {c : Char} (h : Spell ls text) (mem : l ∈ ls)
    (char : l.char? = some c) : c ∈ text := by
  have found : some c ∈ text.map some := h ▸ char ▸ List.mem_map_of_mem mem
  obtain ⟨d, inside, eq⟩ := List.mem_map.1 found
  exact Option.some.inj eq ▸ inside

theorem exists_of_singleton {l : Lexeme} (h : Spell [l] text) :
    ∃ c, text = [c] ∧ l.char? = some c := by
  obtain ⟨c, rest, rfl, char, none⟩ := h.exists_of_cons
  obtain rfl : rest = [] := List.map_eq_nil_iff.1 none.symm
  exact ⟨c, rfl, char⟩

/-- Parts of the lexemes spell parts of the text. -/
theorem exists_of_append {ms : List Lexeme} (h : Spell (ls ++ ms) text) :
    ∃ s t, text = s ++ t ∧ Spell ls s ∧ Spell ms t := by
  rw [Spell, List.map_append] at h
  obtain ⟨s, t, eq, first, second⟩ := List.map_eq_append_iff.1 h.symm
  exact ⟨s, t, eq, first.symm, second.symm⟩

/-- The parts of a text are spelt by parts of its lexemes. -/
theorem exists_append {s t : List Char} (h : Spell ls (s ++ t)) :
    ∃ ks ms, ls = ks ++ ms ∧ Spell ks s ∧ Spell ms t := by
  rw [Spell, List.map_append] at h
  exact List.map_eq_append_iff.1 h

/-- Blanks spell nothing solid. -/
theorem solid_eq_nil (h : Spell ls text) (blank : ∀ c ∈ text, Text.isBlank c = true) :
    solid ls = [] := by
  rw [solid, List.filter_eq_nil_iff]
  intro l mem shown
  cases char : l.char? with
  | none => simp [Lexeme.isSolid, char] at shown
  | some c => simp [Lexeme.isSolid_of_char? char, blank c (h.mem_of_char? mem char)] at shown

end Spell

/-- The text of a segment is spelt by its lexemes without comments. -/
theorem spell_spacedFrom (ls : List Lexeme) :
    ∀ text, ∃ more, ls.foldl extendText text = more.reverse ++ text ∧
      Spell (spacedFrom text.head? ls) more := by
  induction ls with
  | nil => exact fun text => ⟨[], rfl, rfl⟩
  | cons l ls ih =>
    intro text
    -- Each lexeme writes one character, except for the ends of some block comments.
    have written : ∀ c k, k.char? = some c → extendText text l = c :: text →
        spacedFrom text.head? (l :: ls) = k :: spacedFrom (some c) ls →
        ∃ more, (l :: ls).foldl extendText text = more.reverse ++ text ∧
          Spell (spacedFrom text.head? (l :: ls)) more := by
      intro c k char extended spaced
      obtain ⟨more, eq, spells⟩ := ih (c :: text)
      refine ⟨c :: more, ?_, spaced ▸ spells.cons char⟩
      rw [List.foldl_cons, extended, eq]
      simp
    cases l with
    | code c => exact written c (.code c) rfl rfl rfl
    | literal c => exact written c (.literal c) rfl rfl rfl
    | lineEnd => exact written '\n' (.code '\n') rfl rfl rfl
    | blockEnd =>
      cases text with
      | nil => exact ih []
      | cons c text =>
        cases blank : Text.isBlank c with
        | true =>
          have extended : extendText (c :: text) .blockEnd = c :: text := if_pos blank
          have spaced : spacedFrom (some c) (.blockEnd :: ls) = spacedFrom (some c) ls :=
            if_pos blank
          obtain ⟨more, eq, spells⟩ := ih (c :: text)
          exact ⟨more, by rw [List.foldl_cons, extended, eq], spaced ▸ spells⟩
        | false =>
          exact written ' ' (.code ' ') rfl (if_neg (Bool.eq_false_iff.1 blank))
            (if_neg (Bool.eq_false_iff.1 blank))

/-- Only blanks are put in place of comments, so the other lexemes stay as they are. -/
theorem filter_spacedFrom {p : Lexeme → Bool}
    (blank : ∀ c, Text.isBlank c = true → p (.code c) = false) (blockEnd : p .blockEnd = false)
    (lineEnd : p .lineEnd = false) (ls : List Lexeme) :
    ∀ last, (spacedFrom last ls).filter p = ls.filter p := by
  induction ls with
  | nil => exact fun last => rfl
  | cons l ls ih =>
    intro last
    have kept : ∀ (k : Lexeme) (last : Option Char),
        (k :: spacedFrom last ls).filter p = (k :: ls).filter p := by
      intro k last
      rw [List.filter_cons, List.filter_cons, ih]
    have added : ∀ c, Text.isBlank c = true →
        (.code c :: spacedFrom (some c) ls : List Lexeme).filter p = ls.filter p := by
      intro c isBlank
      rw [List.filter_cons, blank c isBlank, if_neg Bool.false_ne_true, ih]
    cases l with
    | code c => exact kept (.code c) (some c)
    | literal c => exact kept (.literal c) (some c)
    | lineEnd =>
      rw [spacedFrom, added '\n' rfl, List.filter_cons, lineEnd, if_neg Bool.false_ne_true]
    | blockEnd =>
      rw [List.filter_cons, blockEnd, if_neg Bool.false_ne_true]
      cases last with
      | none => exact ih none
      | some c =>
        rw [spacedFrom]
        split
        · exact ih (some c)
        · exact added ' ' rfl

theorem solid_spacedFrom (ls : List Lexeme) (last : Option Char) :
    solid (spacedFrom last ls) = solid ls :=
  filter_spacedFrom (fun c blank => by rw [Lexeme.isSolid_of_char? rfl, blank]; rfl) rfl rfl ls last

/-- No mark of a comment arises where comments are taken out. -/
theorem IsReading.spacedFrom {mode : Mode} {ls : List Lexeme} (h : IsReading mode ls) :
    ∀ last, IsReading mode (spacedFrom last ls) := by
  -- Behind a slash or a dash there is always a blank in place of a comment.
  have apart : ∀ (c d : Char) (rest : List Lexeme), Text.isBlank c = false →
      Text.isBlank d = false → rest.head? ≠ some (.code d) →
      (Sql.spacedFrom (some c) rest).head? ≠ some (.code d) := by
    intro c d rest solidC solidD other
    have notBlank : ∀ b, Text.isBlank b = true → b ≠ d := by
      rintro b blank rfl
      exact absurd (blank.symm.trans solidD) (by decide)
    cases rest with
    | nil => rintro ⟨⟩
    | cons l rest =>
      cases l with
      | code b => exact other
      | literal b => simp [Sql.spacedFrom]
      | lineEnd => simpa [Sql.spacedFrom] using notBlank '\n' rfl
      | blockEnd => simpa [Sql.spacedFrom, solidC] using notBlank ' ' rfl
  induction h with
  | nil => exact fun last => .nil
  | code plain slash dash more ih =>
    intro last
    refine .code plain (fun eq => ?_) (fun eq => ?_) (ih _)
    · exact apart _ _ _ (eq ▸ rfl) rfl (slash eq)
    · exact apart _ _ _ (eq ▸ rfl) rfl (dash eq)
  | quote opens more ih => exact fun last => .quote opens (ih _)
  | literal more ih => exact fun last => .literal (ih _)
  | lineEnd more ih =>
    intro last
    exact .code rfl (fun eq => absurd eq (by decide)) (fun eq => absurd eq (by decide)) (ih _)
  | blockEnd more ih =>
    intro last
    cases last with
    | none => exact ih none
    | some c =>
      rw [Sql.spacedFrom]
      split
      · exact ih (some c)
      · exact .code rfl (fun eq => absurd eq (by decide)) (fun eq => absurd eq (by decide)) (ih _)

/-! ## Read again -/

/-- The mode after a lexeme. -/
def Mode.next (mode : Mode) : Lexeme → Mode
  | .literal c =>
    match mode with
    | literal quote escaping => afterLiteral quote escaping c
    | _ => literal c false
  | _ => code

/-- What follows some lexemes is read in the mode after them. -/
theorem IsReading.after {mode : Mode} {ks ms : List Lexeme}
    (h : IsReading mode (ks ++ ms)) : IsReading (ks.foldl Mode.next mode) ms := by
  induction ks generalizing mode with
  | nil => exact h
  | cons k ks ih =>
    cases h with
    | code _ _ _ more => exact ih more
    | quote _ more => exact ih more
    | literal more => exact ih more
    | blockEnd more => exact ih more
    | lineEnd more => exact ih more

/-- Lexemes without comments are read from their own characters. -/
theorem lex_of_isReading {mode : Mode} {ls : List Lexeme} (h : IsReading mode ls) :
    ∀ {text}, Spell ls text → lex mode text = (ls, ls.foldl Mode.next mode) := by
  have first : ∀ {d : Char} {rest : List Lexeme} {text : List Char}, IsReading .code rest →
      opensLiteral d = false → Spell rest text → text.head? = some d →
      rest.head? = some (.code d) := by
    intro d rest text more plain spells head
    cases rest with
    | nil =>
      obtain rfl : text = [] := List.map_eq_nil_iff.1 spells.symm
      cases head
    | cons l rest =>
      obtain ⟨c, text, rfl, char, -⟩ := spells.exists_of_cons
      obtain rfl : c = d := Option.some.inj head
      cases more with
      | code _ _ _ _ => rw [List.head?_cons, Option.some.inj char]
      | quote opens _ =>
        rw [Option.some.inj char, plain] at opens
        exact absurd opens (by decide)
      | blockEnd _ => cases char
      | lineEnd _ => cases char
  induction h with
  | nil =>
    intro text spells
    obtain rfl : text = [] := List.map_eq_nil_iff.1 spells.symm
    rw [lex]
    rfl
  | code plain slash dash more ih =>
    intro text spells
    obtain ⟨c, text, rfl, char, rest⟩ := spells.exists_of_cons
    obtain rfl := Option.some.inj char
    rw [lex_code_cons plain (fun eq head => slash eq (first more rfl rest head))
      (fun eq head => dash eq (first more rfl rest head)), ih rest]
    rfl
  | quote opens more ih =>
    intro text spells
    obtain ⟨c, text, rfl, char, rest⟩ := spells.exists_of_cons
    obtain rfl := Option.some.inj char
    rw [lex_code_quote opens, ih rest]
    rfl
  | literal more ih =>
    intro text spells
    obtain ⟨c, text, rfl, char, rest⟩ := spells.exists_of_cons
    obtain rfl := Option.some.inj char
    rw [lex_literal_cons, ih rest]
    rfl
  | blockEnd more ih =>
    intro text spells
    obtain ⟨c, text, rfl, char, -⟩ := spells.exists_of_cons
    cases char
  | lineEnd more ih =>
    intro text spells
    obtain ⟨c, text, rfl, char, -⟩ := spells.exists_of_cons
    cases char

/-- Blanks before a text are plain code, so the text after them is read in plain code. -/
theorem IsReading.drop_blank {ks ls : List Lexeme} {before : List Char} (spells : Spell ks before)
    (blank : ∀ c ∈ before, Text.isBlank c = true) (h : IsReading .code (ks ++ ls)) :
    IsReading .code ls := by
  induction ks generalizing before with
  | nil => exact h
  | cons k ks ih =>
    obtain ⟨c, before, rfl, char, rest⟩ := spells.exists_of_cons
    have others : ∀ d ∈ before, Text.isBlank d = true :=
      fun d mem => blank d (List.mem_cons_of_mem c mem)
    cases h with
    | code _ _ _ more => exact ih rest others more
    | quote opens _ =>
      obtain rfl := Option.some.inj char
      have here := blank _ List.mem_cons_self
      simp only [opensLiteral, Bool.or_eq_true, beq_iff_eq] at opens
      rcases opens with rfl | rfl <;> exact absurd here (by decide)
    | blockEnd _ => cases char
    | lineEnd _ => cases char

end Rollback.Sql

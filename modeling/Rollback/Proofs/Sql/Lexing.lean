import Rollback.Proofs.Text.Words
import Rollback.Reversal.Basic
import Rollback.Sql.Script

/-!
# Lexing of texts put together

A text that is read in plain code and ends in plain code adds the same lexemes whatever follows it,
so the lexemes of a script are those of its texts one after another.

- `LexesTo`: a text adds given lexemes in front of those of the rest
- `isQuiet`, `lexesTo_of_isQuiet`: texts without quotes and comments are read as they are
- `CommentText`, `lexesTo_literal`: a literal in single quotes is read as one
- `lexesTo_blockComment`: a block comment leaves nothing but its end
-/

set_option autoImplicit false

namespace Rollback.Sql

/-- In plain code, a text adds the given lexemes in front of those of the rest. -/
def LexesTo (s : List Char) (ls : List Lexeme) : Prop :=
  ∀ rest, lex .code (s ++ rest) = (ls ++ (lex .code rest).1, (lex .code rest).2)

theorem LexesTo.nil : LexesTo [] [] := fun _ => rfl

theorem LexesTo.append {s t : List Char} {ls ms : List Lexeme} (hs : LexesTo s ls)
    (ht : LexesTo t ms) : LexesTo (s ++ t) (ls ++ ms) := by
  intro rest
  rw [List.append_assoc, hs, ht, List.append_assoc]

/-- After a text that is read on its own, the rest is read as if it stood alone. -/
theorem LexesTo.lexemes_append {s : List Char} {ls : List Lexeme} (h : LexesTo s ls)
    (rest : List Char) : lexemes (s ++ rest) = ls ++ lexemes rest := by
  rw [lexemes, h]
  rfl

/-! ## Plain code -/

/-- A text that neither opens a literal nor a comment, not even together with what follows it. -/
def isQuiet : List Char → Bool
  | [] => true
  | [c] => !opensLiteral c && c != '/' && c != '-'
  | c :: d :: rest =>
    !opensLiteral c && !(c == '/' && d == '*') && !(c == '-' && d == '-') && isQuiet (d :: rest)

/-- A character that opens nothing is code. -/
theorem lex_code_cons {c : Char} (plain : opensLiteral c = false) {rest : List Char}
    (slash : c = '/' → rest.head? ≠ some '*') (dash : c = '-' → rest.head? ≠ some '-') :
    lex .code (c :: rest) = (.code c :: (lex .code rest).1, (lex .code rest).2) := by
  rw [lex, plain]
  · rfl
  · intro more eq star
    exact slash eq (star ▸ rfl)
  · intro more eq second
    exact dash eq (second ▸ rfl)

/-- A quiet text is code, character by character. -/
theorem lexesTo_of_isQuiet : ∀ {s : List Char}, isQuiet s = true → LexesTo s (s.map .code)
  | [], _ => .nil
  | [c], h => by
    simp only [isQuiet, Bool.and_eq_true, Bool.not_eq_true', bne_iff_ne] at h
    intro rest
    exact lex_code_cons h.1.1 (fun eq => absurd eq h.1.2) fun eq => absurd eq h.2
  | c :: d :: more, h => by
    simp only [isQuiet, Bool.and_eq_true, Bool.not_eq_true', Bool.and_eq_false_iff,
      beq_eq_false_iff_ne] at h
    obtain ⟨⟨⟨plain, slash⟩, dash⟩, quiet⟩ := h
    intro rest
    have head : lex .code (c :: (d :: more ++ rest)) =
        (.code c :: (lex .code (d :: more ++ rest)).1, (lex .code (d :: more ++ rest)).2) := by
      -- Whether a comment starts is settled by the next character, which belongs to the text.
      refine lex_code_cons plain (fun eq star => ?_) (fun eq second => ?_)
      · rcases slash with h | h
        · exact h eq
        · exact h (by simpa using star)
      · rcases dash with h | h
        · exact h eq
        · exact h (by simpa using second)
    rw [List.cons_append, head, lexesTo_of_isQuiet quiet rest]
    rfl

/-- Characters of which none is special make up a quiet text. -/
theorem isQuiet_of_forall : ∀ {s : List Char},
    (∀ c ∈ s, opensLiteral c = false ∧ c ≠ '/' ∧ c ≠ '-') → isQuiet s = true
  | [], _ => rfl
  | [c], h => by
    obtain ⟨plain, slash, dash⟩ := h c List.mem_cons_self
    simp [isQuiet, plain, slash, dash]
  | c :: d :: rest, h => by
    obtain ⟨plain, slash, dash⟩ := h c List.mem_cons_self
    have more := isQuiet_of_forall fun e he => h e (List.mem_cons_of_mem c he)
    simp [isQuiet, plain, slash, dash, more]

theorem isQuiet_of_word {s : List Char} (h : ∀ c ∈ s, Text.isWordChar c = true) :
    isQuiet s = true := by
  refine isQuiet_of_forall fun c hc => ?_
  exact Text.forall_ascii
    (p := fun c => Text.isWordChar c = true → opensLiteral c = false ∧ c ≠ '/' ∧ c ≠ '-')
    (by decide) (Text.ascii_of_isWordChar (h c hc)) (h c hc)

/-! ## Literals -/

/-- The text of a comment as it stands between single quotes: a quote is doubled or has a backslash
before it, and after a pair of backslashes there comes another character than a quote. -/
inductive CommentText : List Char → Prop where
  | nil : CommentText []
  | plain {c : Char} {rest : List Char} (notQuote : c ≠ '\x27') (notBackslash : c ≠ '\\')
      (more : CommentText rest) : CommentText (c :: rest)
  | doubled {rest : List Char} (more : CommentText rest) :
      CommentText ('\x27' :: '\x27' :: rest)
  | escaped {c : Char} {rest : List Char} (notBackslash : c ≠ '\\') (more : CommentText rest) :
      CommentText ('\\' :: c :: rest)
  | backslash {c : Char} {rest : List Char} (notQuote : c ≠ '\x27')
      (more : CommentText (c :: rest)) : CommentText ('\\' :: '\\' :: c :: rest)

/-- Characters that are neither quotes nor backslashes can stand before any text of a comment. -/
theorem CommentText.plain_append {s rest : List Char}
    (quiet : (s.all fun c => c != '\x27' && c != '\\') = true) (more : CommentText rest) :
    CommentText (s ++ rest) := by
  induction s with
  | nil => exact more
  | cons c s ih =>
    simp only [List.all_cons, Bool.and_eq_true, bne_iff_ne] at quiet
    exact .plain quiet.1.1 quiet.1.2 (ih quiet.2)

theorem lex_literal_cons (quote : Char) (escaping : Bool) (c : Char) (rest : List Char) :
    lex (.literal quote escaping) (c :: rest) =
      (.literal c :: (lex (afterLiteral quote escaping c) rest).1,
        (lex (afterLiteral quote escaping c) rest).2) := by
  rw [lex]

theorem lex_code_quote {quote : Char} (opens : opensLiteral quote = true) (rest : List Char) :
    lex .code (quote :: rest) =
      (.literal quote :: (lex (.literal quote false) rest).1,
        (lex (.literal quote false) rest).2) := by
  rw [lex, opens]
  · rfl
  · intro _ eq
    exact absurd opens (eq ▸ by decide)
  · intro _ eq
    exact absurd opens (eq ▸ by decide)

/-- The text of a comment and the quote after it end a literal. Right after a pair of backslashes
the reader takes a quote for an escaped one, so no quote may come there. -/
theorem lex_commentText {x : List Char} (h : CommentText x) :
    ∀ (escaping : Bool), (escaping = true → ∃ c rest, x = c :: rest ∧ c ≠ '\x27') →
      ∀ rest, lex (.literal '\x27' escaping) (x ++ '\x27' :: rest) =
        ((x ++ ['\x27']).map .literal ++ (lex .code rest).1, (lex .code rest).2) := by
  -- A quote is taken for an escaped one exactly while `escaping`, so each constructor says what it
  -- leaves behind.
  induction h with
  | nil =>
    intro escaping safe rest
    cases escaping with
    | true => obtain ⟨c, more, eq, -⟩ := safe rfl; exact absurd eq (by simp)
    | false => rw [List.nil_append, lex_literal_cons]; rfl
  | @plain c more notQuote notBackslash _ ih =>
    intro escaping safe rest
    have after : afterLiteral '\x27' escaping c = .literal '\x27' false := by
      simp [afterLiteral, notQuote, notBackslash]
    rw [List.cons_append, lex_literal_cons, after, ih false (by simp)]
    rfl
  | @doubled more _ ih =>
    intro escaping safe rest
    cases escaping with
    | true =>
      obtain ⟨c, _, eq, notQuote⟩ := safe rfl
      exact absurd (List.cons_eq_cons.1 eq).1.symm notQuote
    | false =>
      have first : afterLiteral '\x27' false '\x27' = .code := rfl
      rw [List.cons_append, lex_literal_cons, first, List.cons_append, lex_code_quote rfl,
        ih false (by simp)]
      rfl
  | @escaped c more notBackslash _ ih =>
    intro escaping safe rest
    have first : afterLiteral '\x27' escaping '\\' = .literal '\x27' true := by
      simp [afterLiteral]
    have second : afterLiteral '\x27' true c = .literal '\x27' false := by
      simp [afterLiteral, notBackslash]
    rw [List.cons_append, lex_literal_cons, first, List.cons_append, lex_literal_cons, second,
      ih false (by simp)]
    rfl
  | @backslash c more notQuote _ ih =>
    intro escaping safe rest
    have first : ∀ escaping, afterLiteral '\x27' escaping '\\' = .literal '\x27' true := by
      simp [afterLiteral]
    rw [List.cons_append, lex_literal_cons, first, List.cons_append, lex_literal_cons, first,
      ih true fun _ => ⟨c, more, rfl, notQuote⟩]
    rfl

/-- A comment between quotes is one literal. -/
theorem lexesTo_literal {x : List Char} (h : CommentText x) :
    LexesTo ('\x27' :: x ++ ['\x27']) (('\x27' :: x ++ ['\x27']).map .literal) := by
  intro rest
  have inside := lex_commentText h false (by simp) rest
  rw [List.append_assoc, List.cons_append, List.singleton_append, lex_code_quote rfl, inside]
  rfl

/-- Inside a literal, a word is read up to the quote after it. -/
theorem lex_literal_word {quote : Char} (opens : opensLiteral quote = true) {w : List Char}
    (h : ∀ c ∈ w, Text.isWordChar c = true) (rest : List Char) :
    lex (.literal quote false) (w ++ quote :: rest) =
      ((w ++ [quote]).map .literal ++ (lex .code rest).1, (lex .code rest).2) := by
  induction w with
  | nil =>
    have last : afterLiteral quote false quote = .code := by simp [afterLiteral]
    rw [List.nil_append, lex_literal_cons, last]
    rfl
  | cons c w ih =>
    have word := h c List.mem_cons_self
    have notQuote : c ≠ quote := by
      rintro rfl
      have plain : opensLiteral c = false := Text.forall_ascii
        (p := fun c => Text.isWordChar c = true → opensLiteral c = false) (by decide)
        (Text.ascii_of_isWordChar word) word
      rw [plain] at opens
      exact absurd opens (by decide)
    have notBackslash : c ≠ '\\' := by
      rintro rfl
      exact absurd word (by decide)
    have after : afterLiteral quote false c = .literal quote false := by
      simp [afterLiteral, notQuote, notBackslash]
    rw [List.cons_append, lex_literal_cons, after, ih fun d hd => h d (List.mem_cons_of_mem c hd)]
    rfl

/-- A word in quotes is a literal. -/
theorem lexesTo_quotedWord {quote : Char} (opens : opensLiteral quote = true) {w : List Char}
    (h : ∀ c ∈ w, Text.isWordChar c = true) :
    LexesTo (quote :: w ++ [quote]) ((quote :: w ++ [quote]).map .literal) := by
  intro rest
  rw [List.append_assoc, List.cons_append, List.singleton_append, lex_code_quote opens,
    lex_literal_word opens h]
  rfl

/-! ## Block comments -/

/-- Inside a block comment, all is passed over but its end. -/
theorem lex_blockComment_cons {c : Char} {rest : List Char}
    (h : c = '*' → rest.head? ≠ some '/') :
    lex .blockComment (c :: rest) = lex .blockComment rest := by
  rw [lex]
  intro more star slash
  exact h star (slash ▸ rfl)

/-- A softened text does not end a block comment. -/
theorem lex_softenChars (text rest : List Char) (hr : rest.head? ≠ some '/') :
    lex .blockComment (softenChars text ++ rest) = lex .blockComment rest := by
  induction text using softenChars.induct with
  | case1 text ih =>
    rw [softenChars, List.cons_append, lex_blockComment_cons (by simp), List.cons_append,
      lex_blockComment_cons (by simp), List.cons_append, lex_blockComment_cons (by simp), ih]
  | case2 c text notEnd ih =>
    rw [softenChars, List.cons_append, lex_blockComment_cons, ih]
    · intro star
      cases text with
      | nil => exact hr
      | cons d text =>
        have other : d ≠ '/' := fun slash => notEnd text star (slash ▸ rfl)
        -- Softening keeps the first character, so the star is still not before a slash.
        have head : (softenChars (d :: text) ++ rest).head? = some d := by
          rw [softenChars.eq_def]
          split
          · rename_i eq
            obtain ⟨rfl, -⟩ := List.cons_eq_cons.1 eq
            rfl
          · rename_i eq
            obtain ⟨rfl, -⟩ := List.cons_eq_cons.1 eq
            rfl
          · rename_i eq
            exact absurd eq (by simp)
        rw [head]
        simpa using other
    · exact notEnd
  | case3 => rfl

theorem lex_blockComment_append {before : List Char} (quiet : '*' ∉ before) (tail : List Char) :
    lex .blockComment (before ++ tail) = lex .blockComment tail := by
  induction before with
  | nil => rfl
  | cons c before ih =>
    rw [List.mem_cons, not_or] at quiet
    rw [List.cons_append, lex_blockComment_cons fun star => absurd star.symm quiet.1, ih quiet.2]

/-- A block comment around a softened text leaves nothing but its end. -/
theorem lexesTo_blockComment (before text : List Char) (quiet : '*' ∉ before) :
    LexesTo ('/' :: '*' :: (before ++ softenChars text) ++ " */".toList) [.blockEnd] := by
  intro rest
  have text : ('/' :: '*' :: (before ++ softenChars text) ++ " */".toList) ++ rest =
      '/' :: '*' :: (before ++ (softenChars text ++ ' ' :: '*' :: '/' :: rest)) := by
    simp
  rw [text, lex, lex_blockComment_append quiet, lex_softenChars _ _ (by simp),
    lex_blockComment_cons (by simp), lex]
  rfl

end Rollback.Sql

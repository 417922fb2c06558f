import Rollback.Proofs.Schema.ColumnLists
import Rollback.Sql.Recognition

/-!
# Parts of an ALTER TABLE statement

What follows the table of an ALTER TABLE statement is cut at its commas. Those in parentheses and
quotes do not count, so clauses with arguments come out as they were put together.

- `IsNested`, `IsPart`: texts that are read as a piece of one part, in parentheses or outside
- `actionParts_eq`: clauses with commas between them are cut apart again
- `expandActions?_eq_none_of_parts`: statements that stand for themselves only
-/

set_option autoImplicit false

namespace Rollback.Sql

/-- In parentheses, the text is read as a piece of one part, whatever follows it. -/
def IsNested (s : List Char) : Prop :=
  ∀ depth, depth ≠ 0 → ∀ part rest, partsFrom .honoured none depth part (s ++ rest) =
    partsFrom .honoured none depth (s.reverse ++ part) rest

/-- Outside parentheses, the text is read as a piece of one part, whatever follows it. -/
def IsPart (s : List Char) : Prop :=
  ∀ part rest, partsFrom .honoured none 0 part (s ++ rest) =
    partsFrom .honoured none 0 (s.reverse ++ part) rest

section

variable {s t : List Char}

theorem isNested_of_inert (h : ∀ c ∈ s, Inert c) : IsNested s := fun depth inside =>
  partsFrom_of_inert depth h fun outside => absurd outside inside

theorem IsNested.nil : IsNested [] := fun _ _ _ _ => rfl

theorem IsNested.append (hs : IsNested s) (ht : IsNested t) : IsNested (s ++ t) := by
  intro depth inside part rest
  rw [List.append_assoc, hs depth inside, ht depth inside, List.reverse_append, List.append_assoc]

/-- Inside quotes the scanner only looks for the same quote. -/
theorem partsFrom_untilQuote {q : Char}
    (h : ∀ c ∈ s, c ≠ q ∧ (c == '\\' && q == '\x27') = false) (depth : Nat)
    (part rest : List Char) :
    partsFrom .honoured (some q) depth part (s ++ q :: rest) =
      partsFrom .honoured none depth (q :: s.reverse ++ part) rest := by
  induction s generalizing part with
  | nil =>
    have closing : (q == '\\' && q == '\x27') = false := by
      refine Bool.eq_false_iff.2 fun both => ?_
      rw [Bool.and_eq_true, beq_iff_eq, beq_iff_eq] at both
      exact absurd (both.1.symm.trans both.2) (by decide)
    rw [List.nil_append, partsFrom.eq_def]
    simp only [closing, beq_self_eq_true]
    rfl
  | cons c s ih =>
    obtain ⟨other, escape⟩ := h c List.mem_cons_self
    have step : partsFrom .honoured (some q) depth part (c :: (s ++ q :: rest)) =
        partsFrom .honoured (some q) depth (c :: part) (s ++ q :: rest) := by
      rw [partsFrom.eq_def]
      simp only [escape, beq_eq_false_iff_ne.2 other]
      rfl
    rw [List.cons_append, step, ih fun d hd => h d (List.mem_cons_of_mem c hd)]
    simp

/-- A text in quotes is passed over up to the quote that ends it. -/
theorem partsFrom_quoted {q : Char} (quote : isQuote q = true)
    (h : ∀ c ∈ s, c ≠ q ∧ (c == '\\' && q == '\x27') = false) (depth : Nat)
    (part rest : List Char) :
    partsFrom .honoured none depth part (q :: (s ++ q :: rest)) =
      partsFrom .honoured none depth (q :: s.reverse ++ q :: part) rest := by
  have start : partsFrom .honoured none depth part (q :: (s ++ q :: rest)) =
      partsFrom .honoured (some q) depth (q :: part) (s ++ q :: rest) := by
    rw [partsFrom.eq_def]
    simp only [quote]
    rfl
  rw [start, partsFrom_untilQuote h]

/-- A literal without quotes and backslashes in it can stand in parentheses. -/
theorem isNested_literal (h : ∀ c ∈ s, c ≠ '\x27' ∧ c ≠ '\\') :
    IsNested ('\x27' :: s ++ ['\x27']) := by
  intro depth inside part rest
  have quoted := partsFrom_quoted (q := '\x27') rfl
    (fun c hc => ⟨(h c hc).1, by simp [(h c hc).2]⟩) depth part rest
  have shape : '\x27' :: s ++ ['\x27'] ++ rest = '\x27' :: (s ++ '\x27' :: rest) := by simp
  rw [shape, quoted]
  simp

/-- A text in parentheses is read as a piece of the part that it stands in. -/
theorem partsFrom_parenthesized (h : IsNested s) (depth : Nat) (part rest : List Char) :
    partsFrom .honoured none depth part ('(' :: s ++ [')'] ++ rest) =
      partsFrom .honoured none depth (('(' :: s ++ [')']).reverse ++ part) rest := by
  have first : partsFrom .honoured none depth part ('(' :: (s ++ ')' :: rest)) =
      partsFrom .honoured none (depth + 1) ('(' :: part) (s ++ ')' :: rest) := rfl
  have last : partsFrom .honoured none (depth + 1) (s.reverse ++ '(' :: part) (')' :: rest) =
      partsFrom .honoured none depth (')' :: (s.reverse ++ '(' :: part)) rest := rfl
  have shape : '(' :: s ++ [')'] ++ rest = '(' :: (s ++ ')' :: rest) := by simp
  rw [shape, first, h (depth + 1) (Nat.succ_ne_zero depth), last]
  simp

/-- A nested text is still so in parentheses. -/
theorem isNested_parenthesized (h : IsNested s) : IsNested ('(' :: s ++ [')']) :=
  fun depth _ => partsFrom_parenthesized h depth

theorem IsPart.append (hs : IsPart s) (ht : IsPart t) : IsPart (s ++ t) := by
  intro part rest
  rw [List.append_assoc, hs, ht, List.reverse_append, List.append_assoc]

/-- A text without quotes, parentheses and commas is one part. -/
theorem isPart_of_inert (h : ∀ c ∈ s, Inert c) (commas : ',' ∉ s) : IsPart s :=
  partsFrom_of_inert 0 h fun _ => commas

theorem isPart_of_word (h : ∀ c ∈ s, Text.isWordChar c = true) : IsPart s :=
  isPart_of_inert (inert_of_word h) fun mem => absurd (h _ mem) (by decide)

/-- In parentheses, commas do not count. -/
theorem isPart_parenthesized (h : IsNested s) : IsPart ('(' :: s ++ [')']) :=
  partsFrom_parenthesized h 0

/-- A name in double quotes can hold commas and parentheses. -/
theorem isPart_quotedName (h : '\x22' ∉ s) : IsPart ('\x22' :: s ++ ['\x22']) := by
  intro part rest
  have quoted := partsFrom_quoted (s := s) (q := '\x22') rfl
    (fun c hc => ⟨fun same => h (same ▸ hc), by simp⟩) 0 part rest
  have shape : '\x22' :: s ++ ['\x22'] ++ rest = '\x22' :: (s ++ '\x22' :: rest) := by simp
  rw [shape, quoted]
  simp

end

/-- Parts with commas between them are cut apart; what was read before belongs to the first. -/
theorem partsFrom_intercalate {clauses : List (List Char)} (h : ∀ c ∈ clauses, IsPart c)
    (clause : List Char) (first : IsPart clause) :
    ∀ part, partsFrom .honoured none 0 part ([','].intercalate (clause :: clauses)) =
      (part.reverse ++ clause) :: clauses := by
  induction clauses generalizing clause with
  | nil =>
    intro part
    have all := first part []
    rw [List.append_nil] at all
    rw [List.intercalate_singleton, all, partsFrom]
    simp
  | cons next rest ih =>
    intro part
    have cut : ∀ part rest, partsFrom .honoured none 0 part (',' :: rest) =
        part.reverse :: partsFrom .honoured none 0 [] rest := fun _ _ => rfl
    rw [List.intercalate_cons_cons, List.append_assoc, first, List.singleton_append, cut,
      ih (fun c hc => h c (List.mem_cons_of_mem next hc)) next (h next List.mem_cons_self)]
    simp

/-- Clauses with commas between them and a semicolon after the last one are cut apart again. -/
theorem actionParts_eq {clause : List Char} {clauses : List (List Char)}
    (h : ∀ c ∈ clause :: clauses, IsPart c) {d : Char} (solid : (d == ';') = false)
    (closed : ([','].intercalate (clause :: clauses)).getLast? = some d) :
    actionParts ([','].intercalate (clause :: clauses) ++ [';']) =
      ((clause :: clauses).map Text.trim).filter fun part => !part.isEmpty := by
  have trimmed : Text.trimEnd ([','].intercalate (clause :: clauses) ++ [';']) =
      [','].intercalate (clause :: clauses) ++ [';'] :=
    Text.dropEndWhile_eq_self fun c hc => by
      rw [List.getLast?_concat, Option.mem_some_iff] at hc
      exact hc ▸ rfl
  have ends : dropTerminators ([','].intercalate (clause :: clauses) ++ [';']) =
      [','].intercalate (clause :: clauses) := by
    rw [dropTerminators, trimmed, Text.dropEndWhile_append_of_all (by simp)]
    refine Text.dropEndWhile_eq_self fun c hc => ?_
    rw [closed, Option.mem_some_iff] at hc
    exact hc ▸ solid
  rw [actionParts, ends, topLevelParts, partsFrom_intercalate
    (fun c hc => h c (List.mem_cons_of_mem clause hc)) clause (h clause List.mem_cons_self)]
  rfl

/-- One clause before the semicolon is one part at most. -/
theorem length_actionParts_le {clause : List Char} (h : IsPart clause) {d : Char}
    (solid : (d == ';') = false) (closed : clause.getLast? = some d) :
    (actionParts (clause ++ [';'])).length ≤ 1 := by
  have parts : actionParts ([','].intercalate [clause] ++ [';']) = _ := actionParts_eq
    (fun c hc => List.mem_singleton.1 hc ▸ h) solid (List.intercalate_singleton ▸ closed)
  rw [List.intercalate_singleton] at parts
  rw [parts]
  exact List.length_filter_le _ _

/-- A statement with one action, or with a part that does not start with an action word, is not
expanded. -/
theorem expandActions?_eq_none_of_parts {text : List Char} (trimmed : Text.Trimmed text)
    (h : ∀ m, alterTableHeadPhrase.match? text = some m → (actionParts m.rest).length ≤ 1 ∨
      ∃ part ∈ actionParts m.rest, startsWithAction part = false) :
    expandActions? (String.ofList text) = none := by
  rw [expandActions?, expandActionTexts?, String.toList_ofList, trimmed.trim_eq]
  cases found : alterTableHeadPhrase.match? text with
  | none => rfl
  | some m =>
    have refused : ((actionParts m.rest).length < 2 || !(actionParts m.rest).all startsWithAction) =
        true := by
      rw [Bool.or_eq_true, decide_eq_true_iff, Bool.not_eq_true', List.all_eq_false]
      rcases h m found with few | ⟨part, mem, other⟩
      · exact .inl (Nat.lt_succ_of_le few)
      · exact .inr ⟨part, mem, Bool.eq_false_iff.1 other⟩
    show ((if _ then none else some _).map _ : Option (List String)) = none
    rw [if_pos refused]
    rfl

end Rollback.Sql

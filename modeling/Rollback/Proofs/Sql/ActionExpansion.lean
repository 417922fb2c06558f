import Rollback.Proofs.Sql.ActionParts
import Rollback.Proofs.Sql.AlterHeads

/-!
# Expansion of chained actions

A chained ALTER TABLE statement is expanded to its head with one action after the other, and no
action is lost, made up or cut: between them there were only commas outside quotes and parentheses.
What it is expanded to is not expanded again, whatever its head and its actions look like.

- `IsExpansion`: what a statement and the statements that it is expanded to have in common
- `exists_isExpansion`: a statement is expanded so
- `IsExpansion.expandActions?_eq_none`: a statement with one action stands for itself
- `expansion_exact_final`: expansion is exact, and there is nothing left to expand after it
-/

set_option autoImplicit false

namespace Rollback.Sql

open Pattern

/-! ## One action after a head -/

section

variable {head part body : List Char} {m : Match Operand}

/-- What is dropped from the end opens nothing and adds no comma. -/
theorem CommaFree.dropTerminators {escapes : Escapes} {mode : ListMode}
    (h : CommaFree escapes mode body) : CommaFree escapes mode (Sql.dropTerminators body) := by
  obtain ⟨blanks, first, -⟩ := Text.exists_trimEnd body
  obtain ⟨semicolons, second, -⟩ := Text.exists_dropEndWhile (· == ';') (Text.trimEnd body)
  rw [first, second] at h
  exact h.left.left

/-- In front of an action, a head is read to its end, or the action word is taken for its name. -/
theorem AlterHead.afterInert_action (h : AlterHead head) (led : LedByAction part)
    (found : alterTableHeadPhrase.match? (singleAction head part) = some m) :
    AfterInert (part ++ [';']) m.rest := by
  obtain ⟨word, mem, w, rest, same, rfl, blank⟩ := led
  have words : ∀ word ∈ actionWords, word.toList ≠ [] ∧
      (∀ c ∈ word.toList, Text.isWordChar c = true) ∧ startsIn (.same 'E') word.toList = false := by
    decide
  obtain ⟨some_, letters, other⟩ := words word mem
  have length := eqIgnoringCase_length same
  rw [List.append_assoc]
  refine h.afterInert (w := w) ?_ (all_isWordChar_of_eqIgnoringCase same letters) ?_ ?_ ?_
  · rintro rfl
    exact some_ (List.eq_nil_of_length_eq_zero length)
  · rw [startsIn_same_of_eqIgnoringCase same, other]
  · intro c first
    cases rest with
    | nil => exact .inr (Option.some.inj first).symm
    | cons d rest => exact .inl (blank c first)
  · rwa [singleAction, List.append_assoc, List.cons_append, List.append_assoc] at found

/-- A head with one action stands for itself. -/
theorem AlterHead.expandActions?_eq_none (h : AlterHead head) (led : LedByAction part)
    (free : CommaFree .honoured (.plain 0) part) :
    expandActions? (String.ofList (singleAction head part)) = none := by
  have trimmed : Text.Trimmed (singleAction head part) := by
    rw [singleAction, List.append_assoc]
    exact h.trimmed.append_between (' ' :: part)
      (Text.trimmed_of_ends rfl rfl (by decide) (by decide)) h.ne_nil (by decide)
  refine expandActions?_eq_none_of_parts trimmed fun m found => .inl ?_
  obtain ⟨before, split, inert⟩ := h.afterInert_action led found
  have all : CommaFree .honoured (.plain 0) (part ++ [';']) := free.concat (by decide)
  rw [split] at all
  exact (all.drop_inert inert).dropTerminators.length_topLevelParts_le

end

/-! ## Expansion -/

/-- The parts that a list of pieces stands for: without blanks around them, and without
empty ones. -/
def partsOf (pieces : List (List Char)) : List (List Char) :=
  (pieces.map Text.trim).filter fun part => !part.isEmpty

theorem trimmed_of_mem_partsOf {pieces : List (List Char)} {part : List Char}
    (mem : part ∈ partsOf pieces) : Text.Trimmed part := by
  obtain ⟨piece, -, rfl⟩ := List.mem_map.1 (List.mem_filter.1 mem).1
  exact Text.trimmed_trim piece

/-- A text and the statements that it is expanded to. It is a head, pieces with commas between them
and semicolons at the end. -/
structure IsExpansion (text head : List Char) (pieces : List (List Char)) (acts : List String) :
    Prop where
  isHead : AlterHead head
  shape : ∃ gap ends, gap ≠ [] ∧ (∀ c ∈ gap, Text.isGap c = true) ∧ (∀ c ∈ ends, c = ';') ∧
    text = head ++ (gap ++ ([','].intercalate pieces ++ ends))
  /-- The commas between the pieces stand outside quotes and parentheses. -/
  outside : ∀ piece ∈ pieces.dropLast, (ListMode.plain 0).after .honoured piece = .plain 0
  /-- All others stand inside. -/
  inside : ∀ piece ∈ pieces, CommaFree .honoured (.plain 0) piece
  expanded : acts = (partsOf pieces).map fun part => String.ofList (head ++ ' ' :: part ++ [';'])
  two : 2 ≤ acts.length
  led : ∀ part ∈ partsOf pieces, LedByAction part ∧ CommaFree .honoured (.plain 0) part

/-- What an expansion is made of: a head, and at least two parts that start with an action. -/
theorem expandActions?_eq_some {stmt : String} {acts : List String}
    (h : expandActions? stmt = some acts) :
    ∃ m, alterTableHeadPhrase.match? (Text.trim stmt.toList) = some m ∧
      2 ≤ (actionParts m.rest).length ∧
        (∀ part ∈ actionParts m.rest, startsWithAction part = true) ∧
      acts = (actionParts m.rest).map fun part =>
        String.ofList (singleAction (Text.trim (m.text .head)) part) := by
  obtain ⟨texts, expanded, rfl⟩ := Option.map_eq_some_iff.1 h
  obtain ⟨m, found, expanded⟩ := Option.bind_eq_some_iff.1 expanded
  have expanded : (if (actionParts m.rest).length < 2 ||
      !(actionParts m.rest).all startsWithAction then none
      else some ((actionParts m.rest).map (singleAction (Text.trim (m.text .head))))) =
        some texts := expanded
  split at expanded
  · exact absurd expanded.symm (Option.some_ne_none _)
  · rename_i accepted
    obtain rfl := Option.some.inj expanded
    rw [Bool.or_eq_true, not_or, decide_eq_true_iff, Bool.not_eq_true', Bool.not_eq_false,
      List.all_eq_true] at accepted
    exact ⟨m, found, Nat.not_lt.1 accepted.1, accepted.2, List.map_map⟩

/-- A statement is expanded at the commas outside quotes and parentheses. -/
theorem exists_isExpansion {stmt : String} {acts : List String}
    (h : expandActions? stmt = some acts) :
    ∃ head pieces, IsExpansion (Text.trim stmt.toList) head pieces acts := by
  obtain ⟨m, found, two, led, rfl⟩ := expandActions?_eq_some h
  obtain ⟨head, gap, some_, inside, text⟩ := exists_alterHead found
  obtain ⟨pieces, cut, parts⟩ := exists_cut .honoured (dropTerminators m.rest)
  have parts : actionParts m.rest = partsOf pieces := parts
  have closed : Text.trimEnd m.rest = m.rest := by
    refine Text.dropEndWhile_eq_self fun c last => (Text.trimmed_trim stmt.toList).last c ?_
    rw [text, List.getLast?_append, List.getLast?_append, Option.mem_def.1 last]
    rfl
  obtain ⟨ends, dropped, semicolons⟩ := Text.exists_dropEndWhile (· == ';') (Text.trimEnd m.rest)
  have body : m.rest = dropTerminators m.rest ++ ends := closed.symm.trans dropped
  rw [head.trimmed.trim_eq, parts]
  rw [parts] at two led
  refine ⟨m.text .head, pieces, head, ⟨gap, ends, some_, inside, ?_, ?_⟩, cut.outside rfl,
    cut.commaFree rfl, rfl, ?_, fun part mem => ⟨?_, ?_⟩⟩
  · exact fun c mem => beq_iff_eq.1 (semicolons c mem)
  · rw [cut.intercalate, ← body, ← text]
  · rwa [List.length_map]
  · exact ledByAction_of_startsWithAction (trimmed_of_mem_partsOf mem) (led part mem)
  · have own : part ∈ actionParts m.rest := parts ▸ mem
    exact commaFree_of_mem_topLevelParts own

/-- An action of an expansion is one part, so it is not expanded again. -/
theorem IsExpansion.expandActions?_eq_none {text head : List Char} {pieces : List (List Char)}
    {acts : List String} {act : String} (h : IsExpansion text head pieces acts) (mem : act ∈ acts) :
    expandActions? act = none := by
  rw [h.expanded] at mem
  obtain ⟨part, own, rfl⟩ := List.mem_map.1 mem
  obtain ⟨led, free⟩ := h.led part own
  exact h.isHead.expandActions?_eq_none led free

/-- Expansion is final: no statement of a script is expanded any further. It is exact: the
statements are the head with each of the parts that follow it. -/
theorem expansion_exact_final :
    (∀ script, ∀ act ∈ actions script, expandActions? act = none) ∧
      ∀ stmt acts, expandActions? stmt = some acts →
        ∃ head pieces, IsExpansion (Text.trim stmt.toList) head pieces acts := by
  refine ⟨fun script act mem => ?_, fun stmt acts => exists_isExpansion⟩
  obtain ⟨stmt, -, mem⟩ := List.mem_flatMap.1 mem
  cases expanded : expandActions? stmt with
  | none =>
    rw [expanded] at mem
    exact List.mem_singleton.1 mem ▸ expanded
  | some acts =>
    rw [expanded] at mem
    obtain ⟨head, pieces, expansion⟩ := exists_isExpansion expanded
    exact expansion.expandActions?_eq_none mem

/-- The commas in the literal and in the parentheses stay, and the empty part before the first
action does not. -/
theorem expansion_exact_final_quoted :
    let stmt := "ALTER TABLE ONLY \x22s\x22.t , ADD a TEXT DEFAULT 'x, \\', y', DROP (b, c) ;"
    let acts := ["ALTER TABLE ONLY \x22s\x22.t ADD a TEXT DEFAULT 'x, \\', y';",
      "ALTER TABLE ONLY \x22s\x22.t DROP (b, c);"]
    expandActions? stmt = some acts ∧ (∀ act ∈ actions stmt, expandActions? act = none) ∧
      ∃ head pieces, IsExpansion (Text.trim stmt.toList) head pieces acts := by
  intro stmt acts
  have expanded : expandActions? stmt = some acts := by decide +kernel
  exact ⟨expanded, expansion_exact_final.1 stmt, expansion_exact_final.2 stmt acts expanded⟩

end Rollback.Sql

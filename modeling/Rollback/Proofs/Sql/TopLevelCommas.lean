import Rollback.Proofs.Schema.ColumnLists
import Rollback.Sql.AlterActions

/-!
# Commas that separate parts

A comma separates two parts of a list if it stands outside quotes and parentheses. What a comma
stands in follows from the text before it, so it can be told without cutting the list. The parts
that a list is cut into have no such comma, and a text without one is not cut.

- `ListMode.after`: what the end of a text stands in
- `CommaFree`: every comma of a text stands in quotes or parentheses
- `Cut`: the pieces between the commas that separate parts
- `exists_cut`: the parts of a list are these pieces
- `CommaFree.length_topLevelParts_le`: a text without such a comma is one part at most
-/

set_option autoImplicit false

namespace Rollback.Sql

/-! ## What a comma stands in -/

/-- What a place in a list stands in. -/
inductive ListMode where
  /-- Outside quotes, in a number of parentheses. -/
  | plain (depth : Nat)
  | quoted (quote : Char) (depth : Nat)
  /-- In quotes, right after a backslash that takes the next character with it. -/
  | escaped (quote : Char) (depth : Nat)
deriving DecidableEq

/-- What the place after a character stands in. -/
def ListMode.next (escapes : Escapes) : ListMode → Char → ListMode
  | plain depth, c =>
    if isQuote c then quoted c depth
    else if c == '(' then plain (depth + 1)
    else if c == ')' then plain (depth - 1)
    else plain depth
  | quoted quote depth, c =>
    if c == '\\' && quote == '\x27' && escapes == .honoured then escaped quote depth
    else if c == quote then plain depth
    else quoted quote depth
  | escaped quote depth, _ => quoted quote depth

/-- What the end of a text stands in. -/
def ListMode.after (escapes : Escapes) (mode : ListMode) (text : List Char) : ListMode :=
  text.foldl (ListMode.next escapes) mode

/-- Every comma of a text stands in quotes or parentheses. -/
def CommaFree (escapes : Escapes) (mode : ListMode) (text : List Char) : Prop :=
  ∀ before after, text = before ++ ',' :: after → mode.after escapes before ≠ .plain 0

section

variable {escapes : Escapes} {mode : ListMode} {s t : List Char}

theorem ListMode.after_append (mode : ListMode) (s t : List Char) :
    mode.after escapes (s ++ t) = (mode.after escapes s).after escapes t :=
  List.foldl_append

namespace CommaFree

theorem nil : CommaFree escapes mode [] := by
  intro before after split
  exact absurd split.symm (List.append_ne_nil_of_right_ne_nil before (List.cons_ne_nil _ _))

theorem cons {c : Char} (inside : c = ',' → mode ≠ .plain 0)
    (h : CommaFree escapes (mode.next escapes c) s) : CommaFree escapes mode (c :: s) := by
  intro before after split
  cases before with
  | nil =>
    obtain ⟨comma, -⟩ := List.cons_eq_cons.1 split
    exact inside comma
  | cons d before =>
    obtain ⟨rfl, rest⟩ := List.cons_eq_cons.1 split
    exact h before after rest

theorem left (h : CommaFree escapes mode (s ++ t)) : CommaFree escapes mode s := by
  rintro before after rfl
  exact h before (after ++ t) (by simp)

theorem right (h : CommaFree escapes mode (s ++ t)) :
    CommaFree escapes (mode.after escapes s) t := by
  rintro before after rfl
  rw [← ListMode.after_append]
  exact h (s ++ before) after (by simp)

/-- Any other character can be put at the end. -/
theorem concat {c : Char} (h : CommaFree escapes mode s) (other : c ≠ ',') :
    CommaFree escapes mode (s ++ [c]) := by
  intro before after split
  rcases List.eq_nil_or_concat after with rfl | ⟨after, d, rfl⟩
  · exact absurd (List.append_inj' split rfl).2 fun same => other (List.cons.inj same).1
  · have shape : before ++ ',' :: (after.concat d) = before ++ ',' :: after ++ [d] := by simp
    rw [shape] at split
    exact h before after (List.append_inj' split rfl).1

end CommaFree

/-! ## Blanks and words -/

/-- Inert characters neither open nor close anything. -/
theorem ListMode.after_of_inert {depth : Nat} (h : ∀ c ∈ s, Inert c) :
    (ListMode.plain depth).after escapes s = .plain depth := by
  induction s with
  | nil => rfl
  | cons c s ih =>
    have here := h c List.mem_cons_self
    have step : (ListMode.plain depth).next escapes c = .plain depth := by
      simp [ListMode.next, here.quote, here.opening, here.closing]
    show ((ListMode.plain depth).next escapes c).after escapes s = _
    rw [step, ih fun d mem => h d (List.mem_cons_of_mem c mem)]

theorem inert_of_isBlank {c : Char} (blank : Text.isBlank c = true) : Inert c where
  quote := by
    refine Bool.eq_false_iff.2 fun quote => ?_
    simp only [isQuote, Bool.or_eq_true, beq_iff_eq] at quote
    rcases quote with (rfl | rfl) | rfl <;> exact absurd blank (by decide)
  opening := by
    rintro rfl
    exact absurd blank (by decide)
  closing := by
    rintro rfl
    exact absurd blank (by decide)

namespace CommaFree

/-- What stands outside quotes and parentheses, without any of them, can be left out at
the start. -/
theorem drop_inert (h : CommaFree escapes (.plain 0) (s ++ t)) (inert : ∀ c ∈ s, Inert c) :
    CommaFree escapes (.plain 0) t := by
  have rest := h.right
  rwa [ListMode.after_of_inert inert] at rest

/-- Blanks around a text do not matter, as no comma and no quote is among them. -/
theorem trim (h : CommaFree escapes (.plain 0) s) : CommaFree escapes (.plain 0) (Text.trim s) := by
  obtain ⟨before, after, shape, blank, -⟩ := Text.exists_trim s
  rw [shape] at h
  exact (h.drop_inert fun c mem => inert_of_isBlank (blank c mem)).left

end CommaFree

/-! ## Pieces of a list -/

/-- The pieces between the commas of a text that separate parts. -/
inductive Cut (escapes : Escapes) : ListMode → List Char → List (List Char) → Prop where
  | last {mode : ListMode} {text : List Char} (free : CommaFree escapes mode text) :
    Cut escapes mode text [text]
  | comma {mode : ListMode} {piece rest : List Char} {pieces : List (List Char)}
      (free : CommaFree escapes mode piece) (outside : mode.after escapes piece = .plain 0)
      (others : Cut escapes (.plain 0) rest pieces) :
    Cut escapes mode (piece ++ ',' :: rest) (piece :: pieces)

namespace Cut

variable {text : List Char} {pieces : List (List Char)}

/-- One more character at the start belongs to the first piece, if it is no comma that separates. -/
theorem cons {c : Char} {piece : List Char} (inside : c = ',' → mode ≠ .plain 0)
    (h : Cut escapes (mode.next escapes c) text (piece :: pieces)) :
    Cut escapes mode (c :: text) ((c :: piece) :: pieces) := by
  cases h with
  | last free => exact .last (free.cons inside)
  | comma free outside others => exact .comma (free.cons inside) outside others

theorem ne_nil (h : Cut escapes mode text pieces) : pieces ≠ [] := by
  cases h <;> exact List.cons_ne_nil _ _

/-- The pieces of a cut and commas between them make up the text. -/
theorem intercalate (h : Cut escapes mode text pieces) : [','].intercalate pieces = text := by
  induction h with
  | last free => exact List.intercalate_singleton
  | @comma mode piece rest pieces free outside others ih =>
    cases pieces with
    | nil => exact absurd rfl others.ne_nil
    | cons next pieces =>
      rw [List.intercalate_cons_cons, ih]
      simp

/-- No piece of a cut has a comma at the top level. -/
theorem commaFree (h : Cut escapes mode text pieces) (start : mode = .plain 0) :
    ∀ piece ∈ pieces, CommaFree escapes (.plain 0) piece := by
  induction h with
  | last free =>
    intro piece mem
    rw [List.mem_singleton.1 mem, ← start]
    exact free
  | comma free outside others ih =>
    intro piece mem
    rcases List.mem_cons.1 mem with rfl | mem
    · exact start ▸ free
    · exact ih rfl piece mem

/-- All pieces but the last one close what they open. -/
theorem outside (h : Cut escapes mode text pieces) (start : mode = .plain 0) :
    ∀ piece ∈ pieces.dropLast, (ListMode.plain 0).after escapes piece = .plain 0 := by
  induction h with
  | last free => exact fun piece mem => absurd mem List.not_mem_nil
  | @comma mode piece rest pieces free outside others ih =>
    intro other mem
    cases pieces with
    | nil => exact absurd rfl others.ne_nil
    | cons next pieces =>
      rw [List.dropLast_cons_cons] at mem
      rcases List.mem_cons.1 mem with rfl | mem
      · exact start ▸ outside
      · exact ih rfl other mem

/-- A text without commas that separate is one piece. -/
theorem eq_singleton (h : Cut escapes mode text pieces) (free : CommaFree escapes mode text) :
    pieces = [text] := by
  cases h with
  | last _ => rfl
  | @comma _ piece rest pieces _ outside _ => exact absurd outside (free piece rest rfl)

end Cut

/-- What the place after a text stands in if the given quote is open. -/
def ListMode.ofQuote (depth : Nat) : Option Char → ListMode
  | none => .plain depth
  | some quote => .quoted quote depth

/-- The parts are the pieces of a text; what was read before it belongs to the first one. -/
def CutsInto (escapes : Escapes) (mode : ListMode) (part text : List Char)
    (parts : List (List Char)) : Prop :=
  ∃ piece pieces, parts = (part.reverse ++ piece) :: pieces ∧
    Cut escapes mode text (piece :: pieces)

theorem CutsInto.cons {c : Char} {part text : List Char} {parts : List (List Char)}
    (inside : c = ',' → mode ≠ .plain 0)
    (h : CutsInto escapes (mode.next escapes c) (c :: part) text parts) :
    CutsInto escapes mode part (c :: text) parts := by
  obtain ⟨piece, pieces, rfl, cut⟩ := h
  exact ⟨c :: piece, pieces, by simp, cut.cons inside⟩

/-- A comma between quotes is not at the top level. -/
theorem quotedComma (quote : Char) (depth : Nat) (c : Char) :
    c = ',' → ListMode.quoted quote depth ≠ .plain 0 := by
  rintro - ⟨⟩

/-- The parts that are found are those of a cut. -/
theorem cutsInto_partsFrom (escapes : Escapes) (quote : Option Char) (depth : Nat)
    (part text : List Char) :
    CutsInto escapes (.ofQuote depth quote) part text
      (partsFrom escapes quote depth part text) := by
  -- One case for each branch of the scanner: the mode goes on as the scanner does.
  fun_induction partsFrom escapes quote depth part text with
  | case1 quote depth part => exact ⟨[], [], by simp, .last .nil⟩
  | case2 depth part c q backslash =>
    exact ⟨[c], [], by simp, .last (.cons (quotedComma q depth c) .nil)⟩
  | case3 depth part c q backslash d rest ih =>
    have step : (ListMode.quoted q depth).next escapes c = .escaped q depth := if_pos backslash
    refine .cons (quotedComma q depth c) ?_
    rw [ListMode.ofQuote, step]
    exact .cons (fun _ same => by cases same) ih
  | case4 depth part c rest q other ih =>
    refine .cons (quotedComma q depth c) ?_
    have step : (ListMode.quoted q depth).next escapes c =
        .ofQuote depth (if c == q then none else some q) := by
      rw [ListMode.next, if_neg other]
      split <;> rfl
    rw [ListMode.ofQuote, step]
    exact ih
  | case5 depth part c rest quote ih =>
    refine .cons (fun comma => absurd quote (comma ▸ by decide)) ?_
    rw [ListMode.ofQuote, ListMode.next, if_pos quote]
    exact ih
  | case6 depth part c rest plain opening ih =>
    refine .cons (fun comma => absurd opening (comma ▸ by decide)) ?_
    rw [ListMode.ofQuote, ListMode.next, if_neg plain, if_pos opening]
    exact ih
  | case7 depth part c rest plain opening closing ih =>
    refine .cons (fun comma => absurd closing (comma ▸ by decide)) ?_
    rw [ListMode.ofQuote, ListMode.next, if_neg plain, if_neg opening, if_pos closing]
    exact ih
  | case8 depth part c rest plain opening closing separates ih =>
    rw [Bool.and_eq_true, beq_iff_eq, beq_iff_eq] at separates
    obtain ⟨rfl, rfl⟩ := separates
    obtain ⟨piece, pieces, eq, cut⟩ := ih
    exact ⟨[], _, by rw [List.append_nil], .comma .nil rfl (eq ▸ cut)⟩
  | case9 depth part c rest plain opening closing inside ih =>
    refine .cons (fun comma same => inside ?_) ?_
    · rw [comma, show depth = 0 from ListMode.plain.inj same]
      rfl
    · rw [ListMode.ofQuote, ListMode.next, if_neg plain, if_neg opening, if_neg closing]
      exact ih

/-- The parts of a list are its pieces without the blanks around them and without empty ones. -/
theorem exists_cut (escapes : Escapes) (text : List Char) :
    ∃ pieces, Cut escapes (.plain 0) text pieces ∧
      topLevelParts escapes text = (pieces.map Text.trim).filter fun part => !part.isEmpty := by
  obtain ⟨piece, pieces, eq, cut⟩ := cutsInto_partsFrom escapes none 0 [] text
  refine ⟨piece :: pieces, cut, ?_⟩
  rw [topLevelParts, eq]
  rfl

/-- The parts of a list have no comma that separates. -/
theorem commaFree_of_mem_topLevelParts {text part : List Char}
    (mem : part ∈ topLevelParts escapes text) : CommaFree escapes (.plain 0) part := by
  obtain ⟨pieces, cut, eq⟩ := exists_cut escapes text
  rw [eq] at mem
  obtain ⟨piece, inside, rfl⟩ := List.mem_map.1 (List.mem_filter.1 mem).1
  exact (cut.commaFree rfl piece inside).trim

/-- A text without a comma that separates is one part at most. -/
theorem CommaFree.length_topLevelParts_le {text : List Char}
    (free : CommaFree escapes (.plain 0) text) : (topLevelParts escapes text).length ≤ 1 := by
  obtain ⟨pieces, cut, eq⟩ := exists_cut escapes text
  rw [eq, cut.eq_singleton free]
  exact List.length_filter_le _ _

end

end Rollback.Sql

import Mathlib.Algebra.Ring.Int.Defs
import Mathlib.Data.List.Infix
import Rollback.Proofs.Sql.CanonicalScripts
import Rollback.Schema.Draft

/-!
# Literals in the body of a table

The statements of a script are cut off by one reader of literals, and the body of a CREATE TABLE
statement is found and cut by others. For the first one a backslash keeps a quote from ending its
literal; the others know no escapes. They agree on every body without escaped quotes: it ends where
its parenthesis closes outside the literals, and its definitions are cut at the commas that stand
outside literals and nested parentheses. After an escaped quote they take code for a literal and a
literal for code.

- `Sql.depth`, `Sql.Balanced`: parentheses outside literals
- `Sql.IsListing`: lexemes cut at the commas outside literals and parentheses
- `Sql.scan_eq`: a scan that knows no escapes goes through balanced lexemes as they are
- `Draft.apply_createTable`: a table with balanced parentheses is put into the catalog
- `Draft.apply_createTable_escapedQuote`: not so after an escaped quote
-/

set_option autoImplicit false

namespace Rollback

namespace Sql

/-! ## Parentheses outside literals -/

/-- What a lexeme adds to the number of open parentheses. -/
def Lexeme.weight (l : Lexeme) : Int :=
  if l = .code '(' then 1 else if l = .code ')' then -1 else 0

/-- The parentheses that are opened outside literals, less those that are closed. -/
def depth (ls : List Lexeme) : Int :=
  (ls.map Lexeme.weight).sum

@[simp] theorem depth_nil : depth [] = 0 := rfl

@[simp] theorem depth_cons (l : Lexeme) (ls : List Lexeme) :
    depth (l :: ls) = l.weight + depth ls := by
  rw [depth, List.map_cons, List.sum_cons]
  rfl

@[simp] theorem depth_append (ks ls : List Lexeme) : depth (ks ++ ls) = depth ks + depth ls := by
  rw [depth, List.map_append, List.sum_append]
  rfl

/-- The lexemes close just as many parentheses as were open before them, each after it
was opened. -/
structure ClosesFrom (opened : Nat) (ls : List Lexeme) : Prop where
  total : opened + depth ls = 0
  inside : ∀ ks ∈ ls.inits, 0 ≤ opened + depth ks

/-- The parentheses outside literals balance. -/
abbrev Balanced (ls : List Lexeme) : Prop :=
  ClosesFrom 0 ls

instance (opened : Nat) (ls : List Lexeme) : Decidable (ClosesFrom opened ls) :=
  decidable_of_iff (opened + depth ls = 0 ∧ ∀ ks ∈ ls.inits, 0 ≤ opened + depth ks)
    ⟨fun h => ⟨h.1, h.2⟩, fun h => ⟨h.total, h.inside⟩⟩

namespace ClosesFrom

variable {opened : Nat} {l : Lexeme} {ls : List Lexeme}

theorem nil : ClosesFrom 0 [] := by decide

/-- After the first lexeme, what it left open is closed. -/
theorem exists_tail (h : ClosesFrom opened (l :: ls)) :
    ∃ after : Nat, (after : Int) = opened + l.weight ∧ ClosesFrom after ls := by
  have first := h.inside [l] (List.mem_inits _ _ |>.2 (List.prefix_append [l] ls))
  rw [depth_cons, depth_nil] at first
  have same : (((opened : Int) + l.weight).toNat : Int) = opened + l.weight := by omega
  refine ⟨((opened : Int) + l.weight).toNat, same, ?_, fun ks mem => ?_⟩
  · have total := h.total
    rw [depth_cons] at total
    omega
  · have inside := h.inside (l :: ks)
      ((List.mem_inits _ _).2 (List.cons_prefix_cons.2 ⟨rfl, (List.mem_inits _ _).1 mem⟩))
    rw [depth_cons] at inside
    omega

theorem cons {after : Nat} (weight : (after : Int) = opened + l.weight) (h : ClosesFrom after ls) :
    ClosesFrom opened (l :: ls) where
  total := by
    have total := h.total
    rw [depth_cons]
    omega
  inside ks mem := by
    rcases List.prefix_cons_iff.1 ((List.mem_inits _ _).1 mem) with rfl | ⟨ms, rfl, before⟩
    · rw [depth_nil]
      omega
    · have inside := h.inside ms ((List.mem_inits _ _).2 before)
      rw [depth_cons]
      omega

end ClosesFrom

theorem Lexeme.neg_one_le_weight (l : Lexeme) : -1 ≤ l.weight := by
  rw [weight]
  split
  · decide
  · split <;> decide

theorem Lexeme.eq_of_weight_eq {l : Lexeme} (h : l.weight = -1) : l = .code ')' := by
  rw [weight] at h
  grind

/-- Lexemes that close more than was open close all of it at some parenthesis. -/
theorem exists_closesFrom (ls : List Lexeme) :
    ∀ opened : Nat, opened + depth ls < 0 →
      ∃ body rest, ls = body ++ .code ')' :: rest ∧ ClosesFrom opened body := by
  induction ls with
  | nil =>
    intro opened less
    rw [depth_nil] at less
    omega
  | cons l ls ih =>
    intro opened less
    rw [depth_cons] at less
    have low := l.neg_one_le_weight
    -- One lexeme closes one parenthesis at most, so this one closes the last that is open.
    by_cases here : (opened : Int) + l.weight < 0
    · obtain rfl : opened = 0 := by omega
      obtain rfl : l = .code ')' := Lexeme.eq_of_weight_eq (by omega)
      exact ⟨[], ls, rfl, .nil⟩
    · obtain ⟨body, rest, eq, closes⟩ := ih ((opened : Int) + l.weight).toNat (by omega)
      exact ⟨l :: body, rest, by rw [eq]; rfl, closes.cons (by omega)⟩

/-! ## Commas outside literals and parentheses -/

/-- A part of a list: its parentheses close, and its commas stand in parentheses. -/
structure IsListPart (opened : Nat) (part : List Lexeme) : Prop where
  closes : ClosesFrom opened part
  nested : ∀ ks ∈ part.inits, ks ++ [.code ','] <+: part → 0 < opened + depth ks

instance (opened : Nat) (part : List Lexeme) : Decidable (IsListPart opened part) :=
  decidable_of_iff
    (ClosesFrom opened part ∧
      ∀ ks ∈ part.inits, ks ++ [.code ','] <+: part → 0 < opened + depth ks)
    ⟨fun h => ⟨h.1, h.2⟩, fun h => ⟨h.closes, h.nested⟩⟩

/-- A comma inside a part stands in parentheses. -/
theorem IsListPart.commas {opened : Nat} {part ks ms : List Lexeme} (h : IsListPart opened part)
    (split : part = ks ++ .code ',' :: ms) : 0 < opened + depth ks := by
  subst split
  refine h.nested ks ((List.mem_inits _ _).2 (List.prefix_append ks _)) ⟨ms, ?_⟩
  rw [List.append_assoc]
  rfl

theorem IsListPart.nil : IsListPart 0 [] := by decide

/-- The lexemes are these parts with commas between them, cut at every comma outside literals and
parentheses. -/
inductive IsListing : List Lexeme → List (List Lexeme) → Prop where
  | last {part : List Lexeme} (h : IsListPart 0 part) : IsListing part [part]
  | cons {part rest : List Lexeme} {parts : List (List Lexeme)} (h : IsListPart 0 part)
      (more : IsListing rest parts) : IsListing (part ++ .code ',' :: rest) (part :: parts)

/-- A lexeme can be put in front of a part, unless it is a comma that ends one. -/
theorem IsListPart.cons {opened after : Nat} {l : Lexeme} {part : List Lexeme}
    (weight : (after : Int) = opened + l.weight) (comma : l = .code ',' → 0 < opened)
    (h : IsListPart after part) : IsListPart opened (l :: part) where
  closes := h.closes.cons weight
  nested := by
    rintro ks - ⟨ms, eq⟩
    rw [List.append_assoc] at eq
    cases ks with
    | nil =>
      have here := comma (List.cons_eq_cons.1 eq).1.symm
      rw [depth_nil]
      omega
    | cons k ks =>
      obtain ⟨rfl, tail⟩ := List.cons_eq_cons.1 eq
      have later := h.commas tail.symm
      rw [depth_cons]
      omega

/-- The first comma outside literals and parentheses ends the first part. -/
theorem ClosesFrom.exists_part {opened : Nat} {ls : List Lexeme} (h : ClosesFrom opened ls) :
    IsListPart opened ls ∨ ∃ part rest parts, ls = part ++ .code ',' :: rest ∧
      IsListPart opened part ∧ IsListing rest parts := by
  induction ls generalizing opened with
  | nil => exact .inl ⟨h, by simp⟩
  | cons l ls ih =>
    obtain ⟨after, weight, closes⟩ := h.exists_tail
    by_cases separates : l = .code ',' ∧ opened = 0
    · obtain ⟨rfl, rfl⟩ := separates
      obtain rfl : after = 0 := by simpa [Lexeme.weight] using weight
      refine .inr ?_
      rcases ih closes with part | ⟨part, rest, parts, rfl, first, listing⟩
      · exact ⟨[], ls, _, rfl, .nil, .last part⟩
      · exact ⟨[], _, _, rfl, .nil, .cons first listing⟩
    · have comma : l = .code ',' → 0 < opened := fun comma =>
        Nat.pos_of_ne_zero fun outside => separates ⟨comma, outside⟩
      rcases ih closes with part | ⟨part, rest, parts, rfl, first, listing⟩
      · exact .inl (part.cons weight comma)
      · exact .inr ⟨l :: part, rest, parts, rfl, first.cons weight comma, listing⟩

/-- Balanced lexemes are a list. -/
theorem exists_isListing {ls : List Lexeme} (h : Balanced ls) : ∃ parts, IsListing ls parts := by
  rcases ClosesFrom.exists_part h with part | ⟨part, rest, parts, rfl, first, listing⟩
  · exact ⟨[ls], .last part⟩
  · exact ⟨part :: parts, .cons first listing⟩

/-- No part of a list goes on beyond a comma that ends one. -/
theorem IsListPart.ne_append {part part' rest : List Lexeme} (h : IsListPart 0 part)
    (h' : IsListPart 0 part') : part' ≠ part ++ .code ',' :: rest := by
  intro eq
  have outside := h'.commas eq
  have total := h.closes.total
  omega

/-- A list can be cut behind its first part in one way only. -/
theorem IsListPart.append_inj {part part' rest rest' : List Lexeme} (h : IsListPart 0 part)
    (h' : IsListPart 0 part') (same : part ++ .code ',' :: rest = part' ++ .code ',' :: rest') :
    part = part' ∧ rest = rest' := by
  -- If one part is longer, the comma after the other one is inside it.
  have longer : ∀ {part part' more rest rest' : List Lexeme}, IsListPart 0 part →
      IsListPart 0 part' → part' = part ++ more → .code ',' :: rest = more ++ .code ',' :: rest' →
      part = part' ∧ rest = rest' := by
    intro part part' more rest rest' h h' long eq
    cases more with
    | nil => exact ⟨by rw [long, List.append_nil], (List.cons_eq_cons.1 eq).2⟩
    | cons l more =>
      obtain ⟨rfl, -⟩ := List.cons_eq_cons.1 eq
      exact absurd long (h.ne_append h')
  rcases List.append_eq_append_iff.1 same with ⟨more, long, eq⟩ | ⟨more, long, eq⟩
  · exact longer h h' long eq
  · obtain ⟨first, second⟩ := longer h' h long eq
    exact ⟨first.symm, second.symm⟩

/-- There is one way only to cut lexemes into the parts of a list. -/
theorem IsListing.unique {ls : List Lexeme} {parts : List (List Lexeme)} (h : IsListing ls parts) :
    ∀ {parts' : List (List Lexeme)}, IsListing ls parts' → parts = parts' := by
  induction h with
  | last here =>
    intro parts' h'
    cases h' with
    | last _ => rfl
    | cons first _ => exact absurd rfl (first.ne_append here)
  | @cons part rest parts here more ih =>
    intro parts' h'
    generalize whole : part ++ .code ',' :: rest = ls at h'
    cases h' with
    | last other => exact absurd whole.symm (here.ne_append other)
    | cons other listing =>
      obtain ⟨rfl, rfl⟩ := here.append_inj other whole
      rw [ih listing]

/-! ## Escaped quotes -/

/-- The open quote of a literal. -/
def Mode.openQuote : Mode → Option Char
  | literal quote _ => some quote
  | _ => none

/-- Whether a lexeme is a quote that a backslash keeps from ending its literal. -/
def Mode.escapes : Mode → Lexeme → Bool
  | literal quote true, .literal c => c == quote
  | _, _ => false

/-- Whether some quote is kept from ending its literal by a backslash. -/
def escapesQuote (mode : Mode) : List Lexeme → Bool
  | [] => false
  | l :: rest => mode.escapes l || escapesQuote (mode.next l) rest

/-- A text escapes a quote if one of its parts does, the second one from where the first one
ends. -/
theorem escapesQuote_append (mode : Mode) (ks ms : List Lexeme) :
    escapesQuote mode (ks ++ ms) =
      (escapesQuote mode ks || escapesQuote (ks.foldl Mode.next mode) ms) := by
  induction ks generalizing mode with
  | nil => rfl
  | cons k ks ih => rw [List.cons_append, escapesQuote, escapesQuote, ih, Bool.or_assoc]; rfl

/-- A character of plain code comes where no literal is open. -/
theorem IsReading.mode_eq {mode : Mode} {ks ms : List Lexeme} {c : Char}
    (h : IsReading mode (ks ++ .code c :: ms)) : ks.foldl Mode.next mode = .code := by
  have after := h.after
  generalize ks.foldl Mode.next mode = reached at after ⊢
  cases after with
  | code => rfl

/-! ## Scans without escapes -/

section Scan

variable {α : Type}

/--
A scan that keeps the open quote, the number of open parentheses and the text so far, and knows no
escapes: any quote of the kind that opened a literal ends it. It goes on like this over every
character of plain code that is `passed`.
-/
structure IsScan (passed : Nat → Char → Prop)
    (scan : Option Char → Nat → List Char → List Char → α) : Prop where
  quoted : ∀ q opened seen c rest,
    scan (some q) opened seen (c :: rest) =
      scan (if c == q then none else some q) opened (c :: seen) rest
  opens : ∀ c opened seen rest, isQuote c = true →
    scan none opened seen (c :: rest) = scan (some c) opened (c :: seen) rest
  plain : ∀ c (opened after : Nat) seen rest, isQuote c = false → passed opened c →
    (after : Int) = opened + (Lexeme.code c).weight →
    scan none opened seen (c :: rest) = scan none after (c :: seen) rest

theorem weight_code (c : Char) :
    (Lexeme.code c).weight = if c = '(' then 1 else if c = ')' then -1 else 0 := by
  simp [Lexeme.weight]

/-- A character of plain code opens a parenthesis, closes one or leaves them as they are. -/
theorem weight_code_cases {c : Char} {opened after : Nat}
    (weight : (after : Int) = opened + (Lexeme.code c).weight) :
    c = '(' ∧ after = opened + 1 ∨ c = ')' ∧ opened = after + 1 ∨
      c ≠ '(' ∧ c ≠ ')' ∧ after = opened := by
  rw [weight_code] at weight
  split at weight
  · rename_i opening
    exact .inl ⟨opening, by omega⟩
  · rename_i other
    split at weight
    · rename_i closing
      exact .inr (.inl ⟨closing, by omega⟩)
    · rename_i neither
      exact .inr (.inr ⟨other, neither, by omega⟩)

/-- The search for the end of the body is a scan that any character goes through. -/
theorem isScan_splitBodyFrom : IsScan (fun _ _ => True) splitBodyFrom where
  quoted _ _ _ _ _ := rfl
  opens c opened seen rest quote := by
    rw [splitBodyFrom.eq_def]
    simp only [quote, if_true]
  plain c opened after seen rest quote _ weight := by
    rw [splitBodyFrom.eq_def]
    simp only [quote, Bool.false_eq_true, if_false, beq_iff_eq]
    rcases weight_code_cases weight with ⟨rfl, rfl⟩ | ⟨rfl, rfl⟩ | ⟨other, neither, rfl⟩
    · rfl
    · rfl
    · rw [if_neg other, if_neg neither]

/-- The cutting at commas is a scan that stops at those of the top level. -/
theorem isScan_partsFrom :
    IsScan (fun opened c => c = ',' → 0 < opened) (partsFrom .ignored) where
  quoted q opened seen c rest := by
    rw [partsFrom.eq_def]
    simp
  opens c opened seen rest quote := by
    rw [partsFrom.eq_def]
    simp only [quote, if_true]
  plain c opened after seen rest quote comma weight := by
    rw [partsFrom.eq_def]
    simp only [quote, Bool.false_eq_true, if_false, beq_iff_eq]
    rcases weight_code_cases weight with ⟨rfl, rfl⟩ | ⟨rfl, rfl⟩ | ⟨other, neither, rfl⟩
    · rfl
    · rfl
    · -- A comma that is passed stands in parentheses, so it ends no part.
      have inside : (c == ',' && after == 0) = false := by
        rw [Bool.and_eq_false_imp]
        intro eq
        exact beq_eq_false_iff_ne.2 (Nat.ne_of_gt (comma (eq_of_beq eq)))
      rw [if_neg other, if_neg neither, inside]
      rfl

/-- Without backticks and escaped quotes, a scan goes through lexemes whose parentheses close as
they are: what is a literal for it is one. -/
theorem scan_eq {passed : Nat → Char → Prop}
    {scan : Option Char → Nat → List Char → List Char → α} (isScan : IsScan passed scan)
    (ls : List Lexeme) :
    ∀ {mode : Mode} {text : List Char} {opened : Nat}, IsReading mode ls → Spell ls text →
      '\x60' ∉ text → escapesQuote mode ls = false → ClosesFrom opened ls →
      (∀ ks c ms, ls = ks ++ .code c :: ms → passed (opened + depth ks).toNat c) →
      ∀ seen rest, scan mode.openQuote opened seen (text ++ rest) =
        scan (ls.foldl Mode.next mode).openQuote 0 (text.reverse ++ seen) rest := by
  induction ls with
  | nil =>
    intro mode text opened _ spells _ _ closes _ seen rest
    obtain rfl : text = [] := List.map_eq_nil_iff.1 spells.symm
    obtain rfl : opened = 0 := by simpa using closes.total
    rfl
  | cons l ls ih =>
    intro mode text opened reading spells backtick kept closes pass seen rest
    obtain ⟨c, text, rfl, char, spells⟩ := spells.exists_of_cons
    obtain ⟨after, weight, closes⟩ := closes.exists_tail
    rw [escapesQuote, Bool.or_eq_false_iff] at kept
    rw [List.mem_cons, not_or] at backtick
    have more : ∀ {next : Mode}, mode.next l = next → IsReading next ls →
        scan mode.openQuote opened seen (c :: (text ++ rest)) =
          scan next.openQuote after (c :: seen) (text ++ rest) →
        scan mode.openQuote opened seen (c :: text ++ rest) =
          scan ((l :: ls).foldl Mode.next mode).openQuote 0 ((c :: text).reverse ++ seen) rest := by
      rintro next rfl reading step
      rw [List.cons_append, step, ih reading spells backtick.2 kept.2 closes (fun ks d ms eq => ?_),
        List.foldl_cons, List.reverse_cons, List.append_assoc, List.singleton_append]
      have later := pass (l :: ks) d ms (by rw [eq]; rfl)
      rwa [depth_cons, ← Int.add_assoc, ← weight] at later
    cases reading with
    | @code d _ plain _ _ reading =>
      obtain rfl : d = c := Option.some.inj char
      have quote : isQuote d = false := by
        rw [isQuote, Bool.or_eq_false_iff]
        exact ⟨plain, beq_eq_false_iff_ne.2 (Ne.symm backtick.1)⟩
      refine more rfl reading (isScan.plain d opened after seen _ quote ?_ weight)
      simpa using pass [] d ls rfl
    | @quote d _ opens reading =>
      obtain rfl : d = c := Option.some.inj char
      have same : after = opened := Int.ofNat.inj (by simpa [Lexeme.weight] using weight)
      have quote : isQuote d = true := by
        rw [isQuote, Bool.or_eq_true]
        exact .inl opens
      exact more rfl reading (same ▸ isScan.opens d opened seen _ quote)
    | @literal q escaping d _ reading =>
      obtain rfl : d = c := Option.some.inj char
      have same : after = opened := Int.ofNat.inj (by simpa [Lexeme.weight] using weight)
      have ends : (afterLiteral q escaping d).openQuote = if d == q then none else some q := by
        rw [afterLiteral]
        cases escaping with
        | false => cases isEnd : d == q <;> rfl
        | true =>
          have other : (d == q) = false := kept.1
          rw [other]
          rfl
      have step := isScan.quoted q opened seen d (text ++ rest)
      rw [← ends, ← same] at step
      exact more rfl reading (same ▸ step)
    | blockEnd _ => cases char
    | lineEnd _ => cases char

end Scan

/-! ## The body and its definitions -/

/-- A text without comments, as it is read from plain code. -/
structure ReadsTo (text : List Char) (ls : List Lexeme) (mode : Mode) : Prop where
  reading : IsReading .code ls
  spells : Spell ls text
  ends : ls.foldl Mode.next .code = mode

theorem ReadsTo.lex_eq {text : List Char} {ls : List Lexeme} {mode : Mode}
    (h : ReadsTo text ls mode) :
    lex .code text = (ls, mode) := by
  rw [lex_of_isReading h.reading h.spells, h.ends]

/-- A text with a character of plain code in it is read in three steps. -/
theorem ReadsTo.exists_of_code {text : List Char} {ks ms : List Lexeme} {mode : Mode} {c : Char}
    (h : ReadsTo text (ks ++ .code c :: ms) mode) :
    ∃ before after,
      text = before ++ c :: after ∧ ReadsTo before ks .code ∧ ReadsTo after ms mode := by
  obtain ⟨before, rest, rfl, first, second⟩ := h.spells.exists_of_append
  obtain ⟨d, after, rfl, char, last⟩ := second.exists_of_cons
  obtain rfl : c = d := Option.some.inj char
  refine ⟨before, after, rfl, ⟨h.reading.left, first, h.reading.mode_eq⟩, h.reading.right, last, ?_⟩
  rw [← h.ends, List.foldl_append, List.foldl_cons]
  rfl

/-- The definitions of a list, given by its parts: their texts without blanks around them and
without empty ones. -/
def definitions (parts : List (List Lexeme)) : List (List Char) :=
  (parts.map fun part => Text.trim (part.filterMap Lexeme.char?)).filter fun text => !text.isEmpty

/-- Without comments, the characters of the lexemes are the text. -/
theorem Spell.filterMap_char? {ls : List Lexeme} {text : List Char} (h : Spell ls text) :
    ls.filterMap Lexeme.char? = text := by
  rw [Spell] at h
  have all : (ls.map Lexeme.char?).filterMap id = text := by
    rw [h, List.filterMap_map]
    exact List.filterMap_some
  rwa [List.filterMap_map] at all

/-- Without backticks and escaped quotes, a part of a body is read as it is, whatever follows it. -/
theorem IsListPart.partsFrom_append {part : List Lexeme} {text : List Char} (h : IsListPart 0 part)
    (reads : ReadsTo text part .code) (backtick : '\x60' ∉ text)
    (kept : escapesQuote .code part = false) (rest : List Char) :
    partsFrom .ignored none 0 [] (text ++ rest) =
      partsFrom .ignored none 0 (part.filterMap Lexeme.char?).reverse rest := by
  have commas : ∀ ks c ms, part = ks ++ .code c :: ms → c = ',' →
      0 < ((0 : Nat) + depth ks).toNat := by
    rintro ks c ms eq rfl
    have later := h.commas eq
    omega
  have scanned := scan_eq isScan_partsFrom part reads.reading reads.spells backtick kept h.closes
    commas [] rest
  rw [reads.ends, List.append_nil] at scanned
  rw [reads.spells.filterMap_char?]
  exact scanned

/-- So the parts of a body are those of its lexemes. -/
theorem IsListing.partsFrom_eq {ls : List Lexeme} {parts : List (List Lexeme)}
    (h : IsListing ls parts) :
    ∀ {text : List Char}, ReadsTo text ls .code → '\x60' ∉ text → escapesQuote .code ls = false →
      partsFrom .ignored none 0 [] text = parts.map fun part => part.filterMap Lexeme.char? := by
  induction h with
  | last here =>
    intro text reads backtick kept
    have all := here.partsFrom_append reads backtick kept []
    rw [List.append_nil] at all
    rw [all, partsFrom, List.reverse_reverse]
    rfl
  | cons here more ih =>
    intro text reads backtick kept
    obtain ⟨before, after, rfl, first, second⟩ := reads.exists_of_code
    rw [escapesQuote_append, Bool.or_eq_false_iff, first.ends] at kept
    rw [List.mem_append, List.mem_cons, not_or, not_or] at backtick
    have later := ih second backtick.2.2 kept.2
    rw [here.partsFrom_append first backtick.1 kept.1, partsFrom.eq_def]
    simp [isQuote, later]

/-- The body of a column list and what follows its closing parenthesis, where the list is read from
its start in plain code. -/
structure ClosesBody (list body clauses : List Char) : Prop where
  split : list = body ++ ')' :: clauses
  mode : endMode body = .code
  balanced : Balanced (lexemes body)

/-- Without backticks and escaped quotes, the body is found where its parenthesis closes. -/
theorem splitBody?_of_reads {text body clauses : List Char} {ls : List Lexeme}
    (reads : ReadsTo body ls .code) (split : text = body ++ ')' :: clauses) (balanced : Balanced ls)
    (backtick : '\x60' ∉ body) (kept : escapesQuote .code ls = false) :
    splitBody? text = some (body, clauses) := by
  have scanned := scan_eq isScan_splitBodyFrom ls reads.reading reads.spells backtick kept balanced
    (fun _ _ _ _ => trivial) [] (')' :: clauses)
  rw [reads.ends, List.append_nil] at scanned
  rw [splitBody?, split]
  refine scanned.trans ?_
  rw [splitBodyFrom.eq_def]
  simp [isQuote, Mode.openQuote]

/-- A character that opens no literal is plain code wherever plain code is read. -/
theorem IsReading.eq_code_of_char? {l : Lexeme} {ls : List Lexeme} {c : Char}
    (h : IsReading .code (l :: ls)) (char : l.char? = some c) (plain : opensLiteral c = false) :
    l = .code c := by
  cases h with
  | code _ _ _ _ => exact congrArg Lexeme.code (Option.some.inj char)
  | quote opens _ =>
    rw [Option.some.inj char, plain] at opens
    exact absurd opens (by decide)
  | blockEnd _ => cases char
  | lineEnd _ => cases char

/-- A column list that opens in plain code, in a statement whose parentheses balance, has a body. -/
theorem exists_closesBody {text opening list : List Char} (spells : Spell (lexemes text) text)
    (split : text = opening ++ '(' :: list) (mode : endMode opening = .code)
    (balanced : Balanced (lexemes text)) :
    ∃ body clauses ls, list = body ++ ')' :: clauses ∧ ReadsTo body ls .code ∧ Balanced ls := by
  subst split
  have reading : IsReading .code (lexemes (opening ++ '(' :: list)) := isReading_lex .code _
  obtain ⟨ks, others, eq, first, second⟩ := spells.exists_append
  rw [eq] at reading balanced
  obtain ⟨l, ms, rfl, char, third⟩ :
      ∃ l ms, others = l :: ms ∧ l.char? = some '(' ∧ Spell ms list := by
    cases others with
    | nil => cases second
    | cons l ms =>
      obtain ⟨char, third⟩ := List.cons_eq_cons.1 second
      exact ⟨l, ms, rfl, char, third⟩
  have read := lex_of_isReading reading.left first
  rw [endMode, read] at mode
  have after : IsReading (ks.foldl Mode.next .code) (l :: ms) := reading.after
  rw [show ks.foldl Mode.next .code = .code from mode] at after
  obtain rfl := after.eq_code_of_char? char rfl
  have total := balanced.total
  have inside := balanced.inside ks ((List.mem_inits _ _).2 (List.prefix_append ks _))
  rw [depth_append, depth_cons, weight_code, if_pos rfl] at total
  obtain ⟨body, rest, rfl, closes⟩ := exists_closesFrom ms 0 (by omega)
  have reads : ReadsTo list (body ++ .code ')' :: rest) _ := ⟨reading.right, third, rfl⟩
  obtain ⟨before, clauses, rfl, here, -⟩ := reads.exists_of_code
  exact ⟨before, clauses, body, rfl, here, closes⟩

/-- The place where a body closes is the only one. -/
theorem ClosesBody.unique {list body clauses body' clauses' : List Char}
    (h : ClosesBody list body clauses) (h' : ClosesBody list body' clauses') :
    body = body' ∧ clauses = clauses' := by
  have longer : ∀ {body body' more : List Char}, endMode body = .code → Balanced (lexemes body) →
      Balanced (lexemes body') → body' ≠ body ++ ')' :: more := by
    rintro body body' more mode balanced balanced' rfl
    have plain : MeetsPlainly body (')' :: more) := by
      rintro c - d head
      obtain rfl := Option.some.inj head
      exact ⟨fun eq => absurd eq.2 (by decide), fun eq => absurd eq.2 (by decide),
        fun eq => absurd eq.2 (by decide)⟩
    have all := lex_append plain .code
    rw [endMode] at mode
    rw [mode, lex_code_cons rfl (fun eq => absurd eq (by decide)) fun eq => absurd eq (by decide)]
      at all
    have lexed : lexemes (body ++ ')' :: more) = lexemes body ++ .code ')' :: lexemes more :=
      congrArg Prod.fst all
    have inside := balanced'.inside (lexemes body ++ [.code ')']) ((List.mem_inits _ _).2 ?_)
    · have total := balanced.total
      rw [depth_append, depth_cons, depth_nil, weight_code] at inside
      simp at inside
      omega
    · rw [lexed]
      exact ⟨lexemes more, by simp⟩
  rcases List.append_eq_append_iff.1 (h.split.symm.trans h'.split) with
    ⟨more, long, rest⟩ | ⟨more, long, rest⟩
  · cases more with
    | nil => exact ⟨by simpa using long.symm, (List.cons_eq_cons.1 rest).2⟩
    | cons c more =>
      obtain ⟨rfl, -⟩ := List.cons_eq_cons.1 rest
      exact absurd long (longer h.mode h.balanced h'.balanced)
  · cases more with
    | nil => exact ⟨by simpa using long, (List.cons_eq_cons.1 rest).2.symm⟩
    | cons c more =>
      obtain ⟨rfl, -⟩ := List.cons_eq_cons.1 rest
      exact absurd long (longer h'.mode h'.balanced h.balanced)

/-- A CREATE TABLE statement has a column list: its parenthesis opens right after the name of the
table, and in plain code. -/
def HasColumnList (stmt list : List Char) : Prop :=
  ∃ m opening, createTableBodyPhrase.match? stmt = some m ∧ m.rest = list ∧
    stmt = opening ++ '(' :: list ∧ endMode opening = .code

end Sql

open Sql

/--
The readers of literals agree on tables. Take a statement of a script that creates a table, with a
column list, without backticks, and with balanced parentheses outside the literals that the script
was cut by. Then its body ends at a parenthesis outside literals and is a list of parts, cut at the
commas outside literals and nested parentheses. If no quote in the body is escaped, the statement is
put into the catalog, and the columns are those that the parts define.
-/
theorem Draft.apply_createTable {script stmt : String} (mem : stmt ∈ statements script)
    {name : ObjectName} (creates : Statement.ofText stmt = .createTable name) {list : List Char}
    (has : HasColumnList stmt.toList list) (balanced : Balanced (lexemes stmt.toList))
    (backtick : '\x60' ∉ stmt.toList) :
    ∃ body clauses parts, ClosesBody list body clauses ∧ IsListing (lexemes body) parts ∧
      (escapesQuote .code (lexemes body) = false →
        ∃ declaration, Declaration.ofChars stmt.toList = .ok declaration ∧
          declaration.columns = (definitions parts).filterMap columnOf? ∧
          ∀ (d : Draft) (source : String), d.apply stmt source =
            .ok (d.mentionTable name source fun t => t.declare (d.resolve name) declaration,
              .changed)) := by
  obtain ⟨m, opening, found, rfl, split, mode⟩ := has
  obtain ⟨text, inside, rfl⟩ := List.mem_map.1 mem
  rw [String.toList_ofList] at *
  obtain ⟨-, part, keeps⟩ := exists_keepsSegment inside
  obtain ⟨body, clauses, ls, rest, reads, closes⟩ :=
    exists_closesBody keeps.spells split mode balanced
  have read := reads.lex_eq
  obtain ⟨parts, listing⟩ := exists_isListing closes
  have lexed : lexemes body = ls := congrArg Prod.fst read
  rw [← lexed] at closes listing
  refine ⟨body, clauses, parts, ⟨rest, congrArg Prod.snd read, closes⟩, listing, fun kept => ?_⟩
  rw [lexed] at closes listing kept
  have noBacktick : '\x60' ∉ body := fun mem => backtick (by rw [split, rest]; simp [mem])
  have bodySplit := splitBody?_of_reads reads rest closes noBacktick kept
  have declared : Declaration.ofChars text = .ok
      { columns := (topLevelParts .ignored body).filterMap columnOf?
        distribution := distributionOf? clauses
        storage := storageOf? clauses
        placementGroup := placementOf? clauses } := by
    simp only [Declaration.ofChars, found, bodySplit]
  refine ⟨_, declared, ?_, fun d source => ?_⟩
  · rw [topLevelParts, listing.partsFrom_eq reads noBacktick kept, List.map_map]
    rfl
  · have created : Statement.ofChars text = .createTable name := by
      rwa [Statement.ofText, String.toList_ofList] at creates
    rw [Draft.apply, String.toList_ofList, (trimmed_of_mem_statementTexts inside).trim_eq,
      Draft.applyTrimmed, created, declared]
    rfl

/-- A table with parentheses and commas in literals and in parentheses. -/
def quotedCommas : String :=
  "CREATE TABLE t (a TEXT DEFAULT '),(', b INT CHECK (b IN (1, 2)));"

/-- The text between its parentheses. -/
def quotedCommasBody : String :=
  "a TEXT DEFAULT '),(', b INT CHECK (b IN (1, 2))"

/-- The body of the statement ends at its last parenthesis. -/
theorem hasColumnList_quotedCommas :
    HasColumnList quotedCommas.toList (quotedCommasBody ++ ");").toList :=
  ⟨_, "CREATE TABLE t ".toList, rfl, by decide +kernel, by decide +kernel, by decide +kernel⟩

/-- The body has two parts, and the comma in quotes is in the first. -/
theorem isListing_quotedCommas :
    IsListing (lexemes quotedCommasBody.toList)
      [lexemes "a TEXT DEFAULT '),('".toList, lexemes " b INT CHECK (b IN (1, 2))".toList] := by
  have joined : lexemes quotedCommasBody.toList =
      lexemes "a TEXT DEFAULT '),('".toList ++ .code ',' ::
        lexemes " b INT CHECK (b IN (1, 2))".toList := by decide +kernel
  rw [joined]
  exact .cons (by decide +kernel) (.last (by decide +kernel))

/-- Its columns are those that stand between the commas outside literals and parentheses. -/
theorem apply_createTable_quotedCommas :
    ∃ declaration, Declaration.ofChars quotedCommas.toList = .ok declaration ∧
      declaration.columns = [("a", "TEXT"), ("b", "INT")] ∧
      ∀ (d : Draft) (source : String), d.apply quotedCommas source =
        .ok (d.mentionTable ⟨none, "t"⟩ source fun t =>
          t.declare (d.resolve ⟨none, "t"⟩) declaration, .changed) := by
  have alone : quotedCommas ∈ statements quotedCommas := by decide +kernel
  have creates : Statement.ofText quotedCommas = .createTable ⟨none, "t"⟩ := by decide +kernel
  obtain ⟨body, clauses, parts, closes, listing, all⟩ :=
    Draft.apply_createTable alone creates hasColumnList_quotedCommas (by decide +kernel)
      (by decide +kernel)
  have here : ClosesBody (quotedCommasBody ++ ");").toList quotedCommasBody.toList [';'] :=
    ⟨by decide +kernel, by decide +kernel, by decide +kernel⟩
  obtain ⟨rfl, rfl⟩ := closes.unique here
  obtain rfl := listing.unique isListing_quotedCommas
  obtain ⟨declaration, declared, columns, applied⟩ := all (by decide +kernel)
  refine ⟨declaration, declared, columns.trans ?_, applied⟩
  decide +kernel

/-- A table with an escaped quote in a default, as an insertion of the same value may have it. -/
def escapedDefault : String :=
  "CREATE TABLE t (a TEXT DEFAULT 'it\\'s', b INT);"

/-- After an escaped quote, the readers of the body take code for a literal and do not find the end
of the body: the whole table is lost, though its parentheses balance outside the literals. -/
theorem Draft.apply_createTable_escapedQuote :
    statements escapedDefault = [escapedDefault] ∧
      Statement.ofText escapedDefault = .createTable ⟨none, "t"⟩ ∧
      HasColumnList escapedDefault.toList "a TEXT DEFAULT 'it\\'s', b INT);".toList ∧
      Balanced (lexemes escapedDefault.toList) ∧ '\x60' ∉ escapedDefault.toList ∧
      ClosesBody "a TEXT DEFAULT 'it\\'s', b INT);".toList "a TEXT DEFAULT 'it\\'s', b INT".toList
        [';'] ∧
      ∀ (d : Draft) (source : String), d.apply escapedDefault source =
        .error (Declaration.malformed "unbalanced parentheses" escapedDefault.toList) :=
  ⟨by decide +kernel, by decide +kernel,
    ⟨_, "CREATE TABLE t ".toList, rfl, by decide +kernel, by decide +kernel, by decide +kernel⟩,
    by decide +kernel, by decide +kernel, ⟨by decide +kernel, by decide +kernel, by decide +kernel⟩,
    fun _ _ => rfl⟩

end Rollback

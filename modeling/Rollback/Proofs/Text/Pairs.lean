import Mathlib.Data.List.Chain

/-!
# Pairs of characters

Texts in which one character never comes right after another, as a slash after a star, which ends a
comment, or a dash after a dash, which starts one.

- `LacksPair`: a text without the pair
- `LacksPair.append`: texts without the pair can be put together if it does not arise between them
- `KeepsApart`: a text between two others with which the pair does not arise
- `KeepsApart.lacksPair_intercalate_iff`: texts that are kept apart lack the pair if each of them
  does
-/

set_option autoImplicit false

namespace Rollback.Text

/-- The second character never comes right after the first. -/
def LacksPair (first second : Char) (s : List Char) : Prop :=
  s.IsChain fun a b => ¬(a = first ∧ b = second)

instance (first second : Char) (s : List Char) : Decidable (LacksPair first second s) :=
  inferInstanceAs (Decidable (List.IsChain _ s))

variable {first second : Char} {s t : List Char}

/-- A character in front makes a pair only with the next one. -/
theorem lacksPair_cons {c : Char} :
    LacksPair first second (c :: s) ↔
      (c = first → s.head? ≠ some second) ∧ LacksPair first second s := by
  rw [LacksPair, List.isChain_cons]
  refine and_congr_left fun _ => ⟨fun h eq head => h second head ⟨eq, rfl⟩, ?_⟩
  rintro h d head ⟨eq, rfl⟩
  exact h eq head

/-- A text without the first character lacks the pair. -/
theorem lacksPair_of_notMem (h : first ∉ s) : LacksPair first second s := by
  induction s with
  | nil => exact List.IsChain.nil
  | cons c s ih =>
    rw [List.mem_cons, not_or] at h
    exact lacksPair_cons.2 ⟨fun eq => absurd eq.symm h.1, ih h.2⟩

theorem LacksPair.right (h : LacksPair first second (s ++ t)) : LacksPair first second t :=
  List.IsChain.right_of_append h

theorem LacksPair.left (h : LacksPair first second (s ++ t)) : LacksPair first second s :=
  List.IsChain.left_of_append h

/-- Texts without the pair can be put together if the pair does not arise between them. -/
theorem LacksPair.append (hs : LacksPair first second s) (ht : LacksPair first second t)
    (between : s.getLast? = some first → t.head? ≠ some second) :
    LacksPair first second (s ++ t) := by
  refine List.IsChain.append hs ht ?_
  rintro c hc d hd ⟨rfl, rfl⟩
  exact between hc hd

/-- What comes before a text does not matter if it has no first character of the pair. -/
theorem lacksPair_append_of_notMem (h : first ∉ s) :
    LacksPair first second (s ++ t) ↔ LacksPair first second t :=
  ⟨.right, fun ht => (lacksPair_of_notMem h).append ht fun last =>
    absurd (List.mem_of_getLast? last) h⟩

/-- A text that keeps the texts around it apart: no pair arises with it. -/
structure KeepsApart (first second : Char) (s : List Char) : Prop where
  nonempty : s ≠ []
  first : first ∉ s
  second : second ∉ s

instance (first second : Char) (s : List Char) : Decidable (KeepsApart first second s) :=
  decidable_of_iff (s ≠ [] ∧ first ∉ s ∧ second ∉ s)
    ⟨fun h => ⟨h.1, h.2.1, h.2.2⟩, fun h => ⟨h.nonempty, h.first, h.second⟩⟩

variable {between : List Char}

/-- At its end, such a text makes no pair. -/
theorem KeepsApart.lacksPair_append_iff (h : KeepsApart first second between) :
    LacksPair first second (s ++ between) ↔ LacksPair first second s :=
  ⟨.left, fun hs => hs.append (lacksPair_of_notMem h.first) fun _ head =>
    absurd (List.mem_of_mem_head? head) h.second⟩

/-- Between two texts, such a text makes no pair with either. -/
theorem KeepsApart.lacksPair_append_append_iff (h : KeepsApart first second between) :
    LacksPair first second (s ++ (between ++ t)) ↔
      LacksPair first second s ∧ LacksPair first second t := by
  rw [← List.append_assoc]
  constructor
  · exact fun all => ⟨h.lacksPair_append_iff.1 all.left, all.right⟩
  · rintro ⟨hs, ht⟩
    refine (h.lacksPair_append_iff.2 hs).append ht fun last _ => ?_
    rw [List.getLast?_append_of_ne_nil _ h.nonempty] at last
    exact absurd (List.mem_of_getLast? last) h.first

/-- Texts that are kept apart lack the pair together if each of them does. -/
theorem KeepsApart.lacksPair_intercalate_iff (h : KeepsApart first second between)
    (parts : List (List Char)) :
    LacksPair first second (between.intercalate parts) ↔
      ∀ part ∈ parts, LacksPair first second part := by
  induction parts with
  | nil => exact iff_of_true List.IsChain.nil (fun _ mem => nomatch mem)
  | cons part rest ih =>
    cases rest with
    | nil => simp
    | cons next rest =>
      rw [List.intercalate_cons_cons, List.append_assoc, h.lacksPair_append_append_iff, ih,
        List.forall_mem_cons (a := part)]

end Rollback.Text

import Rollback.Proofs.Pattern.Contexts
import Rollback.Proofs.Pattern.Readings

/-!
# Texts that are taken

The text that a reading takes is put together from the texts that its parts take, whatever is around
it. This module says so for each way to build a pattern.

- `ReadsText.of_seq`, `ReadsText.of_alt`, `ReadsText.of_firstOf`: parts in a row, or a choice
- `ReadsText.of_char`, `ReadsText.of_some1`, `ReadsText.of_stretch`: characters
- `ReadsText.of_keyword`: keywords
- `ReadsText.of_many`: the turns of a repetition
- `Match.readsText_text`: the text that every reading marks
-/

set_option autoImplicit false

namespace Rollback

namespace Pattern

variable {ι : Type} {p q : Pattern ι} {set : CharSet} {w : List Char}

/-- What a sequence takes is what its parts take, one after the other. -/
theorem ReadsText.of_seq (h : (p ++ q).ReadsText w) :
    ∃ a b, w = a ++ b ∧ p.ReadsText a ∧ q.ReadsText b := by
  obtain ⟨s, t, ht, rest⟩ := h
  obtain ⟨u, hu, ht⟩ := List.mem_flatMap.1 ht
  obtain ⟨a, first⟩ := suffix_of_mem_places hu
  obtain ⟨b, second⟩ := suffix_of_mem_places ht
  refine ⟨a, b, ?_, ⟨s, u, hu, first.symm⟩, ⟨u, t, ht, second.symm⟩⟩
  rw [← first, ← second, ← List.append_assoc] at rest
  exact (List.append_cancel_right rest).symm

theorem ReadsText.of_alt (h : (alt p q).ReadsText w) : p.ReadsText w ∨ q.ReadsText w := by
  obtain ⟨s, t, ht, rest⟩ := h
  rcases List.mem_append.1 ht with ht | ht
  · exact .inl ⟨s, t, ht, rest⟩
  · exact .inr ⟨s, t, ht, rest⟩

theorem ReadsText.of_empty (h : (empty : Pattern ι).ReadsText w) : w = [] := by
  obtain ⟨s, t, ht, rest⟩ := h
  rw [places_empty, List.mem_singleton] at ht
  rw [ht] at rest
  exact List.append_cancel_right (rest.symm.trans (List.nil_append _).symm)

theorem ReadsText.of_orNothing (h : (orNothing p).ReadsText w) : p.ReadsText w ∨ w = [] :=
  h.of_alt.imp id ReadsText.of_empty

theorem ReadsText.of_wordEdge (h : (wordEdge : Pattern ι).ReadsText w) : w = [] := by
  obtain ⟨s, t, ht, rest⟩ := h
  obtain rfl := eq_of_mem_places_wordEdge ht
  exact List.append_cancel_right (rest.symm.trans (List.nil_append _).symm)

theorem ReadsText.of_char (h : (char set : Pattern ι).ReadsText w) :
    ∃ c, set.contains c = true ∧ w = [c] := by
  obtain ⟨s, t, ht, rest⟩ := h
  obtain ⟨c, inside, first, -, -⟩ := mem_places_char ht
  exact ⟨c, inside, List.append_cancel_right (rest.symm.trans first)⟩

theorem ReadsText.of_some0 (h : (some0 set : Pattern ι).ReadsText w) :
    ∀ c ∈ w, set.contains c = true := by
  obtain ⟨s, t, ht, rest⟩ := h
  obtain ⟨v, inside, first, -, -⟩ := mem_places_some0 ht
  rwa [List.append_cancel_right (rest.symm.trans first)]

theorem ReadsText.of_some1 (h : (some1 set : Pattern ι).ReadsText w) :
    w ≠ [] ∧ ∀ c ∈ w, set.contains c = true := by
  obtain ⟨s, t, ht, rest⟩ := h
  obtain ⟨v, nonempty, inside, first⟩ := mem_places_some1 ht
  rw [List.append_cancel_right (rest.symm.trans first)]
  exact ⟨nonempty, inside⟩

/-- What a stretch goes over is within its set. -/
theorem exists_stretchFrom_eq (set : CharSet) (rest : List Char) : ∀ last, ∃ v,
    rest = v ++ (stretchFrom set last rest).2 ∧ ∀ c ∈ v, set.contains c = true := by
  induction rest with
  | nil => exact fun last => ⟨[], rfl, List.forall_mem_nil _⟩
  | cons c rest ih =>
    intro last
    rw [stretchFrom_cons]
    split
    · rename_i inside
      obtain ⟨v, split, all⟩ := ih (some c)
      exact ⟨c :: v, by rw [List.cons_append, ← split], List.forall_mem_cons.2 ⟨inside, all⟩⟩
    · exact ⟨[], rfl, List.forall_mem_nil _⟩

/-- A stretch stays within its set. -/
theorem ReadsText.of_stretch (h : (stretch set : Pattern ι).ReadsText w) :
    ∀ c ∈ w, set.contains c = true := by
  obtain ⟨s, t, ht, rest⟩ := h
  rw [places_stretch, List.mem_singleton] at ht
  obtain ⟨v, split, all⟩ := exists_stretchFrom_eq set s.rest s.last
  rw [ht] at rest
  rwa [List.append_cancel_right (rest.symm.trans split)]

/-- A keyword takes itself, up to its case. -/
theorem ReadsText.of_keyword {word : String} (h : (keyword word : Pattern ι).ReadsText w) :
    Text.eqIgnoringCase word.toList w = true := by
  obtain ⟨s, t, ht, rest⟩ := h
  obtain ⟨same, after⟩ := mem_places_keyword ht
  have whole : w ++ t.rest = s.rest.take word.toList.length ++ t.rest := by
    rw [← rest, after, List.take_append_drop]
  rwa [List.append_cancel_right whole]

/-- The first pattern of a list that can be read is one of the list. -/
theorem ReadsText.of_firstOf {ps : List (Pattern ι)} (h : (firstOf ps).ReadsText w) :
    ∃ p ∈ ps, p.ReadsText w := by
  induction ps with
  | nil =>
    obtain ⟨c, inside, -⟩ := h.of_char
    exact absurd inside Bool.false_ne_true
  | cons p rest ih =>
    cases rest with
    | nil => exact ⟨p, List.mem_singleton.2 rfl, h⟩
    | cons q rest =>
      rcases h.of_alt with first | later
      · exact ⟨p, List.mem_cons_self, first⟩
      · obtain ⟨r, mem, reads⟩ := ih later
        exact ⟨r, List.mem_cons_of_mem p mem, reads⟩

/-- What a repetition takes is cut into its turns, none of which is empty. -/
theorem ReadsText.of_many (h : (many p).ReadsText w) :
    ∃ turns : List (List Char), (∀ v ∈ turns, v ≠ [] ∧ p.ReadsText v) ∧ w = turns.flatten := by
  obtain ⟨s, t, ht, rest⟩ := h
  obtain ⟨turns, all, taken⟩ := exists_turns ht
  exact ⟨turns, all, List.append_cancel_right (rest.symm.trans taken)⟩

end Pattern

open Pattern in
/-- The text under a name that every reading marks is read by one of the parts with that name. -/
theorem Match.readsText_text {ι : Type} [DecidableEq ι] {p : Pattern ι} {text : List Char}
    {m : Match ι} (h : p.match? text = some m) (name : ι) (marks : p.alwaysMarks name = true) :
    ∃ q ∈ p.markedParts name, q.ReadsText (m.text name) := by
  obtain ⟨w, found⟩ := Match.exists_text? h marks
  obtain ⟨q, mem, reads⟩ := Match.readsText h found
  rw [Match.text, found]
  exact ⟨q, mem, reads⟩

end Rollback

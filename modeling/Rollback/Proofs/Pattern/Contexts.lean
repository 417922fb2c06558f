import Mathlib.Data.List.Forall2
import Rollback.Proofs.Pattern.Marks
import Rollback.Proofs.Pattern.Readings

/-!
# What a reading depends on

What was marked before a place does not matter for what is read there. A pattern without longest
stretches and edges of words does not look at anything but the text that it takes, so it can take
that text wherever it stands.

- `Place.SamePoint`: the same place but for what was marked
- `Pattern.samePoint_places`: marks do not change what is read, and so they can be left out
- `Pattern.looksNoFurther`: patterns that look at nothing but what they take
- `Pattern.ReadsText.exists_mem_places`: the text that such a pattern takes can stand anywhere
-/

set_option autoImplicit false

namespace Rollback

variable {ι : Type}

/-- The same place in a text, whatever was marked on the way to it. -/
structure Place.SamePoint (s t : Place ι) : Prop where
  last : s.last = t.last
  rest : s.rest = t.rest

namespace Pattern

/-! ## Marks -/

section Marks

variable {p q r : Pattern ι} {s t u : Place ι}

/-- If one turn has the same ends from places that differ in their marks, then so have several
turns. -/
theorem samePoint_turnPlaces {turn : Place ι → List (Place ι)}
    (turns : ∀ {s t}, s.SamePoint t → List.Forall₂ Place.SamePoint (turn s) (turn t))
    (bound : List Char) : ∀ {s t}, s.SamePoint t →
      List.Forall₂ Place.SamePoint (turnPlaces turn bound s) (turnPlaces turn bound t) := by
  induction bound with
  | nil => exact fun same => .cons same .nil
  | cons c bound ih =>
    intro s t same
    rw [turnPlaces_cons, turnPlaces_cons]
    exact List.rel_append (List.rel_flatMap (turns same) fun _ _ => ih) (.cons same .nil)

/-- From the same point a pattern can be read to the same points. -/
theorem samePoint_places (p : Pattern ι) : ∀ {s t : Place ι}, s.SamePoint t →
    List.Forall₂ Place.SamePoint (p.places s) (p.places t) := by
  -- The induction is on the pattern: marks are written to places, but nothing reads them.
  induction p with
  | empty => exact fun same => .cons same .nil
  | char set =>
    rintro ⟨l, rest, m⟩ ⟨-, -, m'⟩ ⟨rfl, rfl⟩
    cases rest with
    | nil => exact .nil
    | cons c rest =>
      rw [places_char, places_char]
      split
      · exact .cons ⟨rfl, rfl⟩ .nil
      · exact .nil
  | stretch set =>
    rintro ⟨l, rest, m⟩ ⟨-, -, m'⟩ ⟨rfl, rfl⟩
    exact .cons ⟨rfl, rfl⟩ .nil
  | seq p q hp hq => exact fun same => List.rel_flatMap (hp same) fun _ _ => hq
  | alt p q hp hq => exact fun same => List.rel_append (hp same) (hq same)
  | many p hp =>
    intro s t same
    rw [places_many, places_many, same.rest]
    exact samePoint_turnPlaces hp t.rest same
  | mark name p hp =>
    intro s t same
    exact List.rel_map (fun _ _ same => ⟨same.last, same.rest⟩) (hp same)
  | wordEdge =>
    rintro ⟨l, rest, m⟩ ⟨-, -, m'⟩ ⟨rfl, rfl⟩
    rw [places_wordEdge, places_wordEdge]
    split
    · exact .cons ⟨rfl, rfl⟩ .nil
    · exact .nil

/-- Without a mark, the preferred reading of what it stands in ends at the same point. -/
theorem Reads.of_mark {name : ι} (h : Reads (Pattern.mark name p ++ q) s t) :
    ∃ u, Reads (p ++ q) s u ∧ u.rest = t.rest := by
  have marked : List.Forall₂ Place.SamePoint ((Pattern.mark name p).places s) (p.places s) := by
    rw [places_mark, List.forall₂_map_left_iff]
    exact List.forall₂_same.2 fun _ _ => ⟨rfl, rfl⟩
  have all : List.Forall₂ Place.SamePoint ((Pattern.mark name p ++ q).places s)
      ((p ++ q).places s) := List.rel_flatMap marked fun _ _ => samePoint_places q
  obtain ⟨others, first⟩ := reads_iff.1 h
  rw [first] at all
  obtain ⟨u, more, same, -, eq⟩ := List.forall₂_cons_left_iff.1 all
  exact ⟨u, reads_of_eq eq, same.rest.symm⟩

end Marks

/-! ## Preferred readings of parts -/

section Parts

variable {p q r : Pattern ι} {s t u : Place ι}

theorem Reads.of_assoc (h : Reads (p ++ q ++ r) s t) : Reads (p ++ (q ++ r)) s t :=
  (congrArg List.head? (places_seq_assoc p q r s)).symm.trans h

/-- The preferred reading of a sequence is one of its second part after a reading of the first. -/
theorem Reads.exists_mem (h : Reads (p ++ q) s u) : ∃ t ∈ p.places s, Reads q t u := by
  have first : ((p.places s).flatMap q.places).head? = some u := h
  rw [List.head?_flatMap] at first
  exact List.exists_of_findSome?_eq_some first

/-- What follows a choice can be put into its alternatives. -/
theorem places_alt_seq (p q r : Pattern ι) (s : Place ι) :
    (alt p q ++ r).places s = (p ++ r).places s ++ (q ++ r).places s :=
  List.flatMap_append

/-- The first of two patterns is taken if what follows can be read after it. -/
theorem Reads.of_alt_left (h : Reads (alt p q ++ r) s t) (can : ¬Stuck (p ++ r) s) :
    Reads (p ++ r) s t := by
  rw [Reads, places_alt_seq, List.head?_append_of_ne_nil _ can] at h
  exact h

/-- The second of two patterns is taken if what follows cannot be read after the first. -/
theorem Reads.of_alt_right (h : Reads (alt p q ++ r) s t) (stuck : Stuck (p ++ r) s) :
    Reads (q ++ r) s t := by
  have none_ : (p ++ r).places s = [] := stuck
  rwa [Reads, places_alt_seq, none_, List.nil_append] at h

/-- A choice and what follows it cannot be read if neither alternative can be read with it. -/
theorem stuck_alt_seq_iff :
    Stuck (Pattern.alt p q ++ r) s ↔ Stuck (p ++ r) s ∧ Stuck (q ++ r) s := by
  rw [Stuck, places_alt_seq, List.append_eq_nil_iff]
  rfl

theorem not_stuck_of_mem (h : t ∈ p.places s) : ¬Stuck p s :=
  List.ne_nil_of_mem h

end Parts

/-! ## Surroundings -/

/-- Whether a pattern looks at nothing but the text that it takes. -/
def looksNoFurther : Pattern ι → Bool
  | empty => true
  | char _ => true
  | stretch _ => false
  | seq p q => p.looksNoFurther && q.looksNoFurther
  | alt p q => p.looksNoFurther && q.looksNoFurther
  | many p => p.looksNoFurther
  | mark _ p => p.looksNoFurther
  | wordEdge => false

/-- Wherever the text stands, the pattern can take it. -/
def TakesAnywhere (p : Pattern ι) (w : List Char) : Prop :=
  ∀ (l : Option Char) (rest : List Char) (m : List (ι × Span)),
    ∃ t ∈ p.places ⟨l, w ++ rest, m⟩, t.rest = rest

section TakesAnywhere

variable {p q : Pattern ι} {v w : List Char}

/-- Parts that take their texts anywhere take them one after the other. -/
theorem TakesAnywhere.seq (hp : TakesAnywhere p v) (hq : TakesAnywhere q w) :
    TakesAnywhere (p ++ q) (v ++ w) := by
  intro l rest m
  rw [List.append_assoc]
  obtain ⟨⟨l', between, m'⟩, hu, rfl⟩ := hp l (w ++ rest) m
  obtain ⟨t, ht, end_⟩ := hq l' rest m'
  exact ⟨t, List.mem_flatMap.2 ⟨_, hu, ht⟩, end_⟩

theorem TakesAnywhere.assoc {r : Pattern ι} (h : TakesAnywhere (p ++ (q ++ r)) w) :
    TakesAnywhere (p ++ q ++ r) w := by
  intro l rest m
  rw [places_seq_assoc]
  exact h l rest m

/-- The texts of some turns can be taken by a repetition. -/
theorem exists_mem_turnPlaces {turns : List (List Char)}
    (h : ∀ w ∈ turns, w ≠ [] ∧ TakesAnywhere p w) (bound : List Char) (l : Option Char)
    (rest : List Char) (m : List (ι × Span)) (enough : turns.flatten.length ≤ bound.length) :
    ∃ t ∈ turnPlaces p.places bound ⟨l, turns.flatten ++ rest, m⟩, t.rest = rest := by
  -- Each turn takes at least one character, so it leaves a bound for the ones after it.
  induction turns generalizing bound l m with
  | nil =>
    cases bound with
    | nil => exact ⟨_, List.mem_singleton.2 rfl, rfl⟩
    | cons c bound => exact ⟨_, List.mem_append_right _ (List.mem_singleton.2 rfl), rfl⟩
  | cons w turns ih =>
    obtain ⟨⟨nonempty, turn⟩, others⟩ := List.forall_mem_cons.1 h
    have takes := List.length_pos_of_ne_nil nonempty
    rw [List.flatten_cons, List.length_append] at enough
    cases bound with
    | nil =>
      rw [List.length_nil] at enough
      omega
    | cons c bound =>
      rw [List.length_cons] at enough
      rw [List.flatten_cons, List.append_assoc, turnPlaces_cons]
      obtain ⟨⟨l', between, m'⟩, hu, rfl⟩ := turn l (turns.flatten ++ rest) m
      obtain ⟨t, ht, end_⟩ := ih others bound l' m' (by omega)
      exact ⟨t, List.mem_append_left _ (List.mem_flatMap.2 ⟨_, hu, ht⟩), end_⟩

/-- What a repetition takes are the texts of its turns, of which those that take nothing can be left
out. -/
theorem exists_turns {s t : Place ι} (h : t ∈ (many p).places s) :
    ∃ turns : List (List Char), (∀ w ∈ turns, w ≠ [] ∧ p.ReadsText w) ∧
      s.rest = turns.flatten ++ t.rest := by
  refine turnPlaces_induction
    (r := fun s t => ∃ turns : List (List Char), (∀ w ∈ turns, w ≠ [] ∧ p.ReadsText w) ∧
      s.rest = turns.flatten ++ t.rest)
    (fun s => ⟨[], List.forall_mem_nil _, rfl⟩) (fun {s u t} hu more => ?_) s.rest h
  obtain ⟨turns, all, rest⟩ := more
  obtain ⟨w, first⟩ := suffix_of_mem_places hu
  rw [rest] at first
  cases w with
  | nil =>
    exact ⟨turns, all, first.symm⟩
  | cons c w =>
    refine ⟨(c :: w) :: turns,
      List.forall_mem_cons.2 ⟨⟨List.cons_ne_nil c w, s, u, hu, ?_⟩, all⟩, ?_⟩
    · rw [rest, first]
    · rw [List.flatten_cons, List.append_assoc, first]

/-- What a reading takes can be taken anywhere if its pattern looks no further. -/
theorem ReadsText.takesAnywhere (local_ : p.looksNoFurther = true) (h : p.ReadsText w) :
    TakesAnywhere p w := by
  -- The induction is on the pattern; the two constructors that look further are ruled out.
  induction p generalizing w with
  | empty =>
    obtain ⟨s, t, ht, rest⟩ := h
    obtain rfl := List.mem_singleton.1 ht
    obtain rfl : w = [] := List.append_left_eq_self.1 rest.symm
    exact fun l rest m => ⟨_, List.mem_singleton.2 rfl, rfl⟩
  | char set =>
    obtain ⟨s, t, ht, rest⟩ := h
    obtain ⟨c, inside, split, -, -⟩ := mem_places_char ht
    obtain rfl : w = [c] := List.append_cancel_right (rest.symm.trans split)
    intro l after m
    refine ⟨⟨some c, after, m⟩, ?_, rfl⟩
    rw [List.singleton_append, places_char, if_pos inside]
    exact List.mem_singleton.2 rfl
  | stretch set => exact absurd local_ Bool.false_ne_true
  | seq p q hp hq =>
    obtain ⟨first, second⟩ := Bool.and_eq_true_iff.1 local_
    obtain ⟨s, t, ht, rest⟩ := h
    obtain ⟨u, hu, ht⟩ := List.mem_flatMap.1 ht
    obtain ⟨v, left⟩ := suffix_of_mem_places hu
    obtain ⟨v', right⟩ := suffix_of_mem_places ht
    have both : w ++ t.rest = v ++ v' ++ t.rest := by
      rw [← rest, ← left, ← right, List.append_assoc]
    obtain rfl := List.append_cancel_right both
    exact (hp first ⟨s, u, hu, left.symm⟩).seq (hq second ⟨u, t, ht, right.symm⟩)
  | alt p q hp hq =>
    obtain ⟨first, second⟩ := Bool.and_eq_true_iff.1 local_
    obtain ⟨s, t, ht, rest⟩ := h
    intro l after m
    rcases List.mem_append.1 ht with ht | ht
    · obtain ⟨u, hu, end_⟩ := hp first ⟨s, t, ht, rest⟩ l after m
      exact ⟨u, List.mem_append_left _ hu, end_⟩
    · obtain ⟨u, hu, end_⟩ := hq second ⟨s, t, ht, rest⟩ l after m
      exact ⟨u, List.mem_append_right _ hu, end_⟩
  | many p hp =>
    obtain ⟨s, t, ht, rest⟩ := h
    obtain ⟨turns, all, split⟩ := exists_turns ht
    obtain rfl : w = turns.flatten := List.append_cancel_right (rest.symm.trans split)
    intro l rest m
    rw [places_many]
    refine exists_mem_turnPlaces
      (fun w mem => ⟨(all w mem).1, hp local_ (all w mem).2⟩) _ l rest m ?_
    exact List.length_append ▸ Nat.le_add_right _ _
  | mark name p hp =>
    obtain ⟨s, t, ht, rest⟩ := h
    obtain ⟨u, hu, rfl⟩ := List.mem_map.1 ht
    intro l after m
    obtain ⟨v, hv, end_⟩ := hp local_ ⟨s, u, hu, rest⟩ l after m
    exact ⟨_, List.mem_map.2 ⟨v, hv, rfl⟩, end_⟩
  | wordEdge => exact absurd local_ Bool.false_ne_true

end TakesAnywhere

end Pattern

end Rollback

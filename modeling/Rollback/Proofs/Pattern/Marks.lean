import Rollback.Proofs.Pattern.Places

/-!
# Marked parts

A match keeps the texts of marked parts. Whatever way a pattern was read, the text that is kept
under a name is one that a part with this mark can read, so what is known of the part holds of the
text.

- `Pattern.markedParts`: the parts of a pattern that are marked with a name
- `Pattern.suffix_of_mem_places`: a reading takes characters off the start of the text
- `Pattern.addsSpans_of_mem_places`: a reading adds only spans that marked parts have read
- `Pattern.lookup_of_mem_places`: it keeps what is under the names that it does not mark
- `Match.readsText`: the text under a name is read by one of the parts with that name
- `Match.exists_text?`: there is such a text if every reading marks the name
-/

set_option autoImplicit false

namespace Rollback

namespace Pattern

variable {ι : Type}

/-- The text `w` at the start of a place is what a reading of the pattern takes. -/
def ReadsText (p : Pattern ι) (w : List Char) : Prop :=
  ∃ s t, t ∈ p.places s ∧ s.rest = w ++ t.rest

/-- A stretch leaves an end of the text. -/
theorem suffix_stretchFrom (set : CharSet) (rest : List Char) :
    ∀ last, (stretchFrom set last rest).2 <:+ rest := by
  induction rest with
  | nil => exact fun last => List.suffix_refl _
  | cons c rest ih =>
    intro last
    rw [stretchFrom]
    split
    · exact (ih (some c)).trans (List.suffix_cons c rest)
    · exact List.suffix_refl _

/-- A relation that holds of equal places and lets one turn be put in front holds of the start and
the end of a repetition. -/
theorem turnPlaces_induction {turn : Place ι → List (Place ι)} {r : Place ι → Place ι → Prop}
    (refl : ∀ s, r s s) (step : ∀ {s t u}, t ∈ turn s → r t u → r s u) :
    ∀ (bound : List Char) {s t : Place ι}, t ∈ turnPlaces turn bound s → r s t := by
  intro bound
  induction bound with
  | nil =>
    intro s t ht
    rw [turnPlaces_nil, List.mem_singleton] at ht
    exact ht ▸ refl s
  | cons c bound ih =>
    intro s t ht
    rw [turnPlaces_cons, List.mem_append, List.mem_flatMap, List.mem_singleton] at ht
    rcases ht with ⟨u, hu, ht⟩ | rfl
    · exact step hu (ih ht)
    · exact refl t

/-- A reading takes characters off the start of the text. -/
theorem suffix_of_mem_places {p : Pattern ι} :
    ∀ {s t : Place ι}, t ∈ p.places s → t.rest <:+ s.rest := by
  induction p with
  | empty =>
    intro s t ht
    rw [places_empty, List.mem_singleton] at ht
    exact ht ▸ List.suffix_refl _
  | char set =>
    intro s t ht
    obtain ⟨c, -, rest, -, -⟩ := mem_places_char ht
    exact rest ▸ List.suffix_cons c t.rest
  | stretch set =>
    intro s t ht
    rw [places_stretch, List.mem_singleton] at ht
    exact ht ▸ suffix_stretchFrom set s.rest s.last
  | seq p q hp hq =>
    intro s t ht
    obtain ⟨u, hu, ht⟩ := List.mem_flatMap.1 ht
    exact (hq ht).trans (hp hu)
  | alt p q hp hq =>
    intro s t ht
    rcases List.mem_append.1 ht with ht | ht
    · exact hp ht
    · exact hq ht
  | many p hp =>
    intro s t ht
    exact turnPlaces_induction (r := fun s t => t.rest <:+ s.rest)
      (fun s => List.suffix_refl _) (fun hu more => more.trans (hp hu)) s.rest ht
  | mark name p hp =>
    intro s t ht
    obtain ⟨u, hu, rfl⟩ := List.mem_map.1 ht
    have read : u.rest <:+ s.rest := hp hu
    exact read
  | wordEdge =>
    intro s t ht
    exact eq_of_mem_places_wordEdge ht ▸ List.suffix_refl _

variable [DecidableEq ι]

/-- The parts of a pattern that are marked with a name. -/
def markedParts (name : ι) : Pattern ι → List (Pattern ι)
  | empty => []
  | char _ => []
  | stretch _ => []
  | seq p q => p.markedParts name ++ q.markedParts name
  | alt p q => p.markedParts name ++ q.markedParts name
  | many p => p.markedParts name
  | mark other p => (if other = name then [p] else []) ++ p.markedParts name
  | wordEdge => []

/-- What is marked at the end of a reading: spans that marked parts have read, and those of
before. -/
def AddsSpans (p : Pattern ι) (s t : Place ι) : Prop :=
  ∃ spans, t.marked = spans ++ s.marked ∧ ∀ e ∈ spans,
    ∃ q ∈ p.markedParts e.1, ∃ u v, v ∈ q.places u ∧ e.2 = ⟨u.rest, v.rest⟩

section AddsSpans

variable {p q r : Pattern ι} {s t u : Place ι}

theorem AddsSpans.of_eq (h : t.marked = s.marked) : AddsSpans p s t :=
  ⟨[], h, fun _ mem => absurd mem List.not_mem_nil⟩

/-- The spans of two readings in a row are those of a pattern that has the marked parts of both. -/
theorem AddsSpans.trans (hp : AddsSpans p s t) (hq : AddsSpans q t u)
    (left : ∀ name, p.markedParts name ⊆ r.markedParts name)
    (right : ∀ name, q.markedParts name ⊆ r.markedParts name) : AddsSpans r s u := by
  obtain ⟨first, hfirst, parts⟩ := hp
  obtain ⟨second, hsecond, more⟩ := hq
  refine ⟨second ++ first, by rw [hsecond, hfirst, List.append_assoc], fun e mem => ?_⟩
  rcases List.mem_append.1 mem with mem | mem
  · obtain ⟨part, hpart, read⟩ := more e mem
    exact ⟨part, right e.1 hpart, read⟩
  · obtain ⟨part, hpart, read⟩ := parts e mem
    exact ⟨part, left e.1 hpart, read⟩

theorem AddsSpans.mono (h : AddsSpans p s t)
    (subset : ∀ name, p.markedParts name ⊆ r.markedParts name) : AddsSpans r s t :=
  h.trans (q := empty) (.of_eq rfl) subset fun _ => List.nil_subset _

end AddsSpans

/-- A reading adds only spans that marked parts have read. -/
theorem addsSpans_of_mem_places {p : Pattern ι} :
    ∀ {s t : Place ι}, t ∈ p.places s → AddsSpans p s t := by
  induction p with
  | empty =>
    intro s t ht
    rw [places_empty, List.mem_singleton] at ht
    exact .of_eq (ht ▸ rfl)
  | char set =>
    intro s t ht
    obtain ⟨c, -, -, -, marked⟩ := mem_places_char ht
    exact .of_eq marked
  | stretch set =>
    intro s t ht
    rw [places_stretch, List.mem_singleton] at ht
    exact .of_eq (ht ▸ rfl)
  | seq p q hp hq =>
    intro s t ht
    obtain ⟨u, hu, ht⟩ := List.mem_flatMap.1 ht
    exact (hp hu).trans (hq ht) (fun _ => List.subset_append_left _ _)
      fun _ => List.subset_append_right _ _
  | alt p q hp hq =>
    intro s t ht
    rcases List.mem_append.1 ht with ht | ht
    · exact (hp ht).mono fun _ => List.subset_append_left _ _
    · exact (hq ht).mono fun _ => List.subset_append_right _ _
  | many p hp =>
    intro s t ht
    have turn : ∀ name, p.markedParts name ⊆ (many p).markedParts name := fun _ =>
      List.Subset.refl _
    exact turnPlaces_induction (r := AddsSpans (many p)) (fun s => .of_eq rfl)
      (fun hu more => (hp hu).trans more turn fun _ => List.Subset.refl _) s.rest ht
  | mark other p hp =>
    intro s t ht
    obtain ⟨u, hu, rfl⟩ := List.mem_map.1 ht
    obtain ⟨spans, split, parts⟩ := hp hu
    refine ⟨(other, ⟨s.rest, u.rest⟩) :: spans, ?_, fun e mem => ?_⟩
    · rw [split, List.cons_append]
    · rcases List.mem_cons.1 mem with rfl | mem
      · refine ⟨p, List.mem_append_left _ ?_, s, u, hu, rfl⟩
        rw [if_pos rfl]
        exact List.mem_cons_self
      · obtain ⟨part, hpart, read⟩ := parts e mem
        exact ⟨part, List.mem_append_right _ hpart, read⟩
  | wordEdge =>
    intro s t ht
    exact .of_eq (eq_of_mem_places_wordEdge ht ▸ rfl)

/-- A reading keeps what is under the names that it does not mark. -/
theorem lookup_of_mem_places {name : ι} {p : Pattern ι} (unmarked : p.markedParts name = [])
    {s t : Place ι} (ht : t ∈ p.places s) : t.marked.lookup name = s.marked.lookup name := by
  obtain ⟨spans, split, parts⟩ := addsSpans_of_mem_places ht
  have none_ : spans.lookup name = none := by
    rw [List.lookup_eq_none_iff]
    intro e mem
    obtain ⟨q, hq, -⟩ := parts e mem
    have other : name ≠ e.1 := by
      rintro rfl
      rw [unmarked] at hq
      exact absurd hq List.not_mem_nil
    simpa using other
  rw [split, List.lookup_append, none_, Option.none_or]

/-- Whether every reading of a pattern marks a name. -/
def alwaysMarks (name : ι) : Pattern ι → Bool
  | seq p q => p.alwaysMarks name || q.alwaysMarks name
  | alt p q => p.alwaysMarks name && q.alwaysMarks name
  | mark other p => decide (other = name) || p.alwaysMarks name
  | _ => false

/-- What is marked stays marked. -/
theorem isSome_lookup_of_mem_places {name : ι} {p : Pattern ι} {s t : Place ι} (ht : t ∈ p.places s)
    (h : (s.marked.lookup name).isSome) : (t.marked.lookup name).isSome := by
  obtain ⟨spans, split, -⟩ := addsSpans_of_mem_places ht
  rw [split, List.lookup_append, Option.isSome_or, h, Bool.or_true]

/-- A name that a pattern always marks is marked at each of its ends. -/
theorem isSome_lookup_of_alwaysMarks {name : ι} {p : Pattern ι} :
    ∀ {s t : Place ι}, t ∈ p.places s → p.alwaysMarks name = true →
      (t.marked.lookup name).isSome := by
  -- Only what marks on every way counts: either part of a sequence, but both of an alternative.
  induction p with
  | seq p q hp hq =>
    intro s t ht marks
    obtain ⟨u, hu, ht⟩ := List.mem_flatMap.1 ht
    rcases Bool.or_eq_true_iff.1 marks with first | second
    · exact isSome_lookup_of_mem_places ht (hp hu first)
    · exact hq ht second
  | alt p q hp hq =>
    intro s t ht marks
    obtain ⟨first, second⟩ := Bool.and_eq_true_iff.1 marks
    rcases List.mem_append.1 ht with ht | ht
    · exact hp ht first
    · exact hq ht second
  | mark other p hp =>
    intro s t ht marks
    obtain ⟨u, hu, rfl⟩ := List.mem_map.1 ht
    rcases Bool.or_eq_true_iff.1 marks with here | inside
    · obtain rfl := of_decide_eq_true here
      simp
    · have within := hp hu inside
      rw [List.lookup_cons]
      split
      · rfl
      · exact within
  | _ =>
    intro s t ht marks
    exact absurd marks Bool.false_ne_true

end Pattern

open Pattern

variable {ι : Type} [DecidableEq ι]

/-- The text of a span is what stands between its start and its stop. -/
theorem Span.text_of_suffix {w start stop : List Char} (h : start = w ++ stop) :
    Span.text ⟨start, stop⟩ = w := by
  show start.take (start.length - stop.length) = w
  rw [h, List.length_append, Nat.add_sub_cancel, List.take_left]

/-- The text under a name is read by one of the parts with that name. -/
theorem Match.readsText {p : Pattern ι} {text : List Char} {m : Match ι}
    (h : p.match? text = some m) {name : ι} {w : List Char} (hw : m.text? name = some w) :
    ∃ q ∈ p.markedParts name, q.ReadsText w := by
  rw [match?_eq] at h
  obtain ⟨span, found, rfl⟩ := Option.map_eq_some_iff.1 hw
  obtain ⟨before, after, split, -⟩ := List.lookup_eq_some_iff.1 found
  have mem : (name, span) ∈ m.marked := by simp [split]
  obtain ⟨spans, all, parts⟩ := addsSpans_of_mem_places (List.mem_of_head? h)
  rw [all, List.append_nil] at mem
  obtain ⟨q, hq, s, t, ht, rfl⟩ := parts (name, span) mem
  obtain ⟨w, hw⟩ := suffix_of_mem_places ht
  exact ⟨q, hq, s, t, ht, by rw [Span.text_of_suffix hw.symm, hw]⟩

/-- If every reading marks a name, then there is a text under it. -/
theorem Match.exists_text? {p : Pattern ι} {text : List Char} {m : Match ι}
    (h : p.match? text = some m) {name : ι} (marks : p.alwaysMarks name = true) :
    ∃ w, m.text? name = some w := by
  rw [match?_eq] at h
  have found := isSome_lookup_of_alwaysMarks (List.mem_of_head? h) marks
  refine Option.isSome_iff_exists.1 ?_
  rw [Match.text?, Option.isSome_map]
  exact found

/-- If all parts with a name read texts of a kind, then the text under the name is of that kind. -/
theorem Match.text_induction {p : Pattern ι} {text : List Char} {m : Match ι}
    (h : p.match? text = some m) (name : ι) {r : List Char → Prop} (nothing : r [])
    (parts : ∀ q ∈ p.markedParts name, ∀ w, q.ReadsText w → r w) : r (m.text name) := by
  rw [Match.text]
  cases found : m.text? name with
  | none => exact nothing
  | some w =>
    obtain ⟨q, hq, reads⟩ := m.readsText h found
    exact parts q hq w reads

end Rollback

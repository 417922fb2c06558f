import Rollback.Proofs.Pattern.Marks
import Rollback.Proofs.Pattern.Readings

/-!
# Readings word by word

A pattern that takes no spaces stays in the word at which it is read. With a gap after it, it can
only end at the start of the next word, and at the last word of a text it cannot be read. So where a
phrase can end in a text of words is found word by word, whatever the words are.

- `avoids`: patterns that do not take certain characters
- `EndsIn`: what holds of the rest of a text after every reading of a pattern
- `EndsIn.seq`: readings one after another
- `endsIn_next`: from one word to the next
- `stuck_last`: not beyond the last word
-/

set_option autoImplicit false

namespace Rollback.Pattern

variable {ι : Type}

/-! ## Characters that are not taken -/

/-- Whether no set of the pattern has one of the characters. -/
def avoids (chars : List Char) : Pattern ι → Bool
  | empty => true
  | char set => chars.all fun c => !set.contains c
  | stretch set => chars.all fun c => !set.contains c
  | seq p q => p.avoids chars && q.avoids chars
  | alt p q => p.avoids chars && q.avoids chars
  | many p => p.avoids chars
  | mark _ p => p.avoids chars
  | wordEdge => true

/-- From one place to another, none of the characters is taken. -/
def LeavesOut (chars : List Char) (s t : Place ι) : Prop :=
  ∃ w, s.rest = w ++ t.rest ∧ ∀ c ∈ w, c ∉ chars

section LeavesOut

variable {chars : List Char} {s t u : Place ι}

theorem LeavesOut.of_eq (h : s.rest = t.rest) : LeavesOut chars s t :=
  ⟨[], h, List.forall_mem_nil _⟩

theorem LeavesOut.trans (first : LeavesOut chars s t) (second : LeavesOut chars t u) :
    LeavesOut chars s u := by
  obtain ⟨v, split, left⟩ := first
  obtain ⟨w, split', left'⟩ := second
  refine ⟨v ++ w, by rw [split, split', List.append_assoc], fun c mem => ?_⟩
  rcases List.mem_append.1 mem with mem | mem
  · exact left c mem
  · exact left' c mem

/-- A set that has none of the characters contains none of them. -/
theorem notMem_of_contains {set : CharSet} (avoided : (chars.all fun c => !set.contains c) = true)
    {c : Char} (inside : set.contains c = true) : c ∉ chars := by
  intro mem
  have outside := List.all_eq_true.1 avoided c mem
  rw [inside] at outside
  exact absurd outside (by decide)

/-- A stretch over a set without the characters takes none of them. -/
theorem leavesOut_stretchFrom {set : CharSet}
    (avoided : (chars.all fun c => !set.contains c) = true) (rest : List Char) :
    ∀ last, ∃ w, rest = w ++ (stretchFrom set last rest).2 ∧ ∀ c ∈ w, c ∉ chars := by
  induction rest with
  | nil => exact fun last => ⟨[], rfl, List.forall_mem_nil _⟩
  | cons c rest ih =>
    intro last
    rw [stretchFrom]
    split
    · rename_i inside
      obtain ⟨w, split, left⟩ := ih (some c)
      exact ⟨c :: w, congrArg (c :: ·) split,
        List.forall_mem_cons.2 ⟨notMem_of_contains avoided inside, left⟩⟩
    · exact ⟨[], rfl, List.forall_mem_nil _⟩

/-- A reading takes no characters that its pattern avoids. -/
theorem leavesOut_of_mem_places {p : Pattern ι} :
    ∀ {s t : Place ι}, p.avoids chars = true → t ∈ p.places s → LeavesOut chars s t := by
  -- The induction is on the pattern. What the two parts of a sequence take is left out one after
  -- the other, and so is what the turns of a repetition take.
  induction p with
  | empty =>
    intro s t _ ht
    rw [places_empty, List.mem_singleton] at ht
    exact .of_eq (ht ▸ rfl)
  | char set =>
    intro s t avoided ht
    obtain ⟨c, inside, split, -, -⟩ := mem_places_char ht
    exact ⟨[c], split, by simpa using notMem_of_contains avoided inside⟩
  | stretch set =>
    intro s t avoided ht
    rw [places_stretch, List.mem_singleton] at ht
    exact ht ▸ leavesOut_stretchFrom avoided s.rest s.last
  | seq p q hp hq =>
    intro s t avoided ht
    obtain ⟨first, second⟩ := Bool.and_eq_true_iff.1 avoided
    obtain ⟨u, hu, ht⟩ := List.mem_flatMap.1 ht
    exact (hp first hu).trans (hq second ht)
  | alt p q hp hq =>
    intro s t avoided ht
    obtain ⟨first, second⟩ := Bool.and_eq_true_iff.1 avoided
    rcases List.mem_append.1 ht with ht | ht
    · exact hp first ht
    · exact hq second ht
  | many p hp =>
    intro s t avoided ht
    exact turnPlaces_induction (r := LeavesOut chars) (fun s => .of_eq rfl)
      (fun hu more => (hp avoided hu).trans more) s.rest ht
  | mark name p hp =>
    intro s t avoided ht
    obtain ⟨u, hu, rfl⟩ := List.mem_map.1 ht
    exact hp (s := s) (t := u) avoided hu
  | wordEdge =>
    intro s t _ ht
    exact .of_eq (eq_of_mem_places_wordEdge ht ▸ rfl)

end LeavesOut

/-! ## Where readings can end -/

/-- After every reading of the pattern at the text, the rest is of a kind. -/
def EndsIn (p : Pattern ι) (text : List Char) (kind : List Char → Prop) : Prop :=
  ∀ l m, ∀ t ∈ p.places ⟨l, text, m⟩, kind t.rest

section EndsIn

variable {p q r : Pattern ι} {text : List Char} {kind other : List Char → Prop}

theorem EndsIn.of_stuck (h : ∀ l m, Stuck p ⟨l, text, m⟩) : EndsIn p text kind := by
  intro l m t ht
  have none_ : p.places ⟨l, text, m⟩ = [] := h l m
  exact absurd (none_ ▸ ht) List.not_mem_nil

/-- A pattern without a possible rest cannot be read. -/
theorem EndsIn.stuck (h : EndsIn p text fun _ => False) (l : Option Char) (m : List (ι × Span)) :
    Stuck p ⟨l, text, m⟩ :=
  List.eq_nil_iff_forall_not_mem.2 (h l m)

/-- The rests of a sequence are those of its second part after any rest of the first. -/
theorem EndsIn.seq (first : EndsIn p text kind)
    (second : ∀ rest, kind rest → EndsIn q rest other) : EndsIn (p ++ q) text other := by
  intro l m t ht
  obtain ⟨⟨last, rest, marked⟩, hu, ht⟩ := List.mem_flatMap.1 ht
  exact second rest (first l m _ hu) last marked t ht

/-- If there is one place only where the first reading can end, the second starts there. -/
theorem EndsIn.seq_at {rest : List Char} (first : EndsIn p text (· = rest))
    (second : EndsIn q rest other) : EndsIn (p ++ q) text other :=
  first.seq fun _ here => here.symm ▸ second

/-- If the second part cannot be read after any rest of the first, then neither can the sequence. -/
theorem EndsIn.stuck_seq (first : EndsIn p text kind)
    (second : ∀ rest, kind rest → ∀ l m, Stuck q ⟨l, rest, m⟩) (l : Option Char)
    (m : List (ι × Span)) : Stuck (p ++ q) ⟨l, text, m⟩ :=
  (first.seq fun rest h => .of_stuck (second rest h)).stuck l m

theorem EndsIn.assoc (h : EndsIn (p ++ (q ++ r)) text kind) : EndsIn (p ++ q ++ r) text kind := by
  intro l m t ht
  rw [places_seq_assoc] at ht
  exact h l m t ht

theorem EndsIn.mark (h : EndsIn p text kind) (name : ι) : EndsIn (mark name p) text kind := by
  intro l m t ht
  obtain ⟨u, hu, rfl⟩ := List.mem_map.1 ht
  exact h l m u hu

theorem EndsIn.alt (first : EndsIn p text kind) (second : EndsIn q text kind) :
    EndsIn (Pattern.alt p q) text kind := by
  intro l m t ht
  rcases List.mem_append.1 ht with ht | ht
  · exact first l m t ht
  · exact second l m t ht

/-- An optional part may also leave the whole text. -/
theorem EndsIn.orNothing (h : EndsIn p text kind) (here : kind text) :
    EndsIn (orNothing p) text kind := by
  refine h.alt fun l m t ht => ?_
  rw [places_empty, List.mem_singleton] at ht
  exact ht ▸ here

theorem EndsIn.mono (h : EndsIn p text kind) (imp : ∀ rest, kind rest → other rest) :
    EndsIn p text other :=
  fun l m t ht => imp _ (h l m t ht)

end EndsIn

/-! ## Words -/

/-- A text without gaps. -/
def IsSolid (w : List Char) : Prop :=
  ∀ c ∈ w, Text.isGap c = false

instance (w : List Char) : Decidable (IsSolid w) :=
  inferInstanceAs (Decidable (∀ c ∈ w, Text.isGap c = false))

/-- The rest of a word, with a space and the given text after it. -/
def InWord (next : List Char) (text : List Char) : Prop :=
  ∃ w, IsSolid w ∧ text = w ++ ' ' :: next

section Words

variable {p : Pattern ι} {w next text : List Char}

theorem IsSolid.of_word (h : ∀ c ∈ w, Text.isWordChar c = true) : IsSolid w :=
  fun c mem => Text.isGap_eq_false_of_isWordChar (h c mem)

/-- In the last word of a text there is nothing but its rest. -/
theorem IsSolid.endsIn (solid : IsSolid w) (p : Pattern ι) : EndsIn p w IsSolid := by
  intro l m t ht c mem
  exact solid c ((suffix_of_mem_places ht).subset mem)

/-- A pattern that takes no spaces stays in its word. -/
theorem InWord.endsIn (h : InWord next text) (avoided : p.avoids [' '] = true) :
    EndsIn p text (InWord next) := by
  obtain ⟨w, solid, rfl⟩ := h
  intro l m t ht
  obtain ⟨v, split, left⟩ := leavesOut_of_mem_places avoided ht
  have split : w ++ ' ' :: next = v ++ t.rest := split
  rcases List.append_eq_append_iff.1 split with ⟨a, rfl, rest⟩ | ⟨a, rfl, rest⟩
  · cases a with
    | nil => exact ⟨[], List.forall_mem_nil _, rest.symm⟩
    | cons c a =>
      obtain ⟨rfl, -⟩ := List.cons_eq_cons.1 rest
      exact absurd (List.mem_singleton.2 rfl) (left ' ' (by simp))
  · exact ⟨a, fun c mem => solid c (List.mem_append_right v mem), rest⟩

/-- A gap leads to the start of the next word. -/
theorem InWord.endsIn_gap (h : InWord next text) (solid : startsIn .gap next = false) :
    EndsIn (gap : Pattern ι) text (· = next) := by
  obtain ⟨w, inside, rfl⟩ := h
  intro l m t ht
  cases w with
  | nil =>
    exact (readsOnly_space solid).eq_of_mem ht ▸ rfl
  | cons c w =>
    have stuck : (gap : Pattern ι).places ⟨l, c :: (w ++ ' ' :: next), m⟩ = [] :=
      stuck_some1 (inside c List.mem_cons_self)
    exact absurd (stuck ▸ ht) List.not_mem_nil

/-- A solid text does not start with a gap. -/
theorem IsSolid.stuck_gap (solid : IsSolid w) (l : Option Char) (m : List (ι × Span)) :
    Stuck gap ⟨l, w, m⟩ := by
  refine stuck_some1 ?_
  cases w with
  | nil => rfl
  | cons c w => exact solid c List.mem_cons_self

/-- A pattern that takes no spaces, with a gap after it, leads from one word to the next. -/
theorem endsIn_next (avoided : p.avoids [' '] = true) (word : IsSolid w)
    (solid : startsIn .gap next = false) : EndsIn (p ++ gap) (w ++ ' ' :: next) (· = next) :=
  (InWord.endsIn ⟨w, word, rfl⟩ avoided).seq fun _ here => here.endsIn_gap solid

/-- There is nothing after the last word. -/
theorem stuck_last (p : Pattern ι) (word : IsSolid w) (l : Option Char) (m : List (ι × Span)) :
    Stuck (p ++ gap) ⟨l, w, m⟩ :=
  (word.endsIn p).stuck_seq (fun _ here => here.stuck_gap) l m

end Words

end Rollback.Pattern

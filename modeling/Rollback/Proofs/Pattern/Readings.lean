import Rollback.Proofs.Pattern.Places
import Rollback.Proofs.Text.Words

/-!
# Readings of the derived patterns

What the keywords, gaps, repetitions and marks of a grammar read off the start of a text, whatever
follows it.

- `lastAfter`: the character before the place after a text
- `startsIn`: whether a text starts with a character of a set
- `readsOnly_keyword`, `readsOnly_space`: the patterns that are read in one way
- `reads_some1`, `reads_keywords`: the preferred readings of the others
- `Turns.reads`: as many turns as possible are the preferred reading of a repetition
-/

set_option autoImplicit false

namespace Rollback.Pattern

variable {ι : Type}

/-- The character before the place after a text. -/
def lastAfter (last : Option Char) (text : List Char) : Option Char :=
  text.getLast?.or last

@[simp] theorem lastAfter_nil (last : Option Char) : lastAfter last [] = last := rfl

@[simp] theorem lastAfter_cons (last : Option Char) (c : Char) (text : List Char) :
    lastAfter last (c :: text) = lastAfter (some c) text := by
  show (c :: text).getLast?.or last = text.getLast?.or (some c)
  rw [List.getLast?_cons]
  cases text.getLast? <;> rfl

theorem lastAfter_append (last : Option Char) (a b : List Char) :
    lastAfter last (a ++ b) = lastAfter (lastAfter last a) b := by
  show (a ++ b).getLast?.or last = b.getLast?.or (a.getLast?.or last)
  rw [List.getLast?_append, Option.or_assoc]

/-- Whether a text starts with a character of a set. -/
def startsIn (set : CharSet) (text : List Char) : Bool :=
  text.head?.any set.contains

@[simp] theorem startsIn_cons (set : CharSet) (c : Char) (text : List Char) :
    startsIn set (c :: text) = set.contains c := rfl

/-- What holds of the characters of words holds of the start of a word. -/
theorem startsIn_word_append {set : CharSet} {b : Bool} {w : List Char} (nonempty : w ≠ [])
    (word : ∀ c ∈ w, Text.isWordChar c = true)
    (all : ∀ c, Text.isWordChar c = true → set.contains c = b) (rest : List Char) :
    startsIn set (w ++ rest) = b := by
  cases w with
  | nil => exact absurd rfl nonempty
  | cons c w => exact all c (word c List.mem_cons_self)

/-- Characters of a kind are not among others that are listed. -/
theorem contains_oneOf_eq_false {p : Char → Bool} {chars : List Char}
    (others : (chars.all fun c => !p c) = true) {c : Char} (hc : p c = true) :
    (CharSet.oneOf chars).contains c = false := by
  refine Bool.eq_false_iff.2 fun inside => ?_
  have other := List.all_eq_true.1 others c (List.contains_iff_mem.1 inside)
  rw [hc] at other
  exact absurd other (by decide)

/-- A text that does not start in a set does not start in a smaller one. -/
theorem startsIn_eq_false_of_subset {a b : CharSet} {text : List Char}
    (subset : ∀ c, a.contains c = true → b.contains c = true) (h : startsIn b text = false) :
    startsIn a text = false := by
  cases text with
  | nil => rfl
  | cons c text =>
    rw [startsIn_cons] at h ⊢
    refine Bool.eq_false_iff.2 fun inside => ?_
    rw [subset c inside] at h
    exact absurd h (by decide)

/-- A text starts with one letter only. -/
theorem startsIn_same_eq_false {c d : Char} {text : List Char} (other : c.toLower ≠ d.toLower)
    (h : startsIn (.same c) text = true) : startsIn (.same d) text = false := by
  cases text with
  | nil => rfl
  | cons e text =>
    have same : e.toLower = c.toLower := beq_iff_eq.1 h
    exact beq_eq_false_iff_ne.2 fun eq => other (same.symm.trans eq)

/-- A letter is no gap. -/
theorem startsIn_gap_of_same {c : Char} {text : List Char}
    (letter : Text.isWordChar c.toLower = true)
    (h : startsIn (.same c) text = true) : startsIn .gap text = false := by
  cases text with
  | nil => rfl
  | cons d text =>
    have same : d.toLower = c.toLower := beq_iff_eq.1 h
    have word : Text.isWordChar d = true := by rwa [← Text.isWordChar_toLower, same]
    exact Text.isGap_eq_false_of_isWordChar word

/-! ## Single characters -/

section Characters

variable {set : CharSet} {l : Option Char} {m : List (ι × Span)} {c : Char} {rest : List Char}

theorem reads_char (h : set.contains c = true) :
    Reads (char set) ⟨l, c :: rest, m⟩ ⟨some c, rest, m⟩ := by
  apply reads_of_eq
  rw [places_char, if_pos h]

/-- A character cannot be read where the text does not start in its set, as at its end. -/
theorem stuck_char (h : startsIn set rest = false) : Stuck (char set) ⟨l, rest, m⟩ := by
  cases rest with
  | nil => rfl
  | cons c rest =>
    rw [startsIn_cons] at h
    show (char set).places ⟨l, c :: rest, m⟩ = []
    rw [places_char, h]
    rfl

theorem reads_wordEdge (h : (isWordAt l != isWordAt rest.head?) = true) :
    Reads wordEdge ⟨l, rest, m⟩ ⟨l, rest, m⟩ := by
  apply reads_of_eq
  rw [places_wordEdge, if_pos h]

/-- Between two characters of the same kind there is no edge of a word. -/
theorem stuck_wordEdge (h : isWordAt l = isWordAt rest.head?) :
    Stuck wordEdge ⟨l, rest, m⟩ := by
  show (wordEdge : Pattern ι).places ⟨l, rest, m⟩ = []
  rw [places_wordEdge, h, bne_self_eq_false]
  rfl

end Characters

/-- There is an edge at the end of a word. -/
theorem reads_wordEnd {l : Option Char} {m : List (ι × Span)} {w rest : List Char}
    (nonempty : w ≠ []) (word : ∀ c ∈ w, Text.isWordChar c = true)
    (ends : startsIn .word rest = false) :
    Reads wordEdge ⟨lastAfter l w, rest, m⟩ ⟨lastAfter l w, rest, m⟩ := by
  have after : isWordAt rest.head? = false := ends
  have before : isWordAt (lastAfter l w) = true := by
    rcases List.eq_nil_or_concat w with rfl | ⟨init, c, rfl⟩
    · exact absurd rfl nonempty
    · have last : Text.isWordChar c = true := word c (by simp)
      simp [lastAfter_append, isWordAt, last]
  refine reads_wordEdge ?_
  rw [before, after]
  rfl

/-! ## Keywords -/

section Keywords

variable {l : Option Char} {m : List (ι × Span)}

theorem eqIgnoringCase_cons (c d : Char) (a b : List Char) :
    Text.eqIgnoringCase (c :: a) (d :: b) =
      (c.toLower == d.toLower && Text.eqIgnoringCase a b) := rfl

theorem eqIgnoringCase_length {a b : List Char} (h : Text.eqIgnoringCase a b = true) :
    a.length = b.length := by
  have lengths : (a.map Char.toLower).length = (b.map Char.toLower).length :=
    congrArg List.length (eq_of_beq h)
  rwa [List.length_map, List.length_map] at lengths

/-- A keyword has at most one reading. -/
theorem places_keyword (word : String) (l : Option Char) (text : List Char)
    (m : List (ι × Span)) :
    (keyword word).places ⟨l, text, m⟩ =
      if Text.eqIgnoringCase word.toList (text.take word.toList.length) then
        [⟨lastAfter l (text.take word.toList.length), text.drop word.toList.length, m⟩]
      else [] := by
  rw [keyword]
  generalize word.toList = w
  induction w generalizing l text with
  | nil => rfl
  | cons d w ih =>
    rw [List.foldr_cons, places_seq]
    cases text with
    | nil => rfl
    | cons c text =>
      rw [places_char, List.length_cons, List.take_succ_cons, List.drop_succ_cons,
        eqIgnoringCase_cons, lastAfter_cons]
      by_cases same : c.toLower = d.toLower
      · have inside : (CharSet.same d).contains c = true := beq_iff_eq.2 same
        rw [if_pos inside, List.flatMap_cons, List.flatMap_nil, List.append_nil, ih, same,
          beq_self_eq_true, Bool.true_and]
      · have outside : (CharSet.same d).contains c = false := beq_eq_false_iff_ne.2 same
        rw [outside, if_neg Bool.false_ne_true, beq_eq_false_iff_ne.2 (Ne.symm same),
          Bool.false_and, if_neg Bool.false_ne_true]
        rfl

theorem eqIgnoringCase_refl (a : List Char) : Text.eqIgnoringCase a a = true :=
  beq_self_eq_true _

/-- A keyword is read in any ASCII case, and is taken as a whole. -/
theorem readsOnly_keyword {word : String} {w : List Char}
    (same : Text.eqIgnoringCase word.toList w = true) (rest : List Char) :
    ReadsOnly (keyword word) ⟨l, w ++ rest, m⟩ ⟨lastAfter l w, rest, m⟩ := by
  show (keyword word).places _ = _
  rw [places_keyword, eqIgnoringCase_length same, List.take_left, List.drop_left, if_pos same]

theorem reads_keyword {word : String} {w : List Char}
    (same : Text.eqIgnoringCase word.toList w = true) (rest : List Char) :
    Reads (keyword word) ⟨l, w ++ rest, m⟩ ⟨lastAfter l w, rest, m⟩ :=
  (readsOnly_keyword same rest).reads

/-- A keyword reads itself, and nothing else there. -/
theorem readsOnly_same_keyword (word : String) (rest : List Char) :
    ReadsOnly (keyword word) ⟨l, word.toList ++ rest, m⟩ ⟨lastAfter l word.toList, rest, m⟩ :=
  readsOnly_keyword (eqIgnoringCase_refl _) rest

theorem reads_same_keyword (word : String) (rest : List Char) :
    Reads (keyword word) ⟨l, word.toList ++ rest, m⟩ ⟨lastAfter l word.toList, rest, m⟩ :=
  reads_keyword (eqIgnoringCase_refl _) rest

/-- A keyword cannot be read where the text has other characters in its place, or ends too early. -/
theorem stuck_keyword {word : String} {text : List Char}
    (other : Text.eqIgnoringCase word.toList (text.take word.toList.length) = false) :
    Stuck (keyword word) ⟨l, text, m⟩ := by
  show (keyword word).places ⟨l, text, m⟩ = []
  rw [places_keyword, other, if_neg Bool.false_ne_true]

/-- Wherever a keyword was read, it stands in the text, up to its case. -/
theorem mem_places_keyword {word : String} {s t : Place ι} (h : t ∈ (keyword word).places s) :
    Text.eqIgnoringCase word.toList (s.rest.take word.toList.length) = true ∧
      t.rest = s.rest.drop word.toList.length := by
  rw [places_keyword word s.last s.rest s.marked] at h
  split at h
  · rename_i same
    exact ⟨same, List.mem_singleton.1 h ▸ rfl⟩
  · exact absurd h List.not_mem_nil

/-- A text that starts like a word starts with its first letter. -/
theorem startsIn_of_eqIgnoringCase {c : Char} {w text : List Char} {k : Nat}
    (h : Text.eqIgnoringCase (c :: w) (text.take (k + 1)) = true) :
    startsIn (.same c) text = true := by
  cases text with
  | nil => exact absurd (eqIgnoringCase_length h) (Nat.succ_ne_zero _)
  | cons d text =>
    rw [List.take_succ_cons, eqIgnoringCase_cons, Bool.and_eq_true] at h
    exact beq_iff_eq.2 (beq_iff_eq.1 h.1).symm

end Keywords

/-! ## Repetitions -/

/-- As many turns of a pattern as possible, each of which takes a character, lead from one place to
another. -/
inductive Turns (p : Pattern ι) : Place ι → Place ι → Prop where
  | stop {s : Place ι} (stuck : Stuck p s) : Turns p s s
  | turn {s t u : Place ι} (first : Reads p s t) (shorter : t.rest.length < s.rest.length)
      (more : Turns p t u) : Turns p s u

/-- A bound as long as the text does not keep a repetition from its turns. -/
theorem Turns.head?_turnPlaces {p : Pattern ι} {s u : Place ι} (h : Turns p s u)
    {bound : List Char} (enough : s.rest.length ≤ bound.length) :
    (turnPlaces p.places bound s).head? = some u := by
  -- The bound loses a character with each turn, and so does the text.
  induction h generalizing bound with
  | stop stuck =>
    cases bound with
    | nil => rfl
    | cons c bound =>
      have none_left : p.places _ = [] := stuck
      rw [turnPlaces_cons, none_left]
      rfl
  | turn first shorter more ih =>
    cases bound with
    | nil => simp only [List.length_nil] at enough; omega
    | cons c bound =>
      obtain ⟨others, first⟩ := reads_iff.1 first
      rw [List.length_cons] at enough
      have later := ih (show _ ≤ bound.length by omega)
      rw [turnPlaces_cons, first, List.flatMap_cons, List.append_assoc, List.head?_append, later]
      rfl

/-- The preferred reading of a repetition takes as many turns as possible. -/
theorem Turns.reads {p : Pattern ι} {s u : Place ι} (h : Turns p s u) : Reads (many p) s u :=
  h.head?_turnPlaces (Nat.le_refl _)

section Stretches

variable {set : CharSet} {l : Option Char} {m : List (ι × Span)} {w rest : List Char}

/-- A text within a set is taken character by character up to where the set ends. -/
theorem turns_char (inside : ∀ c ∈ w, set.contains c = true) (outside : startsIn set rest = false) :
    Turns (char set) ⟨l, w ++ rest, m⟩ ⟨lastAfter l w, rest, m⟩ := by
  induction w generalizing l with
  | nil => exact .stop (stuck_char outside)
  | cons c w ih =>
    rw [lastAfter_cons]
    refine .turn (reads_char (inside c List.mem_cons_self)) ?_
      (ih fun d hd => inside d (List.mem_cons_of_mem _ hd))
    simp

/-- A run of characters is read as far as they are in the set. -/
theorem reads_some0 (inside : ∀ c ∈ w, set.contains c = true)
    (outside : startsIn set rest = false) :
    Reads (some0 set) ⟨l, w ++ rest, m⟩ ⟨lastAfter l w, rest, m⟩ :=
  (turns_char inside outside).reads

/-- A run of characters may be empty. -/
theorem reads_none0 (outside : startsIn set rest = false) :
    Reads (some0 set) ⟨l, rest, m⟩ ⟨l, rest, m⟩ :=
  reads_some0 (w := []) (fun _ mem => absurd mem List.not_mem_nil) outside

theorem reads_some1 (nonempty : w ≠ []) (inside : ∀ c ∈ w, set.contains c = true)
    (outside : startsIn set rest = false) :
    Reads (some1 set) ⟨l, w ++ rest, m⟩ ⟨lastAfter l w, rest, m⟩ := by
  cases w with
  | nil => exact absurd rfl nonempty
  | cons c w =>
    rw [lastAfter_cons]
    exact (reads_char (inside c List.mem_cons_self)).seq
      (reads_some0 (fun d hd => inside d (List.mem_cons_of_mem _ hd)) outside)

theorem stuck_some1 (outside : startsIn set rest = false) : Stuck (some1 set) ⟨l, rest, m⟩ :=
  (stuck_char outside).seq_left _

/-- A single space is a gap in one way only. -/
theorem readsOnly_space (outside : startsIn .gap rest = false) :
    ReadsOnly gap ⟨l, ' ' :: rest, m⟩ ⟨some ' ', rest, m⟩ := by
  have stuck : (char .gap : Pattern ι).places ⟨some ' ', rest, m⟩ = [] := stuck_char outside
  have turns : (many (char .gap) : Pattern ι).places ⟨some ' ', rest, m⟩ =
      [⟨some ' ', rest, m⟩] := by
    rw [places_many]
    cases rest with
    | nil => rfl
    | cons c rest =>
      rw [turnPlaces_cons, stuck]
      rfl
  show ((char .gap : Pattern ι) ++ many (char .gap)).places ⟨l, ' ' :: rest, m⟩ = _
  rw [places_seq, places_char, if_pos (show CharSet.gap.contains ' ' = true from rfl),
    List.flatMap_cons, turns]
  rfl

/-- A single space is a gap. -/
theorem reads_space (outside : startsIn .gap rest = false) :
    Reads gap ⟨l, ' ' :: rest, m⟩ ⟨some ' ', rest, m⟩ :=
  (readsOnly_space outside).reads

/-- Two keywords with a single space between them are read in one way. -/
theorem readsOnly_keywords_pair (first second : String)
    (solid : startsIn .gap (second.toList ++ rest) = false) :
    ReadsOnly (keywords [first, second]) ⟨l, first.toList ++ ' ' :: (second.toList ++ rest), m⟩
      ⟨lastAfter (some ' ') second.toList, rest, m⟩ :=
  ((readsOnly_same_keyword first _).seq (readsOnly_space solid)).seq
    (readsOnly_same_keyword second rest)

/-- Keywords are read with single spaces between them. -/
theorem reads_keywords (words : List String) (rest : List Char)
    (solid : (words.all fun w => startsIn .word w.toList) = true) :
    Reads (keywords words) ⟨l, [' '].intercalate (words.map String.toList) ++ rest, m⟩
      ⟨lastAfter l ([' '].intercalate (words.map String.toList)), rest, m⟩ := by
  induction words generalizing l with
  | nil => exact reads_empty _
  | cons w words ih =>
    rw [List.map_cons]
    cases words with
    | nil =>
      rw [List.map_nil, List.intercalate_singleton]
      exact reads_same_keyword w rest
    | cons v words =>
      rw [List.all_cons, Bool.and_eq_true] at solid
      have more := ih (l := some ' ') solid.2
      have start : startsIn .gap ([' '].intercalate ((v :: words).map String.toList) ++ rest) =
          false := by
        have first := solid.2
        rw [List.all_cons, Bool.and_eq_true] at first
        rw [List.map_cons, Text.intercalate_cons, List.append_assoc]
        cases chars : v.toList with
        | nil => exact absurd (chars ▸ first.1) (by decide)
        | cons c more =>
          rw [chars] at first
          exact Text.isGap_eq_false_of_isWordChar first.1
      have shape : [' '].intercalate (w.toList :: (v :: words).map String.toList) =
          w.toList ++ ' ' :: [' '].intercalate ((v :: words).map String.toList) := by
        rw [List.map_cons, List.intercalate_cons_cons]
        simp
      rw [shape, List.append_assoc, List.cons_append, lastAfter_append, lastAfter_cons]
      exact ((reads_same_keyword w _).seq (reads_space start)).seq more

/-- Keywords that start like a text cannot be read if the others cannot after that start. -/
theorem stuck_keywords (word : String) {next : String} {others : List String}
    (outside : startsIn .gap rest = false)
    (stuck : Stuck (keywords (next :: others)) ⟨some ' ', rest, m⟩) :
    Stuck (keywords (word :: next :: others)) ⟨l, word.toList ++ ' ' :: rest, m⟩ :=
  ((readsOnly_same_keyword word _).seq (readsOnly_space outside)).stuck stuck

/-- Whatever number of turns was taken, the text before their end is within the set. -/
theorem mem_turnPlaces_char {bound : List Char} {s t : Place ι}
    (ht : t ∈ turnPlaces (char set).places bound s) :
    ∃ w, (∀ c ∈ w, set.contains c = true) ∧ s.rest = w ++ t.rest ∧ t.last = lastAfter s.last w ∧
      t.marked = s.marked := by
  induction bound generalizing s with
  | nil =>
    rw [turnPlaces_nil, List.mem_singleton] at ht
    exact ⟨[], by simp [ht]⟩
  | cons b bound ih =>
    rw [turnPlaces_cons, List.mem_append, List.mem_flatMap, List.mem_singleton] at ht
    rcases ht with ⟨u, hu, ht⟩ | ht
    · obtain ⟨c, inside, rest, last, marked⟩ := mem_places_char hu
      obtain ⟨w, hw, wrest, wlast, wmarked⟩ := ih ht
      refine ⟨c :: w, ?_, ?_, ?_, wmarked.trans marked⟩
      · simpa [inside] using hw
      · rw [rest, wrest, List.cons_append]
      · rw [wlast, last, lastAfter_cons]
    · exact ⟨[], by simp [ht]⟩

/-- A repetition of characters ends after some of them. -/
theorem mem_places_some0 {s t : Place ι} (h : t ∈ (some0 set).places s) :
    ∃ w, (∀ c ∈ w, set.contains c = true) ∧ s.rest = w ++ t.rest ∧ t.last = lastAfter s.last w ∧
      t.marked = s.marked :=
  mem_turnPlaces_char h

/-- What is taken by a repetition with at least one turn is not empty. -/
theorem mem_places_some1 {s t : Place ι} (h : t ∈ (some1 set).places s) :
    ∃ w, w ≠ [] ∧ (∀ c ∈ w, set.contains c = true) ∧ s.rest = w ++ t.rest := by
  obtain ⟨u, hu, ht⟩ := List.mem_flatMap.1 h
  obtain ⟨c, inside, first, -, -⟩ := mem_places_char hu
  obtain ⟨w, more, rest, -, -⟩ := mem_places_some0 ht
  refine ⟨c :: w, List.cons_ne_nil c w, List.forall_mem_cons.2 ⟨inside, more⟩, ?_⟩
  rw [first, rest, List.cons_append]

theorem stretchFrom_cons (set : CharSet) (l : Option Char) (c : Char) (rest : List Char) :
    stretchFrom set l (c :: rest) =
      if set.contains c then stretchFrom set (some c) rest else (l, c :: rest) := rfl

theorem stretchFrom_append (inside : ∀ c ∈ w, set.contains c = true)
    (outside : startsIn set rest = false) :
    stretchFrom set l (w ++ rest) = (lastAfter l w, rest) := by
  induction w generalizing l with
  | nil =>
    cases rest with
    | nil => rfl
    | cons c rest =>
      rw [startsIn_cons] at outside
      rw [List.nil_append, stretchFrom_cons, outside]
      rfl
  | cons c w ih =>
    rw [List.cons_append, stretchFrom_cons, if_pos (inside c List.mem_cons_self), lastAfter_cons]
    exact ih fun d hd => inside d (List.mem_cons_of_mem _ hd)

/-- A stretch is read as far as the characters are in the set. -/
theorem reads_stretch (inside : ∀ c ∈ w, set.contains c = true)
    (outside : startsIn set rest = false) :
    Reads (stretch set) ⟨l, w ++ rest, m⟩ ⟨lastAfter l w, rest, m⟩ := by
  apply reads_of_eq
  rw [places_stretch, stretchFrom_append inside outside]

end Stretches

end Rollback.Pattern

namespace Rollback

@[simp] theorem Span.text_append (a b : List Char) : Span.text ⟨a ++ b, b⟩ = a := by
  show (a ++ b).take ((a ++ b).length - b.length) = a
  rw [List.length_append, Nat.add_sub_cancel, List.take_left]

end Rollback

import Rollback.Proofs.Pattern.Marks
import Rollback.Proofs.Pattern.Readings

/-!
# First characters and longer texts

What a pattern can read is limited by the first character of a text, and mostly does not depend on
what comes after the place where the reading ends. A longest stretch does: it goes on in a longer
text, unless something in the text has stopped it.

- `Pattern.firsts`: the characters that a reading can start with, and whether it can take nothing
- `Pattern.stuck_of_firsts`: a pattern cannot be read off a text with another first character
- `Place.followedBy`: a place in a text with another text put after it
- `Pattern.GoesOn`: every reading is one in the longer text, too
-/

set_option autoImplicit false

namespace Rollback

variable {ι : Type}

namespace Pattern

/-! ## First characters -/

/-- The set that holds the first character of what a reading takes, and whether a reading can take
nothing. -/
def firsts : Pattern ι → CharSet × Bool
  | empty => (.oneOf [], true)
  | char set => (set, false)
  | stretch set => (set, true)
  | seq p q =>
    if p.firsts.2 then (.union p.firsts.1 q.firsts.1, q.firsts.2) else (p.firsts.1, false)
  | alt p q => (.union p.firsts.1 q.firsts.1, p.firsts.2 || q.firsts.2)
  | many p => (p.firsts.1, true)
  | mark _ p => p.firsts
  | wordEdge => (.oneOf [], true)

/-- The first character of a text is in the set, or the text is empty, if that is allowed. -/
def StartsWithin (f : CharSet × Bool) (w : List Char) : Prop :=
  startsIn f.1 w = true ∨ f.2 = true ∧ w = []

theorem startsIn_union (a b : CharSet) (text : List Char) :
    startsIn (.union a b) text = (startsIn a text || startsIn b text) := by
  cases text with
  | nil => rfl
  | cons c text => rfl

theorem startsIn_append {set : CharSet} {w : List Char} (h : startsIn set w = true)
    (rest : List Char) : startsIn set (w ++ rest) = true := by
  cases w with
  | nil => exact absurd h Bool.false_ne_true
  | cons c w => exact h

namespace StartsWithin

variable {f g : CharSet × Bool} {v w : List Char}

theorem nil (allowed : f.2 = true) : StartsWithin f [] :=
  .inr ⟨allowed, rfl⟩

theorem left (h : StartsWithin f w) : StartsWithin (.union f.1 g.1, f.2 || g.2) w := by
  rcases h with start | ⟨allowed, empty⟩
  · exact .inl (by rw [startsIn_union, start]; rfl)
  · exact .inr ⟨by rw [allowed]; rfl, empty⟩

theorem right (h : StartsWithin g w) : StartsWithin (.union f.1 g.1, f.2 || g.2) w := by
  rcases h with start | ⟨allowed, empty⟩
  · exact .inl (by rw [startsIn_union, start, Bool.or_true])
  · exact .inr ⟨by rw [allowed, Bool.or_true], empty⟩

/-- Of two texts one after another, the second one tells how they start if the first is empty. -/
theorem append (hv : StartsWithin f v) (hw : StartsWithin g w) :
    StartsWithin (if f.2 then (.union f.1 g.1, g.2) else (f.1, false)) (v ++ w) := by
  rcases hv with start | ⟨allowed, rfl⟩
  · have start := startsIn_append start w
    split
    · exact .inl (by rw [startsIn_union, start]; rfl)
    · exact .inl start
  · rw [if_pos allowed, List.nil_append]
    rcases hw with start | ⟨allowed, empty⟩
    · exact .inl (by rw [startsIn_union, start, Bool.or_true])
    · exact .inr ⟨allowed, empty⟩

end StartsWithin

theorem exists_stretchFrom (set : CharSet) (rest : List Char) : ∀ last, ∃ w,
    rest = w ++ (stretchFrom set last rest).2 ∧ StartsWithin (set, true) w := by
  cases rest with
  | nil => exact fun last => ⟨[], rfl, .nil rfl⟩
  | cons c rest =>
    intro last
    rw [stretchFrom_cons]
    split
    · rename_i inside
      obtain ⟨w, split⟩ := suffix_stretchFrom set rest (some c)
      exact ⟨c :: w, by rw [List.cons_append, split], .inl inside⟩
    · exact ⟨[], rfl, .nil rfl⟩

/-- What a reading takes starts with one of the first characters of the pattern. -/
theorem exists_startsWithin {p : Pattern ι} :
    ∀ {s t : Place ι}, t ∈ p.places s → ∃ w, s.rest = w ++ t.rest ∧ StartsWithin p.firsts w := by
  induction p with
  | empty =>
    intro s t ht
    rw [places_empty, List.mem_singleton] at ht
    exact ⟨[], ht ▸ rfl, .nil rfl⟩
  | char set =>
    intro s t ht
    obtain ⟨c, inside, rest, -, -⟩ := mem_places_char ht
    exact ⟨[c], rest, .inl inside⟩
  | stretch set =>
    intro s t ht
    rw [places_stretch, List.mem_singleton] at ht
    exact ht ▸ exists_stretchFrom set s.rest s.last
  | seq p q hp hq =>
    intro s t ht
    obtain ⟨u, hu, ht⟩ := List.mem_flatMap.1 ht
    obtain ⟨v, rest, first⟩ := hp hu
    obtain ⟨w, rest', second⟩ := hq ht
    exact ⟨v ++ w, by rw [rest, rest', List.append_assoc], first.append second⟩
  | alt p q hp hq =>
    intro s t ht
    rcases List.mem_append.1 ht with ht | ht
    · obtain ⟨w, rest, first⟩ := hp ht
      exact ⟨w, rest, first.left⟩
    · obtain ⟨w, rest, second⟩ := hq ht
      exact ⟨w, rest, second.right⟩
  | many p hp =>
    intro s t ht
    refine turnPlaces_induction
      (r := fun s t => ∃ w, s.rest = w ++ t.rest ∧ StartsWithin (many p).firsts w)
      (fun s => ⟨[], rfl, .nil rfl⟩) (fun hu more => ?_) s.rest ht
    obtain ⟨v, rest, first⟩ := hp hu
    obtain ⟨w, rest', others⟩ := more
    refine ⟨v ++ w, by rw [rest, rest', List.append_assoc], ?_⟩
    rcases first with start | ⟨-, rfl⟩
    · exact .inl (startsIn_append start w)
    · exact others
  | mark name p hp =>
    intro s t ht
    obtain ⟨u, hu, rfl⟩ := List.mem_map.1 ht
    obtain ⟨w, taken⟩ := hp hu
    exact ⟨w, taken⟩
  | wordEdge =>
    intro s t ht
    exact ⟨[], eq_of_mem_places_wordEdge ht ▸ rfl, .nil rfl⟩

/-- A pattern that takes something starts in its set of first characters. -/
theorem startsIn_of_mem_places {p : Pattern ι} {s t : Place ι} (ht : t ∈ p.places s)
    (takes : p.firsts.2 = false) : startsIn p.firsts.1 s.rest = true := by
  obtain ⟨w, rest, start | ⟨nothing, -⟩⟩ := exists_startsWithin ht
  · exact rest ▸ startsIn_append start t.rest
  · exact absurd nothing (Bool.eq_false_iff.1 takes)

/-- A pattern that cannot take nothing takes a text that starts in its set. -/
theorem ReadsText.startsIn {p : Pattern ι} {w : List Char} (h : p.ReadsText w)
    (takes : p.firsts.2 = false) : startsIn p.firsts.1 w = true := by
  obtain ⟨s, t, ht, rest⟩ := h
  obtain ⟨v, rest', start | ⟨nothing, -⟩⟩ := exists_startsWithin ht
  · exact List.append_cancel_right (rest.symm.trans rest') ▸ start
  · exact absurd nothing (Bool.eq_false_iff.1 takes)

/-- A pattern that takes something cannot be read off a text with another first character. -/
theorem stuck_of_firsts {p : Pattern ι} {s : Place ι} (takes : p.firsts.2 = false)
    (other : startsIn p.firsts.1 s.rest = false) : Stuck p s :=
  List.eq_nil_iff_forall_not_mem.2 fun _ ht =>
    absurd (startsIn_of_mem_places ht takes) (Bool.eq_false_iff.1 other)

end Pattern

/-! ## Longer texts -/

/-- The span in a text with another text put after it. -/
def Span.followedBy (span : Span) (more : List Char) : Span :=
  ⟨span.start ++ more, span.stop ++ more⟩

/-- The place in a text with another text put after it. -/
def Place.followedBy (s : Place ι) (more : List Char) : Place ι :=
  ⟨s.last, s.rest ++ more, s.marked.map fun e => (e.1, e.2.followedBy more)⟩

/-- What comes after a span does not matter for its text. -/
theorem Span.text_followedBy (span : Span) (more : List Char) (h : span.stop <:+ span.start) :
    (span.followedBy more).text = span.text := by
  obtain ⟨start, stop⟩ := span
  obtain ⟨w, hw⟩ := h
  rw [text_of_suffix hw.symm, followedBy, text_of_suffix (w := w)]
  rw [← hw, List.append_assoc]

namespace Pattern

/-- Every reading of the pattern is also one if a text is put after the text that is read. -/
def GoesOn (more : List Char) (p : Pattern ι) : Prop :=
  ∀ ⦃s t : Place ι⦄, t ∈ p.places s → t.followedBy more ∈ p.places (s.followedBy more)

namespace GoesOn

variable {more : List Char} {p q : Pattern ι}

theorem empty : GoesOn more (empty : Pattern ι) := by
  intro s t ht
  rw [places_empty, List.mem_singleton] at ht ⊢
  rw [ht]

theorem char (set : CharSet) : GoesOn more (char set : Pattern ι) := by
  rintro ⟨last, rest, marked⟩ t ht
  cases rest with
  | nil => exact absurd ht List.not_mem_nil
  | cons c rest =>
    rw [places_char] at ht
    split at ht
    · rename_i inside
      obtain rfl := List.mem_singleton.1 ht
      rw [Place.followedBy, List.cons_append, places_char, if_pos inside]
      exact List.mem_singleton.2 rfl
    · exact absurd ht List.not_mem_nil

theorem seq (hp : GoesOn more p) (hq : GoesOn more q) : GoesOn more (p ++ q) := by
  intro s t ht
  obtain ⟨u, hu, ht⟩ := List.mem_flatMap.1 ht
  exact List.mem_flatMap.2 ⟨_, hp hu, hq ht⟩

theorem assoc {r : Pattern ι} (h : GoesOn more (p ++ (q ++ r))) : GoesOn more (p ++ q ++ r) := by
  intro s t ht
  rw [places_seq_assoc] at ht ⊢
  exact h ht

theorem alt (hp : GoesOn more p) (hq : GoesOn more q) : GoesOn more (alt p q) := by
  intro s t ht
  rcases List.mem_append.1 ht with ht | ht
  · exact List.mem_append_left _ (hp ht)
  · exact List.mem_append_right _ (hq ht)

theorem orNothing (hp : GoesOn more p) : GoesOn more (orNothing p) :=
  hp.alt empty

/-- A marked part goes on, and the span that is marked goes on with it. -/
theorem mark (name : ι) (hp : GoesOn more p) : GoesOn more (mark name p) := by
  intro s t ht
  obtain ⟨u, hu, rfl⟩ := List.mem_map.1 ht
  exact List.mem_map.2 ⟨_, hp hu, rfl⟩

/-- In a longer text a repetition may take more turns, but it still may take as many. -/
theorem mem_turnPlaces (hp : GoesOn more p) {bound : List Char} {s t : Place ι}
    (ht : t ∈ turnPlaces p.places bound s) :
    t.followedBy more ∈ turnPlaces p.places (bound ++ more) (s.followedBy more) := by
  induction bound generalizing s with
  | nil =>
    obtain rfl := List.mem_singleton.1 ht
    cases more with
    | nil => exact List.mem_singleton.2 rfl
    | cons c more => exact List.mem_append_right _ (List.mem_singleton.2 rfl)
  | cons c bound ih =>
    rw [turnPlaces_cons, List.mem_append, List.mem_flatMap, List.mem_singleton] at ht
    rw [List.cons_append, turnPlaces_cons, List.mem_append, List.mem_flatMap]
    rcases ht with ⟨u, hu, ht⟩ | rfl
    · exact .inl ⟨_, hp hu, ih ht⟩
    · exact .inr (List.mem_singleton.2 rfl)

/-- A repetition goes on if one turn does: the longer text allows more turns, but loses none. -/
theorem many (hp : GoesOn more p) : GoesOn more (many p) :=
  fun _ _ ht => hp.mem_turnPlaces ht

/-- The edge at the end of a word stays one if no word character comes after it. -/
theorem wordEdge (ends : startsIn .word more = false) : GoesOn more (wordEdge : Pattern ι) := by
  intro s t ht
  rw [places_wordEdge] at ht
  split at ht
  · rename_i edge
    obtain rfl := List.mem_singleton.1 ht
    have same : isWordAt (t.rest ++ more).head? = isWordAt t.rest.head? := by
      cases rest : t.rest with
      | nil => exact ends
      | cons c rest => rfl
    have edge' : (isWordAt t.last != isWordAt (t.rest ++ more).head?) = true := by
      rwa [same]
    rw [places_wordEdge]
    exact (if_pos edge').symm ▸ List.mem_singleton.2 rfl
  · exact absurd ht List.not_mem_nil

/-- A stretch that stops at a character of a text stops there in a longer one. -/
theorem stretchFrom_append {set : CharSet} {last : Option Char} {rest after : List Char} {c : Char}
    (stopped : (stretchFrom set last rest).2 = c :: after) :
    stretchFrom set last (rest ++ more) = ((stretchFrom set last rest).1, c :: after ++ more) := by
  induction rest generalizing last with
  | nil => cases stopped
  | cons d rest ih =>
    rw [List.cons_append, stretchFrom_cons, stretchFrom_cons]
    rw [stretchFrom_cons] at stopped
    split
    · rename_i inside
      rw [if_pos inside] at stopped
      exact ih stopped
    · rename_i outside
      rw [if_neg outside] at stopped
      rw [← stopped, List.cons_append]

/-- A stretch that a character in the text has stopped stops there in a longer text. -/
theorem stretch_char (set stop : CharSet) :
    GoesOn more (stretch set ++ .char stop : Pattern ι) := by
  -- The stretch alone would go on in the longer text; the character after it keeps it from that.
  intro s t ht
  obtain ⟨u, hu, ht⟩ := List.mem_flatMap.1 ht
  rw [places_stretch, List.mem_singleton] at hu
  refine List.mem_flatMap.2 ⟨_, ?_, GoesOn.char stop ht⟩
  obtain ⟨c, inside, rest, -, -⟩ := mem_places_char ht
  subst hu
  have stopped : stretchFrom set s.last (s.rest ++ more) = _ := stretchFrom_append rest
  rw [← rest] at stopped
  rw [places_stretch, List.mem_singleton]
  simp only [Place.followedBy, stopped]

/-- A keyword is a sequence of characters, so it goes on. -/
theorem keyword (word : String) : GoesOn more (keyword word : Pattern ι) := by
  rw [Pattern.keyword]
  induction word.toList with
  | nil => exact empty
  | cons c word ih => exact (char (.same c)).seq ih

/-- A run of characters goes on: it may stop where it stopped before, however the text continues. -/
theorem some0 (set : CharSet) : GoesOn more (some0 set : Pattern ι) :=
  (char set).many

theorem some1 (set : CharSet) : GoesOn more (some1 set : Pattern ι) :=
  (char set).seq (some0 set)

theorem gap : GoesOn more (gap : Pattern ι) :=
  some1 .gap

theorem keywords (words : List String) : GoesOn more (keywords words : Pattern ι) := by
  induction words with
  | nil => exact empty
  | cons word words ih =>
    cases words with
    | nil => exact keyword word
    | cons next words => exact ((keyword word).seq gap).seq ih

end GoesOn

variable [DecidableEq ι]

/-- Parts that end in the text are the same in a longer one. -/
theorem lookup_followedBy {marked : List (ι × Span)}
    (ends : ∀ e ∈ marked, e.2.stop <:+ e.2.start) (more : List Char) (name : ι) :
    ((marked.map fun e => (e.1, e.2.followedBy more)).lookup name).map Span.text =
      (marked.lookup name).map Span.text := by
  induction marked with
  | nil => rfl
  | cons e marked ih =>
    rw [List.map_cons, List.lookup_cons, List.lookup_cons]
    split
    · exact congrArg some (Span.text_followedBy _ more (ends e List.mem_cons_self))
    · exact ih fun e' he' => ends e' (List.mem_cons_of_mem e he')

/-- What a pattern reads off a text can be read off a longer one, with the same parts. -/
theorem GoesOn.exists_mem_places {p : Pattern ι} {more text : List Char} (h : GoesOn more p)
    {m : Match ι} (read : p.match? text = some m) :
    ∃ m' : Match ι, m' ∈ p.places ⟨none, text ++ more, []⟩ ∧
      ∀ name, m'.text name = m.text name := by
  rw [match?_eq] at read
  have mem := List.mem_of_head? read
  refine ⟨m.followedBy more, h mem, fun name => ?_⟩
  have suffixes : ∀ e ∈ m.marked, e.2.stop <:+ e.2.start := by
    intro e he
    obtain ⟨spans, all, parts⟩ := addsSpans_of_mem_places mem
    rw [all, List.append_nil] at he
    obtain ⟨q, -, u, v, hv, span⟩ := parts e he
    rw [span]
    exact suffix_of_mem_places hv
  exact congrArg (Option.getD · []) (lookup_followedBy suffixes more name)

end Pattern

end Rollback

import Rollback.Proofs.Pattern.Places
import Rollback.Proofs.Text.LetterCase

/-!
# Patterns and letter case

A pattern that asks for no particular case of an ASCII letter is read in the same way whatever the
case of the letters in the text is: at every turn of the reading the same branches are open, and
what is marked differs in the case of its letters only.

- `CharSet.ignoresCase`, `Pattern.ignoresCase`: nothing asks for the case of a letter
- `Place.asciiLower`: a place with all texts in ASCII lower case
- `Pattern.places_asciiLower`: the readings of a text in lower case, for every pattern of this kind
- `Pattern.match?_asciiLower`: the same for the preferred reading
-/

set_option autoImplicit false

namespace Rollback

namespace CharSet

/-- Whether a set that has a letter has it in both cases. -/
def ignoresCase : CharSet → Bool
  | any => true
  | word => true
  | gap => true
  | letter => true
  | same _ => true
  | oneOf cs => cs.all fun c => !c.isAlpha
  | union a b => a.ignoresCase && b.ignoresCase
  | except a => a.ignoresCase

/-- A set that ignores case has a character exactly if it has its lower case. -/
theorem contains_toLower {set : CharSet} (h : set.ignoresCase = true) (c : Char) :
    set.contains c.toLower = set.contains c := by
  induction set with
  | any => rfl
  | word => exact Text.isWordChar_toLower c
  | gap => exact Text.isGap_toLower c
  | letter =>
    show (c.toLower.isAlpha || c.toLower == '_') = (c.isAlpha || c == '_')
    rw [Text.isAlpha_toLower, Text.toLower_beq (by decide)]
  | same d =>
    show (c.toLower.toLower == d.toLower) = (c.toLower == d.toLower)
    rw [Text.toLower_toLower]
  | oneOf cs =>
    have others : ∀ d ∈ cs, d.isAlpha = false := by simpa [ignoresCase] using h
    show cs.contains c.toLower = cs.contains c
    rw [List.contains_eq_any_beq, List.contains_eq_any_beq, Bool.eq_iff_iff, List.any_eq_true,
      List.any_eq_true]
    exact exists_congr fun d => and_congr_right fun mem => by
      rw [Text.toLower_beq (others d mem)]
  | union a b ha hb =>
    obtain ⟨first, second⟩ := Bool.and_eq_true_iff.1 h
    show (a.contains c.toLower || b.contains c.toLower) = (a.contains c || b.contains c)
    rw [ha first, hb second]
  | except a ha =>
    show (!a.contains c.toLower) = !a.contains c
    rw [ha h]

end CharSet

/-! ## Places -/

/-- The two texts of a span in ASCII lower case. -/
def Span.asciiLower (span : Span) : Span :=
  ⟨Text.asciiLower span.start, Text.asciiLower span.stop⟩

theorem Span.text_asciiLower (span : Span) : span.asciiLower.text = Text.asciiLower span.text := by
  rw [Span.text, Span.asciiLower, Text.length_asciiLower, Text.length_asciiLower, Span.text]
  exact List.map_take.symm

variable {ι : Type}

/-- The place with all texts in ASCII lower case. -/
def Place.asciiLower (s : Place ι) : Place ι :=
  ⟨s.last.map Char.toLower, Text.asciiLower s.rest, s.marked.map fun e => (e.1, e.2.asciiLower)⟩

namespace Match

variable [BEq ι] (m : Match ι) (name : ι)

/-- Lower case changes the spans that are marked, but not which ones there are. -/
theorem lookup_asciiLower :
    (Place.asciiLower m).marked.lookup name = (m.marked.lookup name).map Span.asciiLower := by
  show (m.marked.map fun e => (e.1, e.2.asciiLower)).lookup name = _
  induction m.marked with
  | nil => rfl
  | cons e marked ih =>
    rw [List.map_cons, List.lookup_cons, List.lookup_cons, ih]
    cases name == e.1 <;> rfl

/-- What is marked with a name is marked in lower case, or not at all in both. -/
theorem text?_asciiLower :
    Match.text? (Place.asciiLower m) name = (m.text? name).map Text.asciiLower := by
  rw [Match.text?, lookup_asciiLower, Match.text?, Option.map_map, Option.map_map]
  congr 1
  exact funext Span.text_asciiLower

theorem text_asciiLower :
    Match.text (Place.asciiLower m) name = Text.asciiLower (m.text name) := by
  rw [Match.text, text?_asciiLower, Match.text]
  cases m.text? name <;> rfl

theorem after?_asciiLower :
    Match.after? (Place.asciiLower m) name = (m.after? name).map Text.asciiLower := by
  rw [Match.after?, lookup_asciiLower, Match.after?, Option.map_map, Option.map_map]
  rfl

end Match

/-! ## Readings -/

namespace Pattern

/-- Whether a pattern asks for no particular case of an ASCII letter. -/
def ignoresCase : Pattern ι → Bool
  | empty => true
  | char set => set.ignoresCase
  | stretch set => set.ignoresCase
  | seq p q => p.ignoresCase && q.ignoresCase
  | alt p q => p.ignoresCase && q.ignoresCase
  | many p => p.ignoresCase
  | mark _ p => p.ignoresCase
  | wordEdge => true

/-- A stretch over a set that ignores case goes equally far in both texts. -/
theorem stretchFrom_asciiLower {set : CharSet} (h : set.ignoresCase = true) (rest : List Char) :
    ∀ last : Option Char, stretchFrom set (last.map Char.toLower) (Text.asciiLower rest) =
      ((stretchFrom set last rest).1.map Char.toLower,
        Text.asciiLower (stretchFrom set last rest).2) := by
  induction rest with
  | nil => exact fun _ => rfl
  | cons c rest ih =>
    intro last
    rw [Text.asciiLower_cons, stretchFrom, stretchFrom, CharSet.contains_toLower h]
    split
    · exact ih (some c)
    · rfl

theorem isWordAt_map_toLower (c : Option Char) : isWordAt (c.map Char.toLower) = isWordAt c := by
  cases c with
  | none => rfl
  | some c => exact Text.isWordChar_toLower c

/-- If one turn ends at the same places in lower case, then so do several turns. -/
theorem turnPlaces_asciiLower {turn : Place ι → List (Place ι)}
    (h : ∀ s, turn s.asciiLower = (turn s).map Place.asciiLower) (bound : List Char) :
    ∀ s, turnPlaces turn (Text.asciiLower bound) s.asciiLower =
      (turnPlaces turn bound s).map Place.asciiLower := by
  induction bound with
  | nil => exact fun _ => rfl
  | cons c bound ih =>
    intro s
    rw [Text.asciiLower_cons, turnPlaces_cons, turnPlaces_cons, h, List.map_append,
      List.flatMap_map, List.map_flatMap, List.map_singleton]
    simp only [ih]

/-- A text in lower case is read to the same places. -/
theorem places_asciiLower {p : Pattern ι} (h : p.ignoresCase = true) :
    ∀ s : Place ι, p.places s.asciiLower = (p.places s).map Place.asciiLower := by
  -- The induction is on the pattern. Characters decide only through sets that ignore their case.
  induction p with
  | empty => exact fun _ => rfl
  | char set =>
    rintro ⟨l, rest, m⟩
    cases rest with
    | nil => rfl
    | cons c rest =>
      rw [Place.asciiLower, Text.asciiLower_cons, places_char, places_char,
        CharSet.contains_toLower h]
      split <;> rfl
  | stretch set =>
    intro s
    have ends := stretchFrom_asciiLower h s.rest s.last
    rw [places_stretch, places_stretch, List.map_singleton]
    simp only [Place.asciiLower, ends]
  | seq p q hp hq =>
    intro s
    obtain ⟨first, second⟩ := Bool.and_eq_true_iff.1 h
    show (p.places s.asciiLower).flatMap q.places = ((p.places s).flatMap q.places).map _
    rw [hp first, List.flatMap_map, List.map_flatMap]
    simp only [hq second]
  | alt p q hp hq =>
    intro s
    obtain ⟨first, second⟩ := Bool.and_eq_true_iff.1 h
    rw [places_alt, places_alt, hp first, hq second, List.map_append]
  | many p hp =>
    intro s
    exact turnPlaces_asciiLower (hp h) s.rest s
  | mark name p hp =>
    intro s
    rw [places_mark, places_mark, hp h, List.map_map, List.map_map]
    rfl
  | wordEdge =>
    intro s
    have edge : (isWordAt s.asciiLower.last != isWordAt s.asciiLower.rest.head?) =
        (isWordAt s.last != isWordAt s.rest.head?) := by
      rw [Place.asciiLower, isWordAt_map_toLower, Text.asciiLower, List.head?_map,
        isWordAt_map_toLower]
    rw [places_wordEdge, places_wordEdge, edge]
    split <;> rfl

/-- The preferred reading of a text in lower case is that of the text. -/
theorem match?_asciiLower {p : Pattern ι} (h : p.ignoresCase = true) (text : List Char) :
    p.match? (Text.asciiLower text) = (p.match? text).map Place.asciiLower := by
  rw [match?_eq, match?_eq, ← List.head?_map]
  exact congrArg List.head? (places_asciiLower h ⟨none, text, []⟩)

end Pattern

end Rollback

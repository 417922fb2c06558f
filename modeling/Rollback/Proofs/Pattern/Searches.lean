import Rollback.Proofs.Pattern.Readings
import Rollback.Proofs.Text.Words

/-!
# Searches for whole words

A search looks at one place of a text after another. For a pattern that starts with a keyword at the
edge of a word, only the starts of words matter, and of those only the ones where the keyword
stands.

- `OnlyFrom`: a pattern that is stuck unless a text starts in a set
- `stuck_word`: a keyword reads no other word
- `Passes`: a search finds nothing at any place of a text
- `LedBy`: a pattern that is read at one word only, so that searches pass all others
-/

set_option autoImplicit false

namespace Rollback.Pattern

variable {ι : Type}

/-! ## Patterns that start in a set -/

/-- A pattern that can only be read where a text starts with a character of a set. -/
def OnlyFrom (p : Pattern ι) (set : CharSet) : Prop :=
  ∀ s : Place ι, startsIn set s.rest = false → Stuck p s

section OnlyFrom

variable {p q : Pattern ι} {set : CharSet}

theorem OnlyFrom.char (set : CharSet) : OnlyFrom (char set : Pattern ι) set :=
  fun _ outside => stuck_char outside

theorem OnlyFrom.seq (h : OnlyFrom p set) (q : Pattern ι) : OnlyFrom (p ++ q) set :=
  fun s outside => (h s outside).seq_left q

/-- Between gaps and a pattern that takes none, the text has to go on with a start of the
pattern. -/
theorem OnlyFrom.stuck_gaps (h : OnlyFrom q set)
    (solid : ∀ c, Text.isGap c = true → set.contains c = false) {l : Option Char}
    {rest : List Char} {m : List (ι × Span)}
    (outside : startsIn set (rest.dropWhile Text.isGap) = false) :
    Stuck (gaps ++ q) ⟨l, rest, m⟩ := by
  -- However many gaps are taken, the text goes on with a gap or after the last of them.
  refine .seq_right fun t ht => h t ?_
  obtain ⟨w, inside, split, -, -⟩ := mem_places_some0 ht
  have blank : ∀ c ∈ w, Text.isGap c = true := inside
  cases after : t.rest with
  | nil => rfl
  | cons c more =>
    rw [startsIn_cons]
    by_cases gap : Text.isGap c = true
    · exact solid c gap
    · have dropped : rest.dropWhile Text.isGap = c :: more := by
        have split : rest = w ++ c :: more := after ▸ split
        rw [split, List.dropWhile_append_of_pos blank, List.dropWhile_cons, if_neg gap]
      rwa [dropped, startsIn_cons] at outside

/-- What starts in a set without gaps cannot be read after gaps that lead to a character outside the
set. -/
theorem OnlyFrom.stuck_gap (h : OnlyFrom q set)
    (solid : ∀ c, Text.isGap c = true → set.contains c = false) {l : Option Char}
    {rest : List Char} {m : List (ι × Span)}
    (outside : startsIn set (rest.dropWhile Text.isGap) = false) :
    Stuck (Pattern.gap ++ q) ⟨l, rest, m⟩ := by
  refine Stuck.assoc (.seq_right fun t ht => ?_)
  obtain ⟨c, blank, split, -, -⟩ := mem_places_char ht
  have outside : startsIn set (t.rest.dropWhile Text.isGap) = false := by
    have split : rest = c :: t.rest := split
    have blank : Text.isGap c = true := blank
    rwa [split, List.dropWhile_cons, if_pos blank] at outside
  exact h.stuck_gaps solid outside

/-- A keyword starts with its first letter in either case. -/
theorem OnlyFrom.keyword {word : String} {c : Char} {more : List Char}
    (h : word.toList = c :: more) : OnlyFrom (keyword word : Pattern ι) (.same c) := by
  rw [Pattern.keyword, h]
  exact (OnlyFrom.char _).seq _

theorem OnlyFrom.keywords {word : String} {c : Char} {more : List Char}
    (h : word.toList = c :: more) (rest : List String) :
    OnlyFrom (keywords (word :: rest) : Pattern ι) (.same c) := by
  cases rest with
  | nil => exact .keyword h
  | cons next rest => exact ((OnlyFrom.keyword h).seq _).seq _

end OnlyFrom

/-! ## Keywords and words -/

/-- Texts that differ in case only are words together. -/
theorem all_isWordChar_of_eqIgnoringCase {a b : List Char}
    (same : Text.eqIgnoringCase a b = true) (h : ∀ c ∈ a, Text.isWordChar c = true) :
    ∀ c ∈ b, Text.isWordChar c = true := by
  intro c hc
  have mem : c.toLower ∈ Text.asciiLower a := by
    rw [eq_of_beq same]
    exact List.mem_map.2 ⟨c, hc, rfl⟩
  obtain ⟨d, hd, lower⟩ := List.mem_map.1 mem
  rw [← Text.isWordChar_toLower, ← lower, Text.isWordChar_toLower]
  exact h d hd

section Words

variable {word : String} {q : Pattern ι} {u b : List Char} {l : Option Char}
  {m : List (ι × Span)}

/-- A keyword at the start of a text is no longer than the word there. -/
theorem keyword_length_le (letters : ∀ c ∈ word.toList, Text.isWordChar c = true)
    (hb : startsIn .word b = false)
    (same : Text.eqIgnoringCase word.toList ((u ++ b).take word.toList.length) = true) :
    word.toList.length ≤ u.length := by
  have taken := all_isWordChar_of_eqIgnoringCase same letters
  refine Nat.not_lt.1 fun short => ?_
  -- A longer keyword would take the character after the word, which is no letter.
  cases b with
  | nil =>
    have := eqIgnoringCase_length same
    rw [List.append_nil, List.length_take] at this
    omega
  | cons c b =>
    rw [startsIn_cons] at hb
    have mem : c ∈ (u ++ c :: b).take word.toList.length := by
      rw [List.take_append]
      refine List.mem_append_right _ ?_
      obtain ⟨k, hk⟩ : ∃ k, word.toList.length - u.length = k + 1 :=
        ⟨word.toList.length - u.length - 1, by omega⟩
      rw [hk, List.take_succ_cons]
      exact List.mem_cons_self
    exact absurd (taken c mem) (by simpa [CharSet.contains] using hb)

/-- A keyword and what follows it do not read a word unless it is the keyword and the rest goes on
after it. -/
theorem stuck_word (letters : ∀ c ∈ word.toList, Text.isWordChar c = true)
    (hq : ∀ s : Place ι, startsIn .word s.rest = true → Stuck q s)
    (hu : ∀ c ∈ u, Text.isWordChar c = true) (hb : startsIn .word b = false)
    (here : Text.eqIgnoringCase word.toList u = true → Stuck q ⟨lastAfter l u, b, m⟩) :
    Stuck (keyword word ++ q) ⟨l, u ++ b, m⟩ := by
  cases same : Text.eqIgnoringCase word.toList ((u ++ b).take word.toList.length) with
  | false => exact (stuck_keyword same).seq_left q
  | true =>
    have long := keyword_length_le letters hb same
    refine .seq_right fun t ht => ?_
    rw [places_keyword, if_pos same, List.mem_singleton] at ht
    rw [ht, List.take_append_of_le_length long, List.drop_append_of_le_length long]
    rw [List.take_append_of_le_length long] at same
    by_cases whole : word.toList.length = u.length
    · rw [whole, List.take_length] at same ⊢
      rw [List.drop_length]
      exact here same
    · refine hq _ ?_
      cases more : u.drop word.toList.length with
      | nil =>
        have := congrArg List.length more
        rw [List.length_drop, List.length_nil] at this
        omega
      | cons c more' =>
        exact hu c (List.mem_of_mem_drop (more ▸ List.mem_cons_self))

/-- A gap is not read inside a word. -/
theorem stuck_gap_of_word (q : Pattern ι) (s : Place ι) (inWord : startsIn .word s.rest = true) :
    Stuck (gap ++ q) s := by
  refine Stuck.seq_left (stuck_some1 ?_) q
  cases rest : s.rest with
  | nil => rfl
  | cons c more =>
    rw [rest] at inWord
    exact Text.isGap_eq_false_of_isWordChar inWord

/-- Keywords after a gap have to start there with the first of them. -/
theorem stuck_gap_keywords {second : String} {c : Char} {more : List Char}
    (h : second.toList = c :: more) (hc : Text.isWordChar c = true) (rest : List String)
    (s : Place ι) (outside : startsIn (.same c) (s.rest.dropWhile Text.isGap) = false) :
    Stuck (gap ++ keywords (second :: rest)) s := by
  have first : OnlyFrom (keywords (second :: rest) : Pattern ι) (.same c) := .keywords h rest
  refine first.stuck_gap (fun d gap => Bool.eq_false_iff.2 fun same => ?_) outside
  have lower : d.toLower = c.toLower := eq_of_beq same
  have word : Text.isWordChar d = true := by
    rw [← Text.isWordChar_toLower, lower, Text.isWordChar_toLower, hc]
  rw [Text.isGap_eq_false_of_isWordChar word] at gap
  exact absurd gap (by decide)

/-- Keywords do not read a word unless it is the first of them and the second comes after it. -/
theorem stuck_keywords_word {second : String} {c : Char} {more : List Char}
    (letters : ∀ c ∈ word.toList, Text.isWordChar c = true)
    (h : second.toList = c :: more) (hc : Text.isWordChar c = true) (rest : List String)
    (hu : ∀ c ∈ u, Text.isWordChar c = true) (hb : startsIn .word b = false)
    (here : startsIn (.same c) (b.dropWhile Text.isGap) = false) :
    Stuck (keywords (word :: second :: rest)) ⟨l, u ++ b, m⟩ := by
  refine Stuck.assoc ?_
  exact stuck_word letters (stuck_gap_of_word _) hu hb fun _ =>
    stuck_gap_keywords h hc rest ⟨_, b, m⟩ here

end Words

/-! ## Searches -/

/-- A search finds nothing at any place of the text `a` before the text `b`. -/
def Passes (p : Pattern ι) (l : Option Char) (a b : List Char) : Prop :=
  ∀ before after, a = before ++ after → after ≠ [] →
    Stuck p ⟨lastAfter l before, after ++ b, []⟩

section Passes

variable {p : Pattern ι} {l : Option Char} {a b c : List Char}

theorem Passes.nil : Passes p l [] b := by
  intro before after split nonempty
  exact absurd (List.append_eq_nil_iff.1 split.symm).2 nonempty

/-- A search goes on by one character if the pattern cannot be read there. -/
theorem Passes.cons {d : Char} (first : Stuck p ⟨l, d :: a ++ b, []⟩)
    (more : Passes p (some d) a b) : Passes p l (d :: a) b := by
  intro before after split nonempty
  cases before with
  | nil =>
    rw [List.nil_append] at split
    exact split ▸ first
  | cons e before =>
    obtain ⟨same, split⟩ := List.cons_eq_cons.1 split
    rw [← same, lastAfter_cons]
    exact more before after split nonempty

theorem Passes.append (first : Passes p l a (b ++ c)) (more : Passes p (lastAfter l a) b c) :
    Passes p l (a ++ b) c := by
  induction a generalizing l with
  | nil => exact more
  | cons d a ih =>
    refine .cons ?_ (ih ?_ ?_)
    · have stuck := first [] (d :: a) rfl (List.cons_ne_nil d a)
      rwa [← List.append_assoc] at stuck
    · intro before after split nonempty
      have stuck := first (d :: before) after (by rw [split, List.cons_append]) nonempty
      rwa [lastAfter_cons] at stuck
    · rwa [lastAfter_cons] at more

/-- What a search passes can be left out. -/
theorem Passes.searchFrom_append (h : Passes p l a b) :
    searchFrom p l (a ++ b) = searchFrom p (lastAfter l a) b := by
  induction a generalizing l with
  | nil => rfl
  | cons d a ih =>
    have stuck := h [] (d :: a) rfl (List.cons_ne_nil d a)
    have rest : Passes p (some d) a b := by
      intro before after split nonempty
      have stuck := h (d :: before) after (by rw [split, List.cons_append]) nonempty
      rwa [lastAfter_cons] at stuck
    rw [lastAfter_cons, ← ih rest, List.cons_append, searchFrom, run_some]
    rw [lastAfter_nil, List.cons_append] at stuck
    rw [stuck]
    rfl

/-- A search ends at once where the pattern can be read. -/
theorem Reads.searchFrom {text : List Char} {t : Place ι} (h : Reads p ⟨l, text, []⟩ t) :
    searchFrom p l text = some t := by
  cases text with
  | nil => rw [Pattern.searchFrom, run_some, h]
  | cons c text =>
    rw [Pattern.searchFrom, run_some, h]
    rfl

/-- A search that passes a text and is stuck at its end finds nothing. -/
theorem Passes.searchFrom_eq_none (h : Passes p l a []) (last : Stuck p ⟨lastAfter l a, [], []⟩) :
    searchFrom p l a = none := by
  rw [← List.append_nil a, h.searchFrom_append, Pattern.searchFrom, run_some, last]
  rfl

end Passes

/-! ## Searches for a word -/

/-- A pattern that can only be read at the start of a word: of any other word than the given one it
reads nothing, and after that one a character of a set has to come, with gaps before it or not. -/
structure LedBy (p : Pattern ι) (word : String) (next : CharSet) : Prop where
  off : ∀ s : Place ι, startsIn .word s.rest = false ∨ isWordAt s.last = true → Stuck p s
  other : ∀ {l : Option Char} {u b : List Char} {m : List (ι × Span)},
    (∀ c ∈ u, Text.isWordChar c = true) → startsIn .word b = false →
    (Text.eqIgnoringCase word.toList u = true →
      startsIn next (b.dropWhile Text.isGap) = false) → Stuck p ⟨l, u ++ b, m⟩

section LedBy

variable {p q : Pattern ι} {word : String} {next : CharSet} {l : Option Char} {a b : List Char}

/-- A pattern that is stuck wherever a led one is stuck is led by the same word. -/
theorem LedBy.of_stuck (h : LedBy p word next) (stuck : ∀ s, Stuck p s → Stuck q s) :
    LedBy q word next :=
  ⟨fun s place => stuck s (h.off s place), fun hu hb here => stuck _ (h.other hu hb here)⟩

theorem LedBy.seq (h : LedBy p word next) (q : Pattern ι) : LedBy (p ++ q) word next :=
  h.of_stuck fun _ stuck => stuck.seq_left q

theorem LedBy.mark (h : LedBy p word next) (name : ι) : LedBy (mark name p) word next :=
  h.of_stuck fun _ stuck => stuck.mark name

/-- A pattern that cannot be read cannot be read after the edge of a word either. -/
theorem Stuck.wordEdge {s : Place ι} (stuck : Stuck p s) : Stuck (Pattern.wordEdge ++ p) s := by
  refine .seq_right fun t ht => ?_
  rwa [eq_of_mem_places_wordEdge ht]

/-- A keyword at an edge leads a pattern if the rest of it does not go on with the word. -/
theorem ledBy_keyword (letters : ∀ c ∈ word.toList, Text.isWordChar c = true)
    (nonempty : word.toList ≠ [])
    (hq : ∀ s : Place ι, startsIn .word s.rest = true → Stuck q s)
    (hn : ∀ s : Place ι, startsIn next (s.rest.dropWhile Text.isGap) = false → Stuck q s) :
    LedBy (wordEdge ++ (keyword word ++ q)) word next := by
  have outside : ∀ s : Place ι, startsIn .word s.rest = false → Stuck (keyword word ++ q) s := by
    rintro ⟨l, rest, m⟩ outside
    have none_ := stuck_word (q := q) (u := []) (l := l) (m := m) letters hq
      (fun c hc => absurd hc List.not_mem_nil) outside fun same => ?_
    · exact none_
    · exact absurd (List.length_eq_zero_iff.1 (eqIgnoringCase_length same)) nonempty
  constructor
  · rintro ⟨l, rest, m⟩ (place | inside)
    · exact (outside _ place).wordEdge
    · by_cases place : startsIn .word rest = true
      · -- Inside a word there is no edge.
        have same : isWordAt l = isWordAt rest.head? := inside.trans place.symm
        exact (stuck_wordEdge same).seq_left _
      · exact (outside _ (Bool.eq_false_iff.2 place)).wordEdge
  · intro l u b m hu hb here
    exact (stuck_word letters hq hu hb fun same => hn _ (here same)).wordEdge

/-- Keywords at an edge lead a pattern with the first of them. -/
theorem ledBy_keywords {second : String} {c : Char} {more : List Char}
    (letters : ∀ c ∈ word.toList, Text.isWordChar c = true) (nonempty : word.toList ≠ [])
    (h : second.toList = c :: more) (hc : Text.isWordChar c = true) (rest : List String) :
    LedBy (wordEdge ++ keywords (word :: second :: rest) : Pattern ι) word (.same c) := by
  have led : LedBy (wordEdge ++ (keyword word ++ (gap ++ keywords (second :: rest))) : Pattern ι)
      word (.same c) :=
    ledBy_keyword letters nonempty (stuck_gap_of_word _) (stuck_gap_keywords h hc rest)
  refine led.of_stuck fun s stuck => .seq_right fun t ht => Stuck.assoc ?_
  exact List.flatMap_eq_nil_iff.1 stuck t ht

/-- A search passes characters that belong to no word. -/
theorem LedBy.passes_separators (h : LedBy p word next)
    (ha : ∀ c ∈ a, Text.isWordChar c = false) : Passes p l a b := by
  intro before after split nonempty
  cases after with
  | nil => exact absurd rfl nonempty
  | cons c after => exact h.off _ (.inl (ha c (by simp [split])))

/-- A search passes a word if there is nothing to read at its start. -/
theorem LedBy.passes_word (h : LedBy p word next) (first : Stuck p ⟨l, a ++ b, []⟩)
    (ha : ∀ c ∈ a, Text.isWordChar c = true) : Passes p l a b := by
  intro before after split nonempty
  rcases List.eq_nil_or_concat before with rfl | ⟨init, d, rfl⟩
  · rw [List.nil_append] at split
    exact split ▸ first
  · have inWord : Text.isWordChar d = true := ha d (by simp [split])
    exact h.off _ (.inr (by simp [lastAfter_append, isWordAt, inWord]))

/-- A search that has passed a text finds nothing after it. -/
theorem LedBy.search?_eq_none (h : LedBy p word next) (passes : Passes p none a []) :
    p.search? a = none :=
  passes.searchFrom_eq_none (h.off _ (.inl rfl))

end LedBy

end Rollback.Pattern

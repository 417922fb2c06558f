import Rollback.Proofs.Pattern.Contexts
import Rollback.Proofs.Pattern.Extensions
import Rollback.Proofs.Sql.AlterTable
import Rollback.Proofs.Sql.Identifiers
import Rollback.Proofs.Sql.TopLevelCommas

/-!
# Heads of ALTER TABLE statements

The actions of an ALTER TABLE statement come after its head: the words ALTER TABLE, perhaps ONLY or
IF EXISTS, and a name. A name can look like one of these words, so the same head may be read to
another end if something else comes after it. If that is an action word, at most this word is taken
for a part of the head, and there is neither a quote nor a parenthesis in it.

- `Spelled`: words with gaps after them
- `AlterHead`: the heads of ALTER TABLE statements
- `exists_alterHead`: what is read before the actions is a head
- `LedByAction`: texts that start with an action word
- `AlterHead.afterInert`: how a head with an action after it is read
-/

set_option autoImplicit false

namespace Rollback.Sql

open Pattern

/-! ## Gaps and words -/

section Gaps

variable {g rest : List Char} {s t : Place Operand}

/-- A gap is read to its end or to a place inside it. -/
theorem endsIn_gap (inside : ∀ c ∈ g, Text.isGap c = true) (solid : startsIn .gap rest = false) :
    EndsIn (gap : Phrase) (g ++ rest) fun after => after = rest ∨ startsIn .gap after = true := by
  intro l m t ht
  obtain ⟨w, -, taken, split⟩ := mem_places_some1 ht
  have split : g ++ rest = w ++ t.rest := split
  rcases List.append_eq_append_iff.1 split with ⟨a, rfl, after⟩ | ⟨a, rfl, after⟩
  · -- More than the gap cannot be taken, as something else comes after it.
    cases a with
    | nil => exact .inl after.symm
    | cons c a =>
      have blank : CharSet.gap.contains c = true := taken c (by simp)
      rw [after, List.cons_append, startsIn_cons, blank] at solid
      exact absurd solid (by decide)
  · cases a with
    | nil => exact .inl after
    | cons c a => exact .inr (after ▸ inside c (by simp))

end Gaps

/-- Words in any ASCII case, each with a gap after it. -/
inductive Spelled : List String → List Char → Prop where
  | nil : Spelled [] []
  | cons {word : String} {words : List String} {w g rest : List Char}
      (same : Text.eqIgnoringCase word.toList w = true) (some_ : g ≠ [])
      (gap : ∀ c ∈ g, Text.isGap c = true) (others : Spelled words rest) :
      Spelled (word :: words) (w ++ (g ++ rest))

section Spelled

variable {word : String} {words : List String} {w rest : List Char} {s t : Place Operand}

/-- A keyword and the gap after it stand in the text as they are spelled. -/
theorem exists_spelled_word (h : t ∈ (keyword word ++ gap : Phrase).places s) :
    ∃ w g, Text.eqIgnoringCase word.toList w = true ∧ g ≠ [] ∧ (∀ c ∈ g, Text.isGap c = true) ∧
      s.rest = w ++ (g ++ t.rest) := by
  obtain ⟨u, hu, ht⟩ := List.mem_flatMap.1 h
  obtain ⟨same, after⟩ := mem_places_keyword hu
  obtain ⟨g, some_, inside, split⟩ := mem_places_some1 ht
  exact ⟨_, g, same, some_, inside, by rw [← split, after, List.take_append_drop]⟩

/-- What keywords with a gap after them take are the words with gaps. -/
theorem exists_spelled (words : List String) (nonempty : words ≠ [])
    (h : t ∈ (keywords words ++ gap : Phrase).places s) :
    ∃ w, Spelled words w ∧ s.rest = w ++ t.rest := by
  induction words generalizing s with
  | nil => exact absurd rfl nonempty
  | cons word words ih =>
    cases words with
    | nil =>
      obtain ⟨w, g, same, some_, inside, split⟩ := exists_spelled_word h
      exact ⟨w ++ (g ++ []), .cons same some_ inside .nil, by rw [split]; simp⟩
    | cons next words =>
      have h : t ∈ ((keyword word ++ gap) ++ keywords (next :: words) ++ gap : Phrase).places s := h
      rw [places_seq_assoc] at h
      obtain ⟨u, hu, ht⟩ := List.mem_flatMap.1 h
      obtain ⟨w, g, same, some_, inside, first⟩ := exists_spelled_word hu
      obtain ⟨v, others, rest⟩ := ih (List.cons_ne_nil next words) ht
      exact ⟨w ++ (g ++ v), .cons same some_ inside others, by rw [first, rest]; simp⟩

/-- Texts that are the same up to their case start with the same letter. -/
theorem startsIn_same_of_eqIgnoringCase {c : Char} {v w : List Char}
    (same : Text.eqIgnoringCase v w = true) : startsIn (.same c) w = startsIn (.same c) v := by
  cases v with
  | nil =>
    cases w with
    | nil => rfl
    | cons d w => exact absurd (eqIgnoringCase_length same) (Nat.succ_ne_zero _).symm
  | cons d v =>
    cases w with
    | nil => exact absurd (eqIgnoringCase_length same) (Nat.succ_ne_zero _)
    | cons e w =>
      rw [eqIgnoringCase_cons, Bool.and_eq_true, beq_iff_eq] at same
      show (e.toLower == c.toLower) = (d.toLower == c.toLower)
      rw [same.1]

theorem startsIn_of_spelled {c : Char} {more : List Char} (first : word.toList = c :: more)
    (h : Spelled (word :: words) w) (rest : List Char) : startsIn (.same c) (w ++ rest) = true := by
  cases h with
  | @cons _ _ v g after same some_ gap others =>
    have start : startsIn (.same c) v = true := by
      rw [startsIn_same_of_eqIgnoringCase same, first]
      exact beq_self_eq_true _
    rw [List.append_assoc]
    exact startsIn_append start _

/-- A keyword that is spelled at the start of a text is taken and nothing more. -/
theorem endsIn_keyword (same : Text.eqIgnoringCase word.toList w = true) (rest : List Char) :
    EndsIn (keyword word : Phrase) (w ++ rest) (· = rest) := by
  intro l m t ht
  rw [(mem_places_keyword ht).2, eqIgnoringCase_length same]
  exact List.drop_left

theorem exists_letter (h : startsIn .word word.toList = true) :
    ∃ c more, word.toList = c :: more ∧ Text.isWordChar c.toLower = true := by
  cases chars : word.toList with
  | nil =>
    rw [chars] at h
    exact absurd h Bool.false_ne_true
  | cons c more =>
    rw [chars] at h
    exact ⟨c, more, rfl, (Text.isWordChar_toLower c).trans h⟩

/-- Keywords with a gap after them are read off the words with gaps, up to their end or to a place
inside the last gap. -/
theorem Spelled.endsIn (h : Spelled words w) (nonempty : words ≠ [])
    (letters : ∀ word ∈ words, startsIn .word word.toList = true)
    (solid : startsIn .gap rest = false) :
    EndsIn (keywords words ++ gap : Phrase) (w ++ rest) fun after =>
      after = rest ∨ startsIn .gap after = true := by
  induction h with
  | nil => exact absurd rfl nonempty
  | @cons word words w g v same some_ inside others ih =>
    rw [List.append_assoc, List.append_assoc]
    cases words with
    | nil =>
      cases others
      exact (endsIn_keyword same _).seq_at (endsIn_gap inside solid)
    | cons next words =>
      obtain ⟨-, letters⟩ := List.forall_mem_cons.1 letters
      obtain ⟨c, more, first, letter⟩ := exists_letter (letters next List.mem_cons_self)
      have start := startsIn_gap_of_same letter (startsIn_of_spelled first others rest)
      have leads : EndsIn (keyword word ++ gap : Phrase) (w ++ (g ++ (v ++ rest))) fun after =>
          after = v ++ rest ∨ startsIn .gap after = true :=
        (endsIn_keyword same _).seq_at (endsIn_gap inside start)
      refine .assoc (leads.seq ?_)
      rintro after (rfl | blank)
      · exact ih (List.cons_ne_nil next words) letters
      · -- Inside the gap the next keyword is not read.
        refine .of_stuck fun l m => Stuck.seq_left (OnlyFrom.keywords first words _ ?_) gap
        refine Bool.eq_false_iff.2 fun same => ?_
        rw [startsIn_gap_of_same letter same] at blank
        exact absurd blank (by decide)

theorem takesAnywhere_gap {g : List Char} (some_ : g ≠ [])
    (inside : ∀ c ∈ g, Text.isGap c = true) : TakesAnywhere (gap : Phrase) g := by
  have reads : Reads (gap : Phrase) ⟨none, g ++ [], []⟩ ⟨lastAfter none g, [], []⟩ :=
    reads_some1 some_ inside rfl
  exact ReadsText.takesAnywhere rfl ⟨_, _, List.mem_of_head? reads, rfl⟩

theorem takesAnywhere_keyword (same : Text.eqIgnoringCase word.toList w = true) :
    TakesAnywhere (keyword word : Phrase) w := fun _ rest _ =>
  ⟨_, List.mem_of_head? (reads_keyword same rest), rfl⟩

/-- Keywords with a gap after them can be read off the words with gaps. -/
theorem Spelled.takesAnywhere (h : Spelled words w) (nonempty : words ≠ []) :
    TakesAnywhere (keywords words ++ gap : Phrase) w := by
  induction h with
  | nil => exact absurd rfl nonempty
  | @cons word words w g v same some_ inside others ih =>
    have first := (takesAnywhere_keyword same).seq (takesAnywhere_gap some_ inside)
    cases words with
    | nil =>
      cases others
      rwa [List.append_nil]
    | cons next words =>
      have all := first.seq (ih (List.cons_ne_nil next words))
      rw [List.append_assoc] at all
      exact all.assoc

end Spelled

/-! ## Heads -/

/-- What may stand between the words ALTER TABLE and the name of the table. -/
def headOptions : List (List String) := [[], ["ONLY"], ["IF", "EXISTS"]]

/-- The words ALTER TABLE, perhaps ONLY or IF EXISTS, and the name of a table. -/
inductive AlterHead : List Char → Prop where
  | mk {option : List String} {start words name : List Char} (allowed : option ∈ headOptions)
      (starts : Spelled ["ALTER", "TABLE"] start) (spelled : Spelled option words)
      (named : qualifiedName.ReadsText name) : AlterHead (start ++ (words ++ name))

/-- What may be read of the words between ALTER TABLE and the name. -/
def optionPhrase : Phrase :=
  orNothing (alt (keyword "ONLY" ++ gap) (keywords ["IF", "EXISTS"] ++ gap))

section Heads

variable {name text : List Char} {s t : Place Operand} {m : Match Operand}

/-- A name holds neither blanks nor semicolons. -/
theorem solid_name (h : qualifiedName.ReadsText name) :
    name ≠ [] ∧ ∀ c ∈ name, Text.isBlank c = false ∧ c ≠ ';' :=
  forall_mem_of_readsText_qualifiedName
    (fun c => forall_identifierChar (p := fun c => Text.isBlank c = false ∧ c ≠ ';') (by decide))
    (by decide) (by decide) h

theorem isSolid_name (h : qualifiedName.ReadsText name) : IsSolid name := by
  intro c mem
  have solid := ((solid_name h).2 c mem).1
  refine Bool.eq_false_iff.2 fun blank => ?_
  rw [Text.isBlank_of_isGap blank] at solid
  exact absurd solid (by decide)

/-- The optional words of a head are spelled in the text, or there are none. -/
theorem exists_option (h : t ∈ optionPhrase.places s) :
    ∃ option ∈ headOptions, ∃ words, Spelled option words ∧ s.rest = words ++ t.rest := by
  rcases List.mem_append.1 h with h | h
  · rcases List.mem_append.1 h with h | h
    · obtain ⟨w, spelled, split⟩ := exists_spelled ["ONLY"] (by decide) h
      exact ⟨_, by decide, w, spelled, split⟩
    · obtain ⟨w, spelled, split⟩ := exists_spelled ["IF", "EXISTS"] (by decide) h
      exact ⟨_, by decide, w, spelled, split⟩
  · rw [places_empty, List.mem_singleton] at h
    exact ⟨[], by decide, [], .nil, by rw [h, List.nil_append]⟩

/-- What is read before the actions is a head, and there is a gap after it. -/
theorem exists_alterHead (h : alterTableHeadPhrase.match? text = some m) :
    AlterHead (m.text .head) ∧ ∃ g, g ≠ [] ∧ (∀ c ∈ g, Text.isGap c = true) ∧
      text = m.text .head ++ (g ++ m.rest) := by
  rw [match?_eq] at h
  obtain ⟨v, hv, hm⟩ := List.mem_flatMap.1 (List.mem_of_head? h)
  obtain ⟨g, some_, inside, after⟩ := mem_places_some1 hm
  obtain ⟨u, hu, rfl⟩ := List.mem_map.1 hv
  obtain ⟨q, hq, hu'⟩ := List.mem_flatMap.1 hu
  obtain ⟨p, hp, hq⟩ := List.mem_flatMap.1 hq
  obtain ⟨start, starts, first⟩ := exists_spelled ["ALTER", "TABLE"] (by decide) hp
  obtain ⟨option, allowed, words, spelled, second⟩ := exists_option hq
  obtain ⟨name, third⟩ := suffix_of_mem_places hu'
  have split : text = start ++ (words ++ name) ++ u.rest := by
    have first : text = start ++ p.rest := first
    rw [first, second, ← third]
    simp
  have marked : m.text .head = start ++ (words ++ name) := by
    have lookup : m.marked.lookup .head = List.lookup Operand.head (_ :: u.marked) :=
      lookup_of_mem_places rfl hm
    rw [List.lookup_cons_self] at lookup
    rw [Match.text, Match.text?, lookup, split]
    exact Span.text_append _ _
  rw [marked]
  refine ⟨.mk allowed starts spelled ⟨q, u, hu', third.symm⟩, g, some_, inside, ?_⟩
  have after : u.rest = g ++ m.rest := after
  rw [split, after]

/-- There are no blanks around a head. -/
theorem AlterHead.trimmed {head : List Char} (h : AlterHead head) : Text.Trimmed head := by
  cases h with
  | @mk option start words name allowed starts spelled named =>
  obtain ⟨some_, solid⟩ := solid_name named
  refine ⟨fun c first => ?_, fun c last => ?_⟩
  · have letter := startsIn_of_spelled (c := 'A') rfl starts (words ++ name)
    rw [startsIn, Option.mem_def.1 first] at letter
    have same : c.toLower = 'a' := beq_iff_eq.1 letter
    refine Text.isBlank_eq_false_of_isWordChar ?_
    rw [← Text.isWordChar_toLower, same]
    rfl
  · rw [← List.append_assoc, List.getLast?_append_of_ne_nil _ some_] at last
    exact (solid c (List.mem_of_getLast? last)).1

theorem AlterHead.ne_nil {head : List Char} (h : AlterHead head) : head ≠ [] := by
  obtain ⟨-, -, -, named⟩ := h
  simp [(solid_name named).1]

end Heads

/-! ## Actions after heads -/

/-- A text whose first word is an action word. -/
def LedByAction (part : List Char) : Prop :=
  ∃ word ∈ actionWords, ∃ w rest, Text.eqIgnoringCase word.toList w = true ∧ part = w ++ rest ∧
    ∀ c ∈ rest.head?, Text.isBlank c = true

/-- A part that starts with an action is led by the word of that action. -/
theorem ledByAction_of_startsWithAction {part : List Char} (trimmed : Text.Trimmed part)
    (h : startsWithAction part = true) : LedByAction part := by
  cases part with
  | nil => exact absurd h (by decide)
  | cons c part =>
    rw [startsWithAction, Text.head?_words part (trimmed.first c rfl), Option.any_some] at h
    obtain ⟨word, mem, same⟩ := List.any_eq_true.1 h
    refine ⟨word, mem, _, _, same, List.takeWhile_append_dropWhile.symm, fun d first => ?_⟩
    have stop := List.head?_dropWhile_not (fun c => !Text.isBlank c) (c :: part)
    rw [Option.mem_def.1 first] at stop
    simpa using stop

/-- The rest of a text after characters that change nothing. -/
def AfterInert (text rest : List Char) : Prop :=
  ∃ before, text = before ++ rest ∧ ∀ c ∈ before, Inert c

theorem AfterInert.refl (text : List Char) : AfterInert text text :=
  ⟨[], rfl, List.forall_mem_nil _⟩

/-- Neither a gap nor anything else in front of a name is read. -/
theorem stuck_of_gap {p : Phrase} (takes : p.firsts.2 = false)
    (others : ∀ n < 128, Text.isGap (Char.ofNat n) = true →
      p.firsts.1.contains (Char.ofNat n) = false)
    {s : Place Operand} (blank : startsIn .gap s.rest = true) : Stuck p s := by
  refine stuck_of_firsts takes ?_
  cases rest : s.rest with
  | nil => rfl
  | cons c rest' =>
    rw [rest] at blank
    have gap : Text.isGap c = true := blank
    have ascii : c.toNat < 128 := by
      simp only [Text.isGap, Bool.or_eq_true, beq_iff_eq, Bool.and_eq_true,
        decide_eq_true_eq] at gap
      rcases gap with rfl | gap
      · decide
      · omega
    exact Text.forall_ascii (p := fun c => Text.isGap c = true → p.firsts.1.contains c = false)
      others ascii gap

section

variable {name words w z : List Char} {option : List String} {m : Match Operand}
  {l : Option Char} {marked : List (Operand × Span)} {u : Place Operand}

/-- Of a text that starts with a word, a name takes no more than the word. -/
theorem endsIn_nameOfWord (letters : ∀ c ∈ w, Text.isWordChar c = true)
    (ends : ∀ c ∈ z.head?, Text.isBlank c = true ∨ c = ';') :
    EndsIn (qualifiedName ++ gap) (w ++ z) (AfterInert (w ++ z)) := by
  intro l m t ht
  obtain ⟨u, hu, ht⟩ := List.mem_flatMap.1 ht
  obtain ⟨v, taken⟩ := suffix_of_mem_places hu
  obtain ⟨g, -, inside, after⟩ := mem_places_some1 ht
  have taken : w ++ z = v ++ u.rest := taken.symm
  have solid := (solid_name ⟨_, u, hu, taken⟩).2
  have word : ∀ c ∈ v, Text.isWordChar c = true := by
    rcases List.append_eq_append_iff.1 taken with ⟨a, rfl, rest⟩ | ⟨a, rfl, rest⟩
    · cases a with
      | nil => simpa using letters
      | cons c a =>
        have here := solid c (by simp)
        rcases ends c (by rw [rest]; rfl) with blank | rfl
        · exact absurd blank (Bool.eq_false_iff.1 here.1)
        · exact absurd rfl here.2
    · exact fun c mem => letters c (List.mem_append_left a mem)
  refine ⟨v ++ g, by rw [taken, after, List.append_assoc], List.forall_mem_append.2 ⟨?_, ?_⟩⟩
  · exact inert_of_word word
  · exact fun c mem => inert_of_isBlank (Text.isBlank_of_isGap (inside c mem))

/-- After words in front of a name, the name is read as it is. -/
theorem endsIn_optionName {b : List Char} (spelled : Spelled option words) (nonempty : option ≠ [])
    (letters : ∀ word ∈ option, startsIn .word word.toList = true)
    (named : qualifiedName.ReadsText name) (solid : startsIn .gap b = false) :
    EndsIn (keywords option ++ gap ++ (qualifiedName ++ gap)) (words ++ (name ++ ' ' :: b))
      (· = b) := by
  have start := startsIn_gap_append (isSolid_name named) (solid_name named).1 (' ' :: b)
  refine (spelled.endsIn nonempty letters start).seq ?_
  rintro rest (rfl | blank)
  · exact endsIn_next rfl (isSolid_name named) solid
  · exact .of_stuck fun l m => stuck_of_gap rfl (by decide) blank

/-- Words that are spelled and then a name can be read as such. -/
theorem not_stuck_optionName (spelled : Spelled option words) (nonempty : option ≠ [])
    (named : qualifiedName.ReadsText name) (l : Option Char) (b : List Char)
    (marked : List (Operand × Span)) :
    ¬Stuck (keywords option ++ gap ++ (qualifiedName ++ gap))
      ⟨l, words ++ (name ++ ' ' :: b), marked⟩ := by
  have space : TakesAnywhere (gap : Phrase) [' '] := takesAnywhere_gap (by decide) (by decide)
  have takes := (spelled.takesAnywhere nonempty).seq ((ReadsText.takesAnywhere rfl named).seq space)
  obtain ⟨t, ht, -⟩ := takes l b marked
  refine not_stuck_of_mem (t := t) ?_
  have shape : words ++ (name ++ [' ']) ++ b = words ++ (name ++ ' ' :: b) := by simp
  rwa [shape] at ht

section

variable (some_ : w ≠ []) (letters : ∀ c ∈ w, Text.isWordChar c = true)
  (other : startsIn (.same 'E') w = false)
  (ends : ∀ c ∈ z.head?, Text.isBlank c = true ∨ c = ';')

include some_ letters other ends

/-- Without words in front of it, the name is read as it is, or it is taken for the word ONLY and
the action word for the name. -/
theorem endsIn_bareName (named : qualifiedName.ReadsText name) :
    EndsIn (optionPhrase ++ (qualifiedName ++ gap)) (name ++ ' ' :: (w ++ z))
      (AfterInert (w ++ z)) := by
  have solid : startsIn .gap (w ++ z) = false :=
    startsIn_word_append some_ letters (fun c => Text.isGap_eq_false_of_isWordChar) z
  have only : EndsIn (keyword "ONLY" ++ gap : Phrase) (name ++ ' ' :: (w ++ z)) (· = w ++ z) :=
    endsIn_next rfl (isSolid_name named) solid
  have noExists : ∀ l m, Stuck (keyword "EXISTS" : Phrase) ⟨l, w ++ z, m⟩ := by
    intro l m
    refine OnlyFrom.keyword (c := 'E') rfl _ ?_
    cases w with
    | nil => exact absurd rfl some_
    | cons c w => exact other
  have option : EndsIn optionPhrase (name ++ ' ' :: (w ++ z)) fun rest =>
      rest = name ++ ' ' :: (w ++ z) ∨ rest = w ++ z :=
    ((only.mono fun _ => .inr).alt
      (.of_stuck (stuck_ifExists (isSolid_name named) solid noExists))).orNothing (.inl rfl)
  refine option.seq ?_
  rintro rest (rfl | rfl)
  · exact (endsIn_next rfl (isSolid_name named) solid).mono fun _ here => here ▸ .refl _
  · exact endsIn_nameOfWord letters ends

/-- After the words ALTER TABLE, the head is read to its end, or the action word is taken for its
name. -/
theorem afterInert_of_reads (allowed : option ∈ headOptions) (spelled : Spelled option words)
    (named : qualifiedName.ReadsText name)
    (h : Reads (optionPhrase ++ (qualifiedName ++ gap))
      ⟨l, words ++ (name ++ ' ' :: (w ++ z)), marked⟩ u) : AfterInert (w ++ z) u.rest := by
  have solid : startsIn .gap (w ++ z) = false :=
    startsIn_word_append some_ letters (fun c => Text.isGap_eq_false_of_isWordChar) z
  simp only [headOptions, List.mem_cons, List.not_mem_nil, or_false] at allowed
  rcases allowed with rfl | rfl | rfl
  · cases spelled
    exact endsIn_bareName some_ letters other ends named _ _ u (List.mem_of_head? h)
  · have can := not_stuck_optionName spelled (by decide) named l (w ++ z) marked
    have first : Reads (keyword "ONLY" ++ gap ++ (qualifiedName ++ gap)) _ u :=
      (h.of_alt_left fun none_ => can (stuck_alt_seq_iff.1 none_).1).of_alt_left can
    have whole : u.rest = w ++ z :=
      endsIn_optionName spelled (by decide) (by decide) named solid _ _ u (List.mem_of_head? first)
    exact whole ▸ .refl _
  · have can := not_stuck_optionName spelled (by decide) named l (w ++ z) marked
    have noOnly : startsIn (.same 'O') (words ++ (name ++ ' ' :: (w ++ z))) = false :=
      startsIn_same_eq_false (by decide) (startsIn_of_spelled (c := 'I') rfl spelled _)
    have stuck : Stuck (keyword "ONLY" ++ gap ++ (qualifiedName ++ gap) : Phrase)
        ⟨l, words ++ (name ++ ' ' :: (w ++ z)), marked⟩ :=
      ((OnlyFrom.keyword (c := 'O') rfl).seq gap).seq _ _ noOnly
    have second : Reads (keywords ["IF", "EXISTS"] ++ gap ++ (qualifiedName ++ gap)) _ u :=
      (h.of_alt_left fun none_ => can (stuck_alt_seq_iff.1 none_).2).of_alt_right stuck
    have whole : u.rest = w ++ z :=
      endsIn_optionName spelled (by decide) (by decide) named solid _ _ u (List.mem_of_head? second)
    exact whole ▸ .refl _

end

/-- After optional words, or without them, the head does not go on with a gap. -/
theorem startsIn_gap_option (allowed : option ∈ headOptions) (spelled : Spelled option words)
    (named : qualifiedName.ReadsText name) (rest : List Char) :
    startsIn .gap (words ++ (name ++ rest)) = false := by
  simp only [headOptions, List.mem_cons, List.not_mem_nil, or_false] at allowed
  rcases allowed with rfl | rfl | rfl
  · cases spelled
    exact startsIn_gap_append (isSolid_name named) (solid_name named).1 rest
  · exact startsIn_gap_of_same (by decide) (startsIn_of_spelled (c := 'O') rfl spelled _)
  · exact startsIn_gap_of_same (by decide) (startsIn_of_spelled (c := 'I') rfl spelled _)

/-- No head goes on with a gap. -/
theorem stuck_optionName {s : Place Operand} (blank : startsIn .gap s.rest = true) :
    Stuck (optionPhrase ++ (qualifiedName ++ gap)) s :=
  stuck_of_gap rfl (by decide) blank

/-- How a head with an action after it is read. -/
theorem AlterHead.afterInert {head : List Char} (h : AlterHead head) (some_ : w ≠ [])
    (letters : ∀ c ∈ w, Text.isWordChar c = true) (other : startsIn (.same 'E') w = false)
    (ends : ∀ c ∈ z.head?, Text.isBlank c = true ∨ c = ';')
    (found : alterTableHeadPhrase.match? (head ++ ' ' :: (w ++ z)) = some m) :
    AfterInert (w ++ z) m.rest := by
  cases h with
  | @mk option start words name allowed starts spelled named =>
  have shape : start ++ (words ++ name) ++ ' ' :: (w ++ z) =
      start ++ (words ++ (name ++ ' ' :: (w ++ z))) := by simp
  rw [match?_eq, shape] at found
  obtain ⟨u, reads, end_⟩ := Reads.of_mark found
  rw [← end_]
  -- The rest of the head is not read before the end of the gap after the words ALTER TABLE.
  obtain ⟨⟨l, rest, marked⟩, ht, reads⟩ := reads.of_assoc.of_assoc.exists_mem
  have solid := startsIn_gap_option allowed spelled named (' ' :: (w ++ z))
  have start : EndsIn (keywords ["ALTER", "TABLE"] ++ gap : Phrase)
      (start ++ (words ++ (name ++ ' ' :: (w ++ z)))) fun rest =>
        rest = words ++ (name ++ ' ' :: (w ++ z)) ∨ startsIn .gap rest = true :=
    starts.endsIn (by decide) (by decide) solid
  rcases start none [] _ ht with rfl | blank
  · exact afterInert_of_reads some_ letters other ends allowed spelled named reads
  · exact absurd (stuck_optionName blank) (not_stuck_of_mem (List.mem_of_head? reads))

end

end Rollback.Sql

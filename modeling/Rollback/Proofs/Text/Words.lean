import Rollback.Text.Ascii
import Rollback.Text.Blank
import Rollback.Text.Casing
import Rollback.Text.Pieces

/-!
# Words and trimmed texts

Characters of words are ASCII, so what is said about them can be checked for the first 128
characters. A text with no blank at its ends is left alone by trimming.

- `decidableForallMem`: what is said of the characters of a text is checked for each of them
- `forall_ascii`: a property of all ASCII characters is checked one by one
- `apply_toLower`: so is that the case of ASCII letters does not matter
- `isBlank_eq_false_of_isWordChar`: words hold no blanks
- `trim_append`: blanks around a trimmed text are cut off
- `flatten_words`: the words of a text hold all of it but the blanks
- `head?_words`: the first word goes up to the first blank
- `pieces_append`: a text is cut at its first separator
- `intercalate_induction`: what holds of texts and their separator holds of the joined texts
- `append_singleton_infix_iff`: where a text with a terminator can be found
-/

set_option autoImplicit false

namespace Rollback.Text

/-! ## Checks -/

section

variable {p : Char → Prop} [DecidablePred p]

-- Before any check that goes through all characters there are.
instance (priority := high) decidableForallMem (s : List Char) : Decidable (∀ c ∈ s, p c) :=
  List.decidableBAll p s

instance (priority := high) decidableForallMemOption (o : Option Char) :
    Decidable (∀ c ∈ o, p c) :=
  decidable_of_iff (∀ c ∈ o.toList, p c)
    (forall_congr' fun _ => imp_congr_left Option.mem_toList)

end

/-! ## ASCII -/

/-- A property of the first 128 characters is one of every ASCII character. -/
theorem forall_ascii {p : Char → Prop} (h : ∀ n < 128, p (Char.ofNat n)) {c : Char}
    (ascii : c.toNat < 128) : p c := by
  rw [← Char.ofNat_toNat c]
  exact h c.toNat ascii

/-- Only ASCII characters belong to words. -/
theorem ascii_of_isWordChar {c : Char} (h : isWordChar c = true) : c.toNat < 128 := by
  have bound : ∀ d : Char, c.val ≤ d.val → d.toNat < 128 → c.toNat < 128 := by
    intro d below ascii
    exact Nat.lt_of_le_of_lt (UInt32.le_iff_toNat_le.1 below) ascii
  have h : (((decide (c.val ≥ 'A'.val ∧ c.val ≤ 'Z'.val) || (c.val ≥ 'a'.val && c.val ≤ 'z'.val)) ||
      (c.val ≥ '0'.val && c.val ≤ '9'.val)) || c == '_') = true := h
  simp only [Bool.or_eq_true, Bool.and_eq_true, decide_eq_true_eq, beq_iff_eq] at h
  rcases h with ((h | h) | h) | h
  · exact bound 'Z' h.2 (by decide)
  · exact bound 'z' h.2 (by decide)
  · exact bound '9' h.2 (by decide)
  · exact h ▸ by decide

/-- Only ASCII letters have another lower case, so what does not tell the cases of a letter apart is
checked for the first 128 characters. -/
theorem apply_toLower {α : Type} (f : Char → α)
    (h : ∀ n < 128, f (Char.ofNat n).toLower = f (Char.ofNat n)) (c : Char) :
    f c.toLower = f c := by
  by_cases upper : c.val ≥ 'A'.val ∧ c.val ≤ 'Z'.val
  · have ascii : c.toNat < 128 :=
      Nat.lt_of_le_of_lt (UInt32.le_iff_toNat_le.1 upper.2) (by decide)
    exact forall_ascii (p := fun c => f c.toLower = f c) h ascii
  · have same : c.toLower = c := dif_neg upper
    rw [same]

theorem isWordChar_toLower (c : Char) : isWordChar c.toLower = isWordChar c :=
  apply_toLower isWordChar (by decide) c

theorem isBlank_eq_false_of_isWordChar {c : Char} (h : isWordChar c = true) :
    isBlank c = false :=
  forall_ascii (p := fun c => isWordChar c = true → isBlank c = false) (by decide)
    (ascii_of_isWordChar h) h

theorem isGap_eq_false_of_isWordChar {c : Char} (h : isWordChar c = true) : isGap c = false :=
  forall_ascii (p := fun c => isWordChar c = true → isGap c = false) (by decide)
    (ascii_of_isWordChar h) h

theorem isBlank_of_isGap {c : Char} (h : isGap c = true) : isBlank c = true := by
  simp only [isGap, Bool.or_eq_true, beq_iff_eq] at h
  rcases h with rfl | h
  · rfl
  · simp only [isBlank, h]
    rfl

/-! ## Trimming -/

section Trimming

variable {α : Type} {p : α → Bool} {xs ys : List α}

/-- What stands at the end and is to be dropped does not matter. -/
theorem dropEndWhile_append_of_all (h : ∀ y ∈ ys, p y = true) :
    dropEndWhile p (xs ++ ys) = dropEndWhile p xs := by
  rw [dropEndWhile, dropEndWhile, List.reverse_append,
    List.dropWhile_append_of_pos fun y hy => h y (List.mem_reverse.1 hy)]

theorem dropEndWhile_eq_self (h : ∀ x ∈ xs.getLast?, p x = false) : dropEndWhile p xs = xs := by
  rw [dropEndWhile]
  rcases List.eq_nil_or_concat xs with rfl | ⟨init, x, rfl⟩
  · rfl
  · have last : p x = false := h x (by simp)
    simp [last]

theorem dropWhile_eq_self (h : ∀ x ∈ xs.head?, p x = false) : xs.dropWhile p = xs := by
  cases xs with
  | nil => rfl
  | cons x xs =>
    have first : p x = false := h x (by simp)
    simp [first]

theorem dropAround_eq_self (first : ∀ x ∈ xs.head?, p x = false)
    (last : ∀ x ∈ xs.getLast?, p x = false) : dropAround p xs = xs := by
  rw [dropAround, dropWhile_eq_self first, dropEndWhile_eq_self last]

/-- What is dropped from the end satisfies the condition. -/
theorem exists_dropEndWhile (p : α → Bool) (xs : List α) :
    ∃ after, xs = dropEndWhile p xs ++ after ∧ ∀ x ∈ after, p x = true := by
  refine ⟨(xs.reverse.takeWhile p).reverse, ?_, fun x mem => ?_⟩
  · rw [dropEndWhile, ← List.reverse_append, List.takeWhile_append_dropWhile, List.reverse_reverse]
  · exact List.all_eq_true.1 List.all_takeWhile x (List.mem_reverse.1 mem)

theorem mem_dropWhile {x : α} (mem : x ∈ xs) (hx : p x = false) : x ∈ xs.dropWhile p := by
  induction xs with
  | nil => exact mem
  | cons y ys ih =>
    rw [List.dropWhile_cons]
    split
    · rename_i dropped
      rcases List.mem_cons.1 mem with rfl | mem
      · exact absurd dropped (by simp [hx])
      · exact ih mem
    · exact mem

theorem mem_dropEndWhile {x : α} (mem : x ∈ xs) (hx : p x = false) : x ∈ dropEndWhile p xs := by
  rw [dropEndWhile, List.mem_reverse]
  exact mem_dropWhile (List.mem_reverse.2 mem) hx

end Trimming

/-- A solid character is not trimmed away. -/
theorem mem_trim {s : List Char} {c : Char} (mem : c ∈ s) (solid : isBlank c = false) :
    c ∈ trim s :=
  mem_dropEndWhile (mem_dropWhile mem solid) solid

/-- A text without blanks at its ends. -/
structure Trimmed (s : List Char) : Prop where
  first : ∀ c ∈ s.head?, isBlank c = false
  last : ∀ c ∈ s.getLast?, isBlank c = false

theorem Trimmed.trim_eq {s : List Char} (h : Trimmed s) : trim s = s := by
  rw [trim, trimStart, dropWhile_eq_self h.first, trimEnd, dropEndWhile_eq_self h.last]

theorem Trimmed.trimEnd_eq {s : List Char} (h : Trimmed s) : trimEnd s = s :=
  dropEndWhile_eq_self h.last

/-- Trimming at the end cuts off blanks. -/
theorem exists_trimEnd (s : List Char) :
    ∃ after, s = trimEnd s ++ after ∧ ∀ c ∈ after, isBlank c = true :=
  exists_dropEndWhile isBlank s

/-- A text is what trimming leaves of it, with blanks before and after. -/
theorem exists_trim (s : List Char) :
    ∃ before after, s = before ++ (trim s ++ after) ∧ (∀ c ∈ before, isBlank c = true) ∧
      ∀ c ∈ after, isBlank c = true := by
  obtain ⟨after, shape, blank⟩ := exists_trimEnd (trimStart s)
  refine ⟨s.takeWhile isBlank, after, ?_, List.all_eq_true.1 List.all_takeWhile, blank⟩
  rw [trim, ← shape, trimStart, List.takeWhile_append_dropWhile]

theorem trimmed_trim (s : List Char) : Trimmed (trim s) where
  first c hc := by
    obtain ⟨after, shape, -⟩ := exists_trimEnd (trimStart s)
    have stop := List.head?_dropWhile_not isBlank s
    have head : (trimStart s).head? = some c := by
      rw [shape, List.head?_append, ← trim, hc]
      rfl
    rw [← trimStart, head] at stop
    exact stop
  last c hc := by
    have stop := List.head?_dropWhile_not isBlank (trimStart s).reverse
    rw [trim, trimEnd, dropEndWhile, List.getLast?_reverse] at hc
    rw [hc] at stop
    exact stop

/-- Blanks around a trimmed text are cut off. -/
theorem Trimmed.trim_append {s before after : List Char} (h : Trimmed s)
    (hb : ∀ c ∈ before, isBlank c = true) (ha : ∀ c ∈ after, isBlank c = true) :
    trim (before ++ s ++ after) = s := by
  rw [trim, trimStart, List.append_assoc, List.dropWhile_append_of_pos hb, trimEnd]
  cases s with
  | nil =>
    rw [List.nil_append, ← List.append_nil after, List.dropWhile_append_of_pos ha]
    rfl
  | cons c s =>
    have first : isBlank c = false := h.first c (by simp)
    rw [List.cons_append, List.dropWhile_cons, if_neg (by simp [first]), ← List.cons_append,
      dropEndWhile_append_of_all ha, dropEndWhile_eq_self h.last]

/-- A space before a trimmed text is cut off. -/
theorem Trimmed.trim_space {s : List Char} (h : Trimmed s) : trim (' ' :: s) = s := by
  have cut : trim ([' '] ++ s ++ []) = s := h.trim_append
    (fun c hc => List.mem_singleton.1 hc ▸ rfl) (fun c hc => nomatch hc)
  rwa [List.append_nil] at cut

/-- Trimming leaves nothing exactly of a text of blanks. -/
theorem isEmpty_trim_iff {s : List Char} :
    (trim s).isEmpty = true ↔ ∀ c ∈ s, isBlank c = true := by
  constructor
  · intro empty c mem
    cases solid : isBlank c with
    | true => rfl
    | false =>
      have kept := mem_trim mem solid
      rw [List.isEmpty_iff.1 empty] at kept
      exact absurd kept List.not_mem_nil
  · intro blank
    obtain ⟨before, after, shape, -, -⟩ := exists_trim s
    cases trimmed : trim s with
    | nil => rfl
    | cons c rest =>
      have solid := (trimmed_trim s).first c (by rw [trimmed]; rfl)
      have mem : c ∈ s := by
        rw [shape, trimmed]
        simp
      exact absurd (blank c mem) (Bool.eq_false_iff.1 solid)

/-- A trimmed text stays at the start of what trimming leaves. -/
theorem Trimmed.trim_append_trimEnd {s : List Char} (h : Trimmed s) (some_ : s ≠ [])
    (more : List Char) : trim (s ++ more) = s ++ trimEnd more := by
  obtain ⟨after, shape, blank⟩ := exists_trimEnd more
  have trimmed : Trimmed (s ++ trimEnd more) := by
    refine ⟨fun c hc => ?_, fun c hc => ?_⟩
    · cases s with
      | nil => exact absurd rfl some_
      | cons d s => exact h.first c hc
    · rw [List.getLast?_append, Option.mem_def, Option.or_eq_some_iff] at hc
      rcases hc with hc | ⟨-, hc⟩
      · have stop := List.head?_dropWhile_not isBlank more.reverse
        rw [trimEnd, dropEndWhile, List.getLast?_reverse] at hc
        rwa [hc] at stop
      · exact h.last c hc
  have cut := trimmed.trim_append (List.forall_mem_nil _) blank
  rwa [List.nil_append, List.append_assoc, ← shape] at cut

theorem Trimmed.nil : Trimmed [] where
  first _ hc := nomatch hc
  last _ hc := nomatch hc

theorem Trimmed.append {a b : List Char} (ha : Trimmed a) (hb : Trimmed b) : Trimmed (a ++ b) where
  first c hc := by
    rw [List.head?_append, Option.mem_def, Option.or_eq_some_iff] at hc
    rcases hc with hc | ⟨-, hc⟩
    · exact ha.first c hc
    · exact hb.first c hc
  last c hc := by
    rw [List.getLast?_append, Option.mem_def, Option.or_eq_some_iff] at hc
    rcases hc with hc | ⟨-, hc⟩
    · exact hb.last c hc
    · exact ha.last c hc

/-- Blanks between texts that are not empty are at neither end. -/
theorem Trimmed.append_between {a b : List Char} (ha : Trimmed a) (between : List Char)
    (hb : Trimmed b) (someA : a ≠ []) (someB : b ≠ []) :
    Trimmed (a ++ (between ++ b)) where
  first c hc := by
    cases a with
    | nil => exact absurd rfl someA
    | cons d a => exact ha.first c hc
  last c hc := by
    rw [← List.append_assoc, List.getLast?_append] at hc
    cases last : b.getLast? with
    | none => exact absurd (List.getLast?_eq_none_iff.1 last) someB
    | some d =>
      rw [last] at hc
      exact hb.last c (last.trans hc)

/-- A text is trimmed if its two ends are solid. -/
theorem trimmed_of_ends {s : List Char} {c d : Char} (first : s.head? = some c)
    (last : s.getLast? = some d) (hc : isBlank c = false) (hd : isBlank d = false) :
    Trimmed s where
  first b hb := by
    rw [first, Option.mem_some_iff] at hb
    exact hb ▸ hc
  last b hb := by
    rw [last, Option.mem_some_iff] at hb
    exact hb ▸ hd

/-- A text has no blanks at its ends if it has none before and none after what stands in between. -/
theorem trimmed_cons_append {c d : Char} {s t : List Char} (hc : isBlank c = false)
    (hd : isBlank d = false) (ends : t.getLast? = some d) : Trimmed (c :: s ++ t) :=
  trimmed_of_ends rfl (by rw [List.getLast?_append, ends]; rfl) hc hd

/-- A text without blanks is trimmed. -/
theorem trimmed_of_solid {s : List Char} (h : ∀ c ∈ s, isBlank c = false) : Trimmed s where
  first c hc := h c (List.mem_of_mem_head? hc)
  last c hc := h c (List.mem_of_getLast? hc)

theorem trimmed_of_word {s : List Char} (h : ∀ c ∈ s, isWordChar c = true) : Trimmed s :=
  trimmed_of_solid fun c hc => isBlank_eq_false_of_isWordChar (h c hc)

/-- Gaps hold gaps only. -/
theorem notMem_of_gap {gaps : List Char} (h : ∀ c ∈ gaps, isGap c = true) {c : Char}
    (solid : isGap c = false) : c ∉ gaps :=
  fun mem => Bool.eq_false_iff.1 solid (h c mem)

/-- The words hold all solid characters in their order, after the word that is read so far. -/
theorem flatten_wordsFrom (s : List Char) :
    ∀ word, (wordsFrom word s).flatten = word.reverse ++ s.filter fun c => !isBlank c := by
  induction s with
  | nil =>
    intro word
    cases word <;> simp [wordsFrom]
  | cons c s ih =>
    intro word
    rw [wordsFrom]
    cases blank : isBlank c with
    | true => cases word <;> simp [ih, blank]
    | false => simp [ih, blank]

/-- The words of a text without what is between them are its characters without the blanks. -/
theorem flatten_words (s : List Char) : (words s).flatten = s.filter fun c => !isBlank c :=
  flatten_wordsFrom s []

/-- A word that is begun goes on up to the next blank. -/
theorem wordsFrom_eq (s : List Char) : ∀ word, word ≠ [] → wordsFrom word s =
    (word.reverse ++ s.takeWhile fun c => !isBlank c) ::
      words (s.dropWhile fun c => !isBlank c) := by
  induction s with
  | nil =>
    intro word some_
    cases word with
    | nil => exact absurd rfl some_
    | cons d word => simp [wordsFrom, words]
  | cons c s ih =>
    intro word some_
    cases blank : isBlank c with
    | true =>
      cases word with
      | nil => exact absurd rfl some_
      | cons d word => simp [wordsFrom, words, blank]
    | false => simp [wordsFrom, blank, ih]

/-- The first word of a text that starts with a word goes up to its first blank. -/
theorem head?_words {c : Char} (s : List Char) (solid : isBlank c = false) :
    (words (c :: s)).head? = some ((c :: s).takeWhile fun c => !isBlank c) := by
  rw [words, wordsFrom, solid, if_neg Bool.false_ne_true,
    wordsFrom_eq s [c] (List.cons_ne_nil c [])]
  simp [solid]

/-! ## Pieces -/

/-- A piece ends at the separator, and the next one starts behind it. -/
theorem piecesFrom_append {separator : Char} {a : List Char} (h : separator ∉ a) :
    ∀ piece b : List Char, piecesFrom separator piece (a ++ separator :: b) =
      (piece.reverse ++ a) :: piecesFrom separator [] b := by
  induction a with
  | nil => intro piece b; simp [piecesFrom]
  | cons c a ih =>
    intro piece b
    rw [List.mem_cons, not_or] at h
    have other : (c == separator) = false := beq_eq_false_iff_ne.2 (Ne.symm h.1)
    rw [List.cons_append, piecesFrom, other, if_neg Bool.false_ne_true, ih h.2]
    simp

/-- A text is cut at its first separator. -/
theorem pieces_append {separator : Char} {a : List Char} (h : separator ∉ a) (b : List Char) :
    pieces separator (a ++ separator :: b) = a :: pieces separator b :=
  piecesFrom_append h [] b

/-- Without a separator, all that is left belongs to one piece. -/
theorem piecesFrom_eq {separator : Char} {a : List Char} (h : separator ∉ a) :
    ∀ piece : List Char, piecesFrom separator piece a = [piece.reverse ++ a] := by
  induction a with
  | nil => intro piece; simp [piecesFrom]
  | cons c a ih =>
    intro piece
    rw [List.mem_cons, not_or] at h
    have other : (c == separator) = false := beq_eq_false_iff_ne.2 (Ne.symm h.1)
    rw [piecesFrom, other, if_neg Bool.false_ne_true, ih h.2]
    simp

/-- A text without the separator is a single piece. -/
theorem pieces_eq_singleton {separator : Char} {a : List Char} (h : separator ∉ a) :
    pieces separator a = [a] :=
  piecesFrom_eq h []

/-- A separator of one character comes before each text but the first. -/
theorem intercalate_cons (separator : Char) (part : List Char) (rest : List (List Char)) :
    [separator].intercalate (part :: rest) = part ++ rest.flatMap (separator :: ·) := by
  induction rest generalizing part with
  | nil => simp
  | cons next rest ih =>
    rw [List.intercalate_cons_cons, ih, List.flatMap_cons]
    simp

/-- The second character of a separator can be counted to the texts after it. -/
theorem intercalate_pair (c d : Char) (part : List Char) (rest : List (List Char)) :
    [c, d].intercalate (part :: rest) = [c].intercalate (part :: rest.map (d :: ·)) := by
  induction rest generalizing part with
  | nil => simp
  | cons next rest ih =>
    rw [List.intercalate_cons_cons, ih, List.map_cons, intercalate_cons, intercalate_cons]
    simp

/-- What holds of some texts and of a separator, and is kept when texts are put together, holds of
the joined texts. -/
theorem intercalate_induction {p : List Char → Prop} {separator : List Char}
    {parts : List (List Char)} (nil : p []) (append : ∀ {a b}, p a → p b → p (a ++ b))
    (hs : p separator) (h : ∀ part ∈ parts, p part) : p (separator.intercalate parts) := by
  induction parts with
  | nil => exact nil
  | cons part rest ih =>
    have others := ih fun q hq => h q (List.mem_cons_of_mem part hq)
    cases rest with
    | nil =>
      rw [List.intercalate_singleton]
      exact h part List.mem_cons_self
    | cons next rest =>
      rw [List.intercalate_cons_cons]
      exact append (append (h part List.mem_cons_self) hs) others

/-- The pieces of a joined list of texts are the texts. -/
theorem pieces_intercalate {separator : Char} {parts : List (List Char)} (nonempty : parts ≠ [])
    (h : ∀ part ∈ parts, separator ∉ part) :
    pieces separator ([separator].intercalate parts) = parts := by
  induction parts with
  | nil => exact absurd rfl nonempty
  | cons part rest ih =>
    cases rest with
    | nil =>
      rw [List.intercalate_singleton]
      exact pieces_eq_singleton (h part List.mem_cons_self)
    | cons next rest =>
      rw [List.intercalate_cons_cons, List.append_assoc, List.singleton_append,
        pieces_append (h part List.mem_cons_self),
        ih (List.cons_ne_nil next rest) fun p hp => h p (List.mem_cons_of_mem _ hp)]

/-- A text is cut at the separator that has none before it. -/
theorem cutAtFirst_append {separator : Char} {a : List Char} (h : separator ∉ a) (b : List Char) :
    cutAtFirst separator (a ++ separator :: b) = some (a, b) := by
  have others : ∀ c ∈ a, (c != separator) = true := fun c hc =>
    bne_iff_ne.2 fun eq => h (eq ▸ hc)
  rw [cutAtFirst, List.dropWhile_append_of_pos others, List.takeWhile_append_of_pos others]
  simp

/-- A text is cut at its last separator. -/
theorem cutAtLast_append {separator : Char} {b : List Char} (h : separator ∉ b) (a : List Char) :
    cutAtLast separator (a ++ separator :: b) = some (a, b) := by
  have first : separator ∉ b.reverse := fun mem => h (List.mem_reverse.1 mem)
  have shape : (a ++ separator :: b).reverse = b.reverse ++ separator :: a.reverse := by simp
  rw [cutAtLast, shape, cutAtFirst_append first]
  show some (a.reverse.reverse, b.reverse.reverse) = some (a, b)
  rw [List.reverse_reverse, List.reverse_reverse]

/-- A text is cut at the first place of a character in one way only. -/
theorem append_cons_inj {c : Char} {a a' b b' : List Char} (h : c ∉ a) (h' : c ∉ a')
    (same : a ++ c :: b = a' ++ c :: b') : a = a' ∧ b = b' := by
  have cut := cutAtFirst_append h b
  rw [same, cutAtFirst_append h' b'] at cut
  obtain ⟨first, second⟩ := Prod.mk.inj (Option.some.inj cut)
  exact ⟨first.symm, second.symm⟩

/-- The characters of joined texts. -/
theorem toList_join (separator : String) (parts : List String) :
    (join separator parts).toList = separator.toList.intercalate (parts.map String.toList) := by
  rw [join, String.toList_intercalate]

/-- Two or more texts with something between them give something. -/
theorem join_ne_empty {separator : String} (some_ : separator ≠ "") {parts : List String}
    (two : 2 ≤ parts.length) : join separator parts ≠ "" := by
  match parts, two with
  | first :: second :: rest, _ =>
    intro empty
    rw [← String.toList_eq_nil_iff, join, String.toList_intercalate, List.map_cons,
      List.map_cons, List.intercalate_cons_cons, List.append_assoc, List.append_eq_nil_iff,
      List.append_eq_nil_iff] at empty
    exact some_ (String.toList_eq_nil_iff.1 empty.2.1)

/-! ## Parts of texts -/

section

variable {c : Char} {u v s t : List Char}

/-- Up to a character that both lack before, a start is the same. -/
theorem append_cons_prefix_iff (hu : c ∉ u) (hv : c ∉ v) :
    u ++ c :: s <+: v ++ c :: t ↔ u = v ∧ s <+: t := by
  induction u generalizing v with
  | nil =>
    cases v with
    | nil => simp
    | cons d v =>
      have other : c ≠ d := fun eq => hv (eq ▸ List.mem_cons_self)
      simp [List.cons_prefix_cons, other]
  | cons a u ih =>
    have other : a ≠ c := fun eq => hu (eq ▸ List.mem_cons_self)
    cases v with
    | nil => simp [List.cons_prefix_cons, other]
    | cons d v =>
      have rest := ih (v := v) (fun mem => hu (List.mem_cons_of_mem a mem))
        fun mem => hv (List.mem_cons_of_mem d mem)
      rw [List.cons_append, List.cons_append, List.cons_prefix_cons, rest, List.cons.injEq,
        and_assoc]

/-- From the last such character on, an end is the same. -/
theorem append_cons_suffix_iff (hs : c ∉ s) (ht : c ∉ t) :
    u ++ c :: s <:+ v ++ c :: t ↔ u <:+ v ∧ s = t := by
  rw [← List.reverse_prefix, List.reverse_append, List.reverse_append, List.reverse_cons,
    List.reverse_cons, List.append_assoc, List.append_assoc, List.singleton_append,
    List.singleton_append, append_cons_prefix_iff (by simpa using hs) (by simpa using ht),
    List.reverse_inj, List.reverse_prefix, and_comm]

/-- A text that ends with such a character stands before the first of them or after it. -/
theorem append_singleton_infix_iff (hu : c ∉ u) (hv : c ∉ v) :
    u ++ [c] <:+: v ++ c :: t ↔ u <:+ v ∨ u ++ [c] <:+: t := by
  induction v with
  | nil =>
    have start := append_cons_prefix_iff (s := []) (t := t) hu hv
    rw [List.nil_append] at start
    rw [List.nil_append, List.infix_cons_iff, start, List.suffix_nil]
    simp
  | cons d v ih =>
    have start := append_cons_prefix_iff (s := []) (t := t) hu hv
    rw [List.cons_append] at start
    rw [List.cons_append, List.infix_cons_iff, start,
      ih fun mem => hv (List.mem_cons_of_mem d mem), List.suffix_cons_iff, or_assoc]
    simp

end

end Rollback.Text

import Rollback.Proofs.Text.Words
import Rollback.Text.Casing

/-!
# Upper case

A text in upper case stays the same in upper case. Characters of ASCII that are no letters are kept
where they stand, and none comes up elsewhere, so what they separate is put into upper case part by
part.

- `bitsOf`: a set of numbers as the bits of a number, for tables that are too long to be compared
- `upperChar_eq_of_mem`: the images of a character are their own images
- `mem_upperChar_iff`: only the character itself becomes a character of ASCII that is no letter
- `upper_upper`: upper case twice
- `mem_upper_iff`: the characters of ASCII in a text that are no letters
-/

set_option autoImplicit false

namespace Rollback.Text

/-! ## Sets of code points -/

/-- The number whose bits are at the listed places. -/
def bitsOf : List Nat → Nat
  | [] => 0
  | n :: rest => 1 <<< n ||| bitsOf rest

theorem testBit_bitsOf {numbers : List Nat} {n : Nat} (mem : n ∈ numbers) :
    (bitsOf numbers).testBit n = true := by
  induction numbers with
  | nil => exact absurd mem List.not_mem_nil
  | cons m rest ih =>
    rw [bitsOf, Nat.testBit_or, Bool.or_eq_true]
    rcases List.mem_cons.1 mem with rfl | mem
    · exact .inl (by simp)
    · exact .inr (ih mem)

/-- Lists whose bits are apart have no number in common. -/
theorem notMem_of_bitsOf {a b : List Nat} (apart : bitsOf a &&& bitsOf b = 0) {n : Nat}
    (mem : n ∈ a) : n ∉ b := by
  intro mem'
  have both : (bitsOf a &&& bitsOf b).testBit n = true := by
    rw [Nat.testBit_and, testBit_bitsOf mem, testBit_bitsOf mem']
    rfl
  rw [apart, Nat.zero_testBit] at both
  exact Bool.false_ne_true both

/-- The code points of a run. -/
def CaseRun.sources (run : CaseRun) : List Nat :=
  (List.range ((run.last - run.first) / run.stride + 1)).map fun k => run.first + k * run.stride

/-- A run of a table maps a number among its sources by its distance. -/
theorem CaseRun.mem_sources {run : CaseRun} {n m : Nat} (h : run.map? n = some m) :
    n ∈ run.sources ∧ m = Int.toNat (n + run.delta) := by
  rw [CaseRun.map?] at h
  split at h
  · rename_i inside
    simp only [Bool.and_eq_true, decide_eq_true_eq, beq_iff_eq] at inside
    obtain ⟨⟨first, last⟩, stride⟩ := inside
    refine ⟨List.mem_map.2 ⟨(n - run.first) / run.stride, List.mem_range.2 ?_, ?_⟩,
      (Option.some.inj h).symm⟩
    · exact Nat.lt_succ_of_le (Nat.div_le_div_right (by omega))
    · rw [Nat.div_mul_cancel (Nat.dvd_of_mod_eq_zero stride)]
      omega
  · cases h

/-- The code points that the tables of upper case change. -/
def upperSources : List Nat :=
  upperRuns.flatMap CaseRun.sources ++ upperExpansions.map Prod.fst

/-- The code points that others become in upper case. -/
def upperImages : List Nat :=
  upperRuns.flatMap (fun run => run.sources.map fun n : Nat => Int.toNat (n + run.delta)) ++
    upperExpansions.flatMap Prod.snd

/-- The upper case of a number is in the table of images, or the number is no source and stays. -/
theorem caseImage_upper_cases (n : Nat) :
    n ∈ upperSources ∧ (∀ m ∈ caseImage upperRuns upperExpansions n, m ∈ upperImages) ∨
      caseImage upperRuns upperExpansions n = [n] := by
  rw [caseImage]
  split
  · rename_i images found
    obtain ⟨before, after, split, -⟩ := List.lookup_eq_some_iff.1 found
    have listed : (n, images) ∈ upperExpansions := by simp [split]
    refine .inl ⟨List.mem_append_right _ (List.mem_map_of_mem listed), fun m mem => ?_⟩
    exact List.mem_append_right _ (List.mem_flatMap.2 ⟨_, listed, mem⟩)
  · cases found : upperRuns.findSome? (·.map? n) with
    | none => exact .inr rfl
    | some m =>
      obtain ⟨run, mem, image⟩ := List.exists_of_findSome?_eq_some found
      obtain ⟨source, rfl⟩ := CaseRun.mem_sources image
      refine .inl ⟨List.mem_append_left _ (List.mem_flatMap.2 ⟨run, mem, source⟩), ?_⟩
      rw [Option.getD_some, List.forall_mem_singleton]
      exact List.mem_append_left _ (List.mem_flatMap.2 ⟨run, mem, List.mem_map_of_mem source⟩)

/-- No code point in upper case is changed by the tables. -/
theorem notMem_upperSources {n : Nat} (h : n ∈ upperImages) : n ∉ upperSources :=
  notMem_of_bitsOf (by decide +kernel) h

/-- The images of the table are numbers of characters. -/
theorem toNat_ofNat_of_mem_upperImages {n : Nat} (h : n ∈ upperImages) :
    (Char.ofNat n).toNat = n := by
  have all : (upperImages.all fun n => decide n.isValidChar) = true := by decide +kernel
  have valid : n.isValidChar := of_decide_eq_true (List.all_eq_true.1 all n h)
  rw [Char.ofNat, dif_pos valid]
  rfl

/-- Code points of ASCII that others become are capital letters. -/
theorem isUpper_of_mem_upperImages {n : Nat} (h : n ∈ upperImages) (ascii : n < 128) :
    (Char.ofNat n).isUpper = true := by
  have all : (upperImages.all fun n => 128 ≤ n || (Char.ofNat n).isUpper) = true := by
    decide +kernel
  have letter := List.all_eq_true.1 all n h
  simpa [Nat.not_le.2 ascii] using letter

/-! ## Images of a character -/

/-- ASCII letters have their own upper case. -/
theorem upperChar_of_ascii {c : Char} (ascii : c.toNat < 128) : upperChar c = [c.toUpper] :=
  if_pos ascii

/-- A character of ASCII that is no small letter is kept. -/
theorem upperChar_of_not_isLower {c : Char} (ascii : c.toNat < 128) (small : c.isLower = false) :
    upperChar c = [c] := by
  have kept : c.isLower = false → [c.toUpper] = [c] :=
    forall_ascii (p := fun c => c.isLower = false → [c.toUpper] = [c]) (by decide) ascii
  rw [upperChar_of_ascii ascii, kept small]

/-- What a character becomes: itself, or code points from the tables. -/
theorem upperChar_cases {c : Char} (foreign : ¬c.toNat < 128) :
    upperChar c = [c] ∨ ∀ d ∈ upperChar c, ∃ n ∈ upperImages, d = Char.ofNat n := by
  rw [upperChar, if_neg foreign]
  rcases caseImage_upper_cases c.toNat with ⟨-, images⟩ | same
  · refine .inr fun d mem => ?_
    obtain ⟨n, hn, rfl⟩ := List.mem_map.1 mem
    exact ⟨n, images n hn, rfl⟩
  · exact .inl (by rw [same, List.map_singleton, Char.ofNat_toNat])

/-- An image is in upper case already. -/
theorem upperChar_ofNat {n : Nat} (h : n ∈ upperImages) :
    upperChar (Char.ofNat n) = [Char.ofNat n] := by
  have code := toNat_ofNat_of_mem_upperImages h
  by_cases ascii : n < 128
  · have capital := isUpper_of_mem_upperImages h ascii
    have small : (Char.ofNat n).isUpper = true → (Char.ofNat n).isLower = false :=
      forall_ascii (p := fun c => c.isUpper = true → c.isLower = false) (by decide)
        (code.symm ▸ ascii)
    exact upperChar_of_not_isLower (code.symm ▸ ascii) (small capital)
  · rw [upperChar, code, if_neg ascii]
    rcases caseImage_upper_cases n with ⟨source, -⟩ | same
    · exact absurd source (notMem_upperSources h)
    · rw [same, List.map_singleton]

/-- The images of a character are their own images. -/
theorem upperChar_eq_of_mem {c d : Char} (h : d ∈ upperChar c) : upperChar d = [d] := by
  by_cases ascii : c.toNat < 128
  · have fixed : ∀ d ∈ upperChar c, upperChar d = [d] :=
      forall_ascii (p := fun c => ∀ d ∈ upperChar c, upperChar d = [d]) (by decide +kernel) ascii
    exact fixed d h
  · rcases upperChar_cases ascii with same | images
    · rw [same, List.mem_singleton] at h
      rw [h, same]
    · obtain ⟨n, image, rfl⟩ := images d h
      exact upperChar_ofNat image

/-- Only the character itself becomes a character of ASCII that is no letter. -/
theorem mem_upperChar_iff {c d : Char} (ascii : d.toNat < 128) (letter : d.isAlpha = false) :
    d ∈ upperChar c ↔ d = c := by
  by_cases here : c.toNat < 128
  · cases small : c.isLower with
    | false => rw [upperChar_of_not_isLower here small, List.mem_singleton]
    | true =>
      have letters : c.isLower = true → c.isAlpha = true ∧ c.toUpper.isAlpha = true :=
        forall_ascii (p := fun c => c.isLower = true → c.isAlpha = true ∧ c.toUpper.isAlpha = true)
          (by decide) here
      obtain ⟨itself, capital⟩ := letters small
      rw [upperChar_of_ascii here, List.mem_singleton]
      constructor
      · rintro rfl
        exact absurd letter (by simp [capital])
      · rintro rfl
        exact absurd letter (by simp [itself])
  · have other : d ≠ c := by
      rintro rfl
      exact here ascii
    refine iff_of_false (fun mem => ?_) other
    rcases upperChar_cases here with same | images
    · rw [same, List.mem_singleton] at mem
      exact other mem
    · obtain ⟨n, image, rfl⟩ := images d mem
      rw [toNat_ofNat_of_mem_upperImages image] at ascii
      have capital := isUpper_of_mem_upperImages image ascii
      have small : (Char.ofNat n).isUpper = false := (Bool.or_eq_false_iff.1 letter).1
      rw [capital] at small
      exact Bool.noConfusion small

/-! ## Texts in upper case -/

theorem upper_cons (c : Char) (s : List Char) : upper (c :: s) = upperChar c ++ upper s := rfl

theorem upper_append (a b : List Char) : upper (a ++ b) = upper a ++ upper b :=
  List.flatMap_append

/-- A text whose characters are all kept is kept. -/
theorem upper_eq_self {s : List Char} (h : ∀ c ∈ s, upperChar c = [c]) : upper s = s := by
  induction s with
  | nil => rfl
  | cons c s ih =>
    obtain ⟨here, later⟩ := List.forall_mem_cons.1 h
    rw [upper_cons, here, ih later]
    rfl

/-- A text in upper case stays the same. -/
theorem upper_upper (s : List Char) : upper (upper s) = upper s := by
  refine upper_eq_self fun d mem => ?_
  obtain ⟨c, -, image⟩ := List.mem_flatMap.1 mem
  exact upperChar_eq_of_mem image

/-- A character of ASCII that is no letter stands in a text in both cases. -/
theorem mem_upper_iff {d : Char} (ascii : d.toNat < 128) (letter : d.isAlpha = false)
    {s : List Char} : d ∈ upper s ↔ d ∈ s := by
  rw [upper, List.mem_flatMap]
  simp only [mem_upperChar_iff ascii letter]
  exact ⟨fun ⟨c, mem, same⟩ => same ▸ mem, fun mem => ⟨d, mem, rfl⟩⟩

theorem upper_of_gap {gaps : List Char} (h : ∀ c ∈ gaps, isGap c = true) : upper gaps = gaps := by
  refine upper_eq_self fun c hc => ?_
  have gap := h c hc
  have ascii : c.toNat < 128 := by
    simp only [isGap, Bool.or_eq_true, Bool.and_eq_true, decide_eq_true_eq, beq_iff_eq] at gap
    rcases gap with rfl | ⟨-, below⟩
    · decide
    · omega
  have small :=
    forall_ascii (p := fun c => isGap c = true → c.isLower = false) (by decide) ascii gap
  exact upperChar_of_not_isLower ascii small

/-- ASCII lower case does not matter to upper case. -/
theorem upper_asciiLower (s : List Char) : upper (asciiLower s) = upper s := by
  have same : ∀ c : Char, upperChar c.toLower = upperChar c := apply_toLower upperChar (by decide)
  rw [upper, asciiLower, List.flatMap_map, upper]
  simp only [same]

/-- Texts that differ in the case of ASCII letters have one upper case. -/
theorem upper_eq_of_eqIgnoringCase {a b : List Char} (h : eqIgnoringCase a b = true) :
    upper b = upper a := by
  rw [← upper_asciiLower b, ← upper_asciiLower a, eq_of_beq h]

end Rollback.Text

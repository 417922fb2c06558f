import Rollback.Json.Decoding
import Rollback.Json.Printer
import Rollback.Proofs.Text.Digits

/-!
# Printed scalars

Texts and integers are read from documents as they were printed, whatever follows them. A text may
hold any characters: those that cannot stand in quotes are written with escapes.

- `readText_quoted`: a text in quotes
- `EndsNumber`: what may follow a number
- `readNumber_integer`: an integer
- `natural?_integerText`, `number?_integerText`: the integer that its text stands for
-/

set_option autoImplicit false

namespace Rollback.Json

open Text (EndsDigits isDigit_of_mem_toDigits)

/-! ## Texts -/

variable {c d : Char}

/-- A character with a short escape is read from it. -/
theorem readUnits_shortEscape (h : shortEscape? d = some c) (s : List Char) :
    readUnits ('\\' :: d :: s) = (readUnits s).map fun (units, rest) =>
      (.char c :: units, rest) := by
  have other : d ≠ 'u' := by
    rintro rfl
    have none_ : shortEscape? 'u' = none := by decide
    rw [none_] at h
    cases h
  rw [readUnits.eq_def]
  split
  · rename_i eq
    cases eq
  · rename_i eq
    exact absurd (List.cons.inj (List.cons.inj eq).2).1 other
  · rename_i eq
    obtain ⟨rfl, rfl⟩ := List.cons.inj (List.cons.inj eq).2
    rw [h]
    cases readUnits s <;> rfl
  · rename_i notShort eq
    exact absurd (List.cons.inj eq).1 (by grind)

/-- The digits of an escape stand for the character with that number. -/
theorem hexDigit?_digitChar : ∀ n < 16, hexDigit? (Nat.digitChar n) = some n := by
  decide

theorem unitOf_of_lt {n : Nat} (h : n < 0xD800) : unitOf n = .char (Char.ofNat n) := by
  rw [unitOf, if_neg, if_neg]
  · simp only [Bool.and_eq_true, decide_eq_true_eq]
    omega
  · simp only [Bool.and_eq_true, decide_eq_true_eq]
    omega

/-- A control character is read from the number that it is written with. -/
theorem readUnits_longEscape (h : c.toNat < 0x20) (s : List Char) :
    readUnits ('\\' :: 'u' :: '0' :: '0' :: Nat.digitChar (c.toNat / 16) ::
        Nat.digitChar (c.toNat % 16) :: s) =
      (readUnits s).map fun (units, rest) => (.char c :: units, rest) := by
  have zero : hexDigit? '0' = some 0 := by decide
  have first := hexDigit?_digitChar (c.toNat / 16) (by omega)
  have second := hexDigit?_digitChar (c.toNat % 16) (by omega)
  have value : 0 * 4096 + 0 * 256 + c.toNat / 16 * 16 + c.toNat % 16 = c.toNat := by omega
  have unit : unitOf c.toNat = .char c := by
    rw [unitOf_of_lt (by omega), Char.ofNat_toNat]
  rw [readUnits, zero, first, second]
  simp only [Option.bind_eq_bind, Option.bind_some, value, unit]
  cases readUnits s <;> rfl

theorem readUnits_plain (notQuote : c ≠ '\x22') (notBackslash : c ≠ '\\') (above : ¬c.toNat < 0x20)
    (s : List Char) :
    readUnits (c :: s) = (readUnits s).map fun (units, rest) => (.char c :: units, rest) := by
  rw [readUnits.eq_def]
  split
  · rename_i eq
    cases eq
  · rename_i eq
    exact absurd (List.cons.inj eq).1 notBackslash
  · rename_i eq
    exact absurd (List.cons.inj eq).1 notBackslash
  · rename_i eq
    obtain ⟨rfl, rfl⟩ := List.cons.inj eq
    rw [if_neg (by simpa using notQuote), if_neg above]
    cases readUnits s <;> rfl

/-- A character is read from what is printed for it. -/
theorem readUnits_escapeChar (c : Char) (s : List Char) :
    readUnits (escapeChar c ++ s) =
      (readUnits s).map fun (units, rest) => (.char c :: units, rest) := by
  have short : ∀ {d e : Char}, (d == e) = true → ∀ {f : Char}, shortEscape? f = some e →
      readUnits (['\\', f] ++ s) =
        (readUnits s).map fun (units, rest) => (.char d :: units, rest) := by
    intro d e same f escape
    rw [beq_iff_eq.1 same]
    exact readUnits_shortEscape escape s
  unfold escapeChar
  split
  · exact short ‹_› (by decide)
  rename_i notQuote
  split
  · exact short ‹_› (by decide)
  rename_i notBackslash
  split
  · exact short ‹_› (by decide)
  split
  · exact short ‹_› (by decide)
  split
  · exact short ‹_› (by decide)
  split
  · exact short ‹_› (by decide)
  split
  · exact short ‹_› (by decide)
  split
  · exact readUnits_longEscape ‹_› s
  · exact readUnits_plain (by simpa using notQuote) (by simpa using notBackslash) ‹_› s

/-- A text is read from what is printed for it, up to the quote at its end. -/
theorem readUnits_escaped (chars rest : List Char) :
    readUnits (chars.flatMap escapeChar ++ '\x22' :: rest) = some (chars.map .char, rest) := by
  induction chars with
  | nil => rfl
  | cons c chars ih =>
    rw [List.flatMap_cons, List.append_assoc, readUnits_escapeChar, ih]
    rfl

theorem joinUnits_map_char (chars : List Char) : joinUnits (chars.map .char) = some chars := by
  induction chars with
  | nil => rfl
  | cons c chars ih => rw [List.map_cons, joinUnits, ih, Option.map_some]

/-- A text is read from what stands between its quotes. -/
theorem readText_quoted (s : String) (rest : List Char) :
    readText (s.toList.flatMap escapeChar ++ '\x22' :: rest) = some (some s, rest) := by
  rw [readText, readUnits_escaped]
  simp only [Option.bind_eq_bind, Option.bind_some, joinUnits_map_char, Option.map_some,
    String.ofList_toList]
  rfl

theorem toList_quoted (s : String) :
    (quoted s).toList = '\x22' :: (s.toList.flatMap escapeChar ++ ['\x22']) := by
  rw [quoted, String.toList_ofList, List.cons_append]

/-! ## Numbers -/

/-- The value of a digit. -/
def digitValue (c : Char) : Nat :=
  c.toNat - '0'.toNat

/-- A number is the same by the values of its digits. -/
theorem ofDigits_map_digitValue (chars : List Char) :
    ofDigits (chars.map digitValue) = Nat.ofDigitChars 10 chars 0 := by
  rw [ofDigits, List.foldl_map, Nat.ofDigitChars_eq_foldl]
  rfl

/-- Digits are read up to where they end. -/
theorem readDigits_append {digits rest : List Char} (inside : ∀ c ∈ digits, c.isDigit = true)
    (ends : EndsDigits rest) :
    readDigits (digits ++ rest) = (digits.map digitValue, rest) := by
  rw [readDigits, Text.takeWhile_isDigit_append inside ends,
    Text.dropWhile_isDigit_append inside ends]
  rfl

/-- A number has at least one digit, and no zero stands before others. -/
theorem toDigits_shape : ∀ n : Nat, ∃ c more, Nat.toDigits 10 n = c :: more ∧
    (digitValue c = 0 → more = [] ∧ n = 0) := by
  intro n
  induction n using Nat.strongRecOn with
  | ind n ih =>
    rcases Nat.lt_or_ge n 10 with small | large
    · refine ⟨_, [], Nat.toDigits_of_lt_base small, fun zero => ⟨rfl, ?_⟩⟩
      rwa [digitValue, show '0'.toNat = 48 from rfl,
        Nat.toNat_digitChar_sub_48_of_lt_ten small] at zero
    · obtain ⟨c, more, digits, first⟩ := ih (n / 10) (by omega)
      refine ⟨c, more ++ [(n % 10).digitChar], ?_, fun zero => ?_⟩
      · rw [Nat.toDigits_of_base_le (by decide) large, digits, List.cons_append]
      · have none_ := (first zero).2
        omega

/-- What may follow a number: no digit, point or exponent. -/
structure EndsNumber (rest : List Char) : Prop where
  digits : EndsDigits rest
  others : ∀ c ∈ rest.head?, c ≠ '.' ∧ c ≠ 'e' ∧ c ≠ 'E'

theorem EndsNumber.readFraction {rest : List Char} (h : EndsNumber rest) :
    readFraction rest = some (none, rest) := by
  unfold Json.readFraction
  split
  · exact absurd rfl (h.others '.' rfl).1
  · rfl

theorem EndsNumber.readExponent {rest : List Char} (h : EndsNumber rest) :
    readExponent rest = some (none, rest) := by
  unfold Json.readExponent
  split
  · rename_i c rest
    have others := h.others c rfl
    rw [if_neg (by simp [others])]
  · rfl

/-- The text of an integer as it is read. -/
def integerText (n : Int) : NumberText :=
  ⟨decide (n < 0), (Nat.toDigits 10 n.natAbs).map digitValue, none, none⟩

/-- What is read of a number after its sign. -/
def readUnsigned (negative : Bool) (s : List Char) : Option (NumberText × List Char) := do
  let (whole, s) := readDigits s
  match whole with
  | [] => none
  | 0 :: _ :: _ => none
  | _ =>
    let (fraction, s) ← readFraction s
    let (exponent, s) ← readExponent s
    return (⟨negative, whole, fraction, exponent⟩, s)

theorem readNumber_minus (s : List Char) : readNumber ('-' :: s) = readUnsigned true s := rfl

theorem readNumber_of_ne {c : Char} (noSign : c ≠ '-') (s : List Char) :
    readNumber (c :: s) = readUnsigned false (c :: s) := by
  unfold readNumber
  split
  rename_i eq
  split at eq
  · rename_i minus
    exact absurd (List.cons.inj minus).1 noSign
  · obtain ⟨rfl, rfl⟩ := Prod.mk.inj eq
    rfl

/-- The digits of a number are read up to its end. -/
theorem readUnsigned_toDigits (negative : Bool) (n : Nat) {rest : List Char}
    (ends : EndsNumber rest) :
    readUnsigned negative (Nat.toDigits 10 n ++ rest) =
      some (⟨negative, (Nat.toDigits 10 n).map digitValue, none, none⟩, rest) := by
  have digits := readDigits_append (fun c => isDigit_of_mem_toDigits (n := n)) ends.digits
  obtain ⟨c, more, shape, zero⟩ := toDigits_shape n
  rw [readUnsigned, digits, shape, List.map_cons]
  rcases Nat.eq_zero_or_eq_succ_pred (digitValue c) with first | first
  · obtain ⟨rfl, -⟩ := zero first
    simp only [first, ends.readFraction, ends.readExponent, Option.bind_eq_bind, Option.bind_some]
    rfl
  · rw [first]
    simp only [ends.readFraction, ends.readExponent, Option.bind_eq_bind, Option.bind_some]
    rfl

/-- An integer is read from what is printed for it. -/
theorem readNumber_integer (i : Int) {rest : List Char} (ends : EndsNumber rest) :
    readNumber ((toString i).toList ++ rest) = some (integerText i, rest) := by
  cases i with
  | ofNat n =>
    have text : (toString (Int.ofNat n)).toList = Nat.toDigits 10 n := Nat.toList_repr
    obtain ⟨c, more, shape, -⟩ := toDigits_shape n
    have noSign : c ≠ '-' := by
      rintro rfl
      exact absurd (isDigit_of_mem_toDigits (shape ▸ List.mem_cons_self)) (by decide)
    have unsigned := readUnsigned_toDigits false n ends
    rw [shape, List.cons_append, ← readNumber_of_ne noSign, ← List.cons_append, ← shape] at unsigned
    rw [text, unsigned]
    rfl
  | negSucc n =>
    have text : (toString (Int.negSucc n)).toList = '-' :: Nat.toDigits 10 (n + 1) := by
      show ("-" ++ Nat.repr (n + 1)).toList = _
      rw [String.toList_append, Nat.toList_repr]
      rfl
    rw [text, List.cons_append, readNumber_minus, readUnsigned_toDigits true (n + 1) ends,
      integerText, decide_eq_true (Int.negSucc_lt_zero n)]
    rfl

/-! ## Values of numbers -/

theorem ofDigits_toDigits (n : Nat) : ofDigits ((Nat.toDigits 10 n).map digitValue) = n := by
  rw [ofDigits_map_digitValue, Nat.ofDigitChars_ten_toDigits]

/-- A natural number up to a bound is what its text stands for. -/
theorem natural?_integerText {n bound : Nat} (h : n ≤ bound) :
    (Node.number (integerText n)).natural? bound = some n := by
  have value : ofDigits (integerText n).whole = n := ofDigits_toDigits n
  have sign : (integerText n).negative = false :=
    decide_eq_false (Int.not_lt.2 (Int.natCast_nonneg n))
  have text : integerText n = ⟨false, (integerText n).whole, none, none⟩ := by
    rw [← sign]
    rfl
  rw [text, Node.natural?]
  simp only [value, h, if_true]

/-- The integers that a value can hold: those of 64 bits, with or without a sign. -/
def IsWord (i : Int) : Prop :=
  -0x8000000000000000 ≤ i ∧ i ≤ maxWord

instance (i : Int) : Decidable (IsWord i) :=
  inferInstanceAs (Decidable (_ ∧ _))

/-- An integer of 64 bits is what its text stands for. -/
theorem number?_integerText {i : Int} (h : IsWord i) :
    (integerText i).number? = some (.integer i) := by
  have value : ofDigits (integerText i).whole = i.natAbs := ofDigits_toDigits _
  obtain ⟨below, above⟩ := h
  have bound : (maxWord : Int) = 0xFFFFFFFFFFFFFFFF := rfl
  rw [NumberText.number?, value]
  show (if decide (i < 0) = true then _ else _) = _
  by_cases negative : i < 0
  · rw [if_pos (by simpa using negative), if_pos]
    · have abs : (-(i.natAbs : Int)) = i := by omega
      rw [abs]
    · simp only [bne_iff_ne, ne_eq, Bool.and_eq_true, decide_eq_true_eq]
      omega
  · rw [if_neg (by simpa using negative), if_pos]
    · have abs : ((i.natAbs : Nat) : Int) = i := by omega
      rw [abs]
    · show i.natAbs ≤ 0xFFFFFFFFFFFFFFFF
      omega

end Rollback.Json

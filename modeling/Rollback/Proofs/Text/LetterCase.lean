import Rollback.Proofs.Text.Words
import Rollback.Sql.Name
import Rollback.Text.Bytes

/-!
# ASCII letter case of texts

Putting the ASCII letters of a text in lower case can be done before or after cutting the text, as
long as what is looked for in it is no letter. Full lower case does not see the difference at all.

- `toLower_beq`: a character that is no letter is found in both cases of a text
- `trim_asciiLower`, `words_asciiLower`, `pieces_asciiLower`: texts are cut at the same places
- `lower_asciiLower`: full lower case of a text in ASCII lower case
- `ObjectName.key_asciiLower`: names that differ in the case of ASCII letters have one key
-/

set_option autoImplicit false

namespace Rollback

namespace Text

/-! ## Characters -/

/-- Lower case is final. -/
theorem toLower_toLower (c : Char) : c.toLower.toLower = c.toLower :=
  apply_toLower Char.toLower (by decide) c

theorem isAlpha_toLower (c : Char) : c.toLower.isAlpha = c.isAlpha :=
  apply_toLower Char.isAlpha (by decide) c

/-- Only letters are changed. -/
theorem toLower_of_isAlpha_eq_false {c : Char} (h : c.isAlpha = false) : c.toLower = c := by
  refine dif_neg fun upper => ?_
  have capital : c.isUpper = true := decide_eq_true upper
  have letter : c.isAlpha = true := by
    show (c.isUpper || c.isLower) = true
    rw [capital, Bool.true_or]
  rw [h] at letter
  exact absurd letter (by decide)

/-- A character that is no letter is found whatever the case of the letters is. -/
theorem toLower_beq {d : Char} (h : d.isAlpha = false) (c : Char) :
    (c.toLower == d) = (c == d) := by
  cases letter : c.isAlpha with
  | false => rw [toLower_of_isAlpha_eq_false letter]
  | true =>
    have other : ∀ {e : Char}, e.isAlpha = true → (e == d) = false := fun {e} he =>
      beq_eq_false_iff_ne.2 fun same => by
        rw [same, h] at he
        exact absurd he (by decide)
    rw [other letter, other ((isAlpha_toLower c).trans letter)]

/-- No letter is a blank, so lower case neither makes nor removes one. -/
theorem isBlank_toLower (c : Char) : isBlank c.toLower = isBlank c :=
  apply_toLower isBlank (by decide) c

theorem isGap_toLower (c : Char) : isGap c.toLower = isGap c :=
  apply_toLower isGap (by decide) c

/-- No letter is a quote, so quotes stay where they are. -/
theorem isNameQuote_toLower (c : Char) : isNameQuote c.toLower = isNameQuote c :=
  apply_toLower isNameQuote (by decide) c

/-! ## Texts -/

@[simp] theorem asciiLower_nil : asciiLower [] = [] := rfl

@[simp] theorem asciiLower_cons (c : Char) (s : List Char) :
    asciiLower (c :: s) = c.toLower :: asciiLower s := rfl

/-- Two texts can be put in lower case one by one. -/
theorem asciiLower_append (s t : List Char) :
    asciiLower (s ++ t) = asciiLower s ++ asciiLower t :=
  List.map_append

theorem asciiLower_reverse (s : List Char) : asciiLower s.reverse = (asciiLower s).reverse :=
  List.map_reverse

@[simp] theorem isEmpty_asciiLower (s : List Char) : (asciiLower s).isEmpty = s.isEmpty :=
  List.isEmpty_map

@[simp] theorem length_asciiLower (s : List Char) : (asciiLower s).length = s.length :=
  List.length_map _

/-- A text in lower case stays as it is. -/
@[simp] theorem asciiLower_asciiLower (s : List Char) :
    asciiLower (asciiLower s) = asciiLower s := by
  rw [asciiLower, asciiLower, List.map_map]
  exact List.map_congr_left fun c _ => toLower_toLower c

/-- A comparison without case does not see lower case. -/
@[simp] theorem eqIgnoringCase_asciiLower (s t : List Char) :
    eqIgnoringCase s (asciiLower t) = eqIgnoringCase s t := by
  rw [eqIgnoringCase, eqIgnoringCase, asciiLower_asciiLower]

/-- A comparison without case does not depend on the order of the texts. -/
theorem eqIgnoringCase_comm (s t : List Char) : eqIgnoringCase s t = eqIgnoringCase t s :=
  Bool.eq_iff_iff.2 (by rw [eqIgnoringCase, eqIgnoringCase, beq_iff_eq, beq_iff_eq, eq_comm])

/-- Whether a word is listed does not depend on its case. -/
@[simp] theorem isOneOf_asciiLower (listed : List String) (word : List Char) :
    isOneOf listed (asciiLower word) = isOneOf listed word := by
  simp only [isOneOf, eqIgnoringCase_asciiLower]

section Cuts

variable {p : Char → Bool} (hp : ∀ c : Char, p c.toLower = p c) (s : List Char)

include hp

/-- A text is cut at the same place in lower case, if what is looked for is no matter of case. -/
theorem dropWhile_asciiLower : (asciiLower s).dropWhile p = asciiLower (s.dropWhile p) := by
  rw [asciiLower, List.dropWhile_map, funext hp (f := p ∘ Char.toLower)]
  rfl

theorem takeWhile_asciiLower : (asciiLower s).takeWhile p = asciiLower (s.takeWhile p) := by
  rw [asciiLower, List.takeWhile_map, funext hp (f := p ∘ Char.toLower)]
  rfl

theorem dropEndWhile_asciiLower :
    dropEndWhile p (asciiLower s) = asciiLower (dropEndWhile p s) := by
  rw [dropEndWhile, ← asciiLower_reverse, dropWhile_asciiLower hp, ← asciiLower_reverse,
    dropEndWhile]

theorem dropAround_asciiLower : dropAround p (asciiLower s) = asciiLower (dropAround p s) := by
  rw [dropAround, dropWhile_asciiLower hp, dropEndWhile_asciiLower hp, dropAround]

/-- What holds of all characters holds of them in lower case. -/
theorem all_asciiLower : (asciiLower s).all p = s.all p := by
  rw [asciiLower, List.all_map, funext hp (f := p ∘ Char.toLower)]

end Cuts

@[simp] theorem trimEnd_asciiLower (s : List Char) :
    trimEnd (asciiLower s) = asciiLower (trimEnd s) :=
  dropEndWhile_asciiLower isBlank_toLower s

@[simp] theorem trim_asciiLower (s : List Char) : trim (asciiLower s) = asciiLower (trim s) := by
  rw [trim, trimStart, dropWhile_asciiLower isBlank_toLower, trimEnd_asciiLower, trim, trimStart]

@[simp] theorem unquote_asciiLower (s : List Char) :
    unquote (asciiLower s) = asciiLower (unquote s) := by
  rw [unquote, trim_asciiLower, dropAround_asciiLower isNameQuote_toLower, unquote]

/-- The step of `words_asciiLower`, with the word that is read so far. -/
theorem wordsFrom_asciiLower (s : List Char) : ∀ word : List Char,
    wordsFrom (asciiLower word) (asciiLower s) = (wordsFrom word s).map asciiLower := by
  induction s with
  | nil =>
    intro word
    simp only [asciiLower_nil, wordsFrom, isEmpty_asciiLower]
    split
    · rfl
    · rw [List.map_singleton, asciiLower_reverse]
  | cons c s ih =>
    intro word
    simp only [asciiLower_cons, wordsFrom, isBlank_toLower, isEmpty_asciiLower]
    split
    · split
      · exact ih []
      · rw [List.map_cons, asciiLower_reverse, ← ih []]
        rfl
    · exact ih (c :: word)

@[simp] theorem words_asciiLower (s : List Char) :
    words (asciiLower s) = (words s).map asciiLower :=
  wordsFrom_asciiLower s []

section Separators

variable {separator : Char} (letter : separator.isAlpha = false)

include letter

/-- The step of `pieces_asciiLower`, with the piece that is read so far. -/
theorem piecesFrom_asciiLower (s : List Char) : ∀ piece : List Char,
    piecesFrom separator (asciiLower piece) (asciiLower s) =
      (piecesFrom separator piece s).map asciiLower := by
  induction s with
  | nil =>
    intro piece
    rw [asciiLower_nil, piecesFrom, piecesFrom, List.map_singleton, asciiLower_reverse]
  | cons c s ih =>
    intro piece
    simp only [asciiLower_cons, piecesFrom, toLower_beq letter]
    split
    · rw [List.map_cons, asciiLower_reverse, ← ih []]
      rfl
    · exact ih (c :: piece)

/-- A text is cut into the same pieces at a separator that is no letter. -/
theorem pieces_asciiLower (s : List Char) :
    pieces separator (asciiLower s) = (pieces separator s).map asciiLower :=
  piecesFrom_asciiLower letter s []

/-- A separator that is no letter stands first at the same place. -/
theorem cutAtFirst_asciiLower (s : List Char) :
    cutAtFirst separator (asciiLower s) =
      (cutAtFirst separator s).map fun e => (asciiLower e.1, asciiLower e.2) := by
  have other : ∀ c : Char, (c.toLower != separator) = (c != separator) := fun c =>
    congrArg (!·) (toLower_beq letter c)
  rw [cutAtFirst, dropWhile_asciiLower other, takeWhile_asciiLower other, cutAtFirst]
  cases s.dropWhile (· != separator) <;> rfl

theorem cutAtLast_asciiLower (s : List Char) :
    cutAtLast separator (asciiLower s) =
      (cutAtLast separator s).map fun e => (asciiLower e.1, asciiLower e.2) := by
  rw [cutAtLast, ← asciiLower_reverse, cutAtFirst_asciiLower letter, cutAtLast]
  cases cutAtFirst separator s.reverse with
  | none => rfl
  | some e =>
    obtain ⟨after, before⟩ := e
    simp only [Option.map_some, asciiLower_reverse]

end Separators

@[simp] theorem byteSize_asciiLower (s : List Char) : byteSize (asciiLower s) = byteSize s := by
  have same : ∀ c : Char, c.toLower.utf8Size = c.utf8Size := apply_toLower Char.utf8Size (by decide)
  induction s with
  | nil => rfl
  | cons c s ih =>
    show c.toLower.utf8Size + byteSize (asciiLower s) = c.utf8Size + byteSize s
    rw [same, ih]

/-- What starts a text in lower case starts the text itself in some case. -/
theorem exists_of_asciiLower_eq_append {s a b : List Char} (h : asciiLower s = a ++ b) :
    ∃ a' b', s = a' ++ b' ∧ asciiLower a' = a ∧ asciiLower b' = b :=
  List.map_eq_append_iff.1 h

/-- A character that is no letter stands in both texts. -/
theorem exists_of_asciiLower_eq_cons {c : Char} (letter : c.isAlpha = false) {s rest : List Char}
    (h : asciiLower s = c :: rest) : ∃ rest', s = c :: rest' ∧ asciiLower rest' = rest := by
  obtain ⟨d, rest', rfl, lower, tail⟩ := List.map_eq_cons_iff.1 h
  have same : (d == c) = true := by rw [← toLower_beq letter, lower, beq_self_eq_true]
  exact ⟨rest', by rw [eq_of_beq same], tail⟩

/-! ## Full lower case -/

/-- A letter and its ASCII lower case have one full lower case. -/
theorem lowerChar_toLower (c : Char) : lowerChar c.toLower = lowerChar c :=
  apply_toLower lowerChar (by decide) c

theorem isCased_toLower (c : Char) : isCased c.toLower = isCased c :=
  apply_toLower isCased (by decide) c

/-- A character that is passed over in the search for a cased one is so in both cases. -/
theorem isCaseIgnorable_toLower (c : Char) : isCaseIgnorable c.toLower = isCaseIgnorable c :=
  apply_toLower isCaseIgnorable (by decide) c

/-- Whether the next cased character belongs to a word does not depend on its case. -/
theorem startsCased_asciiLower (s : List Char) : startsCased (asciiLower s) = startsCased s := by
  rw [startsCased, dropWhile_asciiLower isCaseIgnorable_toLower, startsCased]
  cases s.dropWhile isCaseIgnorable with
  | nil => rfl
  | cons c rest => exact isCased_toLower c

/-- The step of `lower_asciiLower`. The characters before matter for a sigma at the end of a word,
but their case does not. -/
theorem lowerFrom_asciiLower (s : List Char) : ∀ before : List Char,
    lowerFrom (asciiLower before) (asciiLower s) = lowerFrom before s := by
  induction s with
  | nil => exact fun _ => rfl
  | cons c s ih =>
    intro before
    -- A sigma is no ASCII letter, and its neighbours are cased in both texts or in none.
    simp only [asciiLower_cons, lowerFrom, toLower_beq (d := 'Σ') (by decide),
      startsCased_asciiLower, lowerChar_toLower]
    rw [← asciiLower_cons, ih]

/-- Full lower case does not depend on the case of ASCII letters. -/
theorem lower_asciiLower (s : List Char) : lower (asciiLower s) = lower s :=
  lowerFrom_asciiLower s []

end Text

end Rollback

namespace String

open Rollback

/-- The text with its ASCII letters in lower case. -/
def asciiLower (s : String) : String :=
  String.ofList (Text.asciiLower s.toList)

@[simp] theorem toList_asciiLower (s : String) :
    s.asciiLower.toList = Text.asciiLower s.toList :=
  String.toList_ofList

theorem ofList_asciiLower (s : List Char) :
    String.ofList (Text.asciiLower s) = (String.ofList s).asciiLower := by
  rw [asciiLower, String.toList_ofList]

/-- Two texts can be put in lower case one by one. -/
theorem asciiLower_append (s t : String) : (s ++ t).asciiLower = s.asciiLower ++ t.asciiLower := by
  rw [asciiLower, String.toList_append, Text.asciiLower_append, String.ofList_append, asciiLower,
    asciiLower]

theorem lowerCase_asciiLower (s : String) : s.asciiLower.lowerCase = s.lowerCase := by
  rw [lowerCase, toList_asciiLower, Text.lower_asciiLower, lowerCase]

end String

namespace Rollback.ObjectName

/-- The name with its ASCII letters in lower case. -/
def asciiLower (n : ObjectName) : ObjectName :=
  ⟨n.schema.map String.asciiLower, n.name.asciiLower⟩

/-- Names that differ in the case of ASCII letters stand for the same object. -/
theorem key_asciiLower (n : ObjectName) : n.asciiLower.key = n.key := by
  obtain ⟨schema, name⟩ := n
  cases schema with
  | none => exact String.lowerCase_asciiLower name
  | some schema =>
    simp only [asciiLower, key, Option.map_some, String.lowerCase_asciiLower]

theorem ofParts_map_asciiLower : ∀ parts : List String,
    ofParts (parts.map String.asciiLower) = (ofParts parts).asciiLower
  | [] => rfl
  | [_] => rfl
  | [_, _] => rfl
  | _ :: second :: third :: rest => ofParts_map_asciiLower (second :: third :: rest)

theorem ofChars_asciiLower (raw : List Char) :
    ofChars (Text.asciiLower raw) = (ofChars raw).asciiLower := by
  have part (piece : List Char) : String.ofList (Text.unquote (Text.asciiLower piece)) =
      (String.ofList (Text.unquote piece)).asciiLower := by
    rw [Text.unquote_asciiLower, String.ofList_asciiLower]
  rw [ofChars, Text.pieces_asciiLower (by decide), List.map_map, ofChars, ← ofParts_map_asciiLower,
    List.map_map]
  exact congrArg ofParts (List.map_congr_left fun piece _ => part piece)

end Rollback.ObjectName

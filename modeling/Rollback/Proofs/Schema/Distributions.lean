import Rollback.Proofs.Text.LetterCase
import Rollback.Schema.Distribution

/-!
# Texts of distributions

The columns of a distribution are found in a text in lower case and cut out of the text as it was
written. ASCII lower case keeps the number of bytes of each character, so the place is the same in
both texts, and the columns keep their letter case.

- `ListedName`: names that can stand in a list of columns as they are
- `columnList_eq`: the names in a list are those that it was made of
- `Distribution.Named`: what a text says and the distribution that it stands for
- `Distribution.ofText_spec`: which texts stand for a distribution, and for which one
-/

set_option autoImplicit false

namespace Rollback

/-! ## Lists of columns -/

/-- A name that can stand in a list of columns as it is. -/
structure ListedName (name : String) : Prop where
  nonempty : name.toList ≠ []
  plain : ∀ c ∈ name.toList, c ≠ ',' ∧ Text.isNameQuote c = false
  trimmed : Text.Trimmed name.toList

instance (name : String) : Decidable (ListedName name) :=
  decidable_of_iff
    (name.toList ≠ [] ∧ (∀ c ∈ name.toList, c ≠ ',' ∧ Text.isNameQuote c = false) ∧
      (∀ c ∈ name.toList.head?, Text.isBlank c = false) ∧
      ∀ c ∈ name.toList.getLast?, Text.isBlank c = false)
    ⟨fun ⟨nonempty, plain, first, last⟩ => ⟨nonempty, plain, ⟨first, last⟩⟩,
      fun ⟨nonempty, plain, first, last⟩ => ⟨nonempty, plain, first, last⟩⟩

namespace ListedName

variable {name : String}

theorem notMem_comma (h : ListedName name) : ',' ∉ name.toList :=
  fun mem => (h.plain ',' mem).1 rfl

theorem unquote_eq (h : ListedName name) : Text.unquote name.toList = name.toList := by
  rw [Text.unquote, h.trimmed.trim_eq]
  exact Text.dropAround_eq_self (fun c hc => (h.plain c (List.mem_of_mem_head? hc)).2)
    fun c hc => (h.plain c (List.mem_of_getLast? hc)).2

end ListedName

/-- Names between commas are taken as they are. -/
theorem columnList_eq {columns : List String} (names : ∀ c ∈ columns, ListedName c) :
    columnList ([',', ' '].intercalate (columns.map String.toList)) = columns := by
  cases columns with
  | nil => rfl
  | cons first rest =>
    have pieces : Text.pieces ',' ([',', ' '].intercalate ((first :: rest).map String.toList)) =
        first.toList :: (rest.map String.toList).map (' ' :: ·) := by
      rw [List.map_cons, Text.intercalate_pair]
      refine Text.pieces_intercalate (List.cons_ne_nil _ _) fun part hp => ?_
      rcases List.mem_cons.1 hp with rfl | hp
      · exact (names first List.mem_cons_self).notMem_comma
      · obtain ⟨text, ht, rfl⟩ := List.mem_map.1 hp
        obtain ⟨name, mem, rfl⟩ := List.mem_map.1 ht
        rw [List.mem_cons, not_or]
        exact ⟨by decide, (names name (List.mem_cons_of_mem first mem)).notMem_comma⟩
    have space : ∀ text, Text.unquote (' ' :: text) = Text.unquote text := fun _ => rfl
    have bare : ((first.toList :: (rest.map String.toList).map (' ' :: ·)).map Text.unquote) =
        (first :: rest).map String.toList := by
      rw [List.map_cons, (names first List.mem_cons_self).unquote_eq, List.map_cons, List.map_map,
        List.map_map]
      refine congrArg (first.toList :: ·) (List.map_congr_left fun name mem => ?_)
      rw [Function.comp_apply, Function.comp_apply, space,
        (names name (List.mem_cons_of_mem first mem)).unquote_eq]
    have all : ((first :: rest).map String.toList).filter (fun name => !name.isEmpty) =
        (first :: rest).map String.toList := by
      refine List.filter_eq_self.2 fun text ht => ?_
      obtain ⟨name, mem, rfl⟩ := List.mem_map.1 ht
      have nonempty := (names name mem).nonempty
      cases chars : name.toList with
      | nil => exact absurd chars nonempty
      | cons c more => rfl
    rw [columnList, pieces, bare, all, List.map_map, String.ofList_comp_toList, List.map_id]

/-! ## Places in two letter cases -/

namespace Distribution

variable {text list found : List Char}

/-- The word `hash` in any ASCII case, blanks, and a list in parentheses. -/
def IsHash (text list : List Char) : Prop :=
  ∃ word gap, text = word ++ (gap ++ '(' :: (list ++ [')'])) ∧
    Text.eqIgnoringCase ['h', 'a', 's', 'h'] word = true ∧ ∀ c ∈ gap, Text.isBlank c = true

/-- The shape of a text in lower case with a list after the word `hash`. -/
theorem lowerOperands?_eq_some_iff {lower : List Char} :
    lowerOperands? lower = some found ↔
      ∃ gap, lower = ['h', 'a', 's', 'h'] ++ (gap ++ '(' :: (found ++ [')'])) ∧
        ∀ c ∈ gap, Text.isBlank c = true := by
  constructor
  · intro read
    rw [lowerOperands?.eq_def] at read
    split at read
    · rename_i rest
      split at read
      · rename_i inside opened
        split at read
        · rename_i closed
          obtain ⟨list, rfl⟩ := List.getLast?_eq_some_iff.1 (beq_iff_eq.1 closed)
          rw [List.dropLast_concat, Option.some.injEq] at read
          refine ⟨rest.takeWhile Text.isBlank, ?_, List.all_eq_true.1 List.all_takeWhile⟩
          rw [← read, ← opened, Text.trimStart, List.takeWhile_append_dropWhile]
          rfl
        · cases read
      · cases read
    · cases read
  · rintro ⟨gap, rfl, blank⟩
    have trimmed : Text.trimStart (gap ++ '(' :: (found ++ [')'])) = '(' :: (found ++ [')']) := by
      rw [Text.trimStart, List.dropWhile_append_of_pos blank]
      rfl
    simp [lowerOperands?, trimmed]

/-- A text with a list after the word `hash` has one in lower case, too. -/
theorem IsHash.lowerOperands?_eq (h : IsHash text list) :
    lowerOperands? (Text.asciiLower text) = some (Text.asciiLower list) := by
  obtain ⟨word, gap, rfl, same, blank⟩ := h
  have lower : Text.asciiLower word = ['h', 'a', 's', 'h'] := (eq_of_beq same).symm
  refine lowerOperands?_eq_some_iff.2 ⟨Text.asciiLower gap, ?_, fun c mem => ?_⟩
  · simp only [Text.asciiLower_append, Text.asciiLower_cons, lower]
    rfl
  · obtain ⟨d, hd, rfl⟩ := List.mem_map.1 mem
    exact (Text.isBlank_toLower d).trans (blank d hd)

/-- What is found in lower case stands in the text itself. -/
theorem exists_isHash (h : lowerOperands? (Text.asciiLower text) = some found) :
    ∃ list, IsHash text list ∧ Text.asciiLower list = found := by
  obtain ⟨gap, shape, blank⟩ := lowerOperands?_eq_some_iff.1 h
  obtain ⟨word, afterWord, rfl, same, rest⟩ := Text.exists_of_asciiLower_eq_append shape
  obtain ⟨gap', afterGap, rfl, lowerGap, rest⟩ := Text.exists_of_asciiLower_eq_append rest
  obtain ⟨inside, rfl, opened⟩ := Text.exists_of_asciiLower_eq_cons rfl rest
  obtain ⟨list, afterList, rfl, lower, closing⟩ := Text.exists_of_asciiLower_eq_append opened
  obtain ⟨last, rfl, end_⟩ := Text.exists_of_asciiLower_eq_cons rfl closing
  obtain rfl := List.map_eq_nil_iff.1 end_
  refine ⟨list, ⟨word, gap', rfl, beq_iff_eq.2 ?_, fun c mem => ?_⟩, lower⟩
  · rw [same]
    rfl
  · rw [← Text.isBlank_toLower]
    exact blank _ (lowerGap ▸ List.mem_map_of_mem mem)

/-- The list can be cut out of the text: it has as many bytes as in lower case, and one byte comes
after it. -/
theorem IsHash.slice?_eq (h : IsHash text list) :
    Text.byteSize list + 1 ≤ Text.byteSize text ∧
      Text.slice? text (Text.byteSize text - Text.byteSize list - 1) (Text.byteSize text - 1) =
        some list := by
  obtain ⟨word, gap, rfl, -, -⟩ := h
  have size : Text.byteSize (word ++ (gap ++ '(' :: (list ++ [')']))) =
      Text.byteSize (word ++ (gap ++ ['('])) + Text.byteSize list + 1 := by
    have close : Char.utf8Size ')' = 1 := rfl
    simp only [Text.byteSize_append, Text.byteSize_cons, Text.byteSize_nil, close]
    omega
  refine ⟨by omega, Text.slice?_eq_some_iff.2 ⟨word ++ (gap ++ ['(']), [')'], by simp, ?_, ?_⟩⟩
  · omega
  · omega

theorem hashOperands?_eq_some_iff : hashOperands? text = some list ↔ IsHash text list := by
  rw [hashOperands?]
  simp only [Option.bind_eq_bind, Option.bind_eq_some_iff]
  constructor
  · rintro ⟨found, read, cut⟩
    obtain ⟨list', hash, rfl⟩ := exists_isHash read
    rw [Text.byteSize_asciiLower, hash.slice?_eq.2] at cut
    exact Option.some.inj cut ▸ hash
  · intro hash
    refine ⟨_, hash.lowerOperands?_eq, ?_⟩
    rw [Text.byteSize_asciiLower]
    exact hash.slice?_eq.2

/-! ## Texts that are read -/

/-- What a text says, in any ASCII case, and the distribution that it stands for. -/
inductive Named : List Char → Distribution → Prop
  | inTurn {text : List Char} (word : Text.isOneOf ["roundrobin", "round_robin"] text = true) :
      Named text .inTurn
  | atRandom {text : List Char} (word : Text.isOneOf ["random", "randomly"] text = true) :
      Named text .atRandom
  | byHash {text list : List Char} (hash : IsHash text list) (some_ : columnList list ≠ []) :
      Named text (.byHash (columnList list))

/-- Words without a parenthesis are no list after the word `hash`. -/
theorem IsHash.isOneOf_eq_false (h : IsHash text list) {words : List String}
    (letters : (words.all fun w => !(Text.asciiLower w.toList).contains '(') = true) :
    Text.isOneOf words text = false := by
  obtain ⟨word, gap, rfl, -, -⟩ := h
  refine Bool.eq_false_iff.2 fun listed => ?_
  obtain ⟨w, mem, same⟩ := List.any_eq_true.1 listed
  have other := List.all_eq_true.1 letters w mem
  rw [eq_of_beq same] at other
  simp [Text.asciiLower_append] at other

theorem ofText?_eq_some_iff {text : String} {d : Distribution} :
    ofText? text = some d ↔ Named (Text.trim text.toList) d := by
  rw [ofText?]
  generalize Text.trim text.toList = trimmed
  dsimp only
  constructor
  · intro read
    split at read
    · rename_i word
      exact Option.some.inj read ▸ .inTurn word
    · split at read
      · rename_i word
        exact Option.some.inj read ▸ .atRandom word
      · split at read
        · cases read
        · rename_i some_
          cases operands : hashOperands? trimmed with
          | none =>
            rw [operands] at some_
            exact absurd rfl some_
          | some list =>
            rw [operands] at read some_
            refine Option.some.inj read ▸ .byHash (hashOperands?_eq_some_iff.1 operands) ?_
            exact fun empty => some_ (List.isEmpty_iff.2 empty)
  · intro named
    cases named with
    | inTurn word => rw [if_pos word]
    | atRandom word =>
      have other : Text.isOneOf ["roundrobin", "round_robin"] trimmed = false := by
        refine Bool.eq_false_iff.2 fun listed => ?_
        obtain ⟨w, mem, same⟩ := List.any_eq_true.1 word
        obtain ⟨v, mem', same'⟩ := List.any_eq_true.1 listed
        have both : Text.asciiLower w.toList = Text.asciiLower v.toList :=
          (eq_of_beq same).trans (eq_of_beq same').symm
        have apart : ∀ w ∈ ["random", "randomly"], ∀ v ∈ ["roundrobin", "round_robin"],
            Text.asciiLower w.toList ≠ Text.asciiLower v.toList := by decide
        exact apart w mem v mem' both
      rw [other, if_neg Bool.false_ne_true, if_pos word]
    | byHash hash some_ =>
      rw [hash.isOneOf_eq_false (by decide), hash.isOneOf_eq_false (by decide),
        hashOperands?_eq_some_iff.2 hash]
      exact if_neg fun empty => some_ (List.isEmpty_iff.1 empty)

theorem ofText_eq_ok_iff {text : String} {d : Distribution} :
    ofText text = .ok d ↔ Named (Text.trim text.toList) d := by
  rw [← ofText?_eq_some_iff, ofText]
  cases ofText? text <;> simp

theorem ofText_eq_error_iff {text : String} {failure : Failure} :
    ofText text = .error failure ↔
      failure = .invalidDistribution text ∧ ∀ d, ¬Named (Text.trim text.toList) d := by
  simp only [← ofText?_eq_some_iff, ofText]
  cases ofText? text <;> simp [eq_comm]

/-- A list of names is read as it was written. -/
theorem ofText_join {columns : List String} (nonempty : columns ≠ [])
    (names : ∀ c ∈ columns, ListedName c) :
    ofText ("hash(" ++ Text.join ", " columns ++ ")") = .ok (.byHash columns) := by
  have list := columnList_eq names
  have text : ("hash(" ++ Text.join ", " columns ++ ")").toList =
      ['h', 'a', 's', 'h'] ++
        ([] ++ '(' :: ([',', ' '].intercalate (columns.map String.toList) ++ [')'])) := by
    rw [Text.join, String.toList_append, String.toList_append, String.toList_intercalate]
    rfl
  have trimmed : Text.Trimmed ("hash(" ++ Text.join ", " columns ++ ")").toList :=
    Text.trimmed_of_ends (c := 'h') (d := ')') (by rw [text]; rfl)
      (by rw [text]; simp [List.getLast?_cons]) rfl rfl
  have hash : IsHash ("hash(" ++ Text.join ", " columns ++ ")").toList
      ([',', ' '].intercalate (columns.map String.toList)) :=
    ⟨['h', 'a', 's', 'h'], [], text, rfl, List.forall_mem_nil _⟩
  rw [ofText_eq_ok_iff, trimmed.trim_eq]
  have named := Named.byHash hash (by rwa [list])
  rwa [list] at named

/--
The operands are always cut out within the text and between characters, and they are what is found
in lower case but for the letter case. A text stands for a distribution exactly if its trimmed form
names it, and every other text is a failure of the configuration. A list of names comes back as it
was written.
-/
theorem ofText_spec :
    (∀ text found, lowerOperands? (Text.asciiLower (Text.trim text)) = some found →
      let size := Text.byteSize (Text.trim text)
      Text.byteSize found + 1 ≤ size ∧
        ∃ list,
          Text.slice? (Text.trim text) (size - Text.byteSize found - 1) (size - 1) = some list ∧
          Text.asciiLower list = found) ∧
    (∀ text d, ofText text = .ok d ↔ Named (Text.trim text.toList) d) ∧
    (∀ text failure, ofText text = .error failure ↔
      failure = .invalidDistribution text ∧ ∀ d, ¬Named (Text.trim text.toList) d) ∧
    ∀ columns : List String, columns ≠ [] → (∀ c ∈ columns, ListedName c) →
      ofText ("hash(" ++ Text.join ", " columns ++ ")") = .ok (.byHash columns) := by
  refine ⟨fun text found read => ?_, fun _ _ => ofText_eq_ok_iff, fun _ _ => ofText_eq_error_iff,
    fun _ => ofText_join⟩
  obtain ⟨list, hash, rfl⟩ := exists_isHash read
  rw [Text.byteSize_asciiLower]
  exact ⟨hash.slice?_eq.1, list, hash.slice?_eq.2, rfl⟩

/-- A text with letters of more than one byte, blanks and quotes, and a list that is written and
read again. -/
theorem ofText_spec_mixedCase :
    (lowerOperands? (Text.asciiLower (Text.trim " HaSH (GRÖßE, \x22Id\x22) ".toList)) =
        some "grÖße, \x22id\x22".toList ∧
      (Text.slice? (Text.trim " HaSH (GRÖßE, \x22Id\x22) ".toList) 6 19).isSome ∧
      ofText " HaSH (GRÖßE, \x22Id\x22) " = .ok (.byHash ["GRÖßE", "Id"])) ∧
    ListedName "Größe (x)" ∧
      ofText ("hash(" ++ Text.join ", " ["Id", "Größe (x)"] ++ ")") =
        .ok (.byHash ["Id", "Größe (x)"]) := by
  have found : lowerOperands? (Text.asciiLower (Text.trim " HaSH (GRÖßE, \x22Id\x22) ".toList)) =
      some "grÖße, \x22id\x22".toList := by decide
  obtain ⟨-, list, cut, -⟩ := ofText_spec.1 " HaSH (GRÖßE, \x22Id\x22) ".toList _ found
  have hash : IsHash (Text.trim " HaSH (GRÖßE, \x22Id\x22) ".toList) "GRÖßE, \x22Id\x22".toList :=
    ⟨"HaSH".toList, [' '], by decide, by decide, by decide⟩
  have names : ∀ c ∈ ["Id", "Größe (x)"], ListedName c := by decide
  refine ⟨⟨found, ?_, (ofText_spec.2.1 _ _).2 (.byHash hash (by decide))⟩,
    names "Größe (x)" (by decide), ofText_spec.2.2.2 _ (by decide) names⟩
  exact Option.isSome_of_eq_some cut

end Distribution

end Rollback

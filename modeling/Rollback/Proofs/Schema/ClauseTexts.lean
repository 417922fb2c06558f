import Rollback.Proofs.Pattern.Searches
import Rollback.Proofs.Sql.PlainNames
import Rollback.Proofs.Sql.Scripts
import Rollback.Schema.Declaration

/-!
# Texts of clauses

The clauses after the body of a CREATE TABLE statement hold plain names between separators, and
words of their own. A search for a word passes all of them but the clause with that word: neither a
name of an option, nor a column, nor a group of nodes goes on in the way in which a clause does.

- `storagePart`, `distributionPart`, `placementPart`: the clauses as they are written
- `SkipsNames`: a search that passes lists of names
- `passes_storage`, `passes_distribution`, `passes_placement`: a search passes other clauses
-/

set_option autoImplicit false

namespace Rollback

open Pattern

/-! ## Clauses -/

/-- Options with their values, as they stand between the parentheses of a clause. -/
def optionsText (options : List (String × String)) : List Char :=
  [',', ' '].intercalate (options.map fun o => o.1.toList ++ ([' ', '=', ' '] ++ o.2.toList))

/-- A clause of storage options. -/
def storageText (options : List (String × String)) : List Char :=
  "WITH".toList ++ ' ' :: '(' :: (optionsText options ++ [')'])

/-- Storage options that are read from a clause over plain names. -/
inductive StorageOptions.Plain : StorageOptions → Prop where
  | options {options : List (String × String)}
      (names : ∀ o ∈ options, PlainName o.1 ∧ PlainName o.2) :
      Plain (StorageOptions.ofClause (storageText options) (optionsText options))

/-- A distribution with nothing but plain names of columns, at least one for a hash. -/
inductive Distribution.Plain : Distribution → Prop where
  | byHash {columns : List String} (nonempty : columns ≠ [])
      (names : ∀ c ∈ columns, PlainName c) : Plain (Distribution.byHash columns)
  | inTurn : Plain Distribution.inTurn
  | atRandom : Plain Distribution.atRandom

/-- A clause of storage options on the line that closes the body. -/
def storagePart : Option StorageOptions → List Char
  | none => []
  | some storage => ' ' :: storage.raw.toList

/-- A distribution clause on a line of its own. -/
def distributionPart (d : Option Distribution) : List Char :=
  match d.bind Distribution.clause? with
  | none => []
  | some clause => '\n' :: clause.toList

/-- The clause for a group of nodes on a line of its own. -/
def placementPart : Option String → List Char
  | none => []
  | some group => '\n' :: ("TO GROUP \x22".toList ++ (group.toList ++ ['\x22']))

namespace Sql

/-! ## Lists of names -/

/-- Characters that follow names in clauses and end them. -/
def barrier : CharSet := .oneOf ['=', ',', ')', '\x22']

/-- There are four characters that a clause can end a name with. -/
theorem mem_barriers {c : Char} (h : barrier.contains c = true) : c ∈ ['=', ',', ')', '\x22'] := by
  simpa [barrier, CharSet.contains] using h

theorem isWordChar_eq_false_of_barrier {c : Char} (h : barrier.contains c = true) :
    Text.isWordChar c = false := by
  have all : (['=', ',', ')', '\x22'].all fun c => !Text.isWordChar c) = true := rfl
  simpa using List.all_eq_true.1 all c (mem_barriers h)

/-- A barrier ends a word, with gaps before it or not. -/
theorem startsIn_word_of_barrier {b : List Char}
    (h : startsIn barrier (b.dropWhile Text.isGap) = true) : startsIn .word b = false := by
  cases b with
  | nil => rfl
  | cons c b =>
    rw [startsIn_cons]
    refine Bool.eq_false_iff.2 fun word => ?_
    have word : Text.isWordChar c = true := word
    rw [List.dropWhile_cons, Text.isGap_eq_false_of_isWordChar word, if_neg Bool.false_ne_true,
      startsIn_cons] at h
    rw [isWordChar_eq_false_of_barrier h] at word
    exact absurd word (by decide)

/-- A search for a word that finds nothing in lists of names, because none of the characters that
have to come after the word is a barrier. -/
structure SkipsNames (p : Phrase) (word : String) (next : CharSet) : Prop
    extends LedBy p word next where
  barriers : (['=', ',', ')', '\x22'].all fun c => !next.contains c) = true

/-- Words that a search for a word does not find. -/
def OtherWords (word : String) (words : List String) : Prop :=
  (words.all fun w => w.toList.all Text.isWordChar &&
    !Text.eqIgnoringCase word.toList w.toList) = true

theorem OtherWords.mono {word : String} {words others : List String} (h : OtherWords word words)
    (subset : others ⊆ words) : OtherWords word others :=
  List.all_eq_true.2 fun w hw => List.all_eq_true.1 h w (subset hw)

section SkipsNames

variable {p : Phrase} {word : String} {next : CharSet} {l : Option Char} {a b : List Char}

/-- A search passes over what is no word. -/
theorem SkipsNames.separators (skip : SkipsNames p word next)
    (all : (a.all fun c => !Text.isWordChar c) = true) : Passes p l a b := by
  refine skip.passes_separators fun c hc => ?_
  simpa using List.all_eq_true.1 all c hc

/-- A search passes over a name before a barrier, whatever word it is. -/
theorem SkipsNames.name (skip : SkipsNames p word next) {name : String} (plain : PlainName name)
    (bar : startsIn barrier (b.dropWhile Text.isGap) = true) : Passes p l name.toList b := by
  refine skip.passes_word (skip.other plain.word (startsIn_word_of_barrier bar) fun _ => ?_)
    plain.word
  -- Even if the name is the word, what has to follow the word does not.
  cases rest : b.dropWhile Text.isGap with
  | nil => rfl
  | cons c more =>
    rw [rest] at bar
    simpa using List.all_eq_true.1 skip.barriers c (mem_barriers bar)

/-- A search passes a word that is not the one that it is for. -/
theorem SkipsNames.otherWord (skip : SkipsNames p word next) {words : List String}
    (others : OtherWords word words) {w : String} (mem : w ∈ words)
    (hb : startsIn .word b = false) : Passes p l w.toList b := by
  have other := List.all_eq_true.1 others w mem
  simp only [Bool.and_eq_true, List.all_eq_true, Bool.not_eq_true'] at other
  refine skip.passes_word (skip.other other.1 hb fun same => ?_) other.1
  rw [other.2] at same
  exact absurd same (by decide)

/-- A search passes words if none of them is the one that it is for. -/
theorem SkipsNames.words (skip : SkipsNames p word next) {words : List String}
    (others : OtherWords word words) (hb : startsIn .word b = false) :
    Passes p l ([' '].intercalate (words.map String.toList)) b := by
  induction words generalizing l with
  | nil => exact .nil
  | cons w rest ih =>
    have first := fun b => skip.otherWord others (l := l) (b := b) List.mem_cons_self
    have further := ih (others.mono (List.subset_cons_self w rest)) (l := some ' ')
    rw [List.map_cons]
    cases rest with
    | nil =>
      rw [List.map_nil, List.intercalate_singleton]
      exact first b hb
    | cons v rest =>
      rw [List.map_cons, List.intercalate_cons_cons, List.append_assoc]
      exact (first _ rfl).append ((skip.separators rfl).append further)

/-- A search passes a list if it passes each part before a comma or a parenthesis. -/
theorem SkipsNames.listing (skip : SkipsNames p word next) {parts : List (List Char)}
    (h : ∀ part ∈ parts, ∀ l b, startsIn barrier (b.dropWhile Text.isGap) = true →
      Passes p l part b) : Passes p l ([',', ' '].intercalate parts ++ [')']) b := by
  induction parts generalizing l with
  | nil => exact skip.separators rfl
  | cons part rest ih =>
    have first := h part List.mem_cons_self
    have others := fun q hq => h q (List.mem_cons_of_mem part hq)
    cases rest with
    | nil =>
      rw [List.intercalate_singleton]
      exact (first l _ rfl).append (skip.separators rfl)
    | cons next rest =>
      rw [List.intercalate_cons_cons, List.append_assoc, List.append_assoc]
      exact (first l _ rfl).append ((skip.separators rfl).append (ih others))

theorem SkipsNames.columns (skip : SkipsNames p word next) {columns : List String}
    (names : ∀ c ∈ columns, PlainName c) :
    Passes p l ([',', ' '].intercalate (columns.map String.toList) ++ [')']) b := by
  refine skip.listing fun part hp l b bar => ?_
  obtain ⟨name, mem, rfl⟩ := List.mem_map.1 hp
  exact skip.name (names name mem) bar

theorem SkipsNames.options (skip : SkipsNames p word next) {options : List (String × String)}
    (names : ∀ o ∈ options, PlainName o.1 ∧ PlainName o.2) :
    Passes p l (optionsText options ++ [')']) b := by
  refine skip.listing fun part hp l b bar => ?_
  obtain ⟨option, mem, rfl⟩ := List.mem_map.1 hp
  obtain ⟨key, value⟩ := names option mem
  exact (skip.name key rfl).append
    ((skip.separators rfl).append (skip.name value bar))

end SkipsNames

/-! ## Searches through clauses -/

section Parts

variable {p : Phrase} {word : String} {next : CharSet} {l : Option Char} {b : List Char}

theorem raw_ofClause (options : List (String × String)) :
    (StorageOptions.ofClause (storageText options) (optionsText options)).raw.toList =
      storageText options := by
  have last : (storageText options).getLast? = some ')' := by
    have shape : storageText options =
        ("WITH".toList ++ ' ' :: '(' :: optionsText options) ++ [')'] := by
      rw [storageText, List.append_assoc]
      rfl
    exact shape ▸ List.getLast?_concat
  have trimmed : Text.Trimmed (storageText options) :=
    Text.trimmed_of_ends rfl (d := ')') last (by decide) (by decide)
  show (String.ofList (Text.trim (storageText options))).toList = storageText options
  rw [trimmed.trim_eq, String.toList_ofList]

/-- A search for other words passes over the storage clause. -/
theorem SkipsNames.passes_storage (skip : SkipsNames p word next)
    (others : OtherWords word ["WITH"])
    {s : Option StorageOptions} (plain : ∀ t ∈ s, t.Plain) : Passes p l (storagePart s) b := by
  cases s with
  | none => exact .nil
  | some storage =>
    obtain @⟨options, names⟩ := plain storage rfl
    have text : storagePart (some (.ofClause (storageText options)
        (optionsText options))) = [' '] ++ (([' '].intercalate (["WITH"].map String.toList)) ++
          ([' ', '('] ++ (optionsText options ++ [')']))) := by
      rw [storagePart, raw_ofClause]
      rfl
    rw [text]
    exact (skip.separators rfl).append ((skip.words others rfl).append
      ((skip.separators rfl).append (skip.options names)))

/-- The words of a line are passed if they are others than the one searched for. -/
theorem SkipsNames.line (skip : SkipsNames p word next) {words : List String}
    (others : OtherWords word words) (hb : startsIn .word b = false) :
    Passes p l ('\n' :: [' '].intercalate (words.map String.toList)) b :=
  (skip.separators (a := ['\n']) rfl).append (skip.words others hb)

/-- The first word of a line may be the one searched for, if nothing can be read there. -/
theorem SkipsNames.line_of_stuck (skip : SkipsNames p word next) {first second : String}
    {words : List String} (letters : (first.toList.all Text.isWordChar) = true)
    (stuck : Stuck p
      ⟨some '\n', [' '].intercalate ((first :: second :: words).map String.toList) ++ b, []⟩)
    (others : OtherWords word (second :: words)) (hb : startsIn .word b = false) :
    Passes p l ('\n' :: [' '].intercalate ((first :: second :: words).map String.toList)) b := by
  have text : [' '].intercalate ((first :: second :: words).map String.toList) =
      first.toList ++ ([' '] ++ [' '].intercalate ((second :: words).map String.toList)) := by
    rw [List.map_cons, List.map_cons, List.intercalate_cons_cons, List.append_assoc]
  rw [text] at stuck ⊢
  rw [List.append_assoc] at stuck
  exact (skip.separators (a := ['\n']) rfl).append
    ((skip.passes_word stuck (List.all_eq_true.1 letters)).append
      ((skip.separators rfl).append (skip.words others hb)))

/-- A search for other words passes over the placement clause. -/
theorem SkipsNames.passes_placement (skip : SkipsNames p word next)
    (others : OtherWords word ["TO", "GROUP"])
    {g : Option String} (plain : ∀ n ∈ g, PlainName n) :
    Passes p l (placementPart g ++ [';']) b := by
  cases g with
  | none => exact skip.separators rfl
  | some group =>
    have text : placementPart (some group) ++ [';'] =
        '\n' :: [' '].intercalate (["TO", "GROUP"].map String.toList) ++
          ([' ', '\x22'] ++ (group.toList ++ ['\x22', ';'])) := by
      simp [placementPart, List.intercalate_cons_cons]
    rw [text]
    exact (skip.line others rfl).append ((skip.separators rfl).append
      ((skip.name (plain group rfl) rfl).append (skip.separators rfl)))

/-- The words of all distribution clauses. -/
def distributionWords : List String :=
  ["DISTRIBUTE", "BY", "HASH", "ROUNDROBIN", "DISTRIBUTED", "RANDOMLY"]

theorem distributionPart_byHash {columns : List String} (nonempty : columns ≠ []) :
    distributionPart (some (.byHash columns)) =
      '\n' :: [' '].intercalate (["DISTRIBUTE", "BY", "HASH"].map String.toList) ++
        ('(' :: ([',', ' '].intercalate (columns.map String.toList) ++ [')'])) := by
  have some_ : columns.isEmpty = false := by
    cases columns with
    | nil => exact absurd rfl nonempty
    | cons c columns => rfl
  have clause : (Distribution.byHash columns).clause? =
      some ("DISTRIBUTE BY HASH(" ++ Text.join ", " columns ++ ")") := by
    show (if columns.isEmpty then none else _) = _
    rw [some_]
    rfl
  rw [distributionPart, Option.bind_some, clause, Text.join]
  simp only [String.toList_append, String.toList_intercalate]
  rfl

theorem distributionPart_inTurn : distributionPart (some .inTurn) =
    '\n' :: [' '].intercalate (["DISTRIBUTE", "BY", "ROUNDROBIN"].map String.toList) := rfl

theorem distributionPart_atRandom : distributionPart (some .atRandom) =
    '\n' :: [' '].intercalate (["DISTRIBUTED", "RANDOMLY"].map String.toList) := rfl

/-- A search for other words passes over the distribution clause. -/
theorem SkipsNames.passes_distribution (skip : SkipsNames p word next)
    (others : OtherWords word distributionWords)
    {d : Option Distribution} (plain : ∀ e ∈ d, e.Plain) (hb : startsIn .word b = false) :
    Passes p l (distributionPart d) b := by
  cases d with
  | none => exact .nil
  | some e =>
    cases plain e rfl with
    | byHash nonempty names =>
      rw [distributionPart_byHash nonempty]
      exact (skip.line (others.mono (by decide)) rfl).append
        ((skip.separators (a := ['(']) rfl).append (skip.columns names))
    | inTurn =>
      rw [distributionPart_inTurn]
      exact skip.line (others.mono (by decide)) hb
    | atRandom =>
      rw [distributionPart_atRandom]
      exact skip.line (others.mono (by decide)) hb

end Parts

/-! ## Clauses as parts of a statement -/

theorem isBody_listing {parts : List (List Char)} (h : ∀ part ∈ parts, IsBody part) :
    IsBody ([',', ' '].intercalate parts) :=
  Text.intercalate_induction (isBody_of_isQuiet rfl (by decide)) .append
    (isBody_of_isQuiet rfl (by decide)) h

theorem isBody_storagePart {s : Option StorageOptions} (plain : ∀ t ∈ s, t.Plain) :
    IsBody (storagePart s) := by
  cases s with
  | none => exact isBody_of_isQuiet rfl (by decide)
  | some storage =>
    obtain @⟨options, names⟩ := plain storage rfl
    have equals : IsBody [' ', '=', ' '] := isBody_of_isQuiet rfl (by decide)
    have inside : IsBody (optionsText options) := by
      refine isBody_listing fun part hp => ?_
      obtain ⟨option, mem, rfl⟩ := List.mem_map.1 hp
      obtain ⟨key, value⟩ := names option mem
      exact (isBody_of_word key.word).append (equals.append (isBody_of_word value.word))
    have start : IsBody " WITH (".toList := isBody_of_isQuiet rfl (by decide)
    have stop : IsBody [')'] := isBody_of_isQuiet rfl (by decide)
    rw [storagePart, raw_ofClause]
    exact start.append (inside.append stop)

theorem isBody_distributionPart {d : Option Distribution} (plain : ∀ e ∈ d, e.Plain) :
    IsBody (distributionPart d) := by
  cases d with
  | none => exact isBody_of_isQuiet rfl (by decide)
  | some e =>
    cases plain e rfl with
    | @byHash columns nonempty names =>
      have inside : IsBody ([',', ' '].intercalate (columns.map String.toList)) := by
        refine isBody_listing fun part hp => ?_
        obtain ⟨name, mem, rfl⟩ := List.mem_map.1 hp
        exact isBody_of_word (names name mem).word
      have start : IsBody ('\n' :: [' '].intercalate
          (["DISTRIBUTE", "BY", "HASH"].map String.toList) ++ ['(']) :=
        isBody_of_isQuiet rfl (by decide)
      have stop : IsBody [')'] := isBody_of_isQuiet rfl (by decide)
      have body := start.append (inside.append stop)
      rw [distributionPart_byHash nonempty]
      rwa [List.append_assoc] at body
    | inTurn => exact isBody_of_isQuiet rfl (by decide)
    | atRandom => exact isBody_of_isQuiet rfl (by decide)

theorem isBody_placementPart {g : Option String} (plain : ∀ n ∈ g, PlainName n) :
    IsBody (placementPart g) := by
  cases g with
  | none => exact isBody_of_isQuiet rfl (by decide)
  | some group =>
    have words : IsBody "\nTO GROUP ".toList := isBody_of_isQuiet rfl (by decide)
    exact words.append (isBody_quotedWord (plain group rfl).word)

end Sql

end Rollback

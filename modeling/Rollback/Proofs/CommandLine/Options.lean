import Rollback.CommandLine.Invocation
import Rollback.Proofs.Files.Walks

/-!
# Options of a command line

The options that are read from words belong to the command: only what its forms and the general ones
list can be given. So a command without an option cannot be told what that option sets.

- `Given.Among`: all options that were given are listed
- `among_readWords`: what is read is listed
- `ofWords_cons`: the invocation that words with the name of a command stand for
- `overrides_scan`, `overrides_verify`: what a scan and a verification can be told
-/

set_option autoImplicit false

namespace Rollback.CommandLine

variable {forms : List OptionForm} {g g' : Given}

/-- All options that were given are listed. -/
def Given.Among (forms : List OptionForm) (g : Given) : Prop :=
  ∀ option ∈ g.options, ∃ form ∈ forms, form.name = option.1

namespace Given

theorem among_nothing (forms : List OptionForm) : Among forms nothing :=
  List.forall_mem_nil _

/-- An option that is not listed has no values. -/
theorem values?_eq_none (h : Among forms g) {name : String}
    (unlisted : ∀ form ∈ forms, form.name ≠ name) : g.values? name = none := by
  rw [values?, List.lookup_eq_none_iff]
  intro option mem
  obtain ⟨form, listed, same⟩ := h option mem
  rw [bne_iff_ne, ← same]
  exact (unlisted form listed).symm

theorem value?_eq_none (h : Among forms g) {name : String}
    (unlisted : ∀ form ∈ forms, form.name ≠ name) : g.value? name = none := by
  rw [value?, values?_eq_none h unlisted, Option.bind_none]

/-- An operand gives no option. -/
theorem among_withOperand (h : Among forms g) {form : OperandForm} {operand : String}
    (read : g.withOperand form operand = .ok g') : Among forms g' := by
  unfold withOperand at read
  cases form with
  | command => cases read
  | _ =>
    dsimp only at read
    split at read
    · obtain rfl := Except.ok.inj read
      exact h
    · cases read

theorem among_withOption (h : Among forms g) {form : OptionForm} (listed : form ∈ forms)
    {values : List String} (read : g.withOption form.name values = .ok g') : Among forms g' := by
  rw [withOption] at read
  split at read
  · cases read
  · obtain rfl := Except.ok.inj read
    exact List.forall_mem_cons.2 ⟨⟨form, listed, rfl⟩, h⟩

theorem among_withMore (h : Among forms g) {form : OptionForm} (listed : form ∈ forms)
    (values : List String) : Among forms (g.withMore form.name values) :=
  List.forall_mem_cons.2 ⟨⟨form, listed, rfl⟩, fun option mem => h option (List.mem_filter.1 mem).1⟩

theorem among_withValue (h : Among forms g) {form : OptionForm} (listed : form ∈ forms)
    {value : String} (read : g.withValue form value = .ok g') : Among forms g' := by
  rw [withValue] at read
  split at read
  · cases read
  · exact among_withOption h listed read
  · split at read
    · cases read
    · exact among_withOption h listed read
  · obtain rfl := Except.ok.inj read
    exact among_withMore h listed _
  · split at read
    · cases read
    · obtain rfl := Except.ok.inj read
      exact among_withMore h listed _

end Given

open Given

theorem mem_of_findForm {isMeant : OptionForm → Bool} {form : OptionForm}
    (found : findForm forms isMeant = .ok form) : form ∈ forms := by
  rw [findForm] at found
  split at found
  · rename_i first
    obtain rfl := Except.ok.inj found
    exact List.mem_of_find?_eq_some first
  · cases found

/-- The options after a word are listed, and so is the one that takes the next word. -/
def Awaiting.Among (forms : List OptionForm) (a : Awaiting) : Prop :=
  Given.Among forms a.1 ∧ ∀ form ∈ a.2, form ∈ forms

/-- Giving a listed option, with its value or before it, stays among the list. -/
theorem among_giveOption (h : Given.Among forms g) {form : OptionForm} (listed : form ∈ forms)
    {value : Option String} {a : Awaiting} (read : giveOption g form value = .ok a) :
    a.Among forms := by
  unfold giveOption at read
  split at read
  · obtain ⟨g', given, done⟩ := bind_eq_ok_iff.1 read
    obtain rfl := Except.ok.inj done
    exact ⟨among_withOption h listed given, by rintro form ⟨⟩⟩
  · cases read
  · obtain ⟨g', given, done⟩ := bind_eq_ok_iff.1 read
    obtain rfl := Except.ok.inj done
    exact ⟨among_withValue h listed given, by rintro form ⟨⟩⟩
  · obtain rfl := Except.ok.inj read
    refine ⟨h, ?_⟩
    rintro form ⟨⟩
    exact listed

/-- A long option is found in the list or refused. -/
theorem among_readLong (h : Given.Among forms g) {body : List Char} {a : Awaiting}
    (read : readLong forms g body = .ok a) : a.Among forms := by
  rw [readLong] at read
  dsimp only at read
  split at read
  · cases read
  · cases read
  · obtain ⟨form, found, given⟩ := bind_eq_ok_iff.1 read
    exact among_giveOption h (mem_of_findForm found) given

/-- All letters of a word are found in the list, or the word is refused. -/
theorem among_readLetters {letters : List Char} :
    ∀ {g : Given}, Given.Among forms g → ∀ {a : Awaiting}, readLetters forms g letters = .ok a →
      a.Among forms := by
  induction letters with
  | nil =>
    intro g h a read
    obtain rfl := Except.ok.inj read
    exact ⟨h, by rintro form ⟨⟩⟩
  | cons c rest ih =>
    intro g h a read
    rw [readLetters] at read
    split at read
    · cases read
    · obtain ⟨form, found, read⟩ := bind_eq_ok_iff.1 read
      have listed := mem_of_findForm found
      split at read
      · obtain ⟨g', given, more⟩ := bind_eq_ok_iff.1 read
        exact ih (among_withOption h listed given) more
      · obtain rfl := Except.ok.inj read
        refine ⟨h, ?_⟩
        rintro form ⟨⟩
        exact listed
      · exact among_giveOption h listed read
      · exact among_giveOption h listed read

/-- A word with options gives listed ones only, whatever its form. -/
theorem among_readOptionWord (h : Given.Among forms g) {word : String} {a : Awaiting}
    (read : readOptionWord forms g word = .ok a) : a.Among forms := by
  rw [readOptionWord] at read
  split at read
  · exact among_readLong h read
  · exact among_readLetters h read
  · cases read

theorem among_foldlM_withOperand {operands : OperandForm} {words : List String} :
    ∀ {g : Given}, Given.Among forms g →
      words.foldlM (Given.withOperand operands) g = .ok g' → Given.Among forms g' := by
  induction words with
  | nil =>
    intro g h read
    obtain rfl := Except.ok.inj read
    exact h
  | cons word rest ih =>
    intro g h read
    rw [List.foldlM_cons] at read
    obtain ⟨next, given, more⟩ := bind_eq_ok_iff.1 read
    exact ih (among_withOperand h given) more

/-- Only listed options are read. -/
theorem among_readWords {operands : OperandForm} {left : List String} {words : List String}
    (h : Given.Among forms g) (read : readWords forms operands g words = .ok (g', left)) :
    Given.Among forms g' := by
  -- An option can take the next word with it, so the words that are left are counted.
  induction n : words.length using Nat.strongRecOn generalizing g words with
  | _ n ih =>
    subst n
    cases words with
    | nil =>
      obtain ⟨rfl, -⟩ := Prod.mk.inj (Except.ok.inj read)
      exact h
    | cons word rest =>
      rw [readWords] at read
      split at read
      · obtain ⟨last, given, done⟩ := bind_eq_ok_iff.1 read
        obtain ⟨rfl, -⟩ := Prod.mk.inj (Except.ok.inj done)
        exact among_foldlM_withOperand h given
      · split at read
        · obtain ⟨⟨next, awaiting⟩, option, read⟩ := bind_eq_ok_iff.1 read
          have among := among_readOptionWord h option
          cases awaiting with
          | none => exact ih _ (by simp) among.1 read rfl
          | some form =>
            cases rest with
            | nil => cases read
            | cons value rest =>
              dsimp only at read
              split at read
              · cases read
              · obtain ⟨last, given, more⟩ := bind_eq_ok_iff.1 read
                have listed : form ∈ forms := among.2 form rfl
                exact ih _ (by simp only [List.length_cons]; omega)
                  (among_withValue among.1 listed given) more rfl
        · split at read
          · obtain ⟨rfl, -⟩ := Prod.mk.inj (Except.ok.inj read)
            exact h
          · obtain ⟨next, given, more⟩ := bind_eq_ok_iff.1 read
            exact ih _ (by simp) (among_withOperand h given) more rfl

/-! ## Invocations -/

/-- The general options end at the first word that is no option. -/
theorem readWords_command {name : String} (rest : List String) (bare : isOptionWord name = false) :
    readWords generalForms .command g (name :: rest) = .ok (g, name :: rest) := by
  have notEnd : name ≠ "--" := by
    rintro rfl
    exact absurd bare (by decide +kernel)
  rw [readWords, if_neg (by simpa using notEnd), if_neg (by simp [bare])]
  rfl

/-- If the words start with the name of a command, then what is read after the name decides on
everything. -/
theorem ofWords_cons {name : String} {rest left : List String} {form : CommandForm} {given : Given}
    {command : Command} (bare : isOptionWord name = false)
    (named : CommandForm.ofName? name = some form)
    (read : readWords (generalForms ++ form.options) form.operands .nothing rest =
      .ok (given, left))
    (commanded : commandOf name given = .ok command) :
    Invocation.ofWords (name :: rest) =
      .ok ⟨given.value? "config", overridesOf .nothing given, given.has "json", given.has "quiet",
        command⟩ := by
  have config : (given.value? "config" <|> Given.nothing.value? "config") =
      given.value? "config" := by
    cases given.value? "config" <;> rfl
  have flag : ∀ option, (given.has option || Given.nothing.has option) = given.has option :=
    fun _ => Bool.or_false _
  simp only [Invocation.ofWords, readWords_command rest bare, named, read, commanded, config, flag,
    bind, Except.bind]
  rfl

/-- What an invocation is made from: the options before and after the name of a command. -/
theorem exists_given_of_ofWords {words : List String} {i : Invocation}
    (h : Invocation.ofWords words = .ok i) :
    ∃ general given name form, CommandForm.ofName? name = some form ∧
      Given.Among (generalForms ++ form.options) given ∧ commandOf name given = .ok i.command ∧
        i.overrides = overridesOf general given := by
  obtain ⟨⟨general, rest⟩, -, h⟩ := bind_eq_ok_iff.1 h
  cases rest with
  | nil => cases h
  | cons name rest =>
    dsimp only at h
    split at h
    · cases h
    · rename_i form named
      obtain ⟨⟨given, left⟩, read, h⟩ := bind_eq_ok_iff.1 h
      obtain ⟨command, commanded, done⟩ := bind_eq_ok_iff.1 h
      obtain rfl := Except.ok.inj done
      exact ⟨general, given, name, form, named, among_readWords (among_nothing _) read,
        commanded, rfl⟩

/-- Only the word for scans leads to one. -/
theorem eq_scan_of_commandOf {name root : String} {save : Bool}
    (h : commandOf name g = .ok (.scan root save)) : name = "scan" := by
  unfold commandOf at h
  split at h
  · rfl
  · obtain ⟨⟨⟩, -, done⟩ := bind_eq_ok_iff.1 h
    cases done
  · obtain ⟨⟨⟩, -, done⟩ := bind_eq_ok_iff.1 h
    cases done
  · cases h
  · cases h
  · cases h

theorem eq_verify_of_commandOf {name root : String} (h : commandOf name g = .ok (.verify root)) :
    name = "verify" := by
  unfold commandOf at h
  split at h
  · cases h
  · obtain ⟨⟨⟩, -, done⟩ := bind_eq_ok_iff.1 h
    cases done
  · obtain ⟨⟨⟩, -, done⟩ := bind_eq_ok_iff.1 h
    cases done
  · cases h
  · rfl
  · cases h

/-- Listed options that set the settings of rollbacks set nothing if they are not listed. -/
theorem overridesOf_eq {general given : Given} (among : Given.Among forms given)
    (unlisted : ∀ form ∈ forms, form.name ≠ "prefix" ∧ form.name ≠ "no-annotate") :
    overridesOf general given =
      { SettingsLayer.empty with
        catalogPath := given.value? "catalog" <|> general.value? "catalog"
        skippedDirectories := given.values? "skip-dirs" } := by
  have noPrefix : given.value? "prefix" = none :=
    Given.value?_eq_none among fun form mem => (unlisted form mem).1
  have noAnnotate : given.has "no-annotate" = false := by
    rw [Given.has, Given.values?_eq_none among fun form mem => (unlisted form mem).2]
    rfl
  rw [overridesOf, noPrefix, noAnnotate]
  rfl

/-- A scan can be told where its catalog is and which directories are skipped. -/
theorem overrides_scan {words : List String} {i : Invocation} {root : String} {save : Bool}
    (h : Invocation.ofWords words = .ok i) (scans : i.command = .scan root save) :
    ∃ catalogPath skippedDirectories,
      i.overrides = { SettingsLayer.empty with catalogPath, skippedDirectories } := by
  obtain ⟨general, given, name, form, named, among, commanded, overrides⟩ :=
    exists_given_of_ofWords h
  rw [scans] at commanded
  obtain rfl := eq_scan_of_commandOf commanded
  obtain rfl := Option.some.inj named
  exact ⟨_, _, overrides.trans (overridesOf_eq among (by decide))⟩

/-- A verification can be told where its catalog is, but not which directories are skipped. -/
theorem overrides_verify {words : List String} {i : Invocation} {root : String}
    (h : Invocation.ofWords words = .ok i) (verifies : i.command = .verify root) :
    ∃ catalogPath, i.overrides = { SettingsLayer.empty with catalogPath } := by
  obtain ⟨general, given, name, form, named, among, commanded, overrides⟩ :=
    exists_given_of_ofWords h
  rw [verifies] at commanded
  obtain rfl := eq_verify_of_commandOf commanded
  obtain rfl := Option.some.inj named
  have noSkips : given.values? "skip-dirs" = none := Given.values?_eq_none among (by decide)
  rw [overridesOf_eq among (by decide), noSkips] at overrides
  exact ⟨_, overrides⟩

end Rollback.CommandLine

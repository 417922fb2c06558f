import Rollback.Proofs.Pattern.Searches
import Rollback.Proofs.Pattern.WordSteps
import Rollback.Proofs.Sql.PlainNames
import Rollback.Sql.Recognition

/-!
# The object of an ALTER statement

The words that may stand before the name of a table can also be its name. So after the start of a
statement about a name, what is read next is the action of the statement or, if the name was taken
for one of these words, what follows the first word of the action.

- `alterText`: an ALTER TABLE statement up to the name of the table, and what follows it
- `endsIn_alterOnly`, `endsIn_alterIfExists`: where a reading of the name can end
- `stuck_alterTable`: an action that is read at no such place
- `LacksAction`: statements that lack it, so that no rule for that action accepts them
- `reads_alterTable`, `reads_alterIfExists`: an action that is read at the first of them
-/

set_option autoImplicit false

namespace Rollback

open Pattern

/-- A bare name of an object is a word. -/
theorem BareObject.isSolid {n : ObjectName} (h : BareObject n) : IsSolid n.render.toList :=
  h.forall_chars (p := fun c => Text.isGap c = false) (by decide) fun _ =>
    Sql.forall_identifierChar (p := fun c => Text.isGap c = false) (by decide)

theorem PlainName.isSolid {name : String} (h : PlainName name) : IsSolid name.toList :=
  .of_word h.word

namespace Sql

variable {l : Option Char} {m : List (Operand × Span)} {u : Place Operand}

/-! ## Starts of statements -/

/-- An ALTER statement up to the name of an object of a kind, and what follows the name after a
space. -/
def alterLine (kind w rest : List Char) : List Char :=
  "ALTER".toList ++ ' ' :: (kind ++ ' ' :: (w ++ ' ' :: rest))

/-- An ALTER TABLE statement up to a name, and what follows the name after a space. -/
def alterText (w rest : List Char) : List Char :=
  "ALTER TABLE ".toList ++ (w ++ ' ' :: rest)

theorem alterText_eq (w rest : List Char) :
    alterText w rest = alterLine "TABLE".toList w rest := rfl

/-- The first two words and their gaps are read in one way. -/
theorem readsOnly_alterStart {kind : String} {rest : List Char}
    (kindWord : startsIn .word kind.toList = true) (solid : startsIn .gap rest = false) :
    ReadsOnly (keywords ["ALTER", kind] ++ gap : Phrase)
      ⟨l, "ALTER".toList ++ ' ' :: (kind.toList ++ ' ' :: rest), m⟩ ⟨some ' ', rest, m⟩ := by
  have start : startsIn .gap (kind.toList ++ ' ' :: rest) = false := by
    cases first : kind.toList with
    | nil =>
      rw [first] at kindWord
      exact absurd kindWord (by decide)
    | cons c more =>
      rw [first] at kindWord
      exact Text.isGap_eq_false_of_isWordChar kindWord
  exact (readsOnly_keywords_pair "ALTER" kind start).seq (readsOnly_space solid)

/-- After the first two words comes the rest as it is. -/
theorem endsIn_alterStart {kind : String} {rest : List Char}
    (kindWord : startsIn .word kind.toList = true) (solid : startsIn .gap rest = false) :
    EndsIn (keywords ["ALTER", kind] ++ gap : Phrase)
      ("ALTER".toList ++ ' ' :: (kind.toList ++ ' ' :: rest)) (· = rest) := by
  intro l m t ht
  exact (readsOnly_alterStart kindWord solid).eq_of_mem ht ▸ rfl

theorem startsIn_gap_append {w : List Char} (solid : IsSolid w) (nonempty : w ≠ [])
    (rest : List Char) : startsIn .gap (w ++ rest) = false := by
  cases w with
  | nil => exact absurd rfl nonempty
  | cons c w => exact solid c List.mem_cons_self

/-! ## Where the name ends -/

/-- The words IF EXISTS are not read of a name, because of what follows it. -/
theorem stuck_ifExists {w next : List Char} (name : IsSolid w) (solid : startsIn .gap next = false)
    (other : ∀ l m, Stuck (keyword "EXISTS" : Phrase) ⟨l, next, m⟩) (l : Option Char)
    (m : List (Operand × Span)) :
    Stuck (keywords ["IF", "EXISTS"] ++ gap : Phrase) ⟨l, w ++ ' ' :: next, m⟩ := by
  have words : ∀ l m, Stuck (keyword "IF" ++ gap ++ keyword "EXISTS" : Phrase)
      ⟨l, w ++ ' ' :: next, m⟩ :=
    (endsIn_next (p := keyword "IF") rfl name solid).stuck_seq fun rest here => here ▸ other
  exact (words l m).seq_left gap

section

variable {q : Phrase} {w verb more : List Char} (name : IsSolid w) (some_ : w ≠ [])
  (verbWord : IsSolid verb) (nonempty : verb ≠ []) (solid : startsIn .gap more = false)

include name some_ verbWord nonempty solid

/-- If the name is taken for the word ONLY, then the word after it is taken for the name. -/
theorem endsIn_alterOnly :
    EndsIn (alterTable ["ONLY"]) (alterText w (verb ++ ' ' :: more)) fun rest =>
      rest = verb ++ ' ' :: more ∨ rest = more := by
  have solidVerb := startsIn_gap_append verbWord nonempty (' ' :: more)
  have start := endsIn_alterStart (show startsIn .word "TABLE".toList = true from rfl)
    (startsIn_gap_append name some_ (' ' :: (verb ++ ' ' :: more)))
  have only : EndsIn (maybe ["ONLY"]) (w ++ ' ' :: (verb ++ ' ' :: more)) fun rest =>
      rest = w ++ ' ' :: (verb ++ ' ' :: more) ∨ rest = verb ++ ' ' :: more :=
    ((endsIn_next (p := keyword "ONLY") rfl name solidVerb).mono fun _ => .inr).orNothing (.inl rfl)
  refine .assoc ((start.seq_at only).seq ?_)
  -- What is left for the name is the name itself or, after the word ONLY, the word of the action.
  rintro rest (rfl | rfl)
  · exact (endsIn_next rfl name solidVerb).mono fun _ => .inl
  · exact (endsIn_next rfl verbWord solid).mono fun _ => .inr

omit solid in

/-- Without the words IF EXISTS, the name is the one that stands first, and the action follows. -/
theorem endsIn_alterIfExists {kind : String} (kindWord : startsIn .word kind.toList = true)
    (other : ∀ l m, Stuck (keyword "EXISTS" : Phrase) ⟨l, verb ++ ' ' :: more, m⟩) :
    EndsIn (keywords ["ALTER", kind] ++ gap ++ maybe ["IF", "EXISTS"] ++ objectName .object ++ gap)
      (alterLine kind.toList w (verb ++ ' ' :: more)) (· = verb ++ ' ' :: more) := by
  have solidVerb := startsIn_gap_append verbWord nonempty (' ' :: more)
  have start := endsIn_alterStart kindWord
    (startsIn_gap_append name some_ (' ' :: (verb ++ ' ' :: more)))
  have words : EndsIn (maybe ["IF", "EXISTS"]) (w ++ ' ' :: (verb ++ ' ' :: more))
      (· = w ++ ' ' :: (verb ++ ' ' :: more)) :=
    (EndsIn.of_stuck (stuck_ifExists name solidVerb other)).orNothing rfl
  refine .assoc ((start.seq_at words).seq ?_)
  rintro rest rfl
  exact endsIn_next rfl name solidVerb

/-- The part before the actions ends after the name or, if that is taken for the word ONLY, after
the first word of the action. -/
theorem rest_of_match?_head (other : startsIn (.same 'E') verb = false)
    (h : alterTableHeadPhrase.match? (alterText w (verb ++ ' ' :: more)) = some u) :
    u.rest = verb ++ ' ' :: more ∨ u.rest = more := by
  have solidVerb := startsIn_gap_append verbWord nonempty (' ' :: more)
  have start := endsIn_alterStart (show startsIn .word "TABLE".toList = true from rfl)
    (startsIn_gap_append name some_ (' ' :: (verb ++ ' ' :: more)))
  have exists_ : ∀ l m, Stuck (keyword "EXISTS" : Phrase) ⟨l, verb ++ ' ' :: more, m⟩ := by
    intro l m
    refine OnlyFrom.keyword (c := 'E') rfl _ ?_
    cases verb with
    | nil => exact absurd rfl nonempty
    | cons c verb => exact other
  have only : EndsIn (keyword "ONLY" ++ gap : Phrase) (w ++ ' ' :: (verb ++ ' ' :: more))
      (· = verb ++ ' ' :: more) := endsIn_next rfl name solidVerb
  have words : EndsIn
      (orNothing (alt (keyword "ONLY" ++ gap) (keywords ["IF", "EXISTS"] ++ gap)) : Phrase)
      (w ++ ' ' :: (verb ++ ' ' :: more))
      fun rest => rest = w ++ ' ' :: (verb ++ ' ' :: more) ∨ rest = verb ++ ' ' :: more :=
    ((only.mono fun _ => .inr).alt
      (.of_stuck (stuck_ifExists name solidVerb exists_))).orNothing (.inl rfl)
  have named : EndsIn qualifiedName (w ++ ' ' :: (verb ++ ' ' :: more))
      (InWord (verb ++ ' ' :: more)) := InWord.endsIn ⟨w, name, rfl⟩ rfl
  have verbNamed : EndsIn qualifiedName (verb ++ ' ' :: more) (InWord more) :=
    InWord.endsIn ⟨verb, verbWord, rfl⟩ rfl
  have object : EndsIn (keywords ["ALTER", "TABLE"] ++ gap ++
      orNothing (alt (keyword "ONLY" ++ gap) (keywords ["IF", "EXISTS"] ++ gap)) ++ qualifiedName)
      (alterText w (verb ++ ' ' :: more))
      fun rest => InWord (verb ++ ' ' :: more) rest ∨ InWord more rest := by
    refine (start.seq_at words).seq ?_
    rintro rest (rfl | rfl)
    · exact named.mono fun _ => .inl
    · exact verbNamed.mono fun _ => .inr
  have head : EndsIn alterTableHeadPhrase (alterText w (verb ++ ' ' :: more)) fun rest =>
      rest = verb ++ ' ' :: more ∨ rest = more := by
    refine (object.mark _).seq ?_
    rintro rest (here | here)
    · exact (here.endsIn_gap solidVerb).mono fun _ => .inl
    · exact (here.endsIn_gap solid).mono fun _ => .inr
  rw [match?_eq] at h
  exact head _ _ u (List.mem_of_head? h)

/-- An action that is read neither at its first word nor after it. -/
theorem stuck_alterTable (first : ∀ l m, Stuck q ⟨l, verb ++ ' ' :: more, m⟩)
    (second : ∀ l m, Stuck q ⟨l, more, m⟩) :
    Stuck (alterTable ["ONLY"] ++ q) ⟨none, alterText w (verb ++ ' ' :: more), []⟩ := by
  refine (endsIn_alterOnly name some_ verbWord nonempty solid).stuck_seq ?_ none []
  rintro rest (rfl | rfl)
  · exact first
  · exact second

omit solid in
/-- Without the words ONLY and IF EXISTS, the name is read as it is. -/
theorem endsIn_alterName : EndsIn (keywords ["ALTER", "TABLE"] ++ gap ++ objectName .object ++ gap)
    (alterText w (verb ++ ' ' :: more)) (· = verb ++ ' ' :: more) := by
  have solidVerb := startsIn_gap_append verbWord nonempty (' ' :: more)
  have start := endsIn_alterStart (show startsIn .word "TABLE".toList = true from rfl)
    (startsIn_gap_append name some_ (' ' :: (verb ++ ' ' :: more)))
  exact .assoc (start.seq_at (endsIn_next rfl name solidVerb))

end

/-! ## Actions that are not there -/

/-- Wherever a reading of the start of an ALTER TABLE statement ends, another word comes next. -/
def LacksAction (word : String) (text : List Char) : Prop :=
  Stuck (alterTable ["ONLY"] ++ (keyword word ++ gap)) ⟨none, text, []⟩

namespace LacksAction

variable {word : String} {text : List Char}

/-- Where no such action follows a table, no phrase with its word can be read. -/
theorem stuck (h : LacksAction word text) (q : Phrase) :
    Stuck (alterTable ["ONLY"] ++ (keyword word ++ gap ++ q)) ⟨none, text, []⟩ :=
  Stuck.of_assoc (Stuck.seq_left h q)

theorem addPartition?_eq_none (h : LacksAction "ADD" text) : addPartition? text = none := by
  have words : Stuck (alterTable ["ONLY"] ++ keywords ["ADD", "PARTITION"]) _ := h.stuck _
  have phrase : Stuck addPartitionPhrase _ := ((words.seq_left _).seq_left _).seq_left _
  rw [addPartition?, phrase.match?]
  rfl

theorem attachPartition?_eq_none (h : LacksAction "ATTACH" text) :
    attachPartition? text = none := by
  have words : Stuck (alterTable ["ONLY"] ++ keywords ["ATTACH", "PARTITION"]) _ := h.stuck _
  have phrase : Stuck attachPartitionPhrase _ := (words.seq_left _).seq_left _
  rw [attachPartition?, phrase.match?]
  rfl

theorem detachPartition?_eq_none (h : LacksAction "DETACH" text) :
    detachPartition? text = none := by
  have words : Stuck (alterTable ["ONLY"] ++ keywords ["DETACH", "PARTITION"]) _ := h.stuck _
  have phrase : Stuck detachPartitionPhrase _ := (words.seq_left _).seq_left _
  rw [detachPartition?, phrase.match?]
  rfl

theorem addColumn?_eq_none (h : LacksAction "ADD" text) : addColumn? text = none := by
  have words : Stuck (alterTable ["ONLY"] ++ keyword "ADD" ++ gap) _ := Stuck.assoc h
  have phrase : Stuck addColumnPhrase _ :=
    (((words.seq_left _).seq_left _).seq_left _).seq_left _
  rw [addColumn?, phrase.match?]
  rfl

theorem dropColumn?_eq_none (h : LacksAction "DROP" text) : dropColumn? text = none := by
  have words : Stuck (alterTable ["ONLY"] ++ keyword "DROP" ++ gap) _ := Stuck.assoc h
  have phrase : Stuck dropColumnPhrase _ := ((words.seq_left _).seq_left _).seq_left _
  rw [dropColumn?, phrase.match?]
  rfl

end LacksAction

/-! ## Actions that are read -/

section

variable {q : Phrase} {n : ObjectName} {verb more : List Char} (object : BareObject n)
  (verbWord : IsSolid verb) (nonempty : verb ≠ [])

include object verbWord nonempty

/-- After the start of a statement the name is read, and then a gap. -/
theorem reads_alterName
    (first : Reads q ⟨some ' ', verb ++ ' ' :: more, [(.object,
      ⟨n.render.toList ++ ' ' :: (verb ++ ' ' :: more), ' ' :: (verb ++ ' ' :: more)⟩)]⟩ u) :
    Reads (objectName .object ++ (gap ++ q))
      ⟨some ' ', n.render.toList ++ ' ' :: (verb ++ ' ' :: more), []⟩ u :=
  (reads_objectName (l := some ' ') (m := []) object .object (' ' :: (verb ++ ' ' :: more)) rfl).seq
    ((reads_space (startsIn_gap_append verbWord nonempty (' ' :: more))).seq first)

/-- An action that is read at its first word and not after it. -/
theorem reads_alterTable {w : List Char} (written : n.render.toList = w)
    (solid : startsIn .gap more = false)
    (first : Reads q ⟨some ' ', verb ++ ' ' :: more,
      [(.object, ⟨w ++ ' ' :: (verb ++ ' ' :: more), ' ' :: (verb ++ ' ' :: more)⟩)]⟩ u)
    (second : ∀ l m, Stuck q ⟨l, more, m⟩) :
    Reads (alterTable ["ONLY"] ++ q) ⟨none, alterText w (verb ++ ' ' :: more), []⟩ u := by
  subst written
  have solidVerb := startsIn_gap_append verbWord nonempty (' ' :: more)
  have start : Reads (keywords ["ALTER", "TABLE"] ++ gap : Phrase)
      ⟨none, alterText n.render.toList (verb ++ ' ' :: more), []⟩
      ⟨some ' ', n.render.toList ++ ' ' :: (verb ++ ' ' :: more), []⟩ :=
    (readsOnly_alterStart rfl (object.startsIn_gap _)).reads
  have skipped : Stuck ((keyword "ONLY" ++ gap) ++ (objectName .object ++ (gap ++ q)))
      ⟨some ' ', n.render.toList ++ ' ' :: (verb ++ ' ' :: more), []⟩ := by
    refine (endsIn_next (p := keyword "ONLY") rfl object.isSolid solidVerb).stuck_seq ?_ _ _
    rintro rest rfl l m
    have action := (endsIn_next (p := objectName .object) rfl verbWord solid).stuck_seq (q := q)
      (fun rest here => here ▸ second) l m
    exact action.of_assoc
  exact .assoc (.assoc (.assoc (start.seq (.skip skipped
    (reads_alterName object verbWord nonempty first)))))

/-- The words IF EXISTS are left out, so the action is read at its first word. -/
theorem reads_alterIfExists {kind : String} (kindWord : startsIn .word kind.toList = true)
    (other : ∀ l m, Stuck (keyword "EXISTS" : Phrase) ⟨l, verb ++ ' ' :: more, m⟩)
    (first : Reads q ⟨some ' ', verb ++ ' ' :: more, [(.object,
      ⟨n.render.toList ++ ' ' :: (verb ++ ' ' :: more), ' ' :: (verb ++ ' ' :: more)⟩)]⟩ u) :
    Reads
      (keywords ["ALTER", kind] ++ gap ++ maybe ["IF", "EXISTS"] ++ objectName .object ++ gap ++ q)
      ⟨none, alterLine kind.toList n.render.toList (verb ++ ' ' :: more), []⟩ u := by
  have start : Reads (keywords ["ALTER", kind] ++ gap : Phrase)
      ⟨none, alterLine kind.toList n.render.toList (verb ++ ' ' :: more), []⟩
      ⟨some ' ', n.render.toList ++ ' ' :: (verb ++ ' ' :: more), []⟩ :=
    (readsOnly_alterStart kindWord (object.startsIn_gap _)).reads
  have solidVerb := startsIn_gap_append verbWord nonempty (' ' :: more)
  have left := (stuck_ifExists object.isSolid solidVerb other (some ' ') []).orNothing
  exact .assoc (.assoc (.assoc (start.seq (left.seq
    (reads_alterName object verbWord nonempty first)))))

end

end Sql

end Rollback

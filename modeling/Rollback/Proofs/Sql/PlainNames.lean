import Rollback.Proofs.Pattern.Searches
import Rollback.Sql.Grammar
import Rollback.Sql.Name

/-!
# Names without quotes

A bare name is made of characters of identifiers. The patterns for names read it up to its end, and
it is kept as it is where quotes and blanks are taken off. A plain name is one of ASCII letters,
digits and underscores that does not start with a digit.

- `identifierChar`: the characters of identifiers
- `BareName`, `BareObject`: bare names, and names of objects made of them
- `PlainName`, `PlainObject`: plain names, and names of objects made of them
- `reads_identifier`, `reads_objectName`: the patterns read bare names
- `ofChars_render`: a name that is written and read again is the same
-/

set_option autoImplicit false

namespace Rollback

open Pattern

/-! ## Bare names -/

namespace Sql

/-- The characters of identifiers. -/
def identifierChar : CharSet :=
  .union .word (.oneOf ['$', '-'])

theorem ascii_of_identifierChar {c : Char} (h : identifierChar.contains c = true) :
    c.toNat < 128 := by
  have h : (Text.isWordChar c || ['$', '-'].contains c) = true := h
  rw [Bool.or_eq_true, List.contains_iff_mem] at h
  rcases h with h | h
  · exact Text.ascii_of_isWordChar h
  · rcases List.mem_cons.1 h with rfl | h
    · decide
    · exact List.mem_singleton.1 h ▸ by decide

/-- What holds of all ASCII characters of identifiers holds of all their characters. -/
theorem forall_identifierChar {p : Char → Prop}
    (h : ∀ n < 128, identifierChar.contains (Char.ofNat n) = true → p (Char.ofNat n)) {c : Char}
    (hc : identifierChar.contains c = true) : p c :=
  Text.forall_ascii (p := fun c => identifierChar.contains c = true → p c) h
    (ascii_of_identifierChar hc) hc

end Sql

/-- A name of characters of identifiers, as it is read without quotes. -/
structure BareName (name : String) : Prop where
  nonempty : name.toList ≠ []
  chars : ∀ c ∈ name.toList, Sql.identifierChar.contains c = true

namespace BareName

variable {name : String}

/-- A bare name starts with none of the other characters, whatever follows it. -/
theorem startsIn_append {set : CharSet} (h : BareName name)
    (other : ∀ c, Sql.identifierChar.contains c = true → set.contains c = false)
    (rest : List Char) : startsIn set (name.toList ++ rest) = false := by
  have nonempty := h.nonempty
  have chars := h.chars
  cases first : name.toList with
  | nil => exact absurd first nonempty
  | cons c more =>
    rw [first] at chars
    exact other c (chars c List.mem_cons_self)

theorem notMem (h : BareName name) {c : Char} (other : Sql.identifierChar.contains c = false) :
    c ∉ name.toList := by
  intro mem
  rw [h.chars c mem] at other
  exact absurd other (by decide)

theorem unquote_eq (h : BareName name) : Text.unquote name.toList = name.toList := by
  have solid : ∀ c ∈ name.toList, Text.isBlank c = false := fun c hc =>
    Sql.forall_identifierChar (p := fun c => Text.isBlank c = false) (by decide) (h.chars c hc)
  have bare : ∀ c ∈ name.toList, Text.isNameQuote c = false := fun c hc =>
    Sql.forall_identifierChar (p := fun c => Text.isNameQuote c = false) (by decide) (h.chars c hc)
  have trimmed : Text.Trimmed name.toList :=
    ⟨fun c hc => solid c (List.mem_of_mem_head? hc), fun c hc => solid c (List.mem_of_getLast? hc)⟩
  rw [Text.unquote, trimmed.trim_eq]
  exact Text.dropAround_eq_self (fun c hc => bare c (List.mem_of_mem_head? hc))
    fun c hc => bare c (List.mem_of_getLast? hc)

/-- A bare name does not start with a quote. -/
theorem startsIn_quote (h : BareName name) (rest : List Char) :
    startsIn (.oneOf ['\x60', '\x22']) (name.toList ++ rest) = false :=
  h.startsIn_append
    (fun _ => contains_oneOf_eq_false (p := Sql.identifierChar.contains) (by decide)) rest

/-- A bare name does not start with a gap. -/
theorem startsIn_gap (h : BareName name) (rest : List Char) :
    startsIn .gap (name.toList ++ rest) = false :=
  h.startsIn_append
    (fun _ => Sql.forall_identifierChar (p := fun c => CharSet.gap.contains c = false) (by decide))
    rest

end BareName

/-- The name of an object whose parts are bare. -/
structure BareObject (n : ObjectName) : Prop where
  name : BareName n.name
  schema : ∀ s ∈ n.schema, BareName s

theorem toList_render_some (schema name : String) :
    (ObjectName.render ⟨some schema, name⟩).toList = schema.toList ++ '.' :: name.toList := by
  simp [ObjectName.render]

/-- A bare name of an object does not start with a gap. -/
theorem BareObject.startsIn_gap {n : ObjectName} (h : BareObject n) (rest : List Char) :
    startsIn .gap (n.render.toList ++ rest) = false := by
  obtain ⟨schema, name⟩ := n
  cases schema with
  | none => exact h.name.startsIn_gap rest
  | some s =>
    rw [toList_render_some, List.append_assoc]
    exact (h.schema s rfl).startsIn_gap _

theorem BareObject.nonempty {n : ObjectName} (h : BareObject n) : n.render.toList ≠ [] := by
  obtain ⟨schema, name⟩ := n
  cases schema with
  | none => exact h.name.nonempty
  | some s =>
    rw [toList_render_some]
    exact List.append_ne_nil_of_right_ne_nil _ (List.cons_ne_nil _ _)

/-- A bare name of an object is made of characters of identifiers and perhaps a dot. -/
theorem BareObject.forall_chars {n : ObjectName} (h : BareObject n) {p : Char → Prop} (dot : p '.')
    (chars : ∀ c, Sql.identifierChar.contains c = true → p c) : ∀ c ∈ n.render.toList, p c := by
  obtain ⟨schema, name⟩ := n
  cases schema with
  | none => exact fun c mem => chars c (h.name.chars c mem)
  | some s =>
    intro c mem
    rw [toList_render_some, List.mem_append, List.mem_cons] at mem
    rcases mem with mem | rfl | mem
    · exact chars c ((h.schema s rfl).chars c mem)
    · exact dot
    · exact chars c (h.name.chars c mem)

theorem BareName.bareObject {name : String} (h : BareName name) : BareObject ⟨none, name⟩ :=
  ⟨h, by simp⟩

/-! ## Plain names -/

/-- A name of ASCII letters, digits and underscores that does not start with a digit. -/
structure PlainName (name : String) : Prop where
  first : startsIn .letter name.toList = true
  word : ∀ c ∈ name.toList, Text.isWordChar c = true

instance (name : String) : Decidable (PlainName name) :=
  decidable_of_iff
    ((startsIn .letter name.toList && name.toList.all Text.isWordChar) = true) <| by
      rw [Bool.and_eq_true, List.all_eq_true]
      exact ⟨fun h => ⟨h.1, h.2⟩, fun h => ⟨h.1, h.2⟩⟩

namespace PlainName

variable {name : String}

theorem nonempty (h : PlainName name) : name.toList ≠ [] := by
  intro empty
  have first := h.first
  rw [empty] at first
  exact absurd first (by decide)

theorem notMem (h : PlainName name) {c : Char} (other : Text.isWordChar c = false) :
    c ∉ name.toList := by
  intro mem
  rw [h.word c mem] at other
  exact absurd other (by decide)

theorem trimmed (h : PlainName name) : Text.Trimmed name.toList :=
  Text.trimmed_of_word h.word

theorem bare (h : PlainName name) : BareName name where
  nonempty := h.nonempty
  chars c hc := by simp [Sql.identifierChar, CharSet.contains, h.word c hc]

theorem startsIn_gap (h : PlainName name) (rest : List Char) :
    startsIn .gap (name.toList ++ rest) = false :=
  h.bare.startsIn_gap rest

end PlainName

/-- The name of an object whose parts are plain. -/
structure PlainObject (n : ObjectName) : Prop where
  name : PlainName n.name
  schema : ∀ s ∈ n.schema, PlainName s

theorem PlainObject.bare {n : ObjectName} (h : PlainObject n) : BareObject n where
  name := h.name.bare
  schema s hs := (h.schema s hs).bare

theorem PlainObject.startsIn_gap {n : ObjectName} (h : PlainObject n) (rest : List Char) :
    startsIn .gap (n.render.toList ++ rest) = false :=
  h.bare.startsIn_gap rest

/-! ## Readings -/

namespace Sql

variable {l : Option Char} {m : List (Operand × Span)} {rest : List Char}

/-- Characters that a name can go on with. -/
def nameGoesOn : CharSet :=
  .union (.union .word (.oneOf ['$', '-'])) (.oneOf ['\x60', '\x22', '.'])

/-- A bare name is read up to its end, where neither a character of it nor a quote follows. -/
theorem reads_identifier {name : String} (h : BareName name) (rest : List Char)
    (ends : startsIn identifierChar rest = false)
    (bare : startsIn (.oneOf ['\x60', '\x22']) rest = false) :
    Reads identifier ⟨l, name.toList ++ rest, m⟩ ⟨lastAfter l name.toList, rest, m⟩ := by
  have open_ : Reads (orNothing nameQuote) (⟨l, name.toList ++ rest, m⟩ : Place Operand)
      ⟨l, name.toList ++ rest, m⟩ := (stuck_char (h.startsIn_quote rest)).orNothing
  have body : Reads (some1 (.union .word (.oneOf ['$', '-'])))
      (⟨l, name.toList ++ rest, m⟩ : Place Operand) ⟨lastAfter l name.toList, rest, m⟩ :=
    reads_some1 h.nonempty h.chars ends
  exact (open_.seq body).seq (stuck_char bare).orNothing

/-- Where no name goes on, neither an identifier, a quote nor a dot follows. -/
theorem ends_of_nameGoesOn (stop : startsIn nameGoesOn rest = false) :
    startsIn identifierChar rest = false ∧
      startsIn (.oneOf ['\x60', '\x22']) rest = false ∧ startsIn (.oneOf ['.']) rest = false := by
  refine ⟨startsIn_eq_false_of_subset (fun c hc => ?_) stop,
    startsIn_eq_false_of_subset (fun c hc => ?_) stop,
    startsIn_eq_false_of_subset (fun c hc => ?_) stop⟩
  · grind [nameGoesOn, identifierChar, CharSet.contains]
  · grind [nameGoesOn, CharSet.contains]
  · grind [nameGoesOn, CharSet.contains]

/-- The patterns for names read a bare name of an object up to its end. -/
theorem reads_qualifiedName {n : ObjectName} (h : BareObject n)
    (stop : startsIn nameGoesOn rest = false) :
    Reads qualifiedName ⟨l, n.render.toList ++ rest, m⟩
      ⟨lastAfter l n.render.toList, rest, m⟩ := by
  obtain ⟨ends, bare, noDot⟩ := ends_of_nameGoesOn stop
  obtain ⟨schema, name⟩ := n
  cases schema with
  | none =>
    exact (reads_identifier h.name rest ends bare).seq
      (Stuck.orNothing ((stuck_char noDot).seq_left _))
  | some s =>
    rw [toList_render_some, List.append_assoc, lastAfter_append, lastAfter_cons]
    refine (reads_identifier (h.schema s rfl) _ rfl rfl).seq (Reads.orNothing ?_)
    exact (reads_char (by decide)).seq (reads_identifier h.name rest ends bare)

/-- A bare object is read up to its end and marked with an operand. -/
theorem reads_objectName {n : ObjectName} (h : BareObject n) (operand : Operand)
    (rest : List Char) (stop : startsIn nameGoesOn rest = false) :
    Reads (objectName operand) ⟨l, n.render.toList ++ rest, m⟩
      ⟨lastAfter l n.render.toList, rest, (operand, ⟨n.render.toList ++ rest, rest⟩) :: m⟩ :=
  (reads_qualifiedName h stop).mark operand

end Sql

/-- A bare name of an object that is written and read again is the same. -/
theorem ofChars_render {n : ObjectName} (h : BareObject n) :
    ObjectName.ofChars n.render.toList = n := by
  have dotless : ∀ {s : String}, BareName s → '.' ∉ s.toList := fun bare =>
    bare.notMem (by decide)
  obtain ⟨schema, name⟩ := n
  cases schema with
  | none =>
    rw [ObjectName.ofChars, ObjectName.render, Text.pieces_eq_singleton (dotless h.name)]
    simp only [List.map_cons, List.map_nil, h.name.unquote_eq, String.ofList_toList]
    rfl
  | some s =>
    have bare := h.schema s rfl
    rw [ObjectName.ofChars, toList_render_some, Text.pieces_append (dotless bare),
      Text.pieces_eq_singleton (dotless h.name)]
    simp only [List.map_cons, List.map_nil, bare.unquote_eq, h.name.unquote_eq,
      String.ofList_toList]
    rfl

end Rollback

import Rollback.Proofs.Pattern.Marks
import Rollback.Proofs.Sql.PlainNames
import Rollback.Proofs.Sql.StatementNames

/-!
# Identifiers in statements

The pattern of an identifier takes its characters with at most a quote on each side, and the quotes
are taken off. So whatever text a statement is recognized from, its names are made of characters of
identifiers only: letters, digits, underscores, dollar signs and dashes of ASCII.

- `IsIdentifier`: texts of characters of identifiers
- `Spells`: how a text that the pattern takes is made up
- `Statement.identifiers`: all names in a statement
- `Statement.wellNamed_ofChars`: none of them is empty, and no column has the name of a clause
- `Statement.hasIdentifiers_ofChars`: they are made of characters of identifiers
-/

set_option autoImplicit false

namespace Rollback

open Pattern

namespace Sql

theorem isNameQuote_of_contains {c : Char}
    (h : (CharSet.oneOf ['\x60', '\x22']).contains c = true) : Text.isNameQuote c = true := by
  rcases List.mem_cons.1 (List.contains_iff_mem.1 h) with rfl | h
  · rfl
  · exact List.mem_singleton.1 h ▸ rfl

theorem eq_or_eq_of_isNameQuote {c : Char} (h : Text.isNameQuote c = true) :
    c = '\x22' ∨ c = '\x60' := by
  simpa [Text.isNameQuote] using h

/-! ## What the patterns for names take -/

/-- The text `w` is the identifier `x` with quotes before and after it, or without. -/
structure Spells (w x : List Char) : Prop where
  nonempty : x ≠ []
  chars : ∀ c ∈ x, identifierChar.contains c = true
  quoted : ∃ a b, w = a ++ x ++ b ∧ (∀ c ∈ a, Text.isNameQuote c = true) ∧
    ∀ c ∈ b, Text.isNameQuote c = true

namespace Spells

variable {w x : List Char}

theorem ne_nil (h : Spells w x) : w ≠ [] := by
  obtain ⟨a, b, rfl, -, -⟩ := h.quoted
  intro eq
  exact h.nonempty (List.append_eq_nil_iff.1 (List.append_eq_nil_iff.1 eq).1).2

/-- What holds of characters of identifiers and of quotes holds of every character of the text. -/
theorem forall_mem {p : Char → Prop} (identifiers : ∀ c, identifierChar.contains c = true → p c)
    (quotes : ∀ c, Text.isNameQuote c = true → p c) (h : Spells w x) : ∀ c ∈ w, p c := by
  obtain ⟨a, b, rfl, before, after⟩ := h.quoted
  refine List.forall_mem_append.2 ⟨List.forall_mem_append.2 ⟨?_, ?_⟩, ?_⟩
  · exact fun c mem => quotes c (before c mem)
  · exact fun c mem => identifiers c (h.chars c mem)
  · exact fun c mem => quotes c (after c mem)

theorem trimmed (h : Spells w x) : Text.Trimmed w := by
  have solid : ∀ c ∈ w, Text.isBlank c = false := by
    refine h.forall_mem (fun c inside => ?_) fun c quote => ?_
    · exact forall_identifierChar (p := fun c => Text.isBlank c = false) (by decide) inside
    · rcases eq_or_eq_of_isNameQuote quote with rfl | rfl <;> decide
  exact ⟨fun c hc => solid c (List.mem_of_mem_head? hc),
    fun c hc => solid c (List.mem_of_getLast? hc)⟩

/-- Without its quotes, the text is the identifier. -/
theorem unquote_eq (h : Spells w x) : Text.unquote w = x := by
  have trimmed := h.trimmed
  obtain ⟨a, b, rfl, before, after⟩ := h.quoted
  have bare : ∀ c ∈ x, Text.isNameQuote c = false := fun c hc =>
    forall_identifierChar (p := fun c => Text.isNameQuote c = false) (by decide) (h.chars c hc)
  have front : (a ++ (x ++ b)).dropWhile Text.isNameQuote = x ++ b := by
    rw [List.dropWhile_append_of_pos before]
    refine Text.dropWhile_eq_self fun c hc => ?_
    cases x with
    | nil => exact absurd rfl h.nonempty
    | cons d x => exact Option.some.inj hc ▸ bare d List.mem_cons_self
  rw [Text.unquote, trimmed.trim_eq, Text.dropAround, List.append_assoc, front,
    Text.dropEndWhile_append_of_all after,
    Text.dropEndWhile_eq_self fun c hc => bare c (List.mem_of_getLast? hc)]

/-- The text holds characters of identifiers and quotes only. -/
theorem notMem (h : Spells w x) {c : Char} (outside : identifierChar.contains c = false)
    (bare : Text.isNameQuote c = false) : c ∉ w := by
  have other : ∀ d ∈ w, d ≠ c := by
    refine h.forall_mem ?_ ?_
    · rintro d inside rfl
      exact absurd inside (Bool.eq_false_iff.1 outside)
    · rintro d quote rfl
      exact absurd quote (Bool.eq_false_iff.1 bare)
  exact fun mem => other c mem rfl

theorem dot_notMem (h : Spells w x) : '.' ∉ w :=
  h.notMem (by decide) (by decide)

end Spells

variable {s t : Place Operand} {w : List Char}

/-- Whether a quote is read or not, only quotes are taken. -/
theorem mem_places_nameQuote (h : t ∈ (orNothing nameQuote).places s) :
    ∃ a, (∀ c ∈ a, Text.isNameQuote c = true) ∧ s.rest = a ++ t.rest := by
  rcases List.mem_append.1 h with h | h
  · obtain ⟨c, inside, rest, -, -⟩ := mem_places_char h
    refine ⟨[c], ?_, rest⟩
    intro d hd
    exact List.mem_singleton.1 hd ▸ isNameQuote_of_contains inside
  · rw [places_empty, List.mem_singleton] at h
    exact ⟨[], by simp, by rw [h, List.nil_append]⟩

/-- A reading of an identifier takes a text that spells one. -/
theorem mem_places_identifier (h : t ∈ identifier.places s) :
    ∃ w x, Spells w x ∧ s.rest = w ++ t.rest := by
  obtain ⟨v, hv, ht⟩ := List.mem_flatMap.1 h
  obtain ⟨u, hu, hv⟩ := List.mem_flatMap.1 hv
  obtain ⟨a, before, first⟩ := mem_places_nameQuote hu
  obtain ⟨b, after, last⟩ := mem_places_nameQuote ht
  obtain ⟨x, nonempty, chars, middle⟩ := mem_places_some1 hv
  refine ⟨a ++ x ++ b, x, ⟨nonempty, chars, a, b, rfl, before, after⟩, ?_⟩
  rw [first, middle, last]
  simp

/-- Whatever is read as an identifier spells some name. -/
theorem spells_of_readsText (h : identifier.ReadsText w) : ∃ x, Spells w x := by
  obtain ⟨s, t, ht, rest⟩ := h
  obtain ⟨v, x, spells, rest'⟩ := mem_places_identifier ht
  have same : w = v := List.append_cancel_right (rest.symm.trans rest')
  exact ⟨x, same ▸ spells⟩

/-- After an identifier there may come a dot and another one. -/
theorem mem_places_furtherName (h : t ∈ (orNothing (literally '.' ++ identifier)).places s) :
    s.rest = t.rest ∨ ∃ w x, Spells w x ∧ s.rest = '.' :: (w ++ t.rest) := by
  rcases List.mem_append.1 h with h | h
  · obtain ⟨u, hu, ht⟩ := List.mem_flatMap.1 h
    obtain ⟨c, inside, rest, -, -⟩ := mem_places_char hu
    obtain ⟨w, x, spells, rest'⟩ := mem_places_identifier ht
    have dot : c = '.' := List.mem_singleton.1 (List.contains_iff_mem.1 inside)
    exact .inr ⟨w, x, spells, by rw [rest, rest', dot]⟩
  · rw [places_empty, List.mem_singleton] at h
    exact .inl (by rw [h])

/-- The text of a qualified name spells an identifier, or two with a dot between them. -/
theorem readsText_qualifiedName (h : qualifiedName.ReadsText w) :
    (∃ x, Spells w x) ∨ ∃ u v x y, w = u ++ '.' :: v ∧ Spells u x ∧ Spells v y := by
  obtain ⟨s, t, ht, rest⟩ := h
  obtain ⟨p, hp, ht⟩ := List.mem_flatMap.1 ht
  obtain ⟨u, x, first, before⟩ := mem_places_identifier hp
  rcases mem_places_furtherName ht with same | ⟨v, y, second, after⟩
  · have text : w = u := List.append_cancel_right (rest.symm.trans (before.trans (by rw [same])))
    exact .inl ⟨x, text ▸ first⟩
  · have text : w ++ t.rest = (u ++ '.' :: v) ++ t.rest := by
      rw [← rest, before, after]
      simp
    exact .inr ⟨u, v, x, y, List.append_cancel_right text, first, second⟩

/-- What holds of characters of identifiers, of quotes and of dots holds of every character of a
qualified name. -/
theorem forall_mem_of_readsText_qualifiedName {p : Char → Prop}
    (identifiers : ∀ c, identifierChar.contains c = true → p c) (quotes : p '\x22' ∧ p '\x60')
    (dot : p '.') (h : qualifiedName.ReadsText w) : w ≠ [] ∧ ∀ c ∈ w, p c := by
  have quote : ∀ c, Text.isNameQuote c = true → p c := by
    intro c quote
    rcases eq_or_eq_of_isNameQuote quote with rfl | rfl
    · exact quotes.1
    · exact quotes.2
  rcases readsText_qualifiedName h with ⟨x, spells⟩ | ⟨u, v, x, y, rfl, first, second⟩
  · exact ⟨spells.ne_nil, spells.forall_mem identifiers quote⟩
  · refine ⟨by simp, List.forall_mem_append.2 ⟨first.forall_mem identifiers quote, ?_⟩⟩
    exact List.forall_mem_cons.2 ⟨dot, second.forall_mem identifiers quote⟩

/-- The text of a path of a column spells an identifier after that of a qualified name. -/
theorem readsText_columnPath (h : columnPath.ReadsText w) :
    ∃ u v y, w = u ++ '.' :: v ∧ Spells v y ∧
      ((∃ x, Spells u x) ∨ ∃ a b x z, u = a ++ '.' :: b ∧ Spells a x ∧ Spells b z) := by
  obtain ⟨s, t, ht, rest⟩ := h
  obtain ⟨r, hr, ht⟩ := List.mem_flatMap.1 ht
  obtain ⟨q, hq, hr⟩ := List.mem_flatMap.1 hr
  obtain ⟨p, hp, hq⟩ := List.mem_flatMap.1 hq
  obtain ⟨a, x, first, before⟩ := mem_places_identifier hp
  obtain ⟨c, inside, dot, -, -⟩ := mem_places_char hq
  obtain ⟨b, y, second, middle⟩ := mem_places_identifier hr
  have isDot : c = '.' := List.mem_singleton.1 (List.contains_iff_mem.1 inside)
  rcases mem_places_furtherName ht with same | ⟨d, z, third, after⟩
  · have text : w ++ t.rest = (a ++ '.' :: b) ++ t.rest := by
      rw [← rest, before, dot, middle, same, isDot]
      simp
    exact ⟨a, b, y, List.append_cancel_right text, second, .inl ⟨x, first⟩⟩
  · have text : w ++ t.rest = (a ++ '.' :: b ++ '.' :: d) ++ t.rest := by
      rw [← rest, before, dot, middle, after, isDot]
      simp
    exact ⟨a ++ '.' :: b, d, z, List.append_cancel_right text, third,
      .inr ⟨a, b, x, y, rfl, first, second⟩⟩

end Sql

/-! ## Names -/

/-- A text of characters of identifiers. -/
def IsIdentifier (x : String) : Prop :=
  ∀ c ∈ x.toList, Sql.identifierChar.contains c = true

/-- A name that is spelled can stand without quotes. -/
theorem Sql.Spells.bareName {w x : List Char} (h : Sql.Spells w x) :
    BareName (String.ofList x) where
  nonempty := by
    rw [String.toList_ofList]
    exact h.nonempty
  chars c hc := by
    rw [String.toList_ofList] at hc
    exact h.chars c hc

namespace ObjectName

/-- The schema, if there is one, and the name. -/
def parts (n : ObjectName) : List String :=
  n.schema.toList ++ [n.name]

theorem isIdentifier_parts {n : ObjectName} (h : BareObject n) : ∀ x ∈ n.parts, IsIdentifier x := by
  intro x mem
  rcases List.mem_append.1 mem with mem | mem
  · exact (h.schema x (Option.mem_toList.1 mem)).chars
  · exact List.mem_singleton.1 mem ▸ h.name.chars

theorem ofChars_of_spells {w x : List Char} (h : Sql.Spells w x) :
    ofChars w = ⟨none, String.ofList x⟩ := by
  rw [ofChars, Text.pieces_eq_singleton h.dot_notMem]
  simp only [List.map_cons, List.map_nil, h.unquote_eq]
  rfl

/-- Two spelled names with a dot between are a schema and a name. -/
theorem ofChars_of_spells_pair {u v x y : List Char} (hu : Sql.Spells u x) (hv : Sql.Spells v y) :
    ofChars (u ++ '.' :: v) = ⟨some (String.ofList x), String.ofList y⟩ := by
  rw [ofChars, Text.pieces_append hu.dot_notMem, Text.pieces_eq_singleton hv.dot_notMem]
  simp only [List.map_cons, List.map_nil, hu.unquote_eq, hv.unquote_eq]
  rfl

/-- A name that a statement has in a place for qualified names is bare. -/
theorem bareObject_ofChars {w : List Char} (h : (∃ x, Sql.Spells w x) ∨
    ∃ u v x y, w = u ++ '.' :: v ∧ Sql.Spells u x ∧ Sql.Spells v y) : BareObject (ofChars w) := by
  rcases h with ⟨x, spells⟩ | ⟨u, v, x, y, rfl, first, second⟩
  · rw [ofChars_of_spells spells]
    exact ⟨spells.bareName, by simp⟩
  · rw [ofChars_of_spells_pair first second]
    refine ⟨second.bareName, fun s hs => ?_⟩
    obtain rfl := Option.some.inj hs
    exact first.bareName

end ObjectName

theorem BareName.spells {name : String} (h : BareName name) :
    Sql.Spells name.toList name.toList where
  nonempty := h.nonempty
  chars := h.chars
  quoted := ⟨[], [], by simp, by simp, by simp⟩

theorem PlainName.spells {name : String} (h : PlainName name) :
    Sql.Spells name.toList name.toList :=
  h.bare.spells

namespace Sql

/-! ## Operands -/

section

variable {place : Match Operand} {operand : Operand} {w x rest : List Char} {name : String}

/-- The identifier of an operand whose text spells it. -/
theorem identifierAt_of_spells (h : Spells w x)
    (found : place.marked.lookup operand = some ⟨w ++ rest, rest⟩) :
    identifierAt place operand = x := by
  rw [identifierAt, Match.text, Match.text?, found, Option.map_some, Span.text_append,
    Option.getD_some, h.unquote_eq]

/-- The object of an operand is named by what the operand spells. -/
theorem objectAt_of_spells (h : Spells w x)
    (found : place.marked.lookup operand = some ⟨w ++ rest, rest⟩) :
    objectAt place operand = ⟨none, String.ofList x⟩ := by
  rw [objectAt, Match.text, Match.text?, found, Option.map_some, Span.text_append,
    Option.getD_some, ObjectName.ofChars_of_spells h]

theorem objectAt_of_bareObject {n : ObjectName} (h : BareObject n)
    (found : place.marked.lookup operand = some ⟨n.render.toList ++ rest, rest⟩) :
    objectAt place operand = n := by
  rw [objectAt, Match.text, Match.text?, found, Option.map_some, Span.text_append,
    Option.getD_some, ofChars_render h]

theorem objectAt_of_plainName (plain : PlainName name)
    (found : place.marked.lookup operand = some ⟨name.toList ++ rest, rest⟩) :
    objectAt place operand = ⟨none, name⟩ :=
  objectAt_of_bareObject plain.bare.bareObject found

end

variable {p : Phrase} {stmt : List Char} {m : Match Operand}

/-- An operand that is a qualified name wherever it is marked, and always is, is bare. -/
theorem bareObject_objectAt (operand : Operand) (h : p.match? stmt = some m)
    (parts : p.markedParts operand = [qualifiedName]) (marks : p.alwaysMarks operand = true) :
    BareObject (objectAt m operand) := by
  obtain ⟨w, found⟩ := m.exists_text? h marks
  obtain ⟨q, hq, reads⟩ := m.readsText h found
  rw [parts, List.mem_singleton] at hq
  rw [objectAt, Match.text, found]
  exact ObjectName.bareObject_ofChars (readsText_qualifiedName (hq ▸ reads))

/-- The text of an operand that is an identifier wherever it is marked. -/
theorem bareName_of_text? {operand : Operand} {w : List Char} (h : p.match? stmt = some m)
    (parts : p.markedParts operand = [identifier]) (found : m.text? operand = some w) :
    BareName (String.ofList (Text.unquote w)) := by
  obtain ⟨q, hq, reads⟩ := m.readsText h found
  rw [parts, List.mem_singleton] at hq
  obtain ⟨x, spells⟩ := spells_of_readsText (hq ▸ reads)
  rw [spells.unquote_eq]
  exact spells.bareName

/-- An operand that is always an identifier is a bare name without its quotes. -/
theorem bareName_identifierAt (operand : Operand) (h : p.match? stmt = some m)
    (parts : p.markedParts operand = [identifier]) (marks : p.alwaysMarks operand = true) :
    BareName (String.ofList (identifierAt m operand)) := by
  obtain ⟨w, found⟩ := m.exists_text? h marks
  rw [identifierAt, Match.text, found]
  exact bareName_of_text? h parts found

/-- An identifier that may be missing is bare if it is there. -/
theorem bareName_identifierAt_of_nonempty (operand : Operand) (h : p.match? stmt = some m)
    (parts : p.markedParts operand = [identifier])
    (some_ : (identifierAt m operand).isEmpty = false) :
    BareName (String.ofList (identifierAt m operand)) := by
  rw [identifierAt, Match.text] at some_ ⊢
  cases found : m.text? operand with
  | none =>
    rw [found] at some_
    exact absurd some_ (by decide)
  | some w => exact bareName_of_text? h parts found

/-- Cut at its last dot, a path of a column is a qualified name and an identifier. -/
theorem bare_cutAtLast {operand : Operand} (h : p.match? stmt = some m)
    (parts : p.markedParts operand = [columnPath]) {table column : List Char}
    (cut : Text.cutAtLast '.' (m.text operand) = some (table, column)) :
    BareObject (ObjectName.ofChars table) ∧ BareName (String.ofList (Text.unquote column)) := by
  revert cut
  refine m.text_induction h operand (r := fun w => Text.cutAtLast '.' w = some (table, column) →
    BareObject (ObjectName.ofChars table) ∧ BareName (String.ofList (Text.unquote column)))
    (fun cut => nomatch cut) fun q hq w reads cut => ?_
  rw [parts, List.mem_singleton] at hq
  obtain ⟨u, v, y, rfl, spells, name⟩ := readsText_columnPath (hq ▸ reads)
  rw [Text.cutAtLast_append spells.dot_notMem] at cut
  obtain ⟨rfl, rfl⟩ := Prod.mk.inj (Option.some.inj cut)
  rw [spells.unquote_eq]
  exact ⟨ObjectName.bareObject_ofChars name, spells.bareName⟩

end Sql

namespace Statement

/-- The names in a statement that are not names of objects: columns, partitions, new names. -/
def otherNames : Statement → List String
  | addPartition _ partition _ => partition.toList
  | addColumn _ column _ _ => [column]
  | dropColumn _ column _ => [column]
  | modifyColumn _ column _ _ => [column]
  | renameColumn _ source target => [source, target]
  | renameBare _ source target => [source, target]
  | commentOnColumn _ column _ => [column]
  | _ => []

/-- All names in a statement, those of objects with their schemas. -/
def identifiers (s : Statement) : List String :=
  s.objectNames.flatMap ObjectName.parts ++ s.otherNames

/-- All names in a statement are made of characters of identifiers. -/
def HasIdentifiers (s : Statement) : Prop :=
  ∀ x ∈ s.identifiers, IsIdentifier x

/-- All names of a statement are identifiers, those of objects part by part. -/
theorem hasIdentifiers_iff (s : Statement) :
    s.HasIdentifiers ↔ (∀ n ∈ s.objectNames, ∀ x ∈ n.parts, IsIdentifier x) ∧
      ∀ x ∈ s.otherNames, IsIdentifier x := by
  simp only [HasIdentifiers, identifiers, List.mem_append, List.mem_flatMap]
  constructor
  · intro h
    exact ⟨fun n hn x hx => h x (.inl ⟨n, hn, hx⟩), fun x hx => h x (.inr hx)⟩
  · rintro ⟨objects, others⟩ x (⟨n, hn, hx⟩ | hx)
    · exact objects n hn x hx
    · exact others x hx

/-- The columns that a statement adds or drops. -/
def actionColumns : Statement → List String
  | addColumn _ column _ _ => [column]
  | dropColumn _ column _ => [column]
  | _ => []

/-- The names in a statement are bare, and no column that it adds or drops has the name of a
clause. -/
structure WellNamed (s : Statement) : Prop where
  objects : ∀ n ∈ s.objectNames, BareObject n
  others : ∀ x ∈ s.otherNames, BareName x
  columns : ∀ x ∈ s.actionColumns, Text.isOneOf Sql.clauseWords x.toList = false

theorem WellNamed.hasIdentifiers {s : Statement} (h : s.WellNamed) : s.HasIdentifiers :=
  s.hasIdentifiers_iff.2
    ⟨fun n hn => ObjectName.isIdentifier_parts (h.objects n hn), fun x hx => (h.others x hx).chars⟩

end Statement

namespace Sql

open Statement

/-- A statement that a rule makes is made of what the phrase of the rule has marked, and what it
marks are names. -/
theorem wellNamed_of_rule {rule : List Char → Option Statement} (h : rule ∈ rules)
    {stmt : List Char} {s : Statement} (hs : rule stmt = some s) : s.WellNamed := by
  suffices named : (∀ n ∈ s.objectNames, BareObject n) ∧ (∀ x ∈ s.otherNames, BareName x) ∧
      ∀ x ∈ s.actionColumns, Text.isOneOf clauseWords x.toList = false from
    ⟨named.1, named.2.1, named.2.2⟩
  simp only [rules, List.mem_cons, List.not_mem_nil, or_false] at h
  rcases h with rfl | rfl | rfl | rfl | rfl | rfl | rfl | rfl | rfl | rfl | rfl | rfl | rfl | rfl |
    rfl | rfl | rfl | rfl | rfl | rfl | rfl
  all_goals
    simp only [setSearchPath?, createTable?, dropTable?, addPartition?, attachPartition?,
      detachPartition?, addColumn?, dropColumn?, modifyColumn?, renameTable?, renameColumn?,
      renameBare?, renameTo?, createIndex?, dropIndex?, createView?, dropView?, renameView?,
      commentOnTable?, commentOnColumn?, commentOnView?, Option.bind_eq_bind,
      Option.bind_eq_some_iff, Option.pure_def, Option.ite_none_left_eq_some, Option.some.injEq]
      at hs
    obtain ⟨m, hm, hs⟩ := hs
    have object := bareObject_objectAt .object hm
    have target := bareObject_objectAt .target hm
    have column := bareName_identifierAt .column hm
    have newName := bareName_identifierAt .target hm
  -- The cases are in the order of the rules.
  · obtain ⟨-, -, -, -, rfl⟩ := hs
    simp [objectNames, otherNames, actionColumns]
  · obtain rfl := hs
    simpa [objectNames, otherNames, actionColumns] using object rfl rfl
  · obtain rfl := hs
    simpa [objectNames, otherNames, actionColumns] using object rfl rfl
  · have partition := bareName_identifierAt_of_nonempty .partition hm rfl
    split at hs
    · obtain rfl := Option.some.inj hs
      simpa [objectNames, otherNames, actionColumns] using object rfl rfl
    · rename_i named
      split at hs
      · obtain rfl := Option.some.inj hs
        simpa [objectNames, otherNames, actionColumns] using object rfl rfl
      · obtain rfl := Option.some.inj hs
        simpa [objectNames, otherNames, actionColumns] using
          ⟨object rfl rfl, partition (Bool.eq_false_iff.2 named)⟩
  · obtain rfl := hs
    simpa [objectNames, otherNames, actionColumns] using ⟨object rfl rfl, target rfl rfl⟩
  · obtain rfl := hs
    simpa [objectNames, otherNames, actionColumns] using ⟨object rfl rfl, target rfl rfl⟩
  · obtain ⟨refused, rfl⟩ := hs
    rw [Bool.or_eq_true, not_or, Bool.not_eq_true, Bool.not_eq_true] at refused
    simpa [objectNames, otherNames, actionColumns] using
      ⟨object rfl rfl, column rfl rfl, refused.2⟩
  · obtain ⟨refused, rfl⟩ := hs
    rw [Bool.or_eq_true, not_or, Bool.not_eq_true, Bool.not_eq_true] at refused
    simpa [objectNames, otherNames, actionColumns] using
      ⟨object rfl rfl, column rfl rfl, refused.2⟩
  · obtain ⟨-, rfl⟩ := hs
    simpa [objectNames, otherNames, actionColumns] using ⟨object rfl rfl, column rfl rfl⟩
  · obtain rfl := hs
    simpa [objectNames, otherNames, actionColumns] using ⟨object rfl rfl, target rfl rfl⟩
  · obtain rfl := hs
    simpa [objectNames, otherNames, actionColumns] using
      ⟨object rfl rfl, column rfl rfl, newName rfl rfl⟩
  · obtain ⟨-, rfl⟩ := hs
    simpa [objectNames, otherNames, actionColumns] using
      ⟨object rfl rfl, column rfl rfl, newName rfl rfl⟩
  · obtain rfl := hs
    simpa [objectNames, otherNames, actionColumns] using ⟨object rfl rfl, target rfl rfl⟩
  · obtain rfl := hs
    simpa [objectNames, otherNames, actionColumns] using ⟨object rfl rfl, target rfl rfl⟩
  · obtain rfl := hs
    simpa [objectNames, otherNames, actionColumns] using object rfl rfl
  · obtain rfl := hs
    simpa [objectNames, otherNames, actionColumns] using object rfl rfl
  · obtain rfl := hs
    simpa [objectNames, otherNames, actionColumns] using object rfl rfl
  · obtain rfl := hs
    simpa [objectNames, otherNames, actionColumns] using ⟨object rfl rfl, target rfl rfl⟩
  · obtain rfl := hs
    simpa [objectNames, otherNames, actionColumns] using object rfl rfl
  · obtain ⟨⟨table, name⟩, cut, rfl⟩ := hs
    simpa [objectNames, otherNames, actionColumns] using bare_cutAtLast hm rfl cut
  · obtain rfl := hs
    simpa [objectNames, otherNames, actionColumns] using object rfl rfl

end Sql

namespace Statement

/-- Whatever text a statement is recognized from, its names are bare. -/
theorem wellNamed_ofChars (text : List Char) : (ofChars text).WellNamed := by
  obtain ⟨preview, other⟩ | ⟨rule, mem, hs⟩ := unrecognized_or_rule text
  · rw [other]
    exact ⟨List.forall_mem_nil _, List.forall_mem_nil _, List.forall_mem_nil _⟩
  · exact Sql.wellNamed_of_rule mem hs

/-- So its names are made of characters of identifiers. -/
theorem hasIdentifiers_ofChars (text : List Char) : (ofChars text).HasIdentifiers :=
  (wellNamed_ofChars text).hasIdentifiers

/-- Whatever a text is recognized as, its names are identifiers. -/
theorem hasIdentifiers_ofText (text : String) : (ofText text).HasIdentifiers :=
  hasIdentifiers_ofChars text.toList

end Statement

end Rollback

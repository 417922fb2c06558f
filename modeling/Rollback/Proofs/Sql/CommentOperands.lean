import Rollback.Proofs.Sql.CommentStatements
import Rollback.Proofs.Sql.Identifiers

/-!
# Operands of statements about comments

Whatever text a statement about a comment on a table or column is recognized from, its names are
bare and its comment can stand between quotes again. So what is written with these names and
comments is recognized as it is meant.

- `written_of_readsText`: what is marked as the text of a comment can be written again
- `Statement.HasCommentOperands`: bare names and a comment that can be written
- `Statement.hasCommentOperands_ofChars`: all statements have such operands
-/

set_option autoImplicit false

namespace Rollback

open Pattern

namespace Sql

variable {w : List Char}

/-- One turn puts a plain character, a doubled quote or an escaped character in front. -/
theorem written_of_mem_places_turn {s t : Place Operand} (ht : t ∈ commentTurn.places s)
    {w : List Char} (more : Written w) : ∃ v, Written (v ++ w) ∧ s.rest = v ++ t.rest := by
  rcases List.mem_append.1 ht with ht | ht
  · obtain ⟨c, inside, rest, -, -⟩ := mem_places_char ht
    have other : c ≠ '\x27' ∧ c ≠ '\\' := by simpa [CharSet.contains] using inside
    exact ⟨[c], .plain other.1 other.2 more, rest⟩
  · rcases List.mem_append.1 ht with ht | ht
    · obtain ⟨u, hu, ht⟩ := List.mem_flatMap.1 ht
      obtain ⟨c, first, rest, -, -⟩ := mem_places_char hu
      obtain ⟨d, second, rest', -, -⟩ := mem_places_char ht
      obtain rfl : c = '\x27' := by simpa [CharSet.contains] using first
      obtain rfl : d = '\x27' := by simpa [CharSet.contains] using second
      exact ⟨['\x27', '\x27'], .doubled more, by rw [rest, rest']; rfl⟩
    · obtain ⟨u, hu, ht⟩ := List.mem_flatMap.1 ht
      obtain ⟨c, first, rest, -, -⟩ := mem_places_char hu
      obtain ⟨d, -, rest', -, -⟩ := mem_places_char ht
      obtain rfl : c = '\\' := by simpa [CharSet.contains] using first
      exact ⟨['\\', d], .escaped more, by rw [rest, rest']; rfl⟩

/-- What is marked as the text of a comment can be written between quotes again. -/
theorem written_of_readsText (h : (many commentTurn).ReadsText w) : Written w := by
  obtain ⟨s, t, ht, rest⟩ := h
  have turns : ∃ v, Written v ∧ s.rest = v ++ t.rest := by
    refine turnPlaces_induction (r := fun s t => ∃ v, Written v ∧ s.rest = v ++ t.rest)
      (fun s => ⟨[], .nil, rfl⟩) ?_ s.rest ht
    rintro s t u first ⟨v, written, rest⟩
    obtain ⟨a, written', rest'⟩ := written_of_mem_places_turn first written
    exact ⟨a ++ v, written', by rw [rest', rest, List.append_assoc]⟩
  obtain ⟨v, written, rest'⟩ := turns
  have same : w = v := List.append_cancel_right (rest.symm.trans rest')
  exact same ▸ written

variable {p : Phrase} {stmt : List Char} {m : Match Operand}

/-- The comment of a match can be written between quotes again. -/
theorem written_commentAt? (h : p.match? stmt = some m)
    (parts : p.markedParts .comment = [many commentTurn]) :
    ∀ x ∈ commentAt? m, Written x.toList := by
  intro x hx
  obtain ⟨w, found, rfl⟩ := Option.map_eq_some_iff.1 hx
  obtain ⟨q, hq, reads⟩ := m.readsText h found
  rw [parts, List.mem_singleton] at hq
  rw [String.toList_ofList]
  exact written_of_readsText (hq ▸ reads)

end Sql

namespace Statement

open Sql

/-- A comment on a table or column has bare names and a text that can be written between quotes. -/
def HasCommentOperands : Statement → Prop
  | commentOnTable table comment => BareObject table ∧ ∀ x ∈ comment, Written x.toList
  | commentOnColumn table column comment =>
    BareObject table ∧ BareName column ∧ ∀ x ∈ comment, Written x.toList
  | _ => True

end Statement

namespace Sql

open Statement

/-- The rule for comments on tables takes bare names and a comment that can be written again. -/
theorem hasCommentOperands_commentOnTable? {stmt : List Char} {s : Statement}
    (hs : commentOnTable? stmt = some s) : s.HasCommentOperands := by
  rw [commentOnTable?, Option.bind_eq_bind, Option.bind_eq_some_iff] at hs
  obtain ⟨m, hm, hs⟩ := hs
  obtain rfl := Option.some.inj hs
  exact ⟨bareObject_objectAt .object hm rfl rfl, written_commentAt? hm rfl⟩

theorem hasCommentOperands_commentOnColumn? {stmt : List Char} {s : Statement}
    (hs : commentOnColumn? stmt = some s) : s.HasCommentOperands := by
  simp only [commentOnColumn?, Option.bind_eq_bind, Option.bind_eq_some_iff, Option.pure_def] at hs
  obtain ⟨m, hm, ⟨table, column⟩, cut, hs⟩ := hs
  obtain rfl := Option.some.inj hs
  obtain ⟨object, name⟩ := bare_cutAtLast hm rfl cut
  exact ⟨object, name, written_commentAt? hm rfl⟩

/-- Every rule but these two makes a statement without such operands. -/
theorem hasCommentOperands_of_rule {rule : List Char → Option Statement} (h : rule ∈ rules)
    {stmt : List Char} {s : Statement} (hs : rule stmt = some s) : s.HasCommentOperands := by
  obtain rfl := eq_ruleOf_of_rule h hs
  cases s with
  | commentOnTable => exact hasCommentOperands_commentOnTable? hs
  | commentOnColumn => exact hasCommentOperands_commentOnColumn? hs
  | _ => trivial

end Sql

namespace Statement

/-- Whatever text a statement about a comment is recognized from, its names are bare and its comment
can be written between quotes. -/
theorem hasCommentOperands_ofChars (text : List Char) : (ofChars text).HasCommentOperands := by
  obtain ⟨preview, other⟩ | ⟨rule, mem, hs⟩ := unrecognized_or_rule text
  · rw [other]
    trivial
  · exact Sql.hasCommentOperands_of_rule mem hs

end Statement

end Rollback

import Rollback.Proofs.Sql.AlterLines
import Rollback.Reversal.Statement

/-!
# Statements that undo each other

A statement that creates, adds, attaches or renames something is undone by one other statement. It
is written without knowledge of a catalog, and what is written is recognized again as that
statement. So reversals of renamings can be reversed themselves.

- `Statement.inverse?`: the statement that undoes another one
- `Statement.inverse?_of_isRenaming`: the inverse of a renaming is undone by that renaming
- `exists_undo_of_inverse?`: the inverse is written and recognized
- `undo_recognized`: for the statements of all texts, with the renamings undone twice
-/

set_option autoImplicit false

namespace Rollback

open Sql

namespace Statement

/-- The statement that undoes one that creates, adds, attaches or renames something. An object that
is renamed keeps its schema, so this is for new names without one. -/
def inverse? : Statement → Option Statement
  | createTable name => some (dropTable name)
  | addColumn table column _ written => some (dropColumn table column written)
  | attachPartition table child => some (detachPartition table child)
  | createIndex name _ _ => some (dropIndex name)
  | createView name => some (dropView name)
  | renameTable source target => some (renameTable target source)
  | renameColumn table source target => some (renameColumn table target source)
  | renameTo table ⟨none, name⟩ => some (renameTo (table.withName name) ⟨none, table.name⟩)
  | renameView view ⟨none, name⟩ => some (renameView (view.withName name) ⟨none, view.name⟩)
  | _ => none

/-- Whether the statement gives something a new name and says what it is. -/
def isRenaming : Statement → Bool
  | renameTable .. => true
  | renameColumn .. => true
  | renameTo .. => true
  | renameView .. => true
  | _ => false

/-- The inverse of a renaming is undone by that renaming. -/
theorem inverse?_of_isRenaming {s t : Statement} (renames : s.isRenaming = true)
    (h : s.inverse? = some t) : t.inverse? = some s := by
  -- The names are exchanged twice, and an object that is renamed keeps its schema both times.
  cases s with
  | renameTable source target => exact Option.some.inj h ▸ rfl
  | renameColumn table source target => exact Option.some.inj h ▸ rfl
  | renameTo table target =>
    obtain ⟨schema, name⟩ := target
    cases schema with
    | none => exact Option.some.inj h ▸ rfl
    | some schema => exact nomatch h
  | renameView view target =>
    obtain ⟨schema, name⟩ := target
    cases schema with
    | none => exact Option.some.inj h ▸ rfl
    | some schema => exact nomatch h
  | _ => exact absurd renames Bool.false_ne_true

/-- The text of the statement that undoes such a one. -/
def inverseLine : Statement → List Char
  | createTable name => dropLine "TABLE" name.render
  | addColumn table column _ written => columnDropLine table.render column written
  | attachPartition table child => detachmentLine table.render child.render
  | createIndex name _ _ => dropLine "INDEX" name.render
  | createView name => dropLine "VIEW" name.render
  | renameTable source target => renameLine target.render source.render [';']
  | renameColumn table source target => columnRenamingLine table.render target source
  | renameTo table target => renamingLine "TABLE" (table.withName target.name).render table.name
  | renameView view target => renamingLine "VIEW" (view.withName target.name).render view.name
  | _ => []

/-- A name of a statement can stand in the place of another one. -/
theorem WellNamed.bareObject_withName {s : Statement} (named : s.WellNamed) {n m : ObjectName}
    (object : n ∈ s.objectNames) (other : m ∈ s.objectNames) : BareObject (n.withName m.name) where
  name := (named.objects m other).name
  schema := (named.objects n object).schema

/-- The text is recognized as the statement it is meant to be. -/
theorem ofChars_inverseLine {s t : Statement} (named : s.WellNamed) (h : s.inverse? = some t) :
    ofChars s.inverseLine = t := by
  have objects := named.objects
  have others := named.others
  cases s with
  | createTable name =>
    have line := ofChars_tableDrop (objects name (by simp [objectNames]))
    rw [toList_tableDrop, List.append_assoc] at line
    exact Option.some.inj h ▸ line
  | addColumn table column definition written =>
    have other := named.columns column (by simp [actionColumns])
    have line := ofChars_columnDrop (objects table (by simp [objectNames]))
      (others column (by simp [otherNames])) other written
    exact Option.some.inj h ▸ line
  | attachPartition table child =>
    have line := ofChars_detachment (objects table (by simp [objectNames]))
      (objects child (by simp [objectNames]))
    exact Option.some.inj h ▸ line
  | createIndex name table unique =>
    exact Option.some.inj h ▸ ofChars_indexDrop (objects name (by simp [objectNames]))
  | createView name =>
    exact Option.some.inj h ▸ ofChars_viewDrop (objects name (by simp [objectNames]))
  | renameTable source target =>
    have line := ofChars_renameLine (objects target (by simp [objectNames]))
      (objects source (by simp [objectNames])) rfl (trimmed_renameLine _ _)
    exact Option.some.inj h ▸ line
  | renameColumn table source target =>
    have line := ofChars_columnRenaming (objects table (by simp [objectNames]))
      (others target (by simp [otherNames])) (others source (by simp [otherNames]))
    exact Option.some.inj h ▸ line
  | renameTo table target =>
    have object := named.bareObject_withName (n := table) (m := target) (by simp [objectNames])
      (by simp [objectNames])
    have line := ofChars_tableRenaming object (objects table (by simp [objectNames])).name
    obtain ⟨schema, name⟩ := target
    cases schema with
    | none => exact Option.some.inj h ▸ line
    | some schema => exact absurd h.symm (Option.some_ne_none t)
  | renameView view target =>
    have object := named.bareObject_withName (n := view) (m := target) (by simp [objectNames])
      (by simp [objectNames])
    have line := ofChars_viewRenaming object (objects view (by simp [objectNames])).name
    obtain ⟨schema, name⟩ := target
    cases schema with
    | none => exact Option.some.inj h ▸ line
    | some schema => exact absurd h.symm (Option.some_ne_none t)
  | _ => exact absurd h.symm (Option.some_ne_none t)

end Statement

namespace Reverser

open Statement

variable {s t : Statement}

/-- Without a catalog, that text is what is written. -/
theorem exists_toList_undo (h : s.inverse? = some t) (defaults : TableDefaults)
    (searchPath : Option String) :
    ∃ sql, (⟨none, defaults⟩ : Reverser).undo searchPath s = .statement sql ∧
      sql.toList = s.inverseLine := by
  cases s with
  | createTable name =>
    refine ⟨_, rfl, ?_⟩
    rw [toList_tableDrop, List.append_assoc]
    rfl
  | addColumn table column definition written =>
    cases written
    all_goals
      refine ⟨_, rfl, ?_⟩
      simp only [toString_string, toString_name, String.toList_append, List.append_assoc]
      rfl
  | attachPartition | createIndex | createView | renameTable | renameColumn | renameTo
  | renameView =>
    refine ⟨_, rfl, ?_⟩
    simp only [toString_string, toString_name, String.toList_append, List.append_assoc]
    rfl
  | _ => exact nomatch h

/-- A statement with an inverse is undone, without any catalog, by a text that is recognized as this
inverse. -/
theorem exists_undo_of_inverse? (named : s.WellNamed) (h : s.inverse? = some t)
    (defaults : TableDefaults) (searchPath : Option String) :
    ∃ sql, (⟨none, defaults⟩ : Reverser).undo searchPath s = .statement sql ∧ ofText sql = t := by
  obtain ⟨sql, undone, text⟩ := exists_toList_undo h defaults searchPath
  exact ⟨sql, undone, by rw [ofText, text, ofChars_inverseLine named h]⟩

/-- Whatever text a statement is recognized from, if it has an inverse, then its reversal without a
catalog is a text that is recognized as that inverse. The reversal of a renaming is reversed to a
text that is recognized as the renaming. -/
theorem undo_recognized (defaults : TableDefaults) (searchPath : Option String) (stmt : String)
    (h : (ofText stmt).inverse? = some t) :
    ∃ sql, (⟨none, defaults⟩ : Reverser).undo searchPath (ofText stmt) = .statement sql ∧
      ofText sql = t ∧
      ((ofText stmt).isRenaming = true → ∀ later, ∃ again,
        (⟨none, defaults⟩ : Reverser).undo later (ofText sql) = .statement again ∧
          ofText again = ofText stmt) := by
  have named := wellNamed_ofChars stmt.toList
  obtain ⟨sql, undone, recognized⟩ := exists_undo_of_inverse? named h defaults searchPath
  refine ⟨sql, undone, recognized, fun renames later => ?_⟩
  have back : (ofText sql).inverse? = some (ofText stmt) := by
    rw [recognized]
    exact inverse?_of_isRenaming renames h
  exact exists_undo_of_inverse? (wellNamed_ofChars sql.toList) back defaults later

/-- The names may be words that the statements are made of. -/
theorem undo_recognized_keywords :
    (ofText "ALTER TABLE s.only RENAME TO \x22exists\x22").inverse? =
        some (.renameTo ⟨some "s", "exists"⟩ ⟨none, "only"⟩) ∧
      ∃ sql, (⟨none, .none⟩ : Reverser).undo none
          (ofText "ALTER TABLE s.only RENAME TO \x22exists\x22") = .statement sql ∧
        ofText sql = .renameTo ⟨some "s", "exists"⟩ ⟨none, "only"⟩ ∧
        ((ofText "ALTER TABLE s.only RENAME TO \x22exists\x22").isRenaming = true → ∀ later,
          ∃ again, (⟨none, .none⟩ : Reverser).undo later (ofText sql) = .statement again ∧
            ofText again = ofText "ALTER TABLE s.only RENAME TO \x22exists\x22") :=
  ⟨by decide +kernel, undo_recognized .none none _ (by decide +kernel)⟩

end Reverser

end Rollback

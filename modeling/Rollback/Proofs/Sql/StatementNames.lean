import Rollback.Proofs.Text.Dots
import Rollback.Sql.Recognition

/-!
# Names in statements

Each kind of statement is made by one rule, and whichever rule recognizes a statement, the names of
its objects are read from marked parts of the text.

- `Sql.ruleOf`, `Statement.ruleOf_ofChars`: the rule that makes the statements of a kind
- `Statement.objectNames`: the names of the objects in a statement
- `Statement.namesRead_ofChars`: each of them is read from some characters
-/

set_option autoImplicit false

namespace Rollback

/-! ## Rules and kinds -/

namespace Sql

/-- The rule that makes the statements of the kind of a statement. -/
def ruleOf : Statement → List Char → Option Statement
  | .setSearchPath _ => setSearchPath?
  | .createTable _ => createTable?
  | .dropTable _ => dropTable?
  | .addPartition .. => addPartition?
  | .attachPartition .. => attachPartition?
  | .detachPartition .. => detachPartition?
  | .addColumn .. => addColumn?
  | .dropColumn .. => dropColumn?
  | .modifyColumn .. => modifyColumn?
  | .renameTable .. => renameTable?
  | .renameColumn .. => renameColumn?
  | .renameBare .. => renameBare?
  | .renameTo .. => renameTo?
  | .createIndex .. => createIndex?
  | .dropIndex _ => dropIndex?
  | .createView _ => createView?
  | .dropView _ => dropView?
  | .renameView .. => renameView?
  | .commentOnTable .. => commentOnTable?
  | .commentOnColumn .. => commentOnColumn?
  | .commentOnView .. => commentOnView?
  | .unrecognized _ => fun _ => none

/-- A rule makes statements of its own kind only. -/
theorem eq_ruleOf_of_rule {rule : List Char → Option Statement} (h : rule ∈ rules)
    {stmt : List Char} {s : Statement} (hs : rule stmt = some s) : rule = ruleOf s := by
  simp only [rules, List.mem_cons, List.not_mem_nil, or_false] at h
  rcases h with rfl | rfl | rfl | rfl | rfl | rfl | rfl | rfl | rfl | rfl | rfl | rfl | rfl | rfl |
    rfl | rfl | rfl | rfl | rfl | rfl | rfl
  all_goals
    simp only [setSearchPath?, createTable?, dropTable?, addPartition?, attachPartition?,
      detachPartition?, addColumn?, dropColumn?, modifyColumn?, renameTable?, renameColumn?,
      renameBare?, renameTo?, createIndex?, dropIndex?, createView?, dropView?, renameView?,
      commentOnTable?, commentOnColumn?, commentOnView?, Option.bind_eq_bind,
      Option.bind_eq_some_iff, Option.pure_def] at hs
    obtain ⟨m, -, hs⟩ := hs
    grind [ruleOf]

end Sql

namespace Statement

/-- Blanks around a statement do not matter. -/
theorem ofChars_trim (text : List Char) : ofChars (Text.trim text) = ofChars text := by
  rw [ofChars, ofChars, (Text.trimmed_trim text).trim_eq]

/-- A text is not recognized, or a rule makes a statement of it. -/
theorem unrecognized_or_rule (text : List Char) :
    (∃ preview, ofChars text = .unrecognized preview) ∨
      ∃ rule ∈ Sql.rules, rule (Text.trim text) = some (ofChars text) := by
  rw [ofChars]
  cases found : Sql.rules.findSome? fun rule => rule (Text.trim text) with
  | none => exact .inl ⟨_, rfl⟩
  | some s => exact .inr (List.exists_of_findSome?_eq_some found)

/-- A recognized statement is made by the rule of its kind. -/
theorem ruleOf_ofChars {text : List Char} {s : Statement} (h : ofChars text = s)
    (known : s.isRecognized = true) : Sql.ruleOf s (Text.trim text) = some s := by
  subst h
  obtain ⟨preview, other⟩ | ⟨rule, mem, hs⟩ := unrecognized_or_rule text
  · rw [other] at known
    cases known
  · rw [← Sql.eq_ruleOf_of_rule mem hs]
    exact hs

/-! ## Names -/

/-- The names of the objects in a statement. -/
def objectNames : Statement → List ObjectName
  | setSearchPath _ => []
  | createTable name => [name]
  | dropTable name => [name]
  | addPartition table _ _ => [table]
  | attachPartition table child => [table, child]
  | detachPartition table child => [table, child]
  | addColumn table _ _ _ => [table]
  | dropColumn table _ _ => [table]
  | modifyColumn table _ _ _ => [table]
  | renameTable source target => [source, target]
  | renameColumn table _ _ => [table]
  | renameBare table _ _ => [table]
  | renameTo table target => [table, target]
  | createIndex name table _ => [name, table]
  | dropIndex name => [name]
  | createView name => [name]
  | dropView name => [name]
  | renameView view target => [view, target]
  | commentOnTable table _ => [table]
  | commentOnColumn table _ _ => [table]
  | commentOnView view _ => [view]
  | unrecognized _ => []

/-- All names of objects are read from characters. -/
def NamesRead (s : Statement) : Prop :=
  ∀ n ∈ s.objectNames, ∃ raw, n = ObjectName.ofChars raw

end Statement

namespace Sql

/-- The names in the statement of a rule were read by the phrase of that rule. -/
theorem namesRead_of_rule {rule : List Char → Option Statement} (h : rule ∈ rules)
    {stmt : List Char} {s : Statement} (hs : rule stmt = some s) : s.NamesRead := by
  simp only [rules, List.mem_cons, List.not_mem_nil, or_false] at h
  rcases h with rfl | rfl | rfl | rfl | rfl | rfl | rfl | rfl | rfl | rfl | rfl | rfl | rfl | rfl |
    rfl | rfl | rfl | rfl | rfl | rfl | rfl
  all_goals
    simp only [setSearchPath?, createTable?, dropTable?, addPartition?, attachPartition?,
      detachPartition?, addColumn?, dropColumn?, modifyColumn?, renameTable?, renameColumn?,
      renameBare?, renameTo?, createIndex?, dropIndex?, createView?, dropView?, renameView?,
      commentOnTable?, commentOnColumn?, commentOnView?, Option.bind_eq_bind,
      Option.bind_eq_some_iff, Option.pure_def] at hs
    obtain ⟨m, -, hs⟩ := hs
    grind [Statement.NamesRead, Statement.objectNames, objectAt]

end Sql

namespace Statement

/-- The names of the objects in a recognized statement are read from characters. -/
theorem namesRead_ofChars (text : List Char) : (ofChars text).NamesRead := by
  obtain ⟨preview, other⟩ | ⟨rule, mem, hs⟩ := unrecognized_or_rule text
  · rw [other]
    exact List.forall_mem_nil _
  · exact Sql.namesRead_of_rule mem hs

/-- The name of an object in a statement holds no dot. -/
theorem dot_notMem_name {text : List Char} {n : ObjectName}
    (h : n ∈ (ofChars text).objectNames) : '.' ∉ n.name.toList := by
  obtain ⟨raw, rfl⟩ := namesRead_ofChars text n h
  exact ObjectName.dot_notMem_name_ofChars raw

end Statement

end Rollback

import Rollback.Proofs.Schema.StoredViews
import Rollback.Reversal.Reconstruction

/-!
# Names of tables

A table keeps its name twice: with the schema as it was written last, and with the schema in lower
case as it was written first. As long as every search path is an identifier, both name the object
whose key the table is kept under, and the qualified name of the table is the one that was written.

- `Table.IsNamed`: a table that has the name of an object
- `Table.IsNamed.qualifiedName_eq`: the qualified name is the one that was written
- `Draft.KeepsNames`: what every statement preserves of the names in a draft
- `Draft.SetsBarePaths`: statements that set no other search paths than identifiers
- `exists_isNamed_afterCalls`: the tables of the draft after some calls have names
-/

set_option autoImplicit false

namespace Rollback

namespace Table

variable {t : Table} {n m : ObjectName}

/-- The table has the name of an object, as it was written, and the schema of it in lower case. -/
structure IsNamed (t : Table) (n : ObjectName) : Prop where
  bare : BareObject n
  fullName : t.fullName = n.render
  schema : t.schema = n.schema.map String.lowerCase

namespace IsNamed

/-- With a schema in it, the full name of a table is its qualified name; and so it is if the table
has no schema at all. -/
theorem qualifiedName_eq (h : t.IsNamed n) : t.qualifiedName = n.render := by
  have nonempty := h.bare.nonempty
  have bare := h.bare.name
  rw [qualifiedName, h.fullName, h.schema, String.contains_char_eq]
  obtain ⟨schema, name⟩ := n
  cases schema with
  | some s =>
    have dot : '.' ∈ (ObjectName.render ⟨some s, name⟩).toList := by
      rw [toList_render_some]
      exact List.mem_append_right _ List.mem_cons_self
    rw [if_pos (decide_eq_true dot)]
  | none =>
    have dot : '.' ∉ (ObjectName.render ⟨none, name⟩).toList := bare.notMem (by decide)
    have filled : (ObjectName.render ⟨none, name⟩).isEmpty = false :=
      String.isEmpty_eq_false_iff.2 fun empty => nonempty (congrArg String.toList empty)
    rw [if_neg (by simpa using dot), filled]
    rfl

theorem empty (bare : BareObject n) : (Table.empty n).IsNamed n :=
  ⟨bare, rfl, rfl⟩

/-- Only the names of a table matter. -/
theorem of_same {u : Table} (h : t.IsNamed n) (fullName : u.fullName = t.fullName)
    (schema : u.schema = t.schema) : u.IsNamed n :=
  ⟨h.bare, fullName.trans h.fullName, schema.trans h.schema⟩

/-- A declaration gives a table another name with the same key. -/
theorem declare (h : t.IsNamed m) (bare : BareObject n) (same : m.key = n.key) (d : Declaration) :
    (t.declare n d).IsNamed n where
  bare := bare
  fullName := rfl
  schema := by
    rw [key_eq_objectKey, key_eq_objectKey] at same
    exact h.schema.trans
      (objectKey_inj same (h.bare.name.notMem (by decide)) (bare.name.notMem (by decide))).1

end IsNamed

end Table

/-- With a search path that is an identifier, a bare name stands for one that is bare, too. -/
theorem BareObject.resolve {n : ObjectName} (h : BareObject n) {searchPath : Option String}
    (path : ∀ s ∈ searchPath, BareName s) : BareObject (n.resolve searchPath) := by
  obtain ⟨schema, name⟩ := n
  cases schema with
  | some s => exact h
  | none =>
    cases searchPath with
    | none => exact h
    | some s => exact ⟨h.name, path⟩

namespace Draft

variable {d e : Draft} {did : Applied}

/-! ## One statement -/

/-- The search path is an identifier, and every table has a name with the key that it is kept
under. -/
structure KeepsNames (d : Draft) : Prop where
  path : ∀ s ∈ d.searchPath, BareName s
  tables : ∀ k t, d.catalog.tables.get? k = some t → ∃ n : ObjectName, n.key = k ∧ t.IsNamed n

namespace KeepsNames

theorem empty : KeepsNames .empty :=
  ⟨nofun, fun _ _ found => absurd found nofun⟩

/-- The table with exactly this name has the name already, or one with the same key. -/
theorem tableOrEmpty (h : d.KeepsNames) {n : ObjectName} (bare : BareObject n) :
    ∃ m : ObjectName, m.key = n.key ∧ (d.catalog.tableOrEmpty n).IsNamed m := by
  rw [Catalog.tableOrEmpty]
  cases known : d.catalog.tables.get? n.key with
  | none => exact ⟨n, rfl, .empty bare⟩
  | some t => exact h.tables n.key t known

/-- A table stays named if a change leaves it a name with the same key. -/
theorem mentionTable (h : d.KeepsNames) {n : ObjectName} (bare : BareObject n) {source : String}
    {change : Table → Table}
    (keeps : ∀ (t : Table) (m : ObjectName), m.key = (d.resolve n).key → t.IsNamed m →
      ∃ m' : ObjectName, m'.key = (d.resolve n).key ∧ (change t).IsNamed m') :
    (d.mentionTable n source change).KeepsNames := by
  refine ⟨h.path, ?_⟩
  intro k t found
  have found := (KeyMap.get?_insert _ _ _ _).symm.trans found
  split at found
  · rename_i here
    obtain ⟨m, same, named⟩ := h.tableOrEmpty (bare.resolve h.path)
    rw [here, ← Option.some.inj found]
    exact keeps _ m same (named.of_same rfl rfl)
  · exact h.tables k t found

/-- A change that leaves the names of a table alone leaves it named. -/
theorem mentionTable_of_same (h : d.KeepsNames) {n : ObjectName} (bare : BareObject n)
    {source : String} {change : Table → Table}
    (same : ∀ t : Table, (change t).fullName = t.fullName ∧ (change t).schema = t.schema) :
    (d.mentionTable n source change).KeepsNames :=
  h.mentionTable bare fun t m key named => ⟨m, key, named.of_same (same t).1 (same t).2⟩

/-- A statement keeps the names in a draft, if the search path that it may set is an identifier. -/
theorem applyTrimmed (h : d.KeepsNames) {stmt : List Char} {source : String}
    (path : ∀ s ∈ (Statement.ofChars stmt).searchPathAfter none, BareName s)
    (applied : d.applyTrimmed stmt source = .ok (e, did)) : e.KeepsNames := by
  have bare := (Statement.wellNamed_ofChars stmt).objects
  cases effect_applyTrimmed applied with
  | searchPath kind =>
    rw [kind] at path
    exact ⟨path, h.tables⟩
  | @table name declaration kind read =>
    rw [kind] at bare
    have bare := bare name List.mem_cons_self
    exact h.mentionTable bare fun t m same named =>
      ⟨d.resolve name, rfl, named.declare (bare.resolve h.path) same declaration⟩
  | @tableComment table comment kind =>
    rw [kind] at bare
    exact h.mentionTable_of_same (bare table List.mem_cons_self) fun t => ⟨rfl, rfl⟩
  | @columnComment table column comment kind unknown =>
    rw [kind] at bare
    exact h.mentionTable_of_same (bare table List.mem_cons_self) fun t => ⟨rfl, rfl⟩
  | commentInView kind known => exact ⟨h.path, h.tables⟩
  | viewComment kind unknown => exact ⟨h.path, h.tables⟩
  | view kind => exact ⟨h.path, h.tables⟩
  | ignored other => exact h

end KeepsNames

/-! ## Runs -/

/-- The search path that a call sets, in lower case, if it is a statement that sets one. -/
def Call.searchPath? : Call → Option String
  | .apply stmt _ => (Statement.ofText stmt).searchPathAfter none
  | .ingest _ _ => none

/-- Every search path that a statement of the calls sets is an identifier. -/
def SetsBarePaths (calls : List Call) : Prop :=
  ∀ c ∈ oneByOne calls, ∀ s ∈ c.searchPath?, BareName s

theorem KeepsNames.call_apply (h : d.KeepsNames) {stmt source : String}
    (path : ∀ s ∈ (Call.apply stmt source).searchPath?, BareName s) :
    (d.call (.apply stmt source)).KeepsNames := by
  rw [call]
  split
  · rename_i applied
    refine h.applyTrimmed ?_ applied
    rwa [Statement.ofChars_trim]
  · exact h

/-- Statements and whole files keep the names in a draft. -/
theorem keepsNames_afterCalls {calls : List Call} (paths : SetsBarePaths calls) :
    (afterCalls calls).KeepsNames := by
  have all : (afterCalls (oneByOne calls)).KeepsNames := by
    refine List.foldlRecOn (oneByOne calls) call .empty ?_
    intro d h c mem
    obtain ⟨stmt, source, rfl⟩ := exists_eq_apply_of_mem_oneByOne mem
    exact h.call_apply (paths _ mem)
  rw [← objects_afterCalls] at all
  exact ⟨all.path, all.tables⟩

/-- After any statements and files that set no other search paths than identifiers, each table has a
name that was written, with the key that the table is kept under. -/
theorem exists_isNamed_afterCalls {calls : List Call} (paths : SetsBarePaths calls) {k : String}
    {t : Table} (mem : (k, t) ∈ (afterCalls calls).catalog.tables.entries) :
    ∃ n : ObjectName, n.key = k ∧ t.IsNamed n :=
  (keepsNames_afterCalls paths).tables k t ((KeyMap.mem_entries_iff _ _ _).1 mem)

end Draft

end Rollback

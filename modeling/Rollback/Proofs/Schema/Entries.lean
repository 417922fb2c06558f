import Rollback.Schema.KeyMap

/-!
# Entries of maps

How the entries of a map, its look-ups and the ways to change it go together.

- `KeyMap.mem_entries_iff`: an entry is what a look-up finds
- `KeyMap.perm_values`: the values of a map with known look-ups
- `KeyMap.get?_mapValues`, `KeyMap.get?_update`: look-ups after a change
- `KeyMap.pairwise_values`: a property of pairs of different entries
- `KeyMap.get?_ofList`: a map of a list with different keys
- `KeyMap.ofList_entries`: a map is made of its entries
-/

set_option autoImplicit false

namespace Rollback

/-- An entry whose key is above all others comes last. -/
theorem insertEntry_of_above {α : Type} {k : String} (a : α) {entries : List (String × α)}
    (above : ∀ e ∈ entries, e.1 < k) : insertEntry k a entries = entries ++ [(k, a)] := by
  induction entries with
  | nil => rfl
  | cons entry rest ih =>
    obtain ⟨j, b⟩ := entry
    have below : j < k := above (j, b) List.mem_cons_self
    have other : k ≠ j := fun same => String.lt_irrefl k (same ▸ below)
    rw [insertEntry, if_neg (String.lt_asymm below), if_neg other,
      ih fun e he => above e (List.mem_cons_of_mem _ he), List.cons_append]

/-- Entries in ascending order are those that they give when they are inserted one by one. -/
theorem foldl_insertEntry_of_ascend {α : Type} {before rest : List (String × α)}
    (ascend : KeysAscend (before ++ rest)) :
    rest.foldl (fun entries e => insertEntry e.1 e.2 entries) before = before ++ rest := by
  induction rest generalizing before with
  | nil => rw [List.foldl_nil, List.append_nil]
  | cons entry rest ih =>
    have above : ∀ e ∈ before, e.1 < entry.1 := fun e he =>
      (List.pairwise_append.1 ascend).2.2 e he entry List.mem_cons_self
    have shape : before ++ entry :: rest = (before ++ [(entry.1, entry.2)]) ++ rest := by simp
    rw [List.foldl_cons, insertEntry_of_above entry.2 above, shape]
    rw [shape] at ascend
    exact ih ascend

/-- Entries in the order of their keys are put into a list as they are. -/
theorem foldl_insertEntry_nil {α : Type} {entries : List (String × α)}
    (ascend : KeysAscend entries) :
    entries.foldl (fun entries e => insertEntry e.1 e.2 entries) [] = entries := by
  rw [← List.nil_append entries] at ascend
  exact foldl_insertEntry_of_ascend ascend

namespace KeyMap

variable {α β : Type}

theorem nodup_keys (m : KeyMap α) : m.keys.Nodup := by
  rw [keys, List.Nodup, List.pairwise_map]
  refine m.ascend.imp ?_
  intro x y below same
  exact String.lt_irrefl x.1 (same ▸ below)

/-- From the last key back, the keys descend. -/
theorem pairwise_reverse_keys (m : KeyMap α) :
    m.keys.reverse.Pairwise (· > ·) := by
  rw [List.pairwise_reverse, keys, List.pairwise_map]
  exact m.ascend

/-- Keys that ascend differ, so the first entry with a key is the only one. -/
theorem lookup_eq_some_of_mem {entries : List (String × α)} (ascend : KeysAscend entries)
    {k : String} {a : α} (h : (k, a) ∈ entries) : entries.lookup k = some a := by
  induction entries with
  | nil => exact absurd h List.not_mem_nil
  | cons entry rest ih =>
    obtain ⟨j, b⟩ := entry
    have below := (List.pairwise_cons.1 ascend).1
    rcases List.mem_cons.1 h with eq | mem
    · obtain ⟨rfl, rfl⟩ := Prod.mk.inj eq
      exact List.lookup_cons_self
    · have other : k ≠ j := fun same => String.lt_irrefl k (same ▸ below (k, a) mem)
      rw [lookup_cons_of_ne b rest other]
      exact ih (List.pairwise_cons.1 ascend).2 mem

/-- The entries of a map are what can be looked up in it. -/
theorem mem_entries_iff (m : KeyMap α) (k : String) (a : α) :
    (k, a) ∈ m.entries ↔ m.get? k = some a := by
  constructor
  · exact lookup_eq_some_of_mem m.ascend
  · intro found
    obtain ⟨before, after, split, -⟩ := List.lookup_eq_some_iff.1 found
    rw [split]
    simp

/-- A map in which a key is found is not empty. -/
theorem isEmpty_eq_false_of_get? {m : KeyMap α} {k : String} {a : α}
    (found : m.get? k = some a) : m.isEmpty = false := by
  refine Bool.eq_false_iff.2 fun empty => ?_
  have mem : (k, a) ∈ m.entries := (m.mem_entries_iff k a).2 found
  rw [List.isEmpty_iff.1 empty] at mem
  exact absurd mem List.not_mem_nil

theorem mem_values_iff (m : KeyMap α) (a : α) : a ∈ m.values ↔ ∃ k, m.get? k = some a := by
  simp only [values, List.mem_map, Prod.exists, exists_eq_right, mem_entries_iff]

/-- A map with known look-ups has those values, in some order. -/
theorem perm_values {m : KeyMap α} {entries : List (String × α)}
    (distinct : (entries.map Prod.fst).Nodup)
    (found : ∀ k a, m.get? k = some a ↔ (k, a) ∈ entries) :
    m.values.Perm (entries.map Prod.snd) := by
  have nodup : ∀ es : List (String × α), (es.map Prod.fst).Nodup → es.Nodup := fun es h =>
    List.Pairwise.of_map Prod.fst (fun _ _ other same => other (congrArg Prod.fst same)) h
  refine List.Perm.map Prod.snd
    ((List.perm_ext_iff_of_nodup (nodup _ m.nodup_keys) (nodup _ distinct)).2 ?_)
  rintro ⟨k, a⟩
  rw [mem_entries_iff, found]

theorem mem_values_of_get? {m : KeyMap α} {k : String} {a : α} (h : m.get? k = some a) :
    a ∈ m.values :=
  (m.mem_values_iff a).2 ⟨k, h⟩

/-- A change of all values that depends on their keys is seen under each key. -/
theorem lookup_map (entries : List (String × α)) (f : String → α → β) (k : String) :
    (entries.map fun e => (e.1, f e.1 e.2)).lookup k = (entries.lookup k).map (f k) := by
  induction entries with
  | nil => rfl
  | cons entry rest ih =>
    obtain ⟨j, b⟩ := entry
    by_cases same : k = j
    · subst same
      simp
    · rw [List.map_cons, lookup_cons_of_ne _ _ same, lookup_cons_of_ne _ _ same, ih]

theorem get?_mapValues (m : KeyMap α) (f : String → α → β) (k : String) :
    (m.mapValues f).get? k = (m.get? k).map (f k) :=
  lookup_map m.entries f k

@[simp] theorem insert_insert (m : KeyMap α) (k : String) (a b : α) :
    (m.insert k a).insert k b = m.insert k b := by
  apply ext_get?
  intro j
  by_cases same : j = k
  · subst same
    rw [get?_insert_self, get?_insert_self]
  · rw [get?_insert_of_ne _ _ same, get?_insert_of_ne _ _ same, get?_insert_of_ne _ _ same]

/-- Entries under different keys can be put in in either order. -/
theorem insert_comm (m : KeyMap α) {j k : String} (a b : α) (other : j ≠ k) :
    (m.insert j a).insert k b = (m.insert k b).insert j a := by
  apply ext_get?
  intro i
  rw [get?_insert, get?_insert, get?_insert, get?_insert]
  by_cases first : i = j
  · rw [if_pos first, if_pos first, if_neg fun second => other (first.symm.trans second)]
  · rw [if_neg first, if_neg first]

/-- An update is seen under its key, and only there. -/
theorem get?_update (m : KeyMap α) (k j : String) (missing : α) (change : α → α) :
    (m.update k missing change).get? j =
      if j = k then some (change ((m.get? k).getD missing)) else m.get? j :=
  get?_insert m k j _

/-- What holds of the values of different entries in either order holds along the list of values. -/
theorem pairwise_values {r : α → α → Prop} (m : KeyMap α)
    (h : ∀ j k a b, m.get? j = some a → m.get? k = some b → j ≠ k → r a b) :
    m.values.Pairwise r := by
  rw [values, List.pairwise_map]
  refine m.ascend.imp_of_mem ?_
  intro x y hx hy below
  exact h x.1 y.1 x.2 y.2 ((m.mem_entries_iff _ _).1 hx) ((m.mem_entries_iff _ _).1 hy)
    fun same => String.lt_irrefl _ (same ▸ below)

/-! ## Maps of lists -/

/-- Inserting entries one after another into a map is inserting them into its list. -/
theorem entries_foldl_insert (es : List (String × α)) (m : KeyMap α) :
    (es.foldl (fun m e => m.insert e.1 e.2) m).entries =
      es.foldl (fun entries e => insertEntry e.1 e.2 entries) m.entries := by
  induction es generalizing m with
  | nil => rfl
  | cons e es ih => exact ih _

/-- Entries of a map that others were put into are among these, or were there before. -/
theorem mem_of_mem_entries_foldl_insert {es : List (String × α)} {m : KeyMap α} {e : String × α}
    (h : e ∈ (es.foldl (fun m e => m.insert e.1 e.2) m).entries) : e ∈ es ∨ e ∈ m.entries := by
  induction es generalizing m with
  | nil => exact .inr h
  | cons other es ih =>
    rcases ih h with mem | mem
    · exact .inl (List.mem_cons_of_mem _ mem)
    · rcases mem_insertEntry mem with rfl | mem
      · exact .inl List.mem_cons_self
      · exact .inr mem

theorem mem_of_mem_entries_ofList {entries : List (String × α)} {e : String × α}
    (h : e ∈ (ofList entries).entries) : e ∈ entries := by
  rcases mem_of_mem_entries_foldl_insert h with mem | mem
  · exact mem
  · exact absurd mem List.not_mem_nil

/-- A value that is inserted later replaces one of the same key, but no key comes twice. -/
theorem get?_foldl_insert {es : List (String × α)} (distinct : (es.map Prod.fst).Nodup)
    (m : KeyMap α) (k : String) (a : α) :
    (es.foldl (fun m e => m.insert e.1 e.2) m).get? k = some a ↔
      (k, a) ∈ es ∨ k ∉ es.map Prod.fst ∧ m.get? k = some a := by
  induction es generalizing m with
  | nil => simp
  | cons e rest ih =>
    obtain ⟨new, distinct⟩ := List.nodup_cons.1 distinct
    rw [List.foldl_cons, ih distinct, get?_insert]
    by_cases here : k = e.1
    · subst here
      have absent : (e.1, a) ∉ rest := fun mem => new (List.mem_map.2 ⟨_, mem, rfl⟩)
      simp [new, absent, Prod.ext_iff, eq_comm]
    · simp [here, Prod.ext_iff]

/-- A map made of entries with different keys has just these. -/
theorem get?_ofList {entries : List (String × α)} (distinct : (entries.map Prod.fst).Nodup)
    (k : String) (a : α) : (ofList entries).get? k = some a ↔ (k, a) ∈ entries := by
  rw [ofList, get?_foldl_insert distinct]
  simp

/-- A map is made of its entries. -/
theorem ofList_entries (m : KeyMap α) : ofList m.entries = m := by
  apply ext_entries
  rw [ofList, entries_foldl_insert]
  exact foldl_insertEntry_nil m.ascend

end KeyMap

end Rollback

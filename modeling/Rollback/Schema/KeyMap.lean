/-!
# Maps with text keys

A finite map whose keys are texts. Its entries are kept in strictly ascending order of the keys, so
that two maps with the same entries are equal.

- `get?`, `insert`, `update`: look-up and change of one entry
- `get?_insert`: what a look-up after a change gives
- `ext_get?`: maps with the same look-ups are equal
-/

set_option autoImplicit false

namespace Rollback

/-- Entries in strictly ascending order of the keys. -/
def KeysAscend {α : Type} (entries : List (String × α)) : Prop :=
  entries.Pairwise fun a b => a.1 < b.1

/-- The entries with one more, which replaces an earlier one with the same key. -/
def insertEntry {α : Type} (k : String) (a : α) : List (String × α) → List (String × α)
  | [] => [(k, a)]
  | (j, b) :: rest =>
    if k < j then (k, a) :: (j, b) :: rest
    else if k = j then (k, a) :: rest
    else (j, b) :: insertEntry k a rest

/-- An entry of the new list is the one put in, or was there before. -/
theorem mem_insertEntry {α : Type} {k : String} {a : α} {e : String × α}
    {entries : List (String × α)} (h : e ∈ insertEntry k a entries) :
    e = (k, a) ∨ e ∈ entries := by
  induction entries with
  | nil => simpa [insertEntry] using h
  | cons entry rest ih =>
    obtain ⟨j, b⟩ := entry
    rw [insertEntry] at h
    split at h
    · simpa using h
    · split at h
      · rcases List.mem_cons.1 h with h | h
        · exact .inl h
        · exact .inr (List.mem_cons_of_mem _ h)
      · rcases List.mem_cons.1 h with h | h
        · exact .inr (h ▸ List.mem_cons_self)
        · rcases ih h with h | h
          · exact .inl h
          · exact .inr (List.mem_cons_of_mem _ h)

theorem keysAscend_insertEntry {α : Type} (k : String) (a : α) {entries : List (String × α)}
    (h : KeysAscend entries) : KeysAscend (insertEntry k a entries) := by
  induction entries with
  | nil => simp [insertEntry, KeysAscend]
  | cons entry rest ih =>
    obtain ⟨j, b⟩ := entry
    have head := (List.pairwise_cons.1 h).1
    have tail := (List.pairwise_cons.1 h).2
    rw [insertEntry]
    split
    · rename_i below
      refine List.pairwise_cons.2 ⟨fun e he => ?_, h⟩
      rcases List.mem_cons.1 he with he | he
      · exact he ▸ below
      · exact String.lt_trans below (head e he)
    · rename_i notBelow
      split
      · rename_i same
        exact List.pairwise_cons.2 ⟨fun e he => same ▸ head e he, tail⟩
      · rename_i other
        refine List.pairwise_cons.2 ⟨fun e he => ?_, ih tail⟩
        rcases mem_insertEntry he with he | he
        · subst he
          refine Decidable.byContradiction fun notAbove => other ?_
          exact String.le_antisymm (String.not_lt.1 notAbove) (String.not_lt.1 notBelow)
        · exact head e he

/-- A finite map with text keys. -/
structure KeyMap (α : Type) where
  entries : List (String × α)
  ascend : KeysAscend entries

namespace KeyMap

variable {α β : Type}

/-- The map without entries. -/
def empty : KeyMap α := ⟨[], .nil⟩

instance : Inhabited (KeyMap α) := ⟨empty⟩

instance : EmptyCollection (KeyMap α) := ⟨empty⟩

theorem ext_entries {m n : KeyMap α} (h : m.entries = n.entries) : m = n := by
  cases m
  cases n
  simp_all

instance [DecidableEq α] : DecidableEq (KeyMap α) := fun m n =>
  decidable_of_iff (m.entries = n.entries) ⟨ext_entries, fun h => h ▸ rfl⟩

/-- The value at a key. -/
def get? (m : KeyMap α) (k : String) : Option α :=
  m.entries.lookup k

/-- Whether there is an entry at a key. -/
def contains (m : KeyMap α) (k : String) : Bool :=
  (m.get? k).isSome

/-- The map with the value at a key set. -/
def insert (m : KeyMap α) (k : String) (a : α) : KeyMap α :=
  ⟨insertEntry k a m.entries, keysAscend_insertEntry k a m.ascend⟩

/-- The map with the value at a key changed; a missing value counts as the given one. -/
def update (m : KeyMap α) (k : String) (missing : α) (change : α → α) : KeyMap α :=
  m.insert k (change ((m.get? k).getD missing))

/-- The keys in ascending order. -/
def keys (m : KeyMap α) : List String :=
  m.entries.map Prod.fst

/-- The values in the order of their keys. -/
def values (m : KeyMap α) : List α :=
  m.entries.map Prod.snd

/-- The number of entries. -/
def size (m : KeyMap α) : Nat :=
  m.entries.length

/-- Whether there are no entries. -/
def isEmpty (m : KeyMap α) : Bool :=
  m.entries.isEmpty

/-- The map with the given entries; of several with one key the last counts. -/
def ofList (entries : List (String × α)) : KeyMap α :=
  entries.foldl (fun m e => m.insert e.1 e.2) empty

/-- The values changed, with their keys at hand. -/
def mapValues (m : KeyMap α) (f : String → α → β) : KeyMap β :=
  ⟨m.entries.map fun e => (e.1, f e.1 e.2), by simpa [KeysAscend, List.pairwise_map] using m.ascend⟩

theorem lookup_cons_of_ne {k j : String} (a : α) (rest : List (String × α)) (h : j ≠ k) :
    ((k, a) :: rest).lookup j = rest.lookup j := by
  rw [List.lookup_cons, beq_eq_false_iff_ne.2 h]

/-- What is put in is found under its key, and all else as before. -/
theorem lookup_insertEntry (k j : String) (a : α) (entries : List (String × α)) :
    (insertEntry k a entries).lookup j = if j = k then some a else entries.lookup j := by
  induction entries with
  | nil =>
    by_cases h : j = k
    · simp [insertEntry, h]
    · simp [insertEntry, lookup_cons_of_ne a [] h, h]
  | cons entry rest ih =>
    obtain ⟨i, b⟩ := entry
    rw [insertEntry]
    split
    · by_cases h : j = k
      · simp [h]
      · simp [lookup_cons_of_ne a _ h, h]
    · split
      · rename_i same
        subst same
        by_cases h : j = k
        · simp [h]
        · simp [lookup_cons_of_ne _ rest h, h]
      · rename_i other
        by_cases hi : j = i
        · subst hi
          simp [Ne.symm other]
        · rw [lookup_cons_of_ne b _ hi, lookup_cons_of_ne b _ hi, ih]

theorem get?_insert (m : KeyMap α) (k j : String) (a : α) :
    (m.insert k a).get? j = if j = k then some a else m.get? j :=
  lookup_insertEntry k j a m.entries

@[simp] theorem get?_insert_self (m : KeyMap α) (k : String) (a : α) :
    (m.insert k a).get? k = some a := by
  simp [get?_insert]

theorem get?_insert_of_ne (m : KeyMap α) {k j : String} (a : α) (h : j ≠ k) :
    (m.insert k a).get? j = m.get? j := by
  simp [get?_insert, h]

@[simp] theorem get?_empty (k : String) : (empty : KeyMap α).get? k = none := rfl

/-- A key below all others is not found. -/
theorem lookup_eq_none_of_below {k : String} {entries : List (String × α)}
    (h : ∀ e ∈ entries, k < e.1) : entries.lookup k = none := by
  induction entries with
  | nil => rfl
  | cons entry rest ih =>
    have other : k ≠ entry.1 := fun e =>
      String.lt_irrefl k (e ▸ h entry List.mem_cons_self)
    rw [List.lookup_cons, beq_eq_false_iff_ne.2 other]
    exact ih fun e he => h e (List.mem_cons_of_mem _ he)

theorem lookup_cons_eq_none_of_below {i : String} {a : α} {rest : List (String × α)}
    (ascend : KeysAscend ((i, a) :: rest)) {k : String} (below : k < i) :
    ((i, a) :: rest).lookup k = none := by
  have later := (List.pairwise_cons.1 ascend).1
  refine lookup_eq_none_of_below fun e he => ?_
  rcases List.mem_cons.1 he with rfl | he
  · exact below
  · exact String.lt_trans below (later e he)

/-- Entries do not start below others in which their first key is found as well. -/
theorem not_lt_of_lookup_eq {i j : String} {a b : α} {xs ys : List (String × α)}
    (ascend : KeysAscend ((j, b) :: ys))
    (h : ((i, a) :: xs).lookup i = ((j, b) :: ys).lookup i) : ¬i < j := by
  intro below
  rw [lookup_cons_eq_none_of_below ascend below] at h
  simp at h

/-- Entries in ascending order are determined by their look-ups. -/
theorem eq_of_lookup_eq {xs ys : List (String × α)} (hx : KeysAscend xs) (hy : KeysAscend ys)
    (h : ∀ k, xs.lookup k = ys.lookup k) : xs = ys := by
  induction xs generalizing ys with
  | nil =>
    cases ys with
    | nil => rfl
    | cons y ys =>
      obtain ⟨j, b⟩ := y
      simpa using h j
  | cons x xs ih =>
    cases ys with
    | nil =>
      obtain ⟨i, a⟩ := x
      simpa using h i
    | cons y ys =>
      obtain ⟨i, a⟩ := x
      obtain ⟨j, b⟩ := y
      -- Neither list starts below the other, so both start with the same entry.
      obtain rfl : i = j := String.le_antisymm
        (String.not_lt.1 (not_lt_of_lookup_eq hx (h j).symm))
        (String.not_lt.1 (not_lt_of_lookup_eq hy (h i)))
      obtain rfl : a = b := by simpa using h i
      obtain ⟨hi, hx⟩ := List.pairwise_cons.1 hx
      obtain ⟨hj, hy⟩ := List.pairwise_cons.1 hy
      have rest : xs = ys := ih hx hy fun k => by
        by_cases here : k = i
        · subst here
          rw [lookup_eq_none_of_below hi, lookup_eq_none_of_below hj]
        · have eq := h k
          rw [List.lookup_cons, List.lookup_cons, beq_eq_false_iff_ne.2 here] at eq
          exact eq
      rw [rest]

/-- Maps with the same look-ups are equal. -/
theorem ext_get? {m n : KeyMap α} (h : ∀ k, m.get? k = n.get? k) : m = n :=
  ext_entries (eq_of_lookup_eq m.ascend n.ascend h)

end KeyMap

end Rollback

import Rollback.Proofs.Lists
import Rollback.Proofs.Schema.Entries
import Rollback.Schema.Draft

/-!
# Places of columns

A declaration of a table puts the columns that it names first, at the places where they stand in it,
and after them the columns that were known before and that it does not name.

- `lastDeclared`: the declaration of a column that counts
- `get?_declareColumns`, `get?_columns_declare`: the columns after a declaration
- `columnsInOrder_eq`: columns at ascending places are in order
- `PlacedAt`: where a declaration puts the column with a key
-/

set_option autoImplicit false

namespace Rollback

/-- The last declaration of the column with a key. -/
def lastDeclared (k : String) (declared : List (Nat × String × String)) :
    Option (Nat × String × String) :=
  (declared.filter fun d => d.2.1.lowerCase == k).getLast?

/-- A column after a declaration of it: what the declaration does not say stays as it was. -/
def Column.redeclare (c : Column) (d : Nat × String × String) : Column :=
  { c with name := d.2.1, dataType := d.2.2, ordinal := d.1 }

/-- A column of which a declaration is all that is known. -/
def Column.ofDeclared (d : Nat × String × String) : Column :=
  Column.declared d.2.1 d.2.2 d.1

namespace Column

/-- Columns are ordered by their places, and by their names at the same place. -/
theorem comesBefore_iff (a b : Column) :
    a.comesBefore b = true ↔ a.ordinal < b.ordinal ∨ a.ordinal = b.ordinal ∧ a.name ≤ b.name := by
  simp [comesBefore]

theorem comesBefore_trans (a b c : Column) (ab : a.comesBefore b = true)
    (bc : b.comesBefore c = true) : a.comesBefore c = true := by
  rw [comesBefore_iff] at *
  rcases ab with below | ⟨same, le⟩
  · left
    omega
  · rcases bc with below' | ⟨same', le'⟩
    · left
      omega
    · exact .inr ⟨same.trans same', String.le_trans le le'⟩

theorem comesBefore_total (a b : Column) : (a.comesBefore b || b.comesBefore a) = true := by
  rw [Bool.or_eq_true, comesBefore_iff, comesBefore_iff]
  rcases Nat.lt_trichotomy a.ordinal b.ordinal with below | same | above
  · exact .inl (.inl below)
  · rcases String.le_total a.name b.name with le | ge
    · exact .inl (.inr ⟨same, le⟩)
    · exact .inr (.inr ⟨same.symm, ge⟩)
  · exact .inr (.inl above)

end Column

/-- Columns at ascending places are in order. -/
theorem Table.columnsInOrder_eq {t : Table} {columns : List Column}
    (perm : t.columns.values.Perm columns)
    (ascend : columns.Pairwise fun a b => a.ordinal < b.ordinal) : t.columnsInOrder = columns := by
  have sorted := List.pairwise_mergeSort Column.comesBefore_trans Column.comesBefore_total
    t.columns.values
  have given : columns.Pairwise fun a b => a.comesBefore b = true :=
    ascend.imp fun below => (Column.comesBefore_iff _ _).2 (.inl below)
  have all := (List.mergeSort_perm t.columns.values Column.comesBefore).trans perm
  refine List.Perm.eq_of_pairwise ?_ sorted given all
  intro a b ha hb ab ba
  have place : a.ordinal = b.ordinal := by
    rw [Column.comesBefore_iff] at ab ba
    omega
  obtain ⟨i, hi, rfl⟩ := List.getElem_of_mem (all.mem_iff.1 ha)
  obtain ⟨j, hj, rfl⟩ := List.getElem_of_mem hb
  have order := List.pairwise_iff_getElem.1 ascend
  rcases Nat.lt_trichotomy i j with below | rfl | above
  · have := order i j hi hj below
    omega
  · rfl
  · have := order j i hj hi above
    omega

/-- The last declaration of a key is one of this key. -/
theorem key_of_lastDeclared {k : String} {declared : List (Nat × String × String)}
    {d : Nat × String × String} (h : lastDeclared k declared = some d) :
    d ∈ declared ∧ d.2.1.lowerCase = k := by
  have mem := List.mem_filter.1 (List.mem_of_getLast? h)
  exact ⟨mem.1, eq_of_beq mem.2⟩

theorem lastDeclared_eq_none_iff (k : String) (declared : List (Nat × String × String)) :
    lastDeclared k declared = none ↔ ∀ d ∈ declared, d.2.1.lowerCase ≠ k := by
  simp [lastDeclared]

namespace Table

/-! ## Declared columns -/

/-- Declarations change the columns one after the other. -/
theorem declareColumns_cons (columns : KeyMap Column) (d : Nat × String × String)
    (rest : List (Nat × String × String)) :
    declareColumns columns (d :: rest) =
      declareColumns (columns.update d.2.1.lowerCase (Column.ofDeclared d) (·.redeclare d)) rest :=
  rfl

/-- The last declaration of a column is the one that counts. -/
theorem get?_declareColumns (declared : List (Nat × String × String)) (k : String) :
    ∀ columns : KeyMap Column, (declareColumns columns declared).get? k =
      match lastDeclared k declared with
      | some d => some (((columns.get? k).getD (Column.ofDeclared d)).redeclare d)
      | none => columns.get? k := by
  induction declared with
  | nil => intro columns; rfl
  | cons d rest ih =>
    intro columns
    rw [declareColumns_cons, ih, KeyMap.get?_update]
    -- The declaration at hand counts unless a later one has the same key.
    by_cases same : k = d.2.1.lowerCase
    · have last : lastDeclared k (d :: rest) = some ((lastDeclared k rest).getD d) := by
        simp [lastDeclared, same, List.getLast?_cons]
      rw [last, if_pos same, ← same]
      cases lastDeclared k rest with
      | none => rfl
      | some e => cases columns.get? k <;> rfl
    · have last : lastDeclared k (d :: rest) = lastDeclared k rest := by
        simp [lastDeclared, Ne.symm same]
      rw [last, if_neg same]

/-! ## Other columns -/

theorem mem_undeclaredKeys_iff (columns : KeyMap Column) (declared : List String) (k : String) :
    k ∈ undeclaredKeys columns declared ↔ (∃ c, columns.get? k = some c) ∧ k ∉ declared := by
  simp only [undeclaredKeys, List.mem_map, List.mem_mergeSort, List.mem_filter]
  constructor
  · rintro ⟨⟨j, c⟩, ⟨mem, other⟩, rfl⟩
    exact ⟨⟨c, (columns.mem_entries_iff _ _).1 mem⟩, by simpa using other⟩
  · rintro ⟨⟨c, found⟩, other⟩
    exact ⟨(k, c), ⟨(columns.mem_entries_iff _ _).2 found, by simpa using other⟩, rfl⟩

theorem get?_placeColumns (columns : KeyMap Column) (first : Nat) (keys : List String)
    (k : String) : (placeColumns columns first keys).get? k = (columns.get? k).map fun c =>
      match keys.idxOf? k with
      | some offset => { c with ordinal := first + offset }
      | none => c :=
  KeyMap.get?_mapValues _ _ _

/-! ## All columns after a declaration -/

/-- The columns of a declaration with their places. -/
def numbered (columns : List (String × String)) : List (Nat × String × String) :=
  columns.zipIdx.map fun ((name, dataType), ordinal) => (ordinal, name, dataType)

theorem mem_numbered_iff (columns : List (String × String)) (d : Nat × String × String) :
    d ∈ numbered columns ↔ columns[d.1]? = some d.2 := by
  obtain ⟨ordinal, name, dataType⟩ := d
  simp only [numbered, List.mem_map, Prod.exists, Prod.mk.injEq, List.mem_zipIdx_iff_getElem?]
  constructor
  · rintro ⟨_, _, _, found, rfl, rfl, rfl⟩
    exact found
  · intro found
    exact ⟨name, dataType, ordinal, found, rfl, rfl, rfl⟩

/-- The columns that were known before a declaration and that it does not name, in their order. -/
def leftOver (t : Table) (d : Declaration) : List String :=
  undeclaredKeys (declareColumns t.columns (numbered d.columns))
    (d.columns.map fun column => column.1.lowerCase)

theorem get?_columns_declare (t : Table) (name : ObjectName) (d : Declaration) (k : String) :
    (t.declare name d).columns.get? k =
      ((declareColumns t.columns (numbered d.columns)).get? k).map fun c =>
        match (t.leftOver d).idxOf? k with
        | some offset => { c with ordinal := d.columns.length + offset }
        | none => c :=
  get?_placeColumns _ _ _ _

/-- The place that a declaration gives to the column with a key. -/
inductive PlacedAt (t : Table) (d : Declaration) (k : String) : Nat → Prop where
  /-- The declaration names the column. -/
  | declared {i : Nat} {column : String × String} (found : d.columns[i]? = some column)
      (key : column.1.lowerCase = k) : PlacedAt t d k i
  /-- The column was known before. -/
  | leftOver {i : Nat} (found : (t.leftOver d)[i]? = some k) :
      PlacedAt t d k (d.columns.length + i)

/-- No two columns are at the same place. -/
theorem PlacedAt.key_unique {t : Table} {d : Declaration} {j k : String} {i : Nat}
    (hj : PlacedAt t d j i) (hk : PlacedAt t d k i) : j = k := by
  cases hj with
  | declared foundj keyj =>
    cases hk with
    | declared foundk keyk =>
      rw [foundj] at foundk
      rw [← keyj, ← keyk, Option.some.inj foundk]
    | leftOver _ =>
      have below := (List.getElem?_eq_some_iff.1 foundj).1
      omega
  | @leftOver a foundj =>
    generalize place : d.columns.length + a = i at hk
    cases hk with
    | declared foundk _ =>
      have below := (List.getElem?_eq_some_iff.1 foundk).1
      omega
    | @leftOver b foundk =>
      have same : a = b := by omega
      rw [same, foundk] at foundj
      exact (Option.some.inj foundj).symm

/-- Where a column is after a declaration, and which name it has. -/
theorem placedAt_of_declare {t : Table} {name : ObjectName} {d : Declaration} {k : String}
    {c : Column} (h : (t.declare name d).columns.get? k = some c)
    (named : ∀ c, t.columns.get? k = some c → c.name.lowerCase = k) :
    PlacedAt t d k c.ordinal ∧ c.name.lowerCase = k := by
  rw [get?_columns_declare] at h
  obtain ⟨before, found, rfl⟩ := Option.map_eq_some_iff.1 h
  cases last : lastDeclared k (numbered d.columns) with
  | some e =>
    obtain ⟨mem, key⟩ := key_of_lastDeclared last
    have column := (mem_numbered_iff d.columns e).1 mem
    have outside : (t.leftOver d).idxOf? k = none := by
      rw [List.idxOf?_eq_none_iff, leftOver, mem_undeclaredKeys_iff]
      rintro ⟨-, other⟩
      exact other (List.mem_map.2 ⟨e.2, List.mem_of_getElem? column, key⟩)
    rw [get?_declareColumns, last] at found
    obtain rfl := Option.some.inj found
    rw [outside]
    exact ⟨.declared column key, key⟩
  | none =>
    have known : t.columns.get? k = some before := by
      rw [get?_declareColumns, last] at found
      exact found
    have inside : k ∈ t.leftOver d := by
      rw [leftOver, mem_undeclaredKeys_iff]
      refine ⟨⟨before, found⟩, ?_⟩
      intro mem
      obtain ⟨column, mem, key⟩ := List.mem_map.1 mem
      obtain ⟨i, found⟩ := List.getElem?_of_mem mem
      exact (lastDeclared_eq_none_iff _ _).1 last (i, column)
        ((mem_numbered_iff _ _).2 found) key
    obtain ⟨offset, place⟩ := Option.isSome_iff_exists.1 (List.isSome_idxOf?.2 inside)
    obtain ⟨bound, here, -⟩ := List.idxOf?_eq_some_iff.1 place
    rw [place]
    exact ⟨.leftOver (List.getElem?_eq_some_iff.2 ⟨bound, here⟩), named before known⟩

/-! ## Columns of a new table -/

/-- A declaration of a table without columns gives it the declared ones. -/
theorem get?_columns_declare_of_empty {t : Table} (fresh : t.columns = ∅) (name : ObjectName)
    (d : Declaration) (k : String) :
    (t.declare name d).columns.get? k =
      (lastDeclared k (numbered d.columns)).map Column.ofDeclared := by
  have declared : ∀ k, (declareColumns t.columns (numbered d.columns)).get? k =
      (lastDeclared k (numbered d.columns)).map Column.ofDeclared := by
    intro k
    rw [get?_declareColumns, fresh]
    cases lastDeclared k (numbered d.columns) <;> rfl
  have noOther : t.leftOver d = [] := by
    apply List.eq_nil_iff_forall_not_mem.2
    intro j mem
    obtain ⟨⟨c, found⟩, other⟩ := (mem_undeclaredKeys_iff _ _ _).1 mem
    rw [declared, Option.map_eq_some_iff] at found
    obtain ⟨e, last, -⟩ := found
    obtain ⟨named, key⟩ := key_of_lastDeclared last
    have column := List.mem_of_getElem? ((mem_numbered_iff _ _).1 named)
    exact other (List.mem_map.2 ⟨e.2, column, key⟩)
  rw [get?_columns_declare, noOther, declared]
  exact Option.map_id'

/-! ## The next place -/

/-- The next place is the first one above those of all columns. -/
theorem nextOrdinal_le_iff {t : Table} {bound : Nat} :
    t.nextOrdinal ≤ bound ↔ ∀ k c, t.columns.get? k = some c → c.ordinal < bound := by
  rw [nextOrdinal, foldl_max_le_iff, List.forall_mem_map]
  constructor
  · rintro ⟨-, all⟩ k c found
    exact all c (KeyMap.mem_values_of_get? found)
  · intro all
    refine ⟨Nat.zero_le _, fun c mem => ?_⟩
    obtain ⟨k, found⟩ := (KeyMap.mem_values_iff _ _).1 mem
    exact all k c found

theorem ordinal_lt_nextOrdinal {t : Table} {k : String} {c : Column}
    (h : t.columns.get? k = some c) : c.ordinal < t.nextOrdinal :=
  nextOrdinal_le_iff.1 (Nat.le_refl _) k c h

end Table

end Rollback

import Mathlib.Data.List.Nodup
import Rollback.Proofs.Schema.Representation

/-!
# Order of declarations and comments

A comment can come before the declaration of its table or column. It makes up what it needs: a table
that has nothing but its name, and a column of an unknown type at the next place. A declaration
renames both, and puts the columns that it does not name in the order of their places behind those
that it does. So a declaration and a comment on a table or one of its columns can change places.

- `Table.leftOver_eq`: the columns that a declaration does not name, as a list in order
- `Table.nextOrdinal_declare`: the next place after a declaration
- `Table.Annotates`: changes of a table that commute with its declarations
- `Draft.mentionTable_comm`: the same in a draft, for any two tables
- `call_createTable_comment_comm`: a CREATE TABLE statement and a comment in either order
-/

set_option autoImplicit false

namespace Rollback

namespace Table

/-! ## Keys in the order of their columns -/

/-- The column at one key comes before that at another: by its place and then by its key. -/
def Precedes (columns : KeyMap Column) (j k : String) : Prop :=
  ∃ a b, (columns.get? j).map Column.ordinal = some a ∧
    (columns.get? k).map Column.ordinal = some b ∧ (a < b ∨ a = b ∧ j < k)

theorem Precedes.asymm {columns : KeyMap Column} {j k : String} (h : Precedes columns j k) :
    ¬Precedes columns k j := by
  rintro ⟨b', a', hb', ha', back⟩
  obtain ⟨a, b, ha, hb, order⟩ := h
  obtain rfl : a = a' := Option.some.inj (ha.symm.trans ha')
  obtain rfl : b = b' := Option.some.inj (hb.symm.trans hb')
  rcases order with below | ⟨rfl, before⟩
  · omega
  · rcases back with above | ⟨-, after⟩
    · omega
    · exact String.lt_asymm before after

theorem Precedes.congr {columns others : KeyMap Column} {j k : String}
    (first : (others.get? j).map Column.ordinal = (columns.get? j).map Column.ordinal)
    (second : (others.get? k).map Column.ordinal = (columns.get? k).map Column.ordinal)
    (h : Precedes columns j k) : Precedes others j k := by
  rw [Precedes, first, second]
  exact h

theorem nodup_of_precedes {columns : KeyMap Column} {keys : List String}
    (h : keys.Pairwise (Precedes columns)) : keys.Nodup := by
  refine h.imp ?_
  rintro j k before rfl
  exact before.asymm before

/-- Keys in this order are determined by which they are. -/
theorem eq_of_precedes {columns : KeyMap Column} {xs ys : List String}
    (hx : xs.Pairwise (Precedes columns)) (hy : ys.Pairwise (Precedes columns))
    (same : ∀ k, k ∈ xs ↔ k ∈ ys) : xs = ys := by
  have perm :=
    (List.perm_ext_iff_of_nodup (nodup_of_precedes hx) (nodup_of_precedes hy)).2 same
  exact perm.eq_of_pairwise (fun j k _ _ before after => absurd after before.asymm) hx hy

/-- The order in which entries of columns are listed: by their places and then by their keys. -/
def standsBefore (a b : String × Column) : Bool :=
  a.2.ordinal < b.2.ordinal || (a.2.ordinal == b.2.ordinal && a.1 ≤ b.1)

theorem standsBefore_iff {a b : String × Column} :
    standsBefore a b = true ↔
      a.2.ordinal < b.2.ordinal ∨ a.2.ordinal = b.2.ordinal ∧ a.1 ≤ b.1 := by
  simp [standsBefore]

theorem standsBefore_trans (a b c : String × Column) (first : standsBefore a b = true)
    (second : standsBefore b c = true) : standsBefore a c = true := by
  rw [standsBefore_iff] at *
  rcases first with below | ⟨same, before⟩
  · left
    omega
  · rcases second with below | ⟨same', before'⟩
    · left
      omega
    · exact .inr ⟨same.trans same', String.le_trans before before'⟩

theorem standsBefore_total (a b : String × Column) :
    (standsBefore a b || standsBefore b a) = true := by
  rw [Bool.or_eq_true, standsBefore_iff, standsBefore_iff]
  rcases Nat.lt_trichotomy a.2.ordinal b.2.ordinal with below | same | above
  · exact .inl (.inl below)
  · rcases String.le_total a.1 b.1 with before | after
    · exact .inl (.inr ⟨same, before⟩)
    · exact .inr (.inr ⟨same.symm, after⟩)
  · exact .inr (.inl above)

theorem pairwise_undeclaredKeys (columns : KeyMap Column) (declared : List String) :
    (undeclaredKeys columns declared).Pairwise (Precedes columns) := by
  let others := columns.entries.filter fun e => !declared.contains e.1
  have sorted : (others.mergeSort standsBefore).Pairwise fun a b => standsBefore a b = true :=
    List.pairwise_mergeSort standsBefore_trans standsBefore_total others
  have distinct : (others.mergeSort standsBefore).Pairwise fun a b => a.1 ≠ b.1 := by
    have keys : others.Pairwise fun a b => a.1 ≠ b.1 :=
      (List.pairwise_map.1 columns.nodup_keys).sublist List.filter_sublist
    exact keys.perm (List.mergeSort_perm others standsBefore).symm fun other => other.symm
  have found : ∀ e ∈ others.mergeSort standsBefore, columns.get? e.1 = some e.2 := by
    intro e mem
    exact (columns.mem_entries_iff _ _).1 (List.mem_filter.1 (List.mem_mergeSort.1 mem)).1
  show ((others.mergeSort standsBefore).map Prod.fst).Pairwise (Precedes columns)
  rw [List.pairwise_map]
  refine (sorted.and distinct).imp_of_mem ?_
  rintro a b ha hb ⟨before, other⟩
  refine ⟨a.2.ordinal, b.2.ordinal, by rw [found a ha]; rfl, by rw [found b hb]; rfl, ?_⟩
  rcases standsBefore_iff.1 before with below | ⟨same, le⟩
  · exact .inl below
  · exact .inr ⟨same, String.not_le.1 fun ge => other (String.le_antisymm le ge)⟩

/-! ## Columns that a declaration does not name -/

/-- The keys of the columns that a declaration names. -/
def declaredKeys (d : Declaration) : List String :=
  d.columns.map fun column => column.1.lowerCase

theorem lastDeclared_eq_none {d : Declaration} {k : String} (h : k ∉ declaredKeys d) :
    lastDeclared k (numbered d.columns) = none := by
  rw [lastDeclared_eq_none_iff]
  intro e mem key
  have column := List.mem_of_getElem? ((mem_numbered_iff _ _).1 mem)
  exact h (List.mem_map.2 ⟨e.2, column, key⟩)

theorem exists_lastDeclared {d : Declaration} {k : String} (h : k ∈ declaredKeys d) :
    ∃ e, lastDeclared k (numbered d.columns) = some e := by
  obtain ⟨column, mem, key⟩ := List.mem_map.1 h
  obtain ⟨i, found⟩ := List.getElem?_of_mem mem
  refine Option.ne_none_iff_exists'.1 fun none => ?_
  exact (lastDeclared_eq_none_iff _ _).1 none (i, column) ((mem_numbered_iff _ _).2 found) key

theorem get?_declareColumns_of_notMem {d : Declaration} {k : String} (h : k ∉ declaredKeys d)
    (columns : KeyMap Column) :
    (declareColumns columns (numbered d.columns)).get? k = columns.get? k := by
  rw [get?_declareColumns, lastDeclared_eq_none h]

variable {t : Table} {d : Declaration}

/-- Left over are the known columns that the declaration does not name. -/
theorem mem_leftOver_iff (t : Table) (d : Declaration) (k : String) :
    k ∈ t.leftOver d ↔ (∃ c, t.columns.get? k = some c) ∧ k ∉ declaredKeys d := by
  rw [leftOver, mem_undeclaredKeys_iff]
  refine and_congr_left fun other => ?_
  rw [get?_declareColumns_of_notMem other]

/-- What is left over is listed in the order of the columns. -/
theorem pairwise_leftOver (t : Table) (d : Declaration) :
    (t.leftOver d).Pairwise (Precedes t.columns) := by
  refine (pairwise_undeclaredKeys _ _).imp_of_mem fun {j k} hj hk before => ?_
  have other := ((mem_leftOver_iff t d j).1 hj).2
  have other' := ((mem_leftOver_iff t d k).1 hk).2
  exact before.congr (by rw [get?_declareColumns_of_notMem other])
    (by rw [get?_declareColumns_of_notMem other'])

theorem nodup_leftOver (t : Table) (d : Declaration) : (t.leftOver d).Nodup :=
  nodup_of_precedes (pairwise_leftOver t d)

/-- What is left over is told by its keys and their order. -/
theorem leftOver_eq {keys : List String}
    (mem : ∀ k, k ∈ keys ↔ (∃ c, t.columns.get? k = some c) ∧ k ∉ declaredKeys d)
    (order : keys.Pairwise (Precedes t.columns)) : t.leftOver d = keys :=
  eq_of_precedes (pairwise_leftOver t d) order fun k => (mem_leftOver_iff t d k).trans (mem k).symm

/-! ## Columns after a declaration -/

/-- Where the columns stand that a declaration does not name. -/
theorem get?_declare_of_leftOver {name : ObjectName} {k : String} {c : Column}
    (found : t.columns.get? k = some c) (other : k ∉ declaredKeys d) :
    (t.declare name d).columns.get? k =
      some { c with ordinal := d.columns.length + (t.leftOver d).idxOf k } := by
  have mem := (mem_leftOver_iff t d k).2 ⟨⟨c, found⟩, other⟩
  obtain ⟨offset, place⟩ := Option.isSome_iff_exists.1 (List.isSome_idxOf?.2 mem)
  have index : (t.leftOver d).idxOf k = offset := by
    rw [List.idxOf_eq_getD_idxOf?, place, Option.getD_some]
  rw [get?_columns_declare, get?_declareColumns_of_notMem other, found, place, index]
  rfl

/-- What a declaration makes of a column that it names. -/
theorem get?_declare_of_declared {name : ObjectName} {k : String} {e : Nat × String × String}
    (last : lastDeclared k (numbered d.columns) = some e) :
    (t.declare name d).columns.get? k =
      some (((t.columns.get? k).getD (Column.ofDeclared e)).redeclare e) := by
  have named : k ∈ declaredKeys d := by
    obtain ⟨mem, key⟩ := key_of_lastDeclared last
    exact List.mem_map.2 ⟨e.2, List.mem_of_getElem? ((mem_numbered_iff _ _).1 mem), key⟩
  have outside : (t.leftOver d).idxOf? k = none :=
    List.idxOf?_eq_none_iff.2 fun mem => ((mem_leftOver_iff t d k).1 mem).2 named
  rw [get?_columns_declare, get?_declareColumns, last, outside]
  rfl

/-- A declaration adds only columns that it names. -/
theorem get?_declare_of_unknown (name : ObjectName) {k : String} (other : k ∉ declaredKeys d)
    (unknown : t.columns.get? k = none) : (t.declare name d).columns.get? k = none := by
  rw [get?_columns_declare, get?_declareColumns_of_notMem other, unknown]
  rfl

/-- A declaration makes up no column that it does not name, and loses none. -/
theorem exists_get?_declare_iff (name : ObjectName) {k : String} (other : k ∉ declaredKeys d) :
    (∃ c, (t.declare name d).columns.get? k = some c) ↔ ∃ c, t.columns.get? k = some c := by
  cases known : t.columns.get? k with
  | none =>
    rw [get?_declare_of_unknown name other known]
  | some before =>
    rw [get?_declare_of_leftOver known other]
    exact ⟨fun _ => ⟨_, rfl⟩, fun _ => ⟨_, rfl⟩⟩

/-- A column that is there after a declaration is named by it, or was known before and is
left over. -/
theorem get?_declare_cases {name : ObjectName} {k : String} {c : Column}
    (found : (t.declare name d).columns.get? k = some c) :
    (∃ e, lastDeclared k (numbered d.columns) = some e ∧
      c = ((t.columns.get? k).getD (Column.ofDeclared e)).redeclare e) ∨
    k ∉ declaredKeys d ∧ ∃ before, t.columns.get? k = some before ∧
      c = { before with ordinal := d.columns.length + (t.leftOver d).idxOf k } := by
  by_cases named : k ∈ declaredKeys d
  · obtain ⟨e, last⟩ := exists_lastDeclared named
    rw [get?_declare_of_declared last] at found
    exact .inl ⟨e, last, (Option.some.inj found).symm⟩
  · cases known : t.columns.get? k with
    | none =>
      rw [get?_declare_of_unknown name named known] at found
      cases found
    | some before =>
      rw [get?_declare_of_leftOver known named] at found
      exact .inr ⟨named, before, rfl, (Option.some.inj found).symm⟩

/-! ## The next place -/

/-- After a declaration come, first, the columns that it names and then those that it does not. -/
theorem nextOrdinal_declare (t : Table) (name : ObjectName) (d : Declaration) :
    (t.declare name d).nextOrdinal = d.columns.length + (t.leftOver d).length := by
  apply Nat.le_antisymm
  · refine nextOrdinal_le_iff.2 fun k c found => ?_
    rcases get?_declare_cases found with ⟨e, last, rfl⟩ | ⟨other, before, known, rfl⟩
    · have column := (mem_numbered_iff _ _).1 (key_of_lastDeclared last).1
      have below := (List.getElem?_eq_some_iff.1 column).1
      exact Nat.lt_of_lt_of_le below (Nat.le_add_right _ _)
    · have inside := List.idxOf_lt_length_iff.2 ((mem_leftOver_iff t d k).2 ⟨⟨_, known⟩, other⟩)
      exact Nat.add_lt_add_left inside _
  · -- The last column that is left over is at the last place, or else the last declared one is.
    rcases List.eq_nil_or_concat (t.leftOver d) with none | ⟨before, k, eq⟩
    · rw [none, List.length_nil, Nat.add_zero]
      rcases List.eq_nil_or_concat d.columns with none | ⟨first, column, eq⟩
      · rw [none]
        exact Nat.zero_le _
      · have last : lastDeclared column.1.lowerCase (numbered d.columns) =
            some (first.length, column) := by
          rw [lastDeclared, numbered, eq, List.concat_eq_append, List.zipIdx_append]
          simp
        have place : first.length < (t.declare name d).nextOrdinal :=
          ordinal_lt_nextOrdinal (get?_declare_of_declared last)
        rw [eq, List.length_concat]
        exact place
    · have mem : k ∈ t.leftOver d := by rw [eq]; simp
      obtain ⟨⟨c, found⟩, other⟩ := (mem_leftOver_iff t d k).1 mem
      have index : (t.leftOver d).idxOf k = before.length := by
        have distinct := nodup_leftOver t d
        rw [eq, List.concat_eq_append, List.nodup_append] at distinct
        have outside : k ∉ before := fun inside =>
          distinct.2.2 k inside k List.mem_cons_self rfl
        rw [eq, List.concat_eq_append, List.idxOf_append_of_notMem outside, List.idxOf_cons_self,
          Nat.add_zero]
      have place : d.columns.length + (t.leftOver d).idxOf k < (t.declare name d).nextOrdinal :=
        ordinal_lt_nextOrdinal (get?_declare_of_leftOver found other)
      rw [index] at place
      rw [eq, List.length_concat]
      exact place

/-! ## Comments on columns -/

/-- A change of a column is seen under its key, also if the column is made up for it. -/
theorem get?_withColumn (t : Table) (column : String) (change : Column → Column) (k : String) :
    (t.withColumn column change).columns.get? k =
      if k = column.lowerCase then some (change (t.columnOrStub column t.nextOrdinal))
      else t.columns.get? k :=
  KeyMap.get?_insert _ _ _ _

section

variable {column : String} {change : Column → Column}

/-- A change of a column that is known or declared leaves the others as they were. -/
theorem leftOver_withColumn_of_known (keeps : ∀ c, (change c).ordinal = c.ordinal)
    (h : column.lowerCase ∈ declaredKeys d ∨ ∃ c, t.columns.get? column.lowerCase = some c) :
    (t.withColumn column change).leftOver d = t.leftOver d := by
  have places : ∀ k, k ∉ declaredKeys d →
      ((t.withColumn column change).columns.get? k).map Column.ordinal =
        (t.columns.get? k).map Column.ordinal := by
    intro k other
    rw [get?_withColumn]
    split
    · rename_i here
      subst here
      obtain ⟨c, found⟩ := h.resolve_left other
      simp [columnOrStub, Table.column?, found, keeps]
    · rfl
  refine leftOver_eq (fun k => ?_) ?_
  · rw [mem_leftOver_iff]
    refine and_congr_left fun other => ?_
    have same := congrArg Option.isSome (places k other)
    rw [Option.isSome_map, Option.isSome_map] at same
    rw [← Option.isSome_iff_exists, ← Option.isSome_iff_exists, same]
  · refine (pairwise_leftOver t d).imp_of_mem fun {j k} hj hk before => ?_
    exact before.congr (places j ((mem_leftOver_iff t d j).1 hj).2)
      (places k ((mem_leftOver_iff t d k).1 hk).2)

/-- A column that is made up is the last of those that a declaration does not name. -/
theorem leftOver_withColumn_of_new (keeps : ∀ c, (change c).ordinal = c.ordinal)
    (other : column.lowerCase ∉ declaredKeys d)
    (new : t.columns.get? column.lowerCase = none) :
    (t.withColumn column change).leftOver d = t.leftOver d ++ [column.lowerCase] := by
  have made : ((t.withColumn column change).columns.get? column.lowerCase).map Column.ordinal =
      some t.nextOrdinal := by
    rw [get?_withColumn, if_pos rfl, Option.map_some, keeps, columnOrStub, Table.column?, new]
    rfl
  have others : ∀ k ∈ t.leftOver d,
      (t.withColumn column change).columns.get? k = t.columns.get? k := by
    intro k mem
    rw [get?_withColumn, if_neg]
    rintro rfl
    obtain ⟨⟨c, found⟩, -⟩ := (mem_leftOver_iff t d _).1 mem
    rw [new] at found
    cases found
  refine leftOver_eq (fun k => ?_) ?_
  · rw [List.mem_append, List.mem_singleton, mem_leftOver_iff, get?_withColumn]
    by_cases here : k = column.lowerCase
    · simp [here, other]
    · simp [here]
  · rw [List.pairwise_append]
    refine ⟨?_, List.pairwise_singleton _ _, ?_⟩
    · refine (pairwise_leftOver t d).imp_of_mem fun {j k} hj hk before => ?_
      exact before.congr (by rw [others j hj]) (by rw [others k hk])
    · intro j hj k hk
      obtain rfl := List.mem_singleton.1 hk
      obtain ⟨⟨c, found⟩, -⟩ := (mem_leftOver_iff t d j).1 hj
      refine ⟨c.ordinal, t.nextOrdinal, by rw [others j hj, found]; rfl, made, .inl ?_⟩
      exact ordinal_lt_nextOrdinal found

/-- The columns that were left over before stay where they were among those. -/
theorem idxOf_leftOver_withColumn (keeps : ∀ c, (change c).ordinal = c.ordinal) {k : String}
    (mem : k ∈ t.leftOver d) :
    ((t.withColumn column change).leftOver d).idxOf k = (t.leftOver d).idxOf k := by
  by_cases old : column.lowerCase ∈ declaredKeys d ∨ ∃ c, t.columns.get? column.lowerCase = some c
  · rw [leftOver_withColumn_of_known keeps old]
  · rw [not_or, ← Option.ne_none_iff_exists', not_not] at old
    rw [leftOver_withColumn_of_new keeps old.1 old.2, List.idxOf_append_of_mem mem]

/-- A declaration sets name, type and place of a column, so only the comment on it is left. -/
theorem get?_declare_withColumn_of_declared {k : String} (named : k ∈ declaredKeys d)
    (name : ObjectName) (comment : Option String) :
    ((t.withColumn column fun c => { c with comment }).declare name d).columns.get? k =
      ((t.declare name d).withColumn column fun c => { c with comment }).columns.get? k := by
  obtain ⟨e, last⟩ := exists_lastDeclared named
  rw [get?_withColumn, get?_declare_of_declared last, get?_withColumn]
  split
  · rename_i here
    subst here
    rw [columnOrStub, Table.column?, columnOrStub, Table.column?, get?_declare_of_declared last]
    cases t.columns.get? column.lowerCase <;> rfl
  · rw [get?_declare_of_declared last]

/-- A column that is not declared can be known already, or else the comment makes it up. -/
theorem get?_declare_withColumn_self (keeps : ∀ c, (change c).ordinal = c.ordinal)
    (places : ∀ c n, change { c with ordinal := n } = { change c with ordinal := n })
    (other : column.lowerCase ∉ declaredKeys d) (name : ObjectName) :
    ((t.withColumn column change).declare name d).columns.get? column.lowerCase =
      ((t.declare name d).withColumn column change).columns.get? column.lowerCase := by
  have before := get?_withColumn t column change column.lowerCase
  rw [get?_withColumn, if_pos rfl]
  rw [if_pos rfl, columnOrStub, Table.column?] at before
  cases known : t.columns.get? column.lowerCase with
  | some c =>
    rw [known, Option.getD_some] at before
    rw [get?_declare_of_leftOver before other, columnOrStub, Table.column?,
      get?_declare_of_leftOver known other, leftOver_withColumn_of_known keeps (.inr ⟨c, known⟩)]
    exact congrArg some (places _ _).symm
  | none =>
    rw [known, Option.getD_none] at before
    have outside : column.lowerCase ∉ t.leftOver d := by
      rw [mem_leftOver_iff, known]
      rintro ⟨⟨c, none_⟩, -⟩
      cases none_
    -- It is made up behind all others, whether these are numbered again or not.
    rw [get?_declare_of_leftOver before other, columnOrStub, Table.column?,
      get?_declare_of_unknown name other known, nextOrdinal_declare,
      leftOver_withColumn_of_new keeps other known, List.idxOf_append_of_notMem outside,
      List.idxOf_cons_self, Nat.add_zero]
    exact congrArg some (places _ _).symm

/-- A change of one column and a declaration can be exchanged for any other column. -/
theorem get?_declare_withColumn_of_ne (keeps : ∀ c, (change c).ordinal = c.ordinal) {k : String}
    (named : k ∉ declaredKeys d) (other : k ≠ column.lowerCase) (name : ObjectName) :
    ((t.withColumn column change).declare name d).columns.get? k =
      ((t.declare name d).withColumn column change).columns.get? k := by
  have same : (t.withColumn column change).columns.get? k = t.columns.get? k := by
    rw [get?_withColumn, if_neg other]
  rw [get?_withColumn, if_neg other]
  cases known : t.columns.get? k with
  | none =>
    rw [get?_declare_of_unknown name named (same.trans known),
      get?_declare_of_unknown name named known]
  | some c =>
    have mem := (mem_leftOver_iff t d k).2 ⟨⟨c, known⟩, named⟩
    rw [get?_declare_of_leftOver (same.trans known) named, get?_declare_of_leftOver known named,
      idxOf_leftOver_withColumn keeps mem]

end

/-- A declaration and a comment on a column can change places: the column may be declared, known
before without being declared, or made up by the comment. -/
theorem declare_withColumn (t : Table) (name : ObjectName) (d : Declaration) (column : String)
    (comment : Option String) :
    (t.withColumn column fun c => { c with comment }).declare name d =
      (t.declare name d).withColumn column fun c => { c with comment } := by
  let change := fun c : Column => { c with comment }
  have keeps : ∀ c, (change c).ordinal = c.ordinal := fun c => rfl
  have columns : ((t.withColumn column change).declare name d).columns =
      ((t.declare name d).withColumn column change).columns := by
    apply KeyMap.ext_get?
    intro k
    by_cases named : k ∈ declaredKeys d
    · exact get?_declare_withColumn_of_declared named name comment
    · by_cases here : k = column.lowerCase
      · subst here
        exact get?_declare_withColumn_self keeps (fun _ _ => rfl) named name
      · exact get?_declare_withColumn_of_ne keeps named here name
  exact congrArg (fun columns => { t.declare name d with columns }) columns

/-! ## Changes that commute with declarations -/

/-- A change of a table that can be made before a declaration of the table or after it, and before
or after a file is listed among those that mention the table. -/
structure Annotates (change : Table → Table) : Prop where
  declare : ∀ (t : Table) (name : ObjectName) (d : Declaration),
    (change t).declare name d = change (t.declare name d)
  withSource : ∀ (t : Table) (path : String),
    change (t.withSource path) = (change t).withSource path

theorem annotates_comment (comment : Option String) :
    Annotates fun t : Table => { t with comment } :=
  ⟨fun _ _ _ => rfl, fun _ _ => rfl⟩

theorem annotates_columnComment (column : String) (comment : Option String) :
    Annotates fun t : Table => t.withColumn column fun c => { c with comment } :=
  ⟨fun t name d => declare_withColumn t name d column comment, fun _ _ => rfl⟩

theorem addSource_addSource (path : String) (sources : List String) :
    addSource path (addSource path sources) = addSource path sources := by
  have listed : ∀ others : List String, path.isEmpty = true ∨ path ∈ others →
      addSource path others = others := by
    intro others h
    rw [addSource, if_pos]
    simpa using h
  by_cases known : path.isEmpty = true ∨ path ∈ sources
  · rw [listed sources known, listed sources known]
  · have added : addSource path sources = sources ++ [path] := by
      rw [addSource, if_neg]
      simpa using known
    rw [added]
    exact listed _ (.inr (by simp))

theorem withSource_withSource (t : Table) (path : String) :
    (t.withSource path).withSource path = t.withSource path :=
  congrArg (fun sources => { t with sources }) (addSource_addSource path t.sources)

/-- A declaration and such a change, each with the file that makes it, can change places. -/
theorem Annotates.change_declare {change : Table → Table} (h : Annotates change) (t : Table)
    (name : ObjectName) (d : Declaration) (path : String) :
    change (((t.withSource path).declare name d).withSource path) =
      ((change (t.withSource path)).withSource path).declare name d := by
  calc change (((t.withSource path).declare name d).withSource path)
      = change (((t.withSource path).withSource path).declare name d) := rfl
    _ = (change ((t.withSource path).withSource path)).declare name d := (h.declare _ _ _).symm
    _ = ((change (t.withSource path)).withSource path).declare name d := by rw [h.withSource]

/-- A declaration gives a table its name, so a table that is not known may have any name with the
same key before. -/
theorem declare_empty {n m : ObjectName} (same : n.key = m.key) (dotlessN : '.' ∉ n.name.toList)
    (dotlessM : '.' ∉ m.name.toList) (d : Declaration) (path : String) :
    ((empty n).withSource path).declare n d = ((empty m).withSource path).declare n d := by
  rw [key_eq_objectKey, key_eq_objectKey] at same
  have schema := (objectKey_inj same dotlessN dotlessM).1
  rw [empty, schema]
  rfl

end Table

/-! ## Catalogs -/

namespace Catalog

variable {c : Catalog} {n m : ObjectName} {f g : Table → Table}

/-- An update does not change what stands under other keys. -/
theorem tableOrEmpty_updateTable_of_ne (other : m.key ≠ n.key) :
    (c.updateTable n f).tableOrEmpty m = c.tableOrEmpty m := by
  rw [tableOrEmpty, updateTable, KeyMap.get?_insert_of_ne _ _ other]
  rfl

/-- An update is seen under all names with its key. -/
theorem tableOrEmpty_updateTable_of_eq (same : m.key = n.key) :
    (c.updateTable n f).tableOrEmpty m = f (c.tableOrEmpty n) := by
  rw [tableOrEmpty, updateTable, same, KeyMap.get?_insert_self]
  rfl

/-- Changes of two tables can change places, if those of one table can. -/
theorem updateTable_comm
    (h : n.key = m.key → g (f (c.tableOrEmpty n)) = f (g (c.tableOrEmpty m))) :
    (c.updateTable n f).updateTable m g = (c.updateTable m g).updateTable n f := by
  have tables : (c.tables.insert n.key (f (c.tableOrEmpty n))).insert m.key
        (g ((c.updateTable n f).tableOrEmpty m)) =
      (c.tables.insert m.key (g (c.tableOrEmpty m))).insert n.key
        (f ((c.updateTable m g).tableOrEmpty n)) := by
    by_cases same : n.key = m.key
    · rw [tableOrEmpty_updateTable_of_eq same.symm, tableOrEmpty_updateTable_of_eq same, same,
        KeyMap.insert_insert, KeyMap.insert_insert, h same]
    · rw [tableOrEmpty_updateTable_of_ne fun eq => same eq.symm,
        tableOrEmpty_updateTable_of_ne same, KeyMap.insert_comm _ _ _ same]
  exact congrArg (fun tables => { c with tables }) tables

end Catalog

/-! ## Drafts -/

namespace Draft

variable {d : Draft} {n m : ObjectName} {source : String}

/-- A declaration of one table and a comment on the same or another one, in either order. -/
theorem mentionTable_comm (dotlessN : '.' ∉ n.name.toList) (dotlessM : '.' ∉ m.name.toList)
    (declaration : Declaration) {change : Table → Table} (h : Table.Annotates change) :
    (d.mentionTable n source fun t => t.declare (d.resolve n) declaration).mentionTable m source
        change =
      (d.mentionTable m source change).mentionTable n source
        fun t => t.declare (d.resolve n) declaration := by
  have clean : ∀ {k : ObjectName}, '.' ∉ k.name.toList → '.' ∉ (d.resolve k).name.toList := by
    intro k dotless
    rwa [resolve, ObjectName.name_resolve]
  -- Only where both name one table do the two changes meet; a table that is made up for them has
  -- the name that the declaration gives it.
  have order : (d.resolve n).key = (d.resolve m).key →
      change ((((d.catalog.tableOrEmpty (d.resolve n)).withSource source).declare (d.resolve n)
        declaration).withSource source) =
      ((change ((d.catalog.tableOrEmpty (d.resolve m)).withSource source)).withSource
        source).declare (d.resolve n) declaration := by
    intro same
    rw [h.change_declare]
    rw [← h.withSource, ← h.withSource, Table.withSource_withSource, Table.withSource_withSource,
      h.declare, h.declare, Catalog.tableOrEmpty, Catalog.tableOrEmpty, same]
    cases d.catalog.tables.get? (d.resolve m).key with
    | some t => rfl
    | none => exact congrArg change (Table.declare_empty same (clean dotlessN) (clean dotlessM) _ _)
  have catalogs : (d.catalog.updateTable (d.resolve n) fun t =>
        (t.withSource source).declare (d.resolve n) declaration).updateTable (d.resolve m)
          (fun t => change (t.withSource source)) =
      (d.catalog.updateTable (d.resolve m) fun t => change (t.withSource source)).updateTable
        (d.resolve n) fun t => (t.withSource source).declare (d.resolve n) declaration :=
    Catalog.updateTable_comm order
  exact congrArg (fun catalog => { d with catalog }) catalogs

end Draft

/-! ## Statements -/

namespace Statement

/-- A statement that sets the comment on a table or on one of its columns. -/
def CommentsOn (s : Statement) (table : ObjectName) : Prop :=
  (∃ comment, s = .commentOnTable table comment) ∨
    ∃ column comment, s = .commentOnColumn table column comment

theorem CommentsOn.mem_objectNames {s : Statement} {table : ObjectName} (h : s.CommentsOn table) :
    table ∈ s.objectNames := by
  obtain ⟨comment, rfl⟩ | ⟨column, comment, rfl⟩ := h
  · exact List.mem_cons_self
  · exact List.mem_cons_self

end Statement

namespace Draft

variable {d : Draft} {stmt source : String}

/-- A CREATE TABLE statement declares its table, or is malformed and changes nothing. -/
theorem call_createTable {name : ObjectName} (h : Statement.ofText stmt = .createTable name)
    (d : Draft) (source : String) :
    d.call (.apply stmt source) =
      match Declaration.ofChars (Text.trim stmt.toList) with
      | .ok declaration =>
        d.mentionTable name source fun t => t.declare (d.resolve name) declaration
      | .error _ => d := by
  have read : Statement.ofChars (Text.trim stmt.toList) = .createTable name := by
    rw [Statement.ofChars_trim]
    exact h
  rw [call, apply, applyTrimmed, read]
  cases Declaration.ofChars (Text.trim stmt.toList) <;> rfl

/-- A comment on a table is written whatever the views are. -/
theorem apply_commentOnTable {table : ObjectName} {comment : Option String}
    (h : Statement.ofText stmt = .commentOnTable table comment) (d : Draft) (source : String) :
    d.apply stmt source =
      .ok (d.mentionTable table source fun t => { t with comment }, .changed) := by
  have read : Statement.ofChars (Text.trim stmt.toList) = .commentOnTable table comment :=
    (Statement.ofChars_trim _).trans h
  rw [apply, applyTrimmed, read]

/-- A comment on a column, of whose table there is no view, is kept in the table. -/
theorem apply_commentOnColumn {table : ObjectName} {column : String} {comment : Option String}
    (h : Statement.ofText stmt = .commentOnColumn table column comment) (source : String)
    (noView : d.catalog.views.contains (d.resolve table).key = false) :
    d.apply stmt source =
      .ok (d.mentionTable table source fun t => t.withColumn column fun c => { c with comment },
        .changed) := by
  have read : Statement.ofChars (Text.trim stmt.toList) = .commentOnColumn table column comment :=
    (Statement.ofChars_trim _).trans h
  rw [apply, applyTrimmed, read]
  simp only [commentInView?, noView]
  rfl

/-- A comment on no view changes the table that it mentions, and the change is an annotation. -/
theorem exists_call_comment {table : ObjectName} (h : (Statement.ofText stmt).CommentsOn table) :
    ∃ change, Table.Annotates change ∧
      ∀ (d : Draft) (source : String), d.catalog.views.contains (d.resolve table).key = false →
        d.call (.apply stmt source) = d.mentionTable table source change := by
  obtain ⟨comment, eq⟩ | ⟨column, comment, eq⟩ := h
  · refine ⟨_, Table.annotates_comment comment, fun d source noView => ?_⟩
    rw [call, apply_commentOnTable eq]
  · refine ⟨_, Table.annotates_columnComment column comment, fun d source noView => ?_⟩
    rw [call, apply_commentOnColumn eq source noView]

end Draft

/--
A CREATE TABLE statement and a comment on a table or column, of the same file and applied to any
draft, can change places: they lead to the same catalog and search path in either order. The comment
may be on the same table or another one, and on a column that is declared, known or new; only a view
of its name must not be known.
-/
theorem call_createTable_comment_comm (d : Draft) {declaration annotation : String}
    (source : String) {name table : ObjectName}
    (declares : Statement.ofText declaration = .createTable name)
    (comments : (Statement.ofText annotation).CommentsOn table)
    (noView : d.catalog.views.contains (d.resolve table).key = false) :
    (d.call (.apply declaration source)).call (.apply annotation source) =
      (d.call (.apply annotation source)).call (.apply declaration source) := by
  have named : name ∈ (Statement.ofChars declaration.toList).objectNames := by
    rw [← Statement.ofText, declares]
    exact List.mem_cons_self
  have dotlessName : '.' ∉ name.name.toList := Statement.dot_notMem_name named
  have dotlessTable : '.' ∉ table.name.toList :=
    Statement.dot_notMem_name comments.mem_objectNames
  obtain ⟨change, annotates, comment⟩ := Draft.exists_call_comment comments
  have create := Draft.call_createTable declares
  rw [comment d source noView, create d source, create]
  cases Declaration.ofChars (Text.trim declaration.toList) with
  | error e => exact comment d source noView
  | ok body =>
    have first := comment (d.mentionTable name source fun t => t.declare (d.resolve name) body)
      source noView
    rw [first]
    exact Draft.mentionTable_comm dotlessName dotlessTable body annotates

/-- A comment makes up a column, which a declaration with two others puts behind these. -/
theorem call_createTable_comment_comm_madeUp :
    ((Draft.empty.call (.apply "CREATE TABLE t (a INT, b TEXT);" "t.sql")).call
        (.apply "COMMENT ON COLUMN t.c IS 'x';" "t.sql") =
      (Draft.empty.call (.apply "COMMENT ON COLUMN t.c IS 'x';" "t.sql")).call
        (.apply "CREATE TABLE t (a INT, b TEXT);" "t.sql")) := by
  have declares : Statement.ofText "CREATE TABLE t (a INT, b TEXT);" =
      .createTable ⟨none, "t"⟩ := by
    decide +kernel
  have comments : Statement.ofText "COMMENT ON COLUMN t.c IS 'x';" =
      .commentOnColumn ⟨none, "t"⟩ "c" (some "x") := by
    decide +kernel
  exact call_createTable_comment_comm .empty "t.sql" declares (.inr ⟨_, _, comments⟩) rfl

end Rollback

import Rollback.Proofs.Json.Documents
import Rollback.Proofs.Schema.Entries

/-!
# Values that are kept

Any value can be the default of a column. It is the same after it was printed and read if its
numbers are integers of 64 bits, the fields of its objects are in order and it is not nested too
deeply; and every value that is read is such a value, apart from doubles.

- `Value.Storable`: such values
- `value?_node`: a printed value is read as itself
- `storable_of_value?`: what is read can be stored, if it holds no doubles
-/

set_option autoImplicit false

namespace Rollback.Json

/-- A value without doubles whose integers have 64 bits, whose objects have their fields in the
order of the names, and which is nested at most `depth` deep. -/
inductive Value.Storable : Nat → Value → Prop where
  | null {depth : Nat} : Storable depth .null
  | bool {depth : Nat} (b : Bool) : Storable depth (.bool b)
  | integer {depth : Nat} {i : Int} (word : IsWord i) : Storable depth (.number (.integer i))
  | string {depth : Nat} (s : String) : Storable depth (.string s)
  | array {depth : Nat} {items : List Value} (inner : ∀ item ∈ items, Storable depth item) :
      Storable (depth + 1) (.array items)
  | object {depth : Nat} {fields : List (String × Value)} (ascend : KeysAscend fields)
      (inner : ∀ field ∈ fields, Storable depth field.2) : Storable (depth + 1) (.object fields)

namespace Value

theorem arePlain_iff (items : List Value) :
    arePlain items = true ↔ ∀ item ∈ items, item.isPlain = true := by
  induction items with
  | nil => simp [arePlain]
  | cons item rest ih => rw [arePlain, Bool.and_eq_true, ih, List.forall_mem_cons]

theorem hasPlainFields_iff (fields : List (String × Value)) :
    hasPlainFields fields = true ↔ ∀ field ∈ fields, field.2.isPlain = true := by
  induction fields with
  | nil => simp [hasPlainFields]
  | cons field rest ih => rw [hasPlainFields, Bool.and_eq_true, ih, List.forall_mem_cons]

theorem nodes_eq_map (items : List Value) : nodes items = items.map node := by
  induction items with
  | nil => rfl
  | cons item rest ih => rw [nodes, ih, List.map_cons]

theorem fieldNodes_eq_map (fields : List (String × Value)) :
    fieldNodes fields = fields.map fun field => (some field.1, node field.2) := by
  induction fields with
  | nil => rfl
  | cons field rest ih => rw [fieldNodes, ih, List.map_cons]

/-- What can be stored holds no doubles. -/
theorem Storable.isPlain {depth : Nat} {v : Value} (h : v.Storable depth) : v.isPlain = true := by
  induction h with
  | array _ ih => exact (arePlain_iff _).2 ih
  | object _ _ ih => exact (hasPlainFields_iff _).2 ih
  | _ => rfl

end Value

open Value (Storable)

/-! ## Printed values -/

/-- A field is put into an object like an entry into a map. -/
theorem insertField_eq_insertEntry (name : String) (value : Value)
    (fields : List (String × Value)) :
    insertField name value fields = insertEntry name value fields := by
  induction fields with
  | nil => rfl
  | cons field rest ih => rw [insertField, insertEntry, ih]

/-- A list is read if each of its items is. -/
theorem values?_nodes {depth : Nat} {items : List Value}
    (read : ∀ item ∈ items, Node.value? depth item.node = some item) :
    Node.values? depth (Value.nodes items) = some items := by
  induction items with
  | nil => rfl
  | cons item rest ih =>
    obtain ⟨here, later⟩ := List.forall_mem_cons.1 read
    rw [Value.nodes, Node.values?, here, ih later]
    rfl

/-- Fields are taken up one after another, each into those before it. -/
theorem fieldValues?_fieldNodes {depth : Nat} {fields : List (String × Value)}
    (read : ∀ field ∈ fields, Node.value? depth field.2.node = some field.2)
    (before : List (String × Value)) :
    Node.fieldValues? depth (Value.fieldNodes fields) before =
      some (fields.foldl (fun fields field => insertEntry field.1 field.2 fields) before) := by
  induction fields generalizing before with
  | nil => rfl
  | cons field rest ih =>
    obtain ⟨here, later⟩ := List.forall_mem_cons.1 read
    have more := ih later (insertEntry field.1 field.2 before)
    rw [Value.fieldNodes, Node.fieldValues?, here]
    simp only [Option.bind_eq_bind, Option.bind_some, insertField_eq_insertEntry, more]
    rfl

/-- A printed value is read as itself. -/
theorem value?_node {depth : Nat} {v : Value} (h : v.Storable depth) :
    Node.value? depth v.node = some v := by
  induction h with
  | null => rfl
  | bool b => rfl
  | string s => rfl
  | integer word =>
    rw [Value.node, Node.value?, number?_integerText word]
    rfl
  | array _ ih =>
    rw [Value.node, Node.value?, values?_nodes ih]
    rfl
  | object ascend _ ih =>
    -- Each field has a name above those of the fields read so far, so it comes last.
    rw [Value.node, Node.value?, fieldValues?_fieldNodes ih [], foldl_insertEntry_nil ascend]
    rfl

/-! ## Values that are read -/

/-- A number that is read as a double is no integer. -/
theorem double?_ne_integer (n : NumberText) (i : Int) : n.double? ≠ some (.integer i) := by
  intro h
  unfold NumberText.double? at h
  dsimp only at h
  have double : ∀ scaled : Option Float, (scaled.bind fun scaled =>
      some (Number.double (if n.negative then -scaled else scaled).toBits)) ≠
        some (.integer i) := by
    intro scaled h
    obtain ⟨_, -, h⟩ := Option.bind_eq_some_iff.1 h
    cases h
  split at h
  · exact double _ h
  · split at h
    · split at h
      · exact double none h
      · exact double (some 0.0) h
    · exact double _ h

/-- The integer of a number is one of 64 bits. -/
theorem isWord_of_number? {n : NumberText} {i : Int} (h : n.number? = some (.integer i)) :
    IsWord i := by
  unfold NumberText.number? at h
  dsimp only at h
  split at h
  · split at h
    · split at h
      · rename_i _ bounds
        simp only [bne_iff_ne, ne_eq, Bool.and_eq_true, decide_eq_true_eq] at bounds
        obtain rfl := Number.integer.inj (Option.some.inj h)
        rw [IsWord, maxWord]
        omega
      · exact absurd h (double?_ne_integer n i)
    · split at h
      · rename_i _ bound
        obtain rfl := Number.integer.inj (Option.some.inj h)
        rw [maxWord] at bound
        rw [IsWord, maxWord]
        omega
      · exact absurd h (double?_ne_integer n i)
  · exact absurd h (double?_ne_integer n i)

/-- Only null is read as null. -/
theorem eq_null_of_value? {depth : Nat} {node : Node} (h : Node.value? depth node = some .null) :
    node = .null := by
  cases node with
  | null => rfl
  | bool b => cases h
  | number _ | string _ =>
    obtain ⟨_, -, other⟩ := Option.map_eq_some_iff.1 h
    cases other
  | array _ | object _ =>
    cases depth with
    | zero => cases h
    | succ depth =>
      rw [Node.value?] at h
      obtain ⟨_, -, other⟩ := Option.map_eq_some_iff.1 h
      cases other

mutual

/-- A value that is read can be stored, unless it holds doubles. -/
theorem storable_of_value? : ∀ (node : Node) {depth : Nat} {v : Value},
    Node.value? depth node = some v → v.isPlain = true → v.Storable depth
  | .null, _, _, h, _ => by
    rw [Node.value?] at h
    exact Option.some.inj h ▸ .null
  | .bool b, _, _, h, _ => by
    rw [Node.value?] at h
    exact Option.some.inj h ▸ .bool b
  | .number n, _, v, h, plain => by
    rw [Node.value?] at h
    obtain ⟨number, read, rfl⟩ := Option.map_eq_some_iff.1 h
    cases number with
    | integer i => exact .integer (isWord_of_number? read)
    | double bits => exact absurd plain Bool.false_ne_true
  | .string s, _, v, h, _ => by
    rw [Node.value?] at h
    obtain ⟨text, -, rfl⟩ := Option.map_eq_some_iff.1 h
    exact .string text
  | .array items, 0, _, h, _ => by
    rw [Node.value?] at h
    cases h
  | .array items, depth + 1, v, h, plain => by
    rw [Node.value?] at h
    obtain ⟨values, read, rfl⟩ := Option.map_eq_some_iff.1 h
    exact .array (storable_of_values? items read ((Value.arePlain_iff _).1 plain))
  | .object fields, 0, _, h, _ => by
    rw [Node.value?] at h
    cases h
  | .object fields, depth + 1, v, h, plain => by
    rw [Node.value?] at h
    obtain ⟨values, read, rfl⟩ := Option.map_eq_some_iff.1 h
    obtain ⟨ascend, inner⟩ := storable_of_fieldValues? fields .nil (List.forall_mem_nil _) read
    exact .object ascend fun field mem =>
      inner field mem ((Value.hasPlainFields_iff _).1 plain field mem)

/-- What is read without doubles can be stored, item by item. -/
theorem storable_of_values? : ∀ (items : List Node) {depth : Nat} {values : List Value},
    Node.values? depth items = some values → (∀ v ∈ values, v.isPlain = true) →
      ∀ v ∈ values, v.Storable depth
  | [], _, _, h, _ => by
    rw [Node.values?] at h
    obtain rfl := Option.some.inj h
    exact List.forall_mem_nil _
  | item :: rest, _, values, h, plain => by
    rw [Node.values?] at h
    obtain ⟨first, readFirst, h⟩ := Option.bind_eq_some_iff.1 h
    obtain ⟨others, readOthers, h⟩ := Option.bind_eq_some_iff.1 h
    obtain rfl := Option.some.inj h
    rw [List.forall_mem_cons] at plain ⊢
    exact ⟨storable_of_value? item readFirst plain.1, storable_of_values? rest readOthers plain.2⟩

/-- The fields read so far stay in order and can be stored, whichever are read next. -/
theorem storable_of_fieldValues? : ∀ (fields : List (Option String × Node)) {depth : Nat}
    {before values : List (String × Value)}, KeysAscend before →
      (∀ field ∈ before, field.2.isPlain = true → field.2.Storable depth) →
        Node.fieldValues? depth fields before = some values →
          KeysAscend values ∧ ∀ field ∈ values, field.2.isPlain = true → field.2.Storable depth
  | [], _, _, _, ascend, inner, h => by
    rw [Node.fieldValues?] at h
    obtain rfl := Option.some.inj h
    exact ⟨ascend, inner⟩
  | (name, node) :: rest, _, before, _, ascend, inner, h => by
    rw [Node.fieldValues?] at h
    obtain ⟨value, read, h⟩ := Option.bind_eq_some_iff.1 h
    obtain ⟨name, -, h⟩ := Option.bind_eq_some_iff.1 h
    rw [insertField_eq_insertEntry] at h
    refine storable_of_fieldValues? rest (keysAscend_insertEntry name value ascend) ?_ h
    intro field mem
    -- The field that was read last may have replaced an earlier one of its name.
    rcases mem_insertEntry mem with rfl | mem
    · exact storable_of_value? node read
    · exact inner field mem

end

end Rollback.Json

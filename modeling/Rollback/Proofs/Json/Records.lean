import Rollback.Proofs.Json.Values
import Rollback.Proofs.Lists

/-!
# Records

The parts of a record are found again in the object that it was printed as, where some of the fields
may have been left out.

- `presentFields`: the fields that have values
- `selects`: names of fields that are told apart by the keys of an object
- `record?_presentFields`: the parts of a record
- `exists_of_mem_entries?`: the entries of a map were read one by one
-/

set_option autoImplicit false

namespace Rollback.Json

open Value

/-! ## Fields that may be left out -/

/-- The fields that have values. -/
def presentFields (fields : List (String × Option Value)) : List (String × Value) :=
  fields.filterMap fun field => field.2.map fun value => (field.1, value)

/-- Whether the keys of an object stand for the fields with the given names, in order, and each for
no other field. -/
def selects : List (List String) → List String → Bool
  | [], [] => true
  | aliases :: names, key :: keys =>
    aliases.contains key && keys.all (fun other => !aliases.contains other) &&
      names.all (fun others => !others.contains key) && selects names keys
  | _, _ => false

/-- The named parts of an object whose names are all readable. -/
def namedNodes (fields : List (String × Value)) : List (String × Node) :=
  fields.map fun field => (field.1, field.2.node)

theorem filter_name_eq_nil {aliases : List String} {fields : List (String × Node)}
    (h : ∀ field ∈ fields, aliases.contains field.1 = false) :
    (fields.filter fun (name, _) => aliases.contains name) = [] :=
  List.filter_eq_nil_iff.2 fun field mem => by
    simp only [h field mem, Bool.false_eq_true, not_false_iff]

theorem filter_name_cons_of_pos {aliases : List String} {key : String} (node : Node)
    (fields : List (String × Node)) (inside : aliases.contains key = true) :
    (((key, node) :: fields).filter fun (name, _) => aliases.contains name) =
      (key, node) :: fields.filter fun (name, _) => aliases.contains name :=
  List.filter_cons_of_pos inside

theorem filter_name_cons_of_neg {aliases : List String} {key : String} (node : Node)
    (fields : List (String × Node)) (outside : aliases.contains key = false) :
    (((key, node) :: fields).filter fun (name, _) => aliases.contains name) =
      fields.filter fun (name, _) => aliases.contains name :=
  List.filter_cons_of_neg (by simp only [outside, Bool.false_eq_true, not_false_iff])

theorem fieldOf?_eq_none {aliases : List String} {fields : List (String × Node)}
    (h : ∀ field ∈ fields, aliases.contains field.1 = false) :
    Node.fieldOf? aliases fields = some none := by
  rw [Node.fieldOf?, filter_name_eq_nil h]

theorem fieldOf?_cons_self {aliases : List String} {key : String} (node : Node)
    {fields : List (String × Node)} (inside : aliases.contains key = true)
    (h : ∀ field ∈ fields, aliases.contains field.1 = false) :
    Node.fieldOf? aliases ((key, node) :: fields) = some (some node) := by
  rw [Node.fieldOf?, filter_name_cons_of_pos node fields inside, filter_name_eq_nil h]

theorem fieldOf?_cons_of_not {aliases : List String} {key : String} (node : Node)
    (fields : List (String × Node)) (outside : aliases.contains key = false) :
    Node.fieldOf? aliases ((key, node) :: fields) = Node.fieldOf? aliases fields := by
  rw [Node.fieldOf?, filter_name_cons_of_neg node fields outside, Node.fieldOf?]

theorem mem_keys_of_mem_presentFields {fields : List (String × Option Value)}
    {field : String × Node} (h : field ∈ namedNodes (presentFields fields)) :
    field.1 ∈ fields.map Prod.fst := by
  obtain ⟨present, mem, rfl⟩ := List.mem_map.1 h
  obtain ⟨⟨key, value⟩, inside, found⟩ := List.mem_filterMap.1 mem
  obtain ⟨value, -, rfl⟩ := Option.map_eq_some_iff.1 found
  exact List.mem_map.2 ⟨_, inside, rfl⟩

/-- Each field is found by one of its names, and one that was left out is not found. -/
theorem forall₂_fieldOf?_presentFields {names : List (List String)}
    {fields : List (String × Option Value)} (h : selects names (fields.map Prod.fst) = true) :
    List.Forall₂
      (fun aliases part => Node.fieldOf? aliases (namedNodes (presentFields fields)) = some part)
      names (fields.map fun field => field.2.map node) := by
  induction fields generalizing names with
  | nil =>
    cases names with
    | nil => exact .nil
    | cons aliases names => exact absurd h Bool.false_ne_true
  | cons field rest ih =>
    cases names with
    | nil => exact absurd h Bool.false_ne_true
    | cons aliases names =>
      obtain ⟨key, value⟩ := field
      simp only [List.map_cons, selects, Bool.and_eq_true, List.all_eq_true,
        Bool.not_eq_true'] at h
      obtain ⟨⟨⟨inside, noOther⟩, noOthers⟩, more⟩ := h
      have outside : ∀ field ∈ namedNodes (presentFields rest), aliases.contains field.1 = false :=
        fun field mem => noOther field.1 (mem_keys_of_mem_presentFields mem)
      cases value with
      | none =>
        exact .cons (fieldOf?_eq_none outside) (ih more)
      | some value =>
        -- The other fields are looked for behind this one, whose key is none of their names.
        refine .cons (fieldOf?_cons_self value.node inside outside) ?_
        refine ((List.forall₂_and_left _ _).2 ⟨noOthers, ih more⟩).imp ?_
        rintro others part ⟨noField, found⟩
        exact (fieldOf?_cons_of_not _ _ noField).trans found

/-- The names of a printed object can all be read. -/
theorem mapM_name_fieldNodes (fields : List (String × Value)) :
    ((fieldNodes fields).mapM fun (name, value) => name.map fun name => (name, value)) =
      some (namedNodes fields) := by
  rw [fieldNodes_eq_map, mapM_eq_some_iff, namedNodes, List.forall₂_map_left_iff,
    List.forall₂_map_right_iff]
  exact List.forall₂_same.2 fun _ _ => rfl

/-- The parts of a record are those of the object that it was printed as. -/
theorem record?_presentFields {names : List (List String)}
    {fields : List (String × Option Value)} (h : selects names (fields.map Prod.fst) = true) :
    (object (presentFields fields)).node.record? names =
      some (fields.map fun field => field.2.map node) := by
  rw [node, Node.record?, mapM_name_fieldNodes]
  exact mapM_eq_some_iff.2 (forall₂_fieldOf?_presentFields h)

/-! ## Parts of records -/

variable {α : Type}

/-- A list of texts is read from its value. -/
theorem list?_strings (items : List String) :
    (strings items).node.list? Node.text? = some items := by
  rw [strings, node, nodes_eq_map, List.map_map]
  exact mapM_map_eq_some fun _ _ => rfl

/-- Named parts are read from the fields with their values. -/
theorem entries?_node {decode : Node → Option α} {encode : α → Value}
    {entries : List (String × α)} (h : ∀ e ∈ entries, decode (encode e.2).node = some e.2) :
    (object (entries.map fun e => (e.1, encode e.2))).node.entries? decode = some entries := by
  rw [node, fieldNodes_eq_map, Node.entries?, List.map_map]
  refine mapM_map_eq_some fun e mem => ?_
  show (decode (encode e.2).node).bind (fun a => some (e.1, a)) = some e
  rw [h e mem]
  rfl

/-- Named parts that were read are each the reading of a part. -/
theorem exists_of_mem_entries? {decode : Node → Option α} {node : Node}
    {entries : List (String × α)} (h : node.entries? decode = some entries) :
    ∀ e ∈ entries, ∃ part, decode part = some e.2 := by
  cases node with
  | object fields =>
    have one : ∀ field : Option String × Node, ∀ e : String × α,
        (do return (← field.1, ← decode field.2)) = some e → ∃ part, decode part = some e.2 := by
      intro field e read
      obtain ⟨_, -, read⟩ := Option.bind_eq_some_iff.1 read
      obtain ⟨a, read, rest⟩ := Option.bind_eq_some_iff.1 read
      exact ⟨field.2, Option.some.inj rest ▸ read⟩
    intro e mem
    obtain ⟨i, inside, rfl⟩ := List.mem_iff_getElem.1 mem
    have all := mapM_eq_some_iff.1 h
    exact one _ _ (all.get (all.length_eq ▸ inside) inside)
  | _ => cases h

/-- A part that is not null is read as it is where null is allowed. -/
theorem nullable?_of_ne_null {decode : Node → Option α} {node : Node} {a : α}
    (read : decode node = some a) (other : node ≠ .null) :
    Node.nullable? decode node = some (some a) := by
  cases node with
  | null => exact absurd rfl other
  | _ => exact congrArg (Option.map some) read

/-- Where null is allowed, something that is read is the reading of the part itself. -/
theorem eq_of_nullable? {decode : Node → Option α} {node : Node} {a : α}
    (h : Node.nullable? decode node = some (some a)) : decode node = some a ∧ node ≠ .null := by
  cases node with
  | null => cases h
  | _ =>
    obtain ⟨b, read, same⟩ := Option.map_eq_some_iff.1 h
    exact ⟨Option.some.inj same ▸ read, by rintro ⟨⟩⟩

/-- A counter below the number of words is read from its value. -/
theorem natural?_counter {n bound : Nat} (word : n < wordCount) (h : n ≤ bound) :
    (counter n).node.natural? bound = some n := by
  rw [counter, Nat.mod_eq_of_lt word, node]
  exact natural?_integerText h

/-- A number that is read is within the bound. -/
theorem le_of_natural? {bound n : Nat} {node : Node} (h : node.natural? bound = some n) :
    n ≤ bound := by
  unfold Node.natural? at h
  split at h
  · split at h
    · dsimp only at h
      split at h
      · rename_i below
        exact Option.some.inj h ▸ below
      · cases h
    · cases h
  · cases h

end Rollback.Json

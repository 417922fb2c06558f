/-!
# JSON values

Values of the data format in which catalogs, manifests and reports are written. The fields of an
object keep the order in which they are to be written.
-/

set_option autoImplicit false

namespace Rollback.Json

/-- A number: an integer, or a finite double given by its bits. -/
inductive Number where
  | integer (n : Int)
  | double (bits : UInt64)
deriving DecidableEq, Repr

/-- A value. -/
inductive Value where
  | null
  | bool (b : Bool)
  | number (n : Number)
  | string (s : String)
  | array (items : List Value)
  | object (fields : List (String × Value))
deriving Repr

namespace Value

instance : Inhabited Value := ⟨null⟩

mutual

/-- Decides whether two values are the same. -/
def same : Value → Value → Bool
  | null, null => true
  | bool a, bool b => a == b
  | number a, number b => a == b
  | string a, string b => a == b
  | array a, array b => sameItems a b
  | object a, object b => sameFields a b
  | _, _ => false

/-- Decides whether two lists of values are the same. -/
def sameItems : List Value → List Value → Bool
  | [], [] => true
  | a :: as, b :: bs => same a b && sameItems as bs
  | _, _ => false

/-- Decides whether two lists of fields are the same. -/
def sameFields : List (String × Value) → List (String × Value) → Bool
  | [], [] => true
  | (j, a) :: as, (k, b) :: bs => j == k && same a b && sameFields as bs
  | _, _ => false

end

mutual

theorem same_refl : (a : Value) → same a a = true
  | null => by simp [same]
  | bool _ => by simp [same]
  | number _ => by simp [same]
  | string _ => by simp [same]
  | array items => by simp [same, sameItems_refl items]
  | object fields => by simp [same, sameFields_refl fields]

theorem sameItems_refl : (as : List Value) → sameItems as as = true
  | [] => by simp [sameItems]
  | a :: as => by simp [sameItems, same_refl a, sameItems_refl as]

theorem sameFields_refl : (as : List (String × Value)) → sameFields as as = true
  | [] => by simp [sameFields]
  | (_, a) :: as => by simp [sameFields, same_refl a, sameFields_refl as]

end

mutual

theorem eq_of_same : (a b : Value) → same a b = true → a = b
  | null, b => by cases b <;> simp [same]
  | bool _, b => by cases b <;> simp [same]
  | number _, b => by cases b <;> simp [same]
  | string _, b => by cases b <;> simp [same]
  | array items, b => by
    cases b with
    | array others => simpa [same] using eq_of_sameItems items others
    | _ => simp [same]
  | object fields, b => by
    cases b with
    | object others => simpa [same] using eq_of_sameFields fields others
    | _ => simp [same]

theorem eq_of_sameItems : (as bs : List Value) → sameItems as bs = true → as = bs
  | [], bs => by cases bs <;> simp [sameItems]
  | a :: as, bs => by
    cases bs with
    | nil => simp [sameItems]
    | cons b bs =>
      simp only [sameItems, Bool.and_eq_true, List.cons.injEq]
      exact fun h => ⟨eq_of_same a b h.1, eq_of_sameItems as bs h.2⟩

theorem eq_of_sameFields :
    (as bs : List (String × Value)) → sameFields as bs = true → as = bs
  | [], bs => by cases bs <;> simp [sameFields]
  | (j, a) :: as, bs => by
    cases bs with
    | nil => simp [sameFields]
    | cons field bs =>
      obtain ⟨k, b⟩ := field
      simp only [sameFields, Bool.and_eq_true, beq_iff_eq, List.cons.injEq, Prod.mk.injEq]
      exact fun h => ⟨⟨h.1.1, eq_of_same a b h.1.2⟩, eq_of_sameFields as bs h.2⟩

end

theorem same_iff {a b : Value} : same a b = true ↔ a = b :=
  ⟨eq_of_same a b, fun h => h ▸ same_refl a⟩

instance : DecidableEq Value := fun _ _ => decidable_of_iff _ same_iff

/-- The number of 64-bit words. -/
def wordCount : Nat := 0x10000000000000000

/-- A counter, written as a 64-bit word. -/
def counter (n : Nat) : Value := number (.integer (n % wordCount : Nat))

/-- A value that may be absent. -/
def orNull {α : Type} (encode : α → Value) : Option α → Value
  | none => null
  | some a => encode a

/-- A list of texts. -/
def strings (items : List String) : Value := array (items.map string)

end Value

end Rollback.Json

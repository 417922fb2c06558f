/-!
# Bytes of a text

Offsets in the UTF-8 form of a text. A text can be cut where a character ends, and nowhere else.

- `byteSize`: the number of bytes
- `splitAtByte?`: the texts before and after an offset
- `slice?`: the text between two offsets
- `slice?_eq_some_iff`: a text is cut out if what is before it and the text itself fill the bytes
-/

set_option autoImplicit false

namespace Rollback.Text

/-- The number of bytes of a text. -/
def byteSize : List Char → Nat
  | [] => 0
  | c :: rest => c.utf8Size + byteSize rest

/-- The texts before and after an offset, unless it lies inside a character or beyond the end. -/
def splitAtByte? : Nat → List Char → Option (List Char × List Char)
  | 0, s => some ([], s)
  | _ + 1, [] => none
  | n + 1, c :: rest =>
    if c.utf8Size ≤ n + 1 then
      (splitAtByte? (n + 1 - c.utf8Size) rest).map fun (before, after) => (c :: before, after)
    else none

/-- The text between two offsets, unless they are in the wrong order or one of them is no place to
cut the text. -/
def slice? (s : List Char) (first last : Nat) : Option (List Char) :=
  if last < first then none
  else do
    let (_, rest) ← splitAtByte? first s
    let (part, _) ← splitAtByte? (last - first) rest
    return part

@[simp] theorem byteSize_nil : byteSize [] = 0 := rfl

@[simp] theorem byteSize_cons (c : Char) (s : List Char) :
    byteSize (c :: s) = c.utf8Size + byteSize s := rfl

@[simp] theorem byteSize_append (s t : List Char) :
    byteSize (s ++ t) = byteSize s + byteSize t := by
  induction s with
  | nil => simp
  | cons c s ih => simp [ih, Nat.add_assoc]

theorem splitAtByte?_eq_some_iff {n : Nat} {s before after : List Char} :
    splitAtByte? n s = some (before, after) ↔ s = before ++ after ∧ byteSize before = n := by
  induction s generalizing n before after with
  | nil =>
    cases n with
    | zero => cases before <;> simp [splitAtByte?, eq_comm]
    | succ n => cases before <;> simp [splitAtByte?]
  | cons c rest ih =>
    have positive := c.utf8Size_pos
    cases n with
    | zero =>
      cases before with
      | nil => simp [splitAtByte?, eq_comm]
      | cons d before =>
        have some_ := d.utf8Size_pos
        simp only [splitAtByte?, byteSize_cons, Option.some.injEq, Prod.mk.injEq, reduceCtorEq,
          false_and, false_iff, not_and]
        omega
    | succ n =>
      rw [splitAtByte?]
      -- The first character is cut off only if all of its bytes come before the offset.
      cases before with
      | nil => split <;> simp
      | cons d before =>
        split
        · rename_i enough
          rw [byteSize_cons, Option.map_eq_some_iff]
          constructor
          · rintro ⟨⟨taken, left⟩, cut, same⟩
            obtain ⟨rfl, size⟩ := ih.1 cut
            obtain ⟨⟨rfl, rfl⟩, rfl⟩ : (c = d ∧ taken = before) ∧ left = after := by
              simpa using same
            exact ⟨rfl, by omega⟩
          · rintro ⟨shape, size⟩
            obtain ⟨rfl, rfl⟩ := List.cons.inj shape
            exact ⟨(before, after), ih.2 ⟨rfl, by omega⟩, rfl⟩
        · rename_i short
          simp only [reduceCtorEq, List.cons_append, List.cons.injEq, byteSize_cons, false_iff,
            not_and]
          rintro ⟨rfl, -⟩
          omega

/-- A text is cut out between two offsets if it stands there. -/
theorem slice?_eq_some_iff {s part : List Char} {first last : Nat} :
    slice? s first last = some part ↔
      ∃ before after, s = before ++ (part ++ after) ∧ byteSize before = first ∧
        byteSize before + byteSize part = last := by
  rw [slice?]
  split
  · rename_i disordered
    simp only [reduceCtorEq, false_iff, not_exists, not_and]
    intro before after _ size
    omega
  · rename_i ordered
    simp only [Option.bind_eq_bind, Option.bind_eq_some_iff, Prod.exists,
      splitAtByte?_eq_some_iff, Option.pure_def, Option.some.injEq]
    constructor
    · rintro ⟨before, rest, ⟨rfl, size⟩, part', after, ⟨rfl, length⟩, rfl⟩
      exact ⟨before, after, rfl, size, by omega⟩
    · rintro ⟨before, after, rfl, size, length⟩
      exact ⟨before, part ++ after, ⟨rfl, size⟩, part, after, ⟨rfl, by omega⟩, rfl⟩

end Rollback.Text

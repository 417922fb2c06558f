import Mathlib.Data.List.Forall2

/-!
# Lists

Look-ups, readings item by item, first and last elements, and places in lists.

- `lookup_eq_some_of_mem`: in a list with different keys, an entry is what its key finds
- `mapM_eq_some_iff`: a list is read item by item
- `map_eq_map_some_filterMap`: a filter that loses nothing
- `exists_split_cons_iff`: an element of a list with the elements before it
-/

set_option autoImplicit false

namespace Rollback

/-! ## Look-ups -/

section

variable {α β : Type} [BEq α] [LawfulBEq α]

/-- In a list with different keys, the entry with a key is the one that a look-up finds. -/
theorem lookup_eq_some_of_mem {entries : List (α × β)}
    (distinct : (entries.map Prod.fst).Nodup) {k : α} {b : β} (h : (k, b) ∈ entries) :
    entries.lookup k = some b := by
  induction entries with
  | nil => exact absurd h List.not_mem_nil
  | cons entry rest ih =>
    obtain ⟨new, distinct⟩ := List.nodup_cons.1 distinct
    rcases List.mem_cons.1 h with rfl | mem
    · exact List.lookup_cons_self
    · have other : k ≠ entry.1 := fun same =>
        new (List.mem_map.2 ⟨(k, b), mem, same⟩)
      rw [List.lookup_cons, beq_eq_false_iff_ne.2 other]
      exact ih distinct mem

/-- Look-ups after the entries with one key were replaced: the others stay as they are. -/
theorem lookup_map_ite [DecidableEq α] (entries : List (α × β)) (place : α) (b : β) (q : α) :
    (entries.map fun e => if e.1 == place then (place, b) else e).lookup q =
      if q = place then (entries.lookup place).map fun _ => b else entries.lookup q := by
  induction entries with
  | nil => simp
  | cons entry rest ih =>
    obtain ⟨p, c⟩ := entry
    rw [List.map_cons, List.lookup_cons, List.lookup_cons, List.lookup_cons, ih]
    by_cases here : p = place
    · subst here
      by_cases same : q = p
      · simp [same]
      · simp [same, beq_eq_false_iff_ne.2 same]
    · by_cases same : q = place
      · subst same
        simp [here, beq_eq_false_iff_ne.2 (Ne.symm here)]
      · simp [here, same]

end

/-! ## Readings -/

/-- A list is read if its items are read one by one. -/
theorem mapM_eq_some_iff {α β : Type} {f : α → Option β} {as : List α} {bs : List β} :
    as.mapM f = some bs ↔ List.Forall₂ (fun a b => f a = some b) as bs := by
  induction as generalizing bs with
  | nil => exact ⟨fun h => Option.some.inj h ▸ .nil, fun h => by cases h; rfl⟩
  | cons a rest ih =>
    rw [List.mapM_cons]
    constructor
    · intro h
      obtain ⟨first, readFirst, h⟩ := Option.bind_eq_some_iff.1 h
      obtain ⟨others, readOthers, h⟩ := Option.bind_eq_some_iff.1 h
      exact Option.some.inj h ▸ .cons readFirst (ih.1 readOthers)
    · rintro (_ | ⟨readFirst, readOthers⟩)
      rw [readFirst, ih.2 readOthers]
      rfl

/-- Items that are read as themselves from their encodings are the list that is read. -/
theorem mapM_map_eq_some {α β : Type} {decode : β → Option α} {encode : α → β} {as : List α}
    (h : ∀ a ∈ as, decode (encode a) = some a) : (as.map encode).mapM decode = some as :=
  mapM_eq_some_iff.2 (List.forall₂_map_left_iff.2 (List.forall₂_same.2 h))

/-- The first result from lists put together is the first one that any of them gives. -/
theorem findSome?_flatMap {α β γ : Type} (xs : List α) (f : α → List γ) (g : γ → Option β) :
    (xs.flatMap f).findSome? g = xs.findSome? fun x => (f x).findSome? g := by
  induction xs with
  | nil => rfl
  | cons x rest ih =>
    rw [List.flatMap_cons, List.findSome?_append, List.findSome?_cons, ih]
    cases (f x).findSome? g <;> rfl

/-- What is kept of a list of which nothing is lost. -/
theorem map_eq_map_some_filterMap {α β : Type} {f : α → Option β} {xs : List α}
    (h : ∀ x ∈ xs, ∃ y, f x = some y) : xs.map f = (xs.filterMap f).map some := by
  induction xs with
  | nil => rfl
  | cons x xs ih =>
    obtain ⟨⟨y, found⟩, others⟩ := List.forall_mem_cons.1 h
    rw [List.map_cons, ih others, List.filterMap_cons_some found, List.map_cons, found]

/-- All but the last of what is kept of a reversed list come from elements after the first. -/
theorem mem_tail_of_mem_dropLast {α β : Type} {f : α → Option β} {xs : List α} {y : β}
    (h : y ∈ (xs.reverse.filterMap f).dropLast) : ∃ x ∈ xs.tail, f x = some y := by
  cases xs with
  | nil => exact absurd h List.not_mem_nil
  | cons x rest =>
    have mem : y ∈ rest.reverse.filterMap f := by
      rw [List.reverse_cons, List.filterMap_append] at h
      cases last : f x with
      | none =>
        simp only [List.filterMap_cons, last, List.filterMap_nil, List.append_nil] at h
        exact List.dropLast_subset _ h
      | some z => simpa [last] using h
    obtain ⟨z, hz, found⟩ := List.mem_filterMap.1 mem
    exact ⟨z, List.mem_reverse.1 hz, found⟩

/-- The greatest of some numbers is bounded by what bounds each of them. -/
theorem foldl_max_le_iff {xs : List Nat} {start bound : Nat} :
    xs.foldl max start ≤ bound ↔ start ≤ bound ∧ ∀ x ∈ xs, x ≤ bound := by
  induction xs generalizing start with
  | nil => simp
  | cons x xs ih => rw [List.foldl_cons, ih, Nat.max_le, List.forall_mem_cons, and_assoc]

/-! ## First and last elements -/

/-- A text that is no character with a rest after it does not start with the character. -/
theorem head?_ne_of_forall {c : Char} {s : List Char} (h : ∀ rest, s = c :: rest → False) :
    s.head? ≠ some c := by
  intro head
  obtain ⟨rest, eq⟩ := List.head?_eq_some_iff.1 head
  exact h rest eq

/-- Two texts together start with a character only if the first does, or it is empty and the second
does. -/
theorem head?_append_ne {c : Char} {s t : List Char} (hs : ∀ rest, s = c :: rest → False)
    (ht : s = [] → t.head? ≠ some c) : (s ++ t).head? ≠ some c := by
  cases s with
  | nil => exact ht rfl
  | cons d s =>
    intro head
    obtain rfl := Option.some.inj head
    exact hs s rfl

/-- Joined texts end like the last of them. -/
theorem getLast?_intercalate {separator first : List Char} {others : List (List Char)} {c : Char}
    (h : ∀ part ∈ first :: others, part.getLast? = some c) :
    (separator.intercalate (first :: others)).getLast? = some c := by
  induction others generalizing first with
  | nil => simpa using h
  | cons next others ih =>
    rw [List.intercalate_cons_cons, List.getLast?_append,
      ih fun part mem => h part (List.mem_cons_of_mem first mem)]
    rfl

/-! ## Places -/

/-- An element with those before it is the first of a list or stands among the others. -/
theorem exists_split_cons_iff {α : Type} {p : List α → α → Prop} {a : α} {as : List α} :
    (∃ before x after, a :: as = before ++ x :: after ∧ p before x) ↔
      p [] a ∨ ∃ before x after, as = before ++ x :: after ∧ p (a :: before) x := by
  constructor
  · rintro ⟨_ | ⟨b, before⟩, x, after, split, h⟩
    · obtain ⟨rfl, -⟩ := List.cons.inj split
      exact .inl h
    · obtain ⟨rfl, rfl⟩ := List.cons.inj split
      exact .inr ⟨before, x, after, rfl, h⟩
  · rintro (h | ⟨before, x, after, rfl, h⟩)
    · exact ⟨[], a, as, rfl, h⟩
    · exact ⟨a :: before, x, after, rfl, h⟩

/-- The empty list has no elements, with or without others before them. -/
theorem not_exists_split_nil {α : Type} {p : List α → α → Prop} :
    ¬∃ before x after, ([] : List α) = before ++ x :: after ∧ p before x := by
  rintro ⟨_ | ⟨b, before⟩, x, after, split, -⟩ <;> exact nomatch split

end Rollback

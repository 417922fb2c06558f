import Rollback.Failure

/-!
# Outcomes

When work in several parts succeeds and when it fails: results that are made without a state, and
work that goes on from a state to the next one.

- `bind_eq_ok_iff`, `map_eq_ok_iff`, `mapError_eq_ok_iff`: what succeeds
- `Work.bind_eq_ok_iff`: two parts of work on a state succeed one after the other
- `Work.bind_eq_error_iff`: one of them fails, the second after what the first has done
-/

set_option autoImplicit false

namespace Rollback

/-! ## Results -/

/-- Two parts succeed if the first does and the second does with its result. -/
theorem bind_eq_ok_iff {ε α β : Type} {first : Except ε α} {second : α → Except ε β} {b : β} :
    (first >>= second) = .ok b ↔ ∃ a, first = .ok a ∧ second a = .ok b := by
  cases first with
  | error e =>
    show Except.error e = .ok b ↔ ∃ a, Except.error e = .ok a ∧ _
    simp
  | ok a =>
    show second a = .ok b ↔ ∃ x, Except.ok a = .ok x ∧ _
    simp

/-- A change of the result does not change whether there is one. -/
theorem map_eq_ok_iff {ε α β : Type} {f : α → β} {result : Except ε α} {b : β} :
    result.map f = .ok b ↔ ∃ a, result = .ok a ∧ f a = b := by
  cases result <;> simp [Except.map]

/-- A change of the result does not change how it is missed. -/
theorem map_eq_error_iff {ε α β : Type} {f : α → β} {result : Except ε α} {e : ε} :
    result.map f = .error e ↔ result = .error e := by
  cases result <;> simp [Except.map]

/-- Another name for the failures does not change what succeeds. -/
theorem mapError_eq_ok_iff {ε ε' α : Type} {f : ε → ε'} {result : Except ε α} {a : α} :
    result.mapError f = .ok a ↔ result = .ok a := by
  cases result with
  | error e => exact ⟨nofun, nofun⟩
  | ok b =>
    show Except.ok b = Except.ok a ↔ _
    rw [Except.ok.injEq, Except.ok.injEq]

/-! ## Work on a state -/

/-- Work that cannot fail goes on from the state that its first part leaves. -/
theorem state_bind_apply {σ α β : Type} (first : StateM σ α) (second : α → StateM σ β) (s : σ) :
    (first >>= second) s = second (first s).1 (first s).2 := rfl

namespace Work

variable {σ α β : Type} {s s' : σ}

/-- Two works in a row: the second one starts from where the first one ends, unless it has
failed. -/
theorem bind_apply (first : ExceptT Failure (StateM σ) α)
    (second : α → ExceptT Failure (StateM σ) β) (s : σ) :
    (first >>= second) s =
      match (first s : Except Failure α × σ) with
      | (.ok a, s') => second a s'
      | (.error failure, s') => (.error failure, s') := by
  show ExceptT.bindCont second (first s).1 (first s).2 = _
  generalize (first s : Except Failure α × σ) = result
  rcases result with ⟨_ | a, u⟩ <;> rfl

/-- After a first work that succeeds, the second one decides. -/
theorem bind_eq_of_ok {first : ExceptT Failure (StateM σ) α}
    {second : α → ExceptT Failure (StateM σ) β} {a : α} (h : first s = (.ok a, s')) :
    (first >>= second) s = second a s' := by
  rw [bind_apply, h]

/-- Two works in a row succeed if both do. -/
theorem bind_eq_ok_iff {first : ExceptT Failure (StateM σ) α}
    {second : α → ExceptT Failure (StateM σ) β} {b : β} :
    (first >>= second) s = (.ok b, s') ↔
      ∃ a u, first s = (.ok a, u) ∧ second a u = (.ok b, s') := by
  rw [bind_apply]
  generalize (first s : Except Failure α × σ) = result
  rcases result with ⟨_ | a, u⟩
  · constructor
    · exact fun h => nomatch (Prod.mk.inj h).1
    · rintro ⟨a, v, h, -⟩
      exact nomatch (Prod.mk.inj h).1
  · constructor
    · exact fun h => ⟨a, u, rfl, h⟩
    · rintro ⟨a', v, h, more⟩
      obtain ⟨same, rfl⟩ := Prod.mk.inj h
      obtain rfl := Except.ok.inj same
      exact more

/-- Two works in a row fail where the first one fails, or the second one after it. -/
theorem bind_eq_error_iff {first : ExceptT Failure (StateM σ) α}
    {second : α → ExceptT Failure (StateM σ) β} {failure : Failure} :
    (first >>= second) s = (.error failure, s') ↔
      first s = (.error failure, s') ∨
        ∃ a u, first s = (.ok a, u) ∧ second a u = (.error failure, s') := by
  rw [bind_apply]
  generalize (first s : Except Failure α × σ) = result
  rcases result with ⟨failure' | a, u⟩
  · constructor
    · intro h
      obtain ⟨same, rfl⟩ := Prod.mk.inj h
      obtain rfl := Except.error.inj same
      exact .inl rfl
    · rintro (h | ⟨a, v, h, -⟩)
      · obtain ⟨same, rfl⟩ := Prod.mk.inj h
        obtain rfl := Except.error.inj same
        rfl
      · exact nomatch (Prod.mk.inj h).1
  · constructor
    · exact fun h => .inr ⟨a, u, rfl, h⟩
    · rintro (h | ⟨a', v, h, more⟩)
      · exact nomatch (Prod.mk.inj h).1
      · obtain ⟨same, rfl⟩ := Prod.mk.inj h
        obtain rfl := Except.ok.inj same
        exact more

end Work

end Rollback

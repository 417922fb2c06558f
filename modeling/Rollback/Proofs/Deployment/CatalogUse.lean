import Mathlib.Data.List.Forall2
import Rollback.Proofs.Deployment.BatchOrder

/-!
# What a catalog adds to a rollback

A reversal looks into the catalog for what a statement destroys. Where a reverser without a catalog
finds a complete reversal, the one with a catalog does so too, whatever the catalog holds, and both
leave the same statements as unsupported. So a catalog never leaves more to be done by hand.

- `Reversal.NoWorse`: a reversal that is at least as good as another one
- `undo_noWorse`, `reverse_noWorse`: a catalog makes the reversal of no statement worse
- `reversals_noWorse`: nor those of the statements of a file
- `BatchStats.count_of_noWorse`: what that means for the counts
-/

set_option autoImplicit false

namespace Rollback

open List (Forall₂)

namespace Reversal

/-- The reversal `b` is complete if `a` is, and the two are unsupported together. -/
structure NoWorse (a b : Reversal) : Prop where
  complete : a.isComplete = true → b.isComplete = true
  unsupported : a = .unsupported ↔ b = .unsupported

theorem NoWorse.refl (a : Reversal) : NoWorse a a := ⟨id, Iff.rfl⟩

end Reversal

namespace Reverser

open Reversal

/-! ## One statement -/

/-- Only a statement that is not recognized has an unsupported reversal. -/
theorem undo_eq_unsupported_iff (r : Reverser) (searchPath : Option String) (s : Statement) :
    r.undo searchPath s = .unsupported ↔ s.isRecognized = false := by
  cases s with
  | unrecognized preview => exact iff_of_true rfl rfl
  | addPartition table partition bounds =>
    cases partition <;> exact iff_of_false Reversal.noConfusion Bool.noConfusion
  | dropTable | addColumn | dropColumn | modifyColumn | createView | dropView | commentOnTable
  | commentOnColumn =>
    grind [undo, undoDropTable, undoAddColumn, undoDropColumn, undoModifyColumn, undoCreateView,
      undoDropView, undoCommentOnTable, undoCommentOnColumn, marked, Statement.isRecognized]
  | _ => exact iff_of_false Reversal.noConfusion Bool.noConfusion

variable (catalog : Catalog) (defaults : TableDefaults) (searchPath : Option String)

/-- What is complete without a catalog is complete with one. -/
theorem isComplete_undo_of_unknown {s : Statement}
    (h : ((⟨none, defaults⟩ : Reverser).undo searchPath s).isComplete = true) :
    ((⟨some catalog, defaults⟩ : Reverser).undo searchPath s).isComplete = true := by
  cases s with
  -- Without a catalog there is nothing to put back, and the reversal is a marker.
  | dropTable | dropColumn | modifyColumn | dropView | commentOnTable =>
    exact absurd h (Bool.eq_false_iff.1 rfl)
  | createView name =>
    simp only [undo, undoCreateView]
    split <;> rfl
  | commentOnColumn table column comment =>
    simp only [undo, undoCommentOnColumn]
    split
    · rfl
    · split <;> rfl
  | _ => exact h

/-- With a catalog, each kind of statement is undone at least as well as without. -/
theorem undo_noWorse (s : Statement) :
    NoWorse ((⟨none, defaults⟩ : Reverser).undo searchPath s)
      ((⟨some catalog, defaults⟩ : Reverser).undo searchPath s) where
  complete := isComplete_undo_of_unknown catalog defaults searchPath
  unsupported := by rw [undo_eq_unsupported_iff, undo_eq_unsupported_iff]

/-! ## Chained actions -/

/-- Several reversals as one are complete exactly if each of them is. -/
theorem isComplete_combine (parts : List Reversal) :
    (combine parts).isComplete = parts.all isComplete := by
  rw [combine]
  cases texts : parts.filterMap script? with
  | nil =>
    have skipped : ∀ part ∈ parts, part.isComplete = true := fun part mem => by
      have nothing := List.filterMap_eq_nil_iff.1 texts part mem
      cases part with
      | skipped => rfl
      | _ => exact absurd nothing (by simp [script?])
    exact (List.all_eq_true.2 skipped).symm
  | cons text rest =>
    cases all : parts.all isComplete <;> rfl

/-- Several actions together never count as unsupported. -/
theorem combine_ne_unsupported (parts : List Reversal) : combine parts ≠ .unsupported := by
  rw [combine]
  split
  · exact Reversal.noConfusion
  · split <;> exact Reversal.noConfusion

/-- A catalog makes the reversal of no text worse, not even of one that chains actions. -/
theorem reverse_noWorse (stmt : String) :
    NoWorse ((⟨none, defaults⟩ : Reverser).reverse searchPath stmt)
      ((⟨some catalog, defaults⟩ : Reverser).reverse searchPath stmt) := by
  simp only [reverse]
  cases Sql.expandActions? stmt with
  | none => exact undo_noWorse catalog defaults searchPath _
  | some actions =>
    refine ⟨fun h => ?_, iff_of_false (combine_ne_unsupported _) (combine_ne_unsupported _)⟩
    rw [isComplete_combine, List.all_map, List.all_eq_true] at h ⊢
    exact fun action mem => (undo_noWorse catalog defaults searchPath _).complete (h action mem)

end Reverser

namespace BatchStats

open Reversal

/-! ## Files -/

/-- What needs attention are the reversals that are not complete. -/
theorem needsAttention_count (reversals : List Reversal) :
    (count reversals).needsAttention = reversals.countP fun r => !r.isComplete := by
  simp only [needsAttention, count]
  induction reversals with
  | nil => rfl
  | cons r rest ih =>
    simp only [List.countP_cons, ← ih]
    cases r <;> simp [isComplete] <;> omega

/-- Reversals that are no worse one by one leave no more to be done by hand, and are unsupported
equally often. -/
theorem count_of_noWorse {xs ys : List Reversal} (h : Forall₂ NoWorse xs ys) :
    (count xs).unsupported = (count ys).unsupported ∧
      (count ys).needsAttention ≤ (count xs).needsAttention := by
  rw [needsAttention_count, needsAttention_count]
  simp only [count]
  induction h with
  | nil => exact ⟨rfl, Nat.le_refl 0⟩
  | @cons x y xs ys here more ih =>
    obtain ⟨unsupported, attention⟩ := ih
    rw [List.countP_cons, List.countP_cons, List.countP_cons, List.countP_cons, unsupported]
    have same := here.unsupported
    have complete := here.complete
    constructor
    · grind
    · cases whole : x.isComplete with
      | true => simp [complete whole, attention]
      | false => grind

end BatchStats

open Reversal

/-- A batch of a reverser that has a catalog or not. -/
def Batch.withCatalog (catalog : Option Catalog) (defaults : TableDefaults) (style : BatchStyle) :
    Batch :=
  ⟨⟨catalog, defaults⟩, style⟩

section

variable (catalog : Catalog) (defaults : TableDefaults) (style : BatchStyle)

/-- A statement is skipped in a file that creates tables with or without a catalog. -/
theorem reversePlaced_noWorse (createsOnly : Bool) (p : PlacedStatement) :
    NoWorse ((Batch.withCatalog none defaults style).reversePlaced createsOnly p)
      ((Batch.withCatalog (some catalog) defaults style).reversePlaced createsOnly p) := by
  simp only [Batch.reversePlaced]
  split
  · exact .refl .skipped
  · exact Reverser.undo_noWorse catalog defaults p.searchPath p.statement

/-- A catalog makes the reversal of no statement of a file worse. -/
theorem reversals_noWorse (stmts : List String) :
    Forall₂ (fun e f => e.1 = f.1 ∧ NoWorse e.2 f.2)
      ((Batch.withCatalog none defaults style).reversals stmts)
      ((Batch.withCatalog (some catalog) defaults style).reversals stmts) := by
  simp only [Batch.reversals]
  rw [List.forall₂_map_left_iff, List.forall₂_map_right_iff, List.forall₂_same]
  exact fun p _ => ⟨rfl, reversePlaced_noWorse catalog defaults style _ p⟩

/--
A catalog never makes a rollback worse. In every file, each statement whose reversal is complete
without a catalog has a complete one with it, as many statements are unsupported, and no more are
left to be done by hand; and the same holds of the reversal of any text, which may chain actions.
-/
theorem rollback_noWorse_of_catalog :
    (∀ script,
      Forall₂ (fun e f => e.1 = f.1 ∧ NoWorse e.2 f.2)
        ((Batch.withCatalog none defaults style).reversals (Sql.actions script))
        ((Batch.withCatalog (some catalog) defaults style).reversals (Sql.actions script)) ∧
      ((Batch.withCatalog none defaults style).reverseScript script).2.unsupported =
        ((Batch.withCatalog (some catalog) defaults style).reverseScript script).2.unsupported ∧
      ((Batch.withCatalog (some catalog) defaults style).reverseScript script).2.needsAttention ≤
        ((Batch.withCatalog none defaults style).reverseScript script).2.needsAttention) ∧
    ∀ searchPath stmt,
      NoWorse ((⟨none, defaults⟩ : Reverser).reverse searchPath stmt)
        ((⟨some catalog, defaults⟩ : Reverser).reverse searchPath stmt) := by
  refine ⟨fun script => ?_, fun searchPath stmt =>
    Reverser.reverse_noWorse catalog defaults searchPath stmt⟩
  have all := reversals_noWorse catalog defaults style (Sql.actions script)
  have counted (b : Batch) : (b.reverseScript script).2 =
      .count ((b.reversals (Sql.actions script)).map Prod.snd) := by
    rw [Batch.reverseScript, Batch.reverseStatements, ← BatchStats.sum_ofReversal, List.map_map]
    rfl
  rw [counted, counted]
  refine ⟨all, BatchStats.count_of_noWorse ?_⟩
  rw [List.forall₂_map_left_iff, List.forall₂_map_right_iff]
  exact all.imp fun e f h => h.2

end

end Rollback

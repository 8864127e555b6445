/-
Module: EE323.Lib.Returns
Purpose: Total correctness of operations with a bounded depth of recursion.  An operation returns a
  result when it does so at every depth from some bound on.
Main exports: Returns, Returns.bind, Returns.deeper
-/

namespace EE323.Lib

variable {ε α β : Type _}

/-- At every depth from some bound on, the operation returns the result. -/
def Returns (operation : Nat → Except ε α) (result : α) : Prop :=
  ∃ bound, ∀ depth, bound ≤ depth → operation depth = .ok result

namespace Returns

theorem always {operation : Nat → Except ε α} {result : α}
    (returned : ∀ depth, operation depth = .ok result) : Returns operation result :=
  ⟨0, fun depth _ => returned depth⟩

/-- The sequencing rule. -/
theorem bind {first : Nat → Except ε α} {next : Nat → α → Except ε β} {middle : α} {result : β}
    (one : Returns first middle) (two : Returns (fun depth => next depth middle) result) :
    Returns (fun depth => first depth >>= next depth) result := by
  obtain ⟨bound, returnsFirst⟩ := one
  obtain ⟨other, returnsNext⟩ := two
  refine ⟨max bound other, ?_⟩
  intro depth deep
  have firstDone := returnsFirst depth (Nat.le_trans (Nat.le_max_left _ _) deep)
  have nextDone := returnsNext depth (Nat.le_trans (Nat.le_max_right _ _) deep)
  dsimp only
  rw [firstDone]
  exact nextDone

/-- One level of the recursion. -/
theorem deeper {operation body : Nat → Except ε α} {result : α}
    (unfolds : ∀ depth, operation (depth + 1) = body depth) (returned : Returns body result) :
    Returns operation result := by
  obtain ⟨bound, returns⟩ := returned
  refine ⟨bound + 1, ?_⟩
  intro depth deep
  obtain ⟨below, rfl⟩ : ∃ below, depth = below + 1 := ⟨depth - 1, by omega⟩
  rw [unfolds]
  exact returns below (by omega)

end Returns

end EE323.Lib

/-
Module: EE323.Lib.Allocation
Purpose: How many addresses of a memory are in use, and how one update changes their number.
Main exports: inUse, inUse_succ, inUse_update, oneIf
-/
import Mathlib.Data.List.Count
import Mathlib.Logic.Function.Basic

namespace EE323.Lib

variable {β : Type} {memory : Nat → Option β} {limit address : Nat}

/-- One, if there is something. -/
def oneIf (value : Option β) : Nat := if value.isSome then 1 else 0

/-- How many addresses below a limit are in use. -/
def inUse (memory : Nat → Option β) (limit : Nat) : Nat :=
  (List.range limit).countP fun address => (memory address).isSome

theorem inUse_succ (memory : Nat → Option β) (limit : Nat) :
    inUse memory (limit + 1) = inUse memory limit + oneIf (memory limit) := by
  rw [inUse, List.range_succ, List.countP_append, List.countP_singleton, inUse, oneIf]

/-- A change outside does not count. -/
theorem inUse_update_outside (outside : limit ≤ address) (value : Option β) :
    inUse (Function.update memory address value) limit = inUse memory limit := by
  refine List.countP_congr fun other member => ?_
  have below := List.mem_range.mp member
  rw [Function.update_of_ne (by omega)]

/-- A change counts by what there was and what there is. -/
theorem inUse_update (inside : address < limit) (value : Option β) :
    inUse (Function.update memory address value) limit + oneIf (memory address) =
      inUse memory limit + oneIf value := by
  induction limit with
  | zero => omega
  | succ limit inductionHypothesis =>
      rw [inUse_succ, inUse_succ]
      by_cases last : address = limit
      · subst last
        rw [inUse_update_outside (Nat.le_refl _), Function.update_self]
        omega
      · have earlier := inductionHypothesis (by omega)
        rw [Function.update_of_ne (fun same => last same.symm)]
        omega

end EE323.Lib

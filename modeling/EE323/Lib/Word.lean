/-
Module: EE323.Lib.Word
Purpose: Unsigned machine arithmetic on natural numbers: `size_t` operations modulo 2^64 and the
  truncation to 32 bits, with the equations that hold when nothing wraps.
Main exports: sizeAdd, sizeSub, trunc32
-/
import Mathlib.Algebra.Group.Nat.Defs

namespace EE323.Lib

/-- `size_t` addition. -/
@[irreducible] def sizeAdd (a b : Nat) : Nat := (a + b) % 2 ^ 64

/-- `size_t` subtraction; a negative difference wraps. -/
@[irreducible] def sizeSub (a b : Nat) : Nat := (a + (2 ^ 64 - b % 2 ^ 64)) % 2 ^ 64

/-- Storing a value into a 32-bit unsigned field. -/
@[irreducible] def trunc32 (a : Nat) : Nat := a % 2 ^ 32

theorem sizeAdd_eq {a b : Nat} (fits : a + b < 2 ^ 64) : sizeAdd a b = a + b := by
  unfold sizeAdd
  exact Nat.mod_eq_of_lt fits

theorem sizeSub_eq {a b : Nat} (ordered : b ≤ a) (fits : a < 2 ^ 64) : sizeSub a b = a - b := by
  unfold sizeSub
  omega

theorem trunc32_eq {a : Nat} (fits : a < 2 ^ 32) : trunc32 a = a := by
  unfold trunc32
  exact Nat.mod_eq_of_lt fits

theorem trunc32_lt (a : Nat) : trunc32 a < 2 ^ 32 := by
  unfold trunc32
  exact Nat.mod_lt _ (by decide)

end EE323.Lib

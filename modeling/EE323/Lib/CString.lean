/-
Module: EE323.Lib.CString
Purpose: Characters as C programs test for them, and the string at the start of an array, which is
  what stands there before the first zero.
Main exports: carriageReturn, lineFeed, isSpace, cString, cString_eq_self, cString_append_zero
-/
import Mathlib.Data.List.TakeWhile
import EE323.Lib.Bytes

namespace EE323.Lib

def carriageReturn : Byte := 0x0d

def lineFeed : Byte := 0x0a

/-- What `isspace` holds of. -/
def isSpace (c : Byte) : Bool := c = 0x20 ∨ (0x09 ≤ c ∧ c ≤ 0x0d)

/-- The string at the start of an array. -/
def cString (array : List Byte) : List Byte := array.takeWhile (· ≠ 0)

theorem length_cString_le (array : List Byte) : (cString array).length ≤ array.length :=
  (List.takeWhile_prefix _).length_le

theorem zero_not_mem_cString (array : List Byte) : 0 ∉ cString array := by
  intro member
  have notZero := List.mem_takeWhile_imp member
  simp at notZero

theorem cString_eq_self {array : List Byte} (noZero : 0 ∉ array) : cString array = array :=
  List.takeWhile_eq_self_iff.mpr fun _ member =>
    decide_eq_true (ne_of_mem_of_not_mem member noZero)

/-- A zero cuts the string short. -/
theorem cString_shorter {array : List Byte} (zero : 0 ∈ array) :
    (cString array).length < array.length := by
  apply Nat.lt_of_le_of_ne (length_cString_le array)
  intro sameLength
  apply zero_not_mem_cString array
  have same : cString array = array := (List.takeWhile_prefix _).eq_of_length sameLength
  rwa [same]

theorem length_cString_eq_iff (array : List Byte) :
    (cString array).length = array.length ↔ 0 ∉ array :=
  ⟨fun same zero => absurd same (Nat.ne_of_lt (cString_shorter zero)),
    fun noZero => by rw [cString_eq_self noZero]⟩

/-- What stands behind the first zero does not matter. -/
theorem cString_append_zero {front : List Byte} (noZero : 0 ∉ front) (rest : List Byte) :
    cString (front ++ 0 :: rest) = front := by
  rw [cString, List.takeWhile_append_of_pos]
  · simp
  · exact fun c member => decide_eq_true (ne_of_mem_of_not_mem member noZero)

/-- Pieces without a zero are their strings. -/
theorem flatMap_cString {pieces : List (List Byte)} (noZero : 0 ∉ pieces.flatten) :
    pieces.flatMap cString = pieces.flatten := by
  induction pieces with
  | nil => rfl
  | cons piece rest inductionHypothesis =>
      obtain ⟨here, later⟩ := not_or.mp (mt List.mem_append.mpr noZero)
      rw [List.flatMap_cons, List.flatten_cons, cString_eq_self here, inductionHypothesis later]

end EE323.Lib

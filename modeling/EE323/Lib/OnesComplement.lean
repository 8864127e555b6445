/-
Module: EE323.Lib.OnesComplement
Purpose: Sums of 16-bit words in one's complement: addition with an end-around carry, the sum of the
  words of a byte string, and the value that completes a sum to all ones.
Main exports: onesAdd, onesSum, wordSum, endAround, onesSum_eq, complete, endAround_complete,
  wordSum_patch
-/
import EE323.Lib.Bytes
import Mathlib.Tactic.Ring

namespace EE323.Lib

/-- Addition of 16-bit words with an end-around carry. -/
def onesAdd (one two : Nat) : Nat :=
  if 0xffff < one + two then one + two - 0xffff else one + two

/-- The 16-bit words of a byte string, most significant byte first.  A last single byte is padded
with a zero. -/
def wordsOf : List Byte → List Nat
  | [] => []
  | [high] => [high.toNat * 256]
  | high :: low :: rest => (high.toNat * 256 + low.toNat) :: wordsOf rest

/-- The one's complement sum of the words of a byte string. -/
def onesSum (bytes : List Byte) : Nat := (wordsOf bytes).foldl onesAdd 0

/-- The sum of the words without carries. -/
def wordSum (bytes : List Byte) : Nat := (wordsOf bytes).sum

/-- The 16-bit word that a sum becomes when every carry is added back. -/
def endAround (sum : Nat) : Nat := if sum = 0 then 0 else (sum - 1) % 0xffff + 1

theorem endAround_le (sum : Nat) : endAround sum ≤ 0xffff := by
  unfold endAround
  split
  · decide
  · omega

theorem endAround_of_le {sum : Nat} (small : sum ≤ 0xffff) : endAround sum = sum := by
  unfold endAround
  split
  · omega
  · rw [Nat.mod_eq_of_lt] <;> omega

/-- Adding a carry back does not change the word. -/
theorem endAround_carry (sum : Nat) :
    endAround (sum / 0x10000 + sum % 0x10000) = endAround sum := by
  unfold endAround
  split
  · rename_i zero
    rw [if_pos (by omega)]
  · rename_i positive
    rw [if_neg (by omega)]
    omega

theorem endAround_add (one two : Nat) : endAround (endAround one + two) = endAround (one + two) := by
  unfold endAround
  split
  · rename_i zero
    rw [zero]
  · rw [if_neg (by omega), if_neg (by omega)]
    omega

theorem onesAdd_eq {one two : Nat} (one_le : one ≤ 0xffff) (two_le : two ≤ 0xffff) :
    onesAdd one two = endAround (one + two) := by
  unfold onesAdd endAround
  split <;> split <;> omega

theorem wordsOf_le (bytes : List Byte) : ∀ word ∈ wordsOf bytes, word ≤ 0xffff := by
  induction bytes using wordsOf.induct with
  | case1 => simp [wordsOf]
  | case2 high =>
      intro word member
      rw [List.mem_singleton.mp member]
      have bound := high.toNat_lt
      omega
  | case3 high low rest inductionHypothesis =>
      intro word member
      rcases List.mem_cons.mp member with rfl | later
      · have boundHigh := high.toNat_lt
        have boundLow := low.toNat_lt
        omega
      · exact inductionHypothesis word later

private theorem foldl_onesAdd (words : List Nat) (small : ∀ word ∈ words, word ≤ 0xffff)
    (start : Nat) : words.foldl onesAdd (endAround start) = endAround (start + words.sum) := by
  induction words generalizing start with
  | nil => simp
  | cons word rest inductionHypothesis =>
      have bound := small word List.mem_cons_self
      rw [List.foldl_cons, onesAdd_eq (endAround_le start) bound, endAround_add,
        inductionHypothesis (fun other later => small other (List.mem_cons_of_mem _ later)),
        List.sum_cons, Nat.add_assoc]

/-- The one's complement sum is the plain sum with its carries added back. -/
theorem onesSum_eq (bytes : List Byte) : onesSum bytes = endAround (wordSum bytes) := by
  have folded := foldl_onesAdd (wordsOf bytes) (wordsOf_le bytes) 0
  rw [Nat.zero_add] at folded
  exact folded

/-- The value that completes a sum to all ones, with all ones in place of zero. -/
def complete (sum : Nat) : Nat :=
  if 0xffff - endAround sum = 0 then 0xffff else 0xffff - endAround sum

theorem complete_le (sum : Nat) : complete sum ≤ 0xffff := by
  unfold complete
  split <;> omega

theorem endAround_complete (sum : Nat) : endAround (sum + complete sum) = 0xffff := by
  have bound := endAround_le sum
  rw [← endAround_add]
  unfold complete
  split
  · have full : endAround sum = 0xffff := by omega
    rw [full]
    decide
  · rw [Nat.add_sub_cancel' bound]
    decide

/-- A word is the completing value exactly when it completes the sum to all ones, but for the word
zero, which completes a sum that is all ones already. -/
theorem eq_complete_iff {sum value : Nat} (small : value ≤ 0xffff) :
    value = complete sum ↔
      endAround (sum + value) = 0xffff ∧ ¬(value = 0 ∧ endAround sum = 0xffff) := by
  have bound := endAround_le sum
  rw [← endAround_add]
  unfold complete
  generalize endAround sum = folded at bound ⊢
  unfold endAround
  constructor
  · intro same
    split at same <;> split <;> omega
  · rintro ⟨full, notZero⟩
    split at full <;> split <;> omega

theorem complete_eq (sum : Nat) : complete sum = 0xffff - sum % 0xffff := by
  unfold complete endAround
  split
  · rename_i zero
    rw [zero]
    decide
  · split <;> omega

/-- Adding to a sum keeps its completing value exactly when what is added is zero in one's
complement. -/
theorem complete_add_eq_iff {sum more : Nat} :
    complete (sum + more) = complete sum ↔ more % 0xffff = 0 := by
  rw [complete_eq, complete_eq]
  omega

/-! ### Sums over parts of a byte string -/

theorem wordsOf_append {one : List Byte} (two : List Byte) (even : one.length % 2 = 0) :
    wordsOf (one ++ two) = wordsOf one ++ wordsOf two := by
  induction one using wordsOf.induct with
  | case1 => rfl
  | case2 high => simp at even
  | case3 high low rest inductionHypothesis =>
      have evenRest : rest.length % 2 = 0 := by
        simp only [List.length_cons] at even
        omega
      simp [wordsOf, inductionHypothesis evenRest]

theorem wordSum_append {one : List Byte} (two : List Byte) (even : one.length % 2 = 0) :
    wordSum (one ++ two) = wordSum one + wordSum two := by
  unfold wordSum
  rw [wordsOf_append two even, List.sum_append]

/-- Behind a part of odd length the bytes are paired the other way. -/
theorem wordSum_append_shift (one two : List Byte) :
    wordSum (one ++ two) =
      wordSum one + wordSum (List.replicate (one.length % 2) 0 ++ two) := by
  induction one using wordsOf.induct with
  | case1 => simp [wordSum, wordsOf]
  | case2 high =>
      cases two with
      | nil => simp [wordSum, wordsOf]
      | cons low rest => simp [wordSum, wordsOf]; omega
  | case3 high low rest inductionHypothesis =>
      have parity : (high :: low :: rest).length % 2 = rest.length % 2 := by
        simp only [List.length_cons]
        omega
      rw [parity]
      unfold wordSum at inductionHypothesis ⊢
      simp only [List.cons_append, wordsOf, List.sum_cons]
      omega

theorem wordSum_be16 {value : Nat} (small : value ≤ 0xffff) : wordSum (be16 value) = value := by
  have high : (UInt8.ofNat (value / 256)).toNat = value / 256 := by
    rw [UInt8.toNat_ofNat']
    omega
  have low : (UInt8.ofNat value).toNat = value % 256 := by
    rw [UInt8.toNat_ofNat']
  simp only [wordSum, be16, wordsOf, List.sum_cons, List.sum_nil, high, low]
  omega

theorem be16_inj {one two : Nat} (one_le : one ≤ 0xffff) (two_le : two ≤ 0xffff) :
    be16 one = be16 two ↔ one = two := by
  constructor
  · intro same
    rw [← wordSum_be16 one_le, ← wordSum_be16 two_le, same]
  · rintro rfl
    rfl

/-- A write inside the buffer replaces the bytes there. -/
theorem patch_eq {buf bytes : List Byte} {offset : Nat}
    (inside : offset + bytes.length ≤ buf.length) :
    patch buf offset bytes = buf.take offset ++ (bytes ++ buf.drop (offset + bytes.length)) := by
  apply ext_getD
  · simp
    omega
  · intro i below
    have below : i < buf.length := by simpa using below
    have start : (buf.take offset).length = offset := by simp; omega
    by_cases before : i < offset
    · rw [getD_patch_other (.inl before), List.getD_append _ _ _ _ (by omega)]
      simp [List.getD_eq_getElem?_getD, before]
    · rw [List.getD_append_right _ _ _ _ (by omega), start]
      by_cases written : i < offset + bytes.length
      · rw [getD_patch_same (by omega) written below, List.getD_append _ _ _ _ (by omega)]
      · rw [getD_patch_other (by omega), List.getD_append_right _ _ _ _ (by omega)]
        simp only [List.getD_eq_getElem?_getD, List.getElem?_drop]
        congr 2
        omega

/-- Storing a word in place of a zero word at an even offset adds the word to the sum. -/
theorem wordSum_patch {buf : List Byte} {offset value : Nat} (even : offset % 2 = 0)
    (inside : offset + 2 ≤ buf.length) (small : value ≤ 0xffff) :
    wordSum (patch buf offset (be16 value)) = wordSum (patch buf offset (be16 0)) + value := by
  have start : (buf.take offset).length % 2 = 0 := by
    rw [List.length_take]
    omega
  rw [patch_eq (by simpa using inside), patch_eq (by simpa using inside), wordSum_append _ start,
    wordSum_append _ start, wordSum_append _ (by simp), wordSum_append _ (by simp),
    wordSum_be16 small,
    wordSum_be16 (Nat.zero_le _), length_be16, length_be16]
  omega

/-- A byte string that holds a completed sum adds up to all ones. -/
theorem onesSum_patch_complete {buf : List Byte} {offset : Nat} (even : offset % 2 = 0)
    (inside : offset + 2 ≤ buf.length) :
    onesSum (patch buf offset (be16 (complete (wordSum (patch buf offset (be16 0)))))) =
      0xffff := by
  rw [onesSum_eq, wordSum_patch even inside (complete_le _), endAround_complete]

theorem wordSum_le (bytes : List Byte) : wordSum bytes ≤ 0xffff * ((bytes.length + 1) / 2) := by
  induction bytes using wordsOf.induct with
  | case1 => exact Nat.zero_le _
  | case2 high =>
      have bound := high.toNat_lt
      simp only [wordSum, wordsOf, List.sum_cons, List.sum_nil, List.length_cons, List.length_nil]
      omega
  | case3 high low rest inductionHypothesis =>
      have boundHigh := high.toNat_lt
      have boundLow := low.toNat_lt
      unfold wordSum at inductionHypothesis
      simp only [wordSum, wordsOf, List.sum_cons, List.length_cons]
      omega

end EE323.Lib

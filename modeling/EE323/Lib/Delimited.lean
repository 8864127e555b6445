/-
Module: EE323.Lib.Delimited
Purpose: Copying from one array of a fixed size into another up to a delimiter, with every index
  checked.  The array holds the given elements and behind them the fill element.
Main exports: copyTo, copyTo_eq_some, copyTo_eq_none, copyTo_fill
-/
import Mathlib.Data.List.GetD

namespace EE323.Lib

variable {α : Type} [DecidableEq α]

/-- Copy the elements from `walk` on up to the delimiter, which `i` elements precede in the target.
The result is what was copied and where the delimiter is; there is none when an index is not below
the limit.  `left` elements of the array are left to read. -/
def copyTo (limit : Nat) (fill stop : α) (buf : List α) : Nat → Nat → Nat → Option (List α × Nat)
  | 0, _, _ => none
  | left + 1, walk, i =>
      if i < limit then
        if buf.getD walk fill = stop then some ([], walk)
        else
          (copyTo limit fill stop buf left (walk + 1) (i + 1)).map fun copied =>
            (buf.getD walk fill :: copied.1, copied.2)
      else none

variable {limit : Nat} {fill stop : α} {buf : List α}

/-- The copy ends at the first delimiter. -/
theorem copyTo_eq_some {before copied after : List α} {i : Nat} (fits : buf.length ≤ limit)
    (split : buf = before ++ copied ++ stop :: after) (notStop : stop ∉ copied)
    (behind : i ≤ before.length) :
    copyTo limit fill stop buf (limit - before.length) before.length i =
      some (copied, before.length + copied.length) := by
  have total := congrArg List.length split
  simp only [List.length_append, List.length_cons] at total
  obtain ⟨left, more⟩ : ∃ left, limit - before.length = left + 1 :=
    ⟨limit - before.length - 1, by omega⟩
  rw [more]
  unfold copyTo
  rw [if_pos (by omega)]
  induction copied generalizing before i left with
  | nil =>
      have atStop : buf.getD before.length fill = stop := by
        rw [split, List.append_nil, List.getD_append_right _ _ _ _ (Nat.le_refl _), Nat.sub_self]
        rfl
      rw [if_pos atStop]
      rfl
  | cons first rest inductionHypothesis =>
      have atFirst : buf.getD before.length fill = first := by
        rw [split, List.append_assoc, List.getD_append_right _ _ _ _ (Nat.le_refl _), Nat.sub_self]
        rfl
      have notFirst : first ≠ stop := fun same => notStop (by rw [same]; exact List.mem_cons_self)
      have notRest : stop ∉ rest := fun member => notStop (List.mem_cons_of_mem _ member)
      rw [atFirst, if_neg notFirst]
      simp only [List.length_cons] at total
      obtain ⟨fewer, rfl⟩ : ∃ fewer, left = fewer + 1 := ⟨left - 1, by omega⟩
      have length : (before ++ [first]).length = before.length + 1 := by simp
      have later := @inductionHypothesis (before ++ [first]) (i + 1)
        (by rw [split]; simp) notRest (by omega) (by rw [length]; omega) fewer (by omega)
      rw [length] at later
      unfold copyTo
      rw [if_pos (by omega), later]
      simp only [Option.map_some, List.length_cons]
      congr 2
      omega

/-- Without a delimiter the copy leaves the array. -/
theorem copyTo_eq_none {left walk i : Nat} (notFill : fill ≠ stop)
    (missing : stop ∉ buf.drop walk) : copyTo limit fill stop buf left walk i = none := by
  induction left generalizing walk i with
  | zero => rfl
  | succ left inductionHypothesis =>
      have notHere : buf.getD walk fill ≠ stop := by
        intro here
        by_cases inside : walk < buf.length
        · rw [List.getD_eq_getElem _ _ inside] at here
          apply missing
          rw [← here, List.drop_eq_getElem_cons inside]
          exact List.mem_cons_self
        · rw [List.getD_eq_default _ _ (Nat.le_of_not_lt inside)] at here
          exact notFill here
      have notLater : stop ∉ buf.drop (walk + 1) := by
        rw [← List.tail_drop]
        exact fun member => missing (List.mem_of_mem_tail member)
      unfold copyTo
      by_cases below : i < limit
      · rw [if_pos below, if_neg notHere, inductionHypothesis notLater]
        rfl
      · rw [if_neg below]

/-- A copy up to the fill element takes all that is left. -/
theorem copyTo_fill {walk i : Nat} (fits : buf.length < limit) (inside : walk < limit)
    (behind : i ≤ walk) (notFill : fill ∉ buf) :
    ∃ next, copyTo limit fill fill buf (limit - walk) walk i = some (buf.drop walk, next) := by
  obtain ⟨left, more⟩ : ∃ left, limit - walk = left + 1 := ⟨limit - walk - 1, by omega⟩
  rw [more]
  induction left generalizing walk i with
  | zero =>
      have past : buf.length ≤ walk := by omega
      refine ⟨walk, ?_⟩
      unfold copyTo
      rw [if_pos (by omega), List.getD_eq_default _ _ past, if_pos rfl, List.drop_eq_nil_of_le past]
  | succ left inductionHypothesis =>
      unfold copyTo
      rw [if_pos (by omega)]
      by_cases past : buf.length ≤ walk
      · rw [List.getD_eq_default _ _ past, if_pos rfl, List.drop_eq_nil_of_le past]
        exact ⟨walk, rfl⟩
      · have here : walk < buf.length := Nat.lt_of_not_le past
        have notHere : buf[walk] ≠ fill := fun same => notFill (same ▸ List.getElem_mem here)
        obtain ⟨next, copied⟩ := @inductionHypothesis (walk + 1) (i + 1) (by omega) (by omega)
          (by omega)
        rw [List.getD_eq_getElem _ _ here, if_neg notHere, copied]
        refine ⟨next, ?_⟩
        rw [List.drop_eq_getElem_cons here]
        rfl

end EE323.Lib

/-
Module: EE323.Lib.Scan
Purpose: A scan of a list that keeps the best element seen so far.  Only a strictly better element
  replaces it, so the scan finds the first of the best elements above its start value.
Main exports: runningBest, FirstBest, runningBest_cases
-/
import Mathlib.Order.Lattice

namespace EE323.Lib

variable {α κ : Type _} [LinearOrder κ]

/-- Scan for the good element with the greatest key, starting from a best element and its key. -/
def runningBest (good : α → Prop) [DecidablePred good] (key : α → κ) :
    List α → Option α → κ → Option α
  | [], best, _ => best
  | element :: rest, best, top =>
      if good element ∧ top < key element then
        runningBest good key rest (some element) (key element)
      else runningBest good key rest best top

/-- The element is good, greater than every good element before it and at least every good element
after it. -/
def FirstBest (good : α → Prop) (key : α → κ) (elements : List α) (element : α) : Prop :=
  ∃ before after, elements = before ++ element :: after ∧ good element ∧
    (∀ other ∈ before, good other → key other < key element) ∧
    ∀ other ∈ after, good other → key other ≤ key element

variable {good : α → Prop} [DecidablePred good] {key : α → κ}

/-- The scan keeps its start when no good element is above the start value, and otherwise returns
the first best element. -/
theorem runningBest_cases (elements : List α) (best : Option α) (top : κ) :
    runningBest good key elements best top = best ∧
        (∀ element ∈ elements, good element → key element ≤ top) ∨
      ∃ element, runningBest good key elements best top = some element ∧ top < key element ∧
        FirstBest good key elements element := by
  induction elements generalizing best top with
  | nil => exact .inl ⟨rfl, by simp⟩
  | cons first rest inductionHypothesis =>
      unfold runningBest
      split
      · rename_i better
        obtain ⟨isGood, above⟩ := better
        right
        rcases inductionHypothesis (some first) (key first) with
          ⟨found, below⟩ | ⟨element, found, higher, before, after, rfl, goodElement, less, most⟩
        · exact ⟨first, found, above, [], rest, rfl, isGood, by simp, below⟩
        · refine ⟨element, found, lt_trans above higher, first :: before, after, rfl, goodElement,
            ?_, most⟩
          intro other member isGoodOther
          rcases List.mem_cons.mp member with rfl | later
          · exact higher
          · exact less other later isGoodOther
      · rename_i worse
        have first_le : good first → key first ≤ top :=
          fun isGood => not_lt.mp fun above => worse ⟨isGood, above⟩
        rcases inductionHypothesis best top with
          ⟨found, below⟩ | ⟨element, found, higher, before, after, rfl, goodElement, less, most⟩
        · left
          refine ⟨found, ?_⟩
          intro other member isGood
          rcases List.mem_cons.mp member with rfl | later
          · exact first_le isGood
          · exact below other later isGood
        · right
          refine ⟨element, found, higher, first :: before, after, rfl, goodElement, ?_, most⟩
          intro other member isGood
          rcases List.mem_cons.mp member with rfl | later
          · exact lt_of_le_of_lt (first_le isGood) higher
          · exact less other later isGood

end EE323.Lib

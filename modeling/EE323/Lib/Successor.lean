/-
Module: EE323.Lib.Successor
Purpose: Walking a list by the successor of the current element while other elements are removed and
  new ones are put in front.  What is left of the first list stays in its order, so the successor is
  the next element of the first list that is still there.
Main exports: Kept, Kept.trans, Kept.split, successor, Kept.successor
-/
import Mathlib.Data.List.Nodup
import Mathlib.Data.List.Infix

namespace EE323.Lib

variable {α : Type _}

/-- Of the first list some elements are left, in their order, behind new ones. -/
def Kept (isNew : α → Prop) (first later : List α) : Prop :=
  ∃ newer older, later = newer ++ older ∧ older.Sublist first ∧ ∀ value ∈ newer, isNew value

namespace Kept

variable {isNew newAfter : α → Prop} {first middle later : List α}

theorem refl (list : List α) : Kept isNew list list :=
  ⟨[], list, rfl, List.Sublist.refl _, by simp⟩

theorem of_sublist (fewer : later.Sublist first) : Kept isNew first later :=
  ⟨[], later, rfl, fewer, by simp⟩

theorem cons {value : α} (fresh : isNew value) (list : List α) : Kept isNew list (value :: list) :=
  ⟨[value], list, rfl, List.Sublist.refl _, by simpa using fresh⟩

theorem trans (one : Kept isNew first middle) (two : Kept newAfter middle later)
    (weaken : ∀ value, newAfter value → isNew value) : Kept isNew first later := by
  obtain ⟨newer, older, rfl, fewer, fresh⟩ := one
  obtain ⟨newest, rest, rfl, restFewer, freshest⟩ := two
  obtain ⟨front, back, rfl, fromNewer, fromOlder⟩ := List.sublist_append_iff.mp restFewer
  refine ⟨newest ++ front, back, by simp, fromOlder.trans fewer, ?_⟩
  intro value member
  rcases List.mem_append.mp member with isNewest | isFront
  · exact weaken value (freshest value isNewest)
  · exact fresh value (fromNewer.subset isFront)

/-- An old element that is left was there before. -/
theorem mem_of_old {value : α} (kept : Kept isNew first later) (member : value ∈ later)
    (old : ¬isNew value) : value ∈ first := by
  obtain ⟨newer, older, rfl, fewer, fresh⟩ := kept
  rcases List.mem_append.mp member with isNewer | isOlder
  · exact absurd (fresh value isNewer) old
  · exact fewer.subset isOlder

/-- Behind an element that is left come those that were behind it and are left. -/
theorem split {before after : List α} {value : α} (kept : Kept isNew (before ++ value :: after) later)
    (nodup : (before ++ value :: after).Nodup)
    (old : ∀ other ∈ before ++ value :: after, ¬isNew other) (left : value ∈ later) :
    ∃ front rest, later = front ++ value :: rest ∧ value ∉ front ∧ rest.Sublist after ∧
      ∀ other ∈ after, other ∈ later → other ∈ rest := by
  obtain ⟨newer, older, rfl, fewer, fresh⟩ := kept
  obtain ⟨front, back, rfl, frontFewer, backFewer⟩ := List.sublist_append_iff.mp fewer
  obtain ⟨_, nodupAfter, apart⟩ := List.nodup_append'.mp nodup
  have notBehind : value ∉ after := (List.nodup_cons.mp nodupAfter).1
  have notNewer : ∀ other ∈ before ++ value :: after, other ∉ newer :=
    fun other member isNewer => old other member (fresh other isNewer)
  have notFront : ∀ other ∈ value :: after, other ∉ front := by
    intro other member isFront
    exact apart (frontFewer.subset isFront) member
  have isBack : value ∈ back := by
    rcases List.mem_append.mp left with isNewer | isOlder
    · exact absurd isNewer (notNewer value (by simp))
    · rcases List.mem_append.mp isOlder with isFront | isBack
      · exact absurd isFront (notFront value (by simp))
      · exact isBack
  rcases List.sublist_cons_iff.mp backFewer with behind | ⟨rest, rfl, behind⟩
  · exact absurd (behind.subset isBack) notBehind
  · refine ⟨newer ++ front, rest, by simp, ?_, behind, ?_⟩
    · intro member
      rcases List.mem_append.mp member with isNewer | isFront
      · exact notNewer value (by simp) isNewer
      · exact notFront value (by simp) isFront
    · intro other isAfter member
      have different : other ≠ value := fun same => notBehind (same ▸ isAfter)
      simp only [List.mem_append, List.mem_cons] at member
      rcases member with isNewer | isFront | same | isRest
      · exact absurd isNewer (notNewer other (by simp [isAfter]))
      · exact absurd isFront (notFront other (by simp [isAfter]))
      · exact absurd same different
      · exact isRest

end Kept

variable [DecidableEq α]

/-- The element behind the first occurrence of a value. -/
def successor (value : α) (list : List α) : Option α :=
  ((list.dropWhile fun other => other ≠ value).drop 1).head?

theorem dropWhile_split {front rest : List α} {value : α} (notFront : value ∉ front) :
    ((front ++ value :: rest).dropWhile fun other => other ≠ value) = value :: rest := by
  rw [List.dropWhile_append_of_pos]
  · simp
  · intro other member
    simpa using fun same : other = value => notFront (same ▸ member)

/-- The successor is the next element of the first list that is left. -/
theorem Kept.successor {isNew : α → Prop} {before after later : List α} {value : α}
    (kept : Kept isNew (before ++ value :: after) later)
    (nodup : (before ++ value :: after).Nodup)
    (old : ∀ other ∈ before ++ value :: after, ¬isNew other) (left : value ∈ later) :
    (successor value later = none ∧ ∀ other ∈ after, other ∉ later) ∨
      ∃ between next rest, after = between ++ next :: rest ∧ successor value later = some next ∧
        next ∈ later ∧ ∀ other ∈ between, other ∉ later := by
  obtain ⟨front, rest, rfl, notFront, behind, complete⟩ := kept.split nodup old left
  have isSuccessor : Lib.successor value (front ++ value :: rest) = rest.head? := by
    unfold Lib.successor
    rw [dropWhile_split notFront]
    rfl
  rw [isSuccessor]
  cases rest with
  | nil =>
      refine .inl ⟨rfl, ?_⟩
      intro other isAfter member
      exact absurd (complete other isAfter member) List.not_mem_nil
  | cons next rest =>
      right
      obtain ⟨between, others, rfl⟩ := List.append_of_mem (behind.subset List.mem_cons_self)
      refine ⟨between, next, others, rfl, rfl, by simp, ?_⟩
      intro other isBetween member
      have nodupAfter : (between ++ next :: others).Nodup :=
        (List.nodup_cons.mp (List.nodup_append'.mp nodup).2.1).2
      obtain ⟨_, _, apart⟩ := List.nodup_append'.mp nodupAfter
      have notNext : next ∉ between := fun isBetween => apart isBetween List.mem_cons_self
      -- what is left behind the successor was behind it before
      obtain ⟨first, second, same, fromBetween, fromNext⟩ := List.sublist_append_iff.mp behind
      have none : first = [] := by
        cases first with
        | nil => rfl
        | cons head tail =>
            obtain ⟨rfl, _⟩ := List.cons.inj same
            exact absurd (fromBetween.subset List.mem_cons_self) notNext
      rw [none, List.nil_append] at same
      rw [← same] at fromNext
      have isRest := complete other (List.mem_append_left _ isBetween) member
      exact apart isBetween (fromNext.subset isRest)

end EE323.Lib

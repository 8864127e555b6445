/-
Module: EE323.Lib.Linked
Purpose: Singly linked chains in a memory of nodes.  A chain lists the nodes that are met from a
  pointer until the null pointer; it does not see writes elsewhere, and a queue changes it at its
  first node and behind its last.
Main exports: Chain, Chain.frame, Chain.node, Chain.last_next, Chain.push, Chain.set_head,
  Chain.unlink
-/
import Mathlib.Data.List.Basic
import Mathlib.Logic.Function.Basic

namespace EE323.Lib

variable {α ν : Type _} {next : ν → Option α} {memory other : α → Option ν} {start : Option α}
  {chain : List (α × ν)}

/-- The nodes from a pointer on, with their addresses. -/
def Chain (next : ν → Option α) (memory : α → Option ν) : Option α → List (α × ν) → Prop
  | start, [] => start = none
  | start, (address, node) :: rest =>
      start = some address ∧ memory address = some node ∧ Chain next memory (next node) rest

namespace Chain

/-- Memory outside the chain does not matter. -/
theorem frame (linked : Chain next memory start chain)
    (same : ∀ entry ∈ chain, other entry.1 = memory entry.1) : Chain next other start chain := by
  induction chain generalizing start with
  | nil => exact linked
  | cons first rest inductionHypothesis =>
      obtain ⟨isStart, isNode, later⟩ := linked
      refine ⟨isStart, ?_, inductionHypothesis later fun entry member =>
        same entry (List.mem_cons_of_mem _ member)⟩
      rw [same first List.mem_cons_self, isNode]

theorem node (linked : Chain next memory start chain) {entry : α × ν} (member : entry ∈ chain) :
    memory entry.1 = some entry.2 := by
  induction chain generalizing start with
  | nil => cases member
  | cons first rest inductionHypothesis =>
      obtain ⟨_, isNode, later⟩ := linked
      rcases List.mem_cons.mp member with rfl | further
      · exact isNode
      · exact inductionHypothesis later further

theorem start_eq_none (linked : Chain next memory start chain) : start = none ↔ chain = [] := by
  cases chain with
  | nil => exact ⟨fun _ => rfl, fun _ => linked⟩
  | cons first rest =>
      rw [linked.1]
      simp

/-- The last node points nowhere. -/
theorem last_next {front : List (α × ν)} {last : α × ν}
    (linked : Chain next memory start (front ++ [last])) : next last.2 = none := by
  induction front generalizing start with
  | nil => exact linked.2.2
  | cons first rest inductionHypothesis => exact inductionHypothesis linked.2.2

variable [DecidableEq α]

theorem update_other {address : α} {value : Option ν} (linked : Chain next memory start chain)
    (outside : address ∉ chain.map Prod.fst) :
    Chain next (Function.update memory address value) start chain := by
  refine linked.frame fun entry member => Function.update_of_ne ?_ _ _
  rintro rfl
  exact outside (List.mem_map_of_mem member)

/-- The first node may change as long as it points to the same next one. -/
theorem set_head {address : α} {old new : ν} {rest : List (α × ν)}
    (linked : Chain next memory start ((address, old) :: rest))
    (apart : address ∉ rest.map Prod.fst) (samePointer : next new = next old) :
    Chain next (Function.update memory address (some new)) start ((address, new) :: rest) := by
  obtain ⟨isStart, _, later⟩ := linked
  refine ⟨isStart, Function.update_self _ _ _, ?_⟩
  rw [samePointer]
  exact later.update_other apart

/-- Behind the first node is the rest, also when the first node is gone. -/
theorem unlink {address : α} {first : ν} {rest : List (α × ν)}
    (linked : Chain next memory start ((address, first) :: rest))
    (apart : address ∉ rest.map Prod.fst) :
    Chain next (Function.update memory address none) (next first) rest :=
  linked.2.2.update_other apart

/-- A node is added behind the last one by a change to that one's pointer. -/
theorem push {front : List (α × ν)} {address added : α} {old new node : ν}
    (linked : Chain next memory start (front ++ [(address, old)]))
    (apart : address ∉ front.map Prod.fst) (pointer : next new = some added)
    (isNode : memory added = some node) (isNew : address ≠ added) (ends : next node = none) :
    Chain next (Function.update memory address (some new)) start
      (front ++ [(address, new), (added, node)]) := by
  induction front generalizing start with
  | nil =>
      refine ⟨linked.1, Function.update_self _ _ _, pointer, ?_, ends⟩
      rw [Function.update_of_ne (Ne.symm isNew), isNode]
  | cons first rest inductionHypothesis =>
      obtain ⟨isStart, isFirst, later⟩ := linked
      simp only [List.map_cons, List.mem_cons, not_or] at apart
      refine ⟨isStart, ?_, inductionHypothesis later apart.2⟩
      rw [Function.update_of_ne (Ne.symm apart.1), isFirst]

end Chain

end EE323.Lib

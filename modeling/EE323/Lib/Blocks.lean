/-
Module: EE323.Lib.Blocks
Purpose: Data taken in one element at a time and processed in blocks of a fixed size, as iterated hash
  functions do.  What was processed, and what waits for a full block, depend on the data only and not
  on how it came in.
Main exports: blocks, blocks_flatten, Absorbed, Absorbed.more, Absorbed.fill, Absorbed.state_eq
-/
import Mathlib.Data.List.Basic

namespace EE323.Lib

variable {α σ : Type _}

/-- The full blocks at the front of the data. -/
def blocks (size : Nat) (data : List α) : List (List α) :=
  (List.range (data.length / size)).map fun i => (data.drop (size * i)).take size

private theorem length_flatten_sized {size : Nat} {pieces : List (List α)}
    (sized : ∀ piece ∈ pieces, piece.length = size) :
    pieces.flatten.length = size * pieces.length := by
  induction pieces with
  | nil => simp
  | cons piece pieces inductionHypothesis =>
      rw [List.flatten_cons, List.length_append, sized piece List.mem_cons_self,
        inductionHypothesis fun other member => sized other (List.mem_cons_of_mem _ member),
        List.length_cons, Nat.mul_succ, Nat.add_comm]

/-- Blocks that were put together come apart again. -/
theorem blocks_flatten {size : Nat} (positive : 0 < size) {pieces : List (List α)}
    (sized : ∀ piece ∈ pieces, piece.length = size) {rest : List α} (short : rest.length < size) :
    blocks size (pieces.flatten ++ rest) = pieces := by
  have count : (pieces.flatten ++ rest).length / size = pieces.length := by
    rw [List.length_append, length_flatten_sized sized, Nat.mul_add_div positive,
      Nat.div_eq_of_lt short, Nat.add_zero]
  rw [blocks, count]
  clear count
  induction pieces with
  | nil => rfl
  | cons piece pieces inductionHypothesis =>
      have pieceSize := sized piece List.mem_cons_self
      have others := inductionHypothesis fun other member => sized other (List.mem_cons_of_mem _ member)
      rw [List.length_cons, List.range_succ_eq_map, List.map_cons, List.map_map]
      congr 1
      · rw [Nat.mul_zero, List.drop_zero, List.flatten_cons, List.append_assoc,
          List.take_append_of_le_length (by omega), List.take_of_length_le (Nat.le_of_eq pieceSize)]
      · refine Eq.trans (List.map_congr_left fun i _ => ?_) others
        simp only [Function.comp, Nat.mul_succ, List.flatten_cons, List.append_assoc]
        rw [Nat.add_comm, ← List.drop_drop, List.drop_append_of_le_length (by omega),
          List.drop_of_length_le (Nat.le_of_eq pieceSize), List.nil_append]

/-- Data of which the full blocks were processed and the rest waits. -/
structure Absorbed (size : Nat) (process : σ → List α → σ) (start : σ) (data : List α) (state : σ)
    (buffer : List α) : Prop where
  short : buffer.length < size
  split : ∃ pieces : List (List α), data = pieces.flatten ++ buffer ∧
    (∀ piece ∈ pieces, piece.length = size) ∧ state = pieces.foldl process start

namespace Absorbed

variable {size : Nat} {process : σ → List α → σ} {start state : σ} {data buffer : List α}

theorem nil (positive : 0 < size) : Absorbed size process start [] start [] :=
  ⟨positive, [], rfl, by simp, rfl⟩

/-- An element that fills no block joins the rest. -/
theorem more (absorbed : Absorbed size process start data state buffer) (element : α)
    (room : buffer.length + 1 < size) :
    Absorbed size process start (data ++ [element]) state (buffer ++ [element]) := by
  obtain ⟨pieces, rfl, sized, processed⟩ := absorbed.split
  exact ⟨by rwa [List.length_append], pieces, List.append_assoc .., sized, processed⟩

/-- Elements that fill the block have it processed. -/
theorem fill (absorbed : Absorbed size process start data state buffer) (elements : List α)
    (full : buffer.length + elements.length = size) (positive : 0 < size) :
    Absorbed size process start (data ++ elements) (process state (buffer ++ elements)) [] := by
  obtain ⟨pieces, rfl, sized, rfl⟩ := absorbed.split
  refine ⟨positive, pieces ++ [buffer ++ elements], ?_, ?_, ?_⟩
  · simp
  · intro piece member
    rcases List.mem_append.mp member with before | last
    · exact sized piece before
    · rw [List.mem_singleton.mp last, List.length_append, full]
  · rw [List.foldl_append]
    rfl

/-- What was processed is decided by the data. -/
theorem state_eq (absorbed : Absorbed size process start data state buffer) (positive : 0 < size) :
    state = (blocks size data).foldl process start := by
  obtain ⟨pieces, rfl, sized, processed⟩ := absorbed.split
  rw [blocks_flatten positive sized absorbed.short, processed]

theorem length_mod (absorbed : Absorbed size process start data state buffer) :
    data.length % size = buffer.length := by
  obtain ⟨pieces, rfl, sized, _⟩ := absorbed.split
  rw [List.length_append, length_flatten_sized sized, Nat.mul_add_mod, Nat.mod_eq_of_lt absorbed.short]

end Absorbed

end EE323.Lib

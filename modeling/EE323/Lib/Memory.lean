/-
Module: EE323.Lib.Memory
Purpose: Allocated blocks as lists, with bounds-checked copies into and out of a block. A copy that
  leaves the block has no result.
Main exports: load, store, load_store, load_self, load_append, load_drop, load_store_append
-/

namespace EE323.Lib

variable {β : Type _}

/-- Copy `count` cells out of a block, starting at `offset`. -/
def load (block : List β) (offset count : Nat) : Option (List β) :=
  if offset + count ≤ block.length then some ((block.drop offset).take count) else none

/-- Copy cells into a block, starting at `offset`. -/
def store (block : List β) (offset : Nat) (cells : List β) : Option (List β) :=
  if offset + cells.length ≤ block.length then
    some (block.take offset ++ cells ++ block.drop (offset + cells.length))
  else none

theorem store_eq_some {block result cells : List β} {offset : Nat}
    (stored : store block offset cells = some result) :
    offset + cells.length ≤ block.length ∧
      result = block.take offset ++ cells ++ block.drop (offset + cells.length) := by
  unfold store at stored
  split at stored
  · rename_i inside
    exact ⟨inside, (Option.some.inj stored).symm⟩
  · cases stored

/-- A store keeps the size of the block. -/
theorem store_length {block result cells : List β} {offset : Nat}
    (stored : store block offset cells = some result) : result.length = block.length := by
  obtain ⟨inside, rfl⟩ := store_eq_some stored
  simp
  omega

/-- A store inside the block succeeds. -/
theorem store_isSome {block cells : List β} {offset : Nat}
    (inside : offset + cells.length ≤ block.length) :
    ∃ result, store block offset cells = some result := by
  exact ⟨_, if_pos inside⟩

/-- What was just stored is what a load at the same place returns. -/
theorem load_store {block result cells : List β} {offset : Nat}
    (stored : store block offset cells = some result) :
    load result offset cells.length = some cells := by
  have sameSize := store_length stored
  obtain ⟨inside, rfl⟩ := store_eq_some stored
  unfold load
  rw [if_pos (by rw [sameSize]; exact inside), List.append_assoc,
    List.drop_append_of_le_length (by simp; omega)]
  have dropped : (block.take offset).drop offset = [] := by simp
  rw [dropped, List.nil_append, List.take_append_of_le_length (Nat.le_refl _), List.take_length]

theorem load_eq_some {block cells : List β} {offset count : Nat} :
    load block offset count = some cells ↔
      offset + count ≤ block.length ∧ cells = (block.drop offset).take count := by
  unfold load
  split
  · rename_i inside
    simp [inside, eq_comm]
  · rename_i outside
    simp [outside]

theorem load_length {block cells : List β} {offset count : Nat}
    (loaded : load block offset count = some cells) : cells.length = count := by
  obtain ⟨inside, rfl⟩ := load_eq_some.mp loaded
  simp
  omega

theorem load_self (block : List β) : load block 0 block.length = some block :=
  load_eq_some.mpr ⟨Nat.le_of_eq (Nat.zero_add _), by rw [List.drop_zero, List.take_length]⟩

/-- A load does not see what is appended to the block. -/
theorem load_append {block cells : List β} {offset count : Nat} (more : List β)
    (loaded : load block offset count = some cells) :
    load (block ++ more) offset count = some cells := by
  obtain ⟨inside, rfl⟩ := load_eq_some.mp loaded
  refine load_eq_some.mpr ⟨by simp; omega, ?_⟩
  rw [List.drop_append_of_le_length (by omega), List.take_append_of_le_length (by simp; omega)]

/-- Load less. -/
theorem load_take {block cells : List β} {offset count fewer : Nat}
    (loaded : load block offset count = some cells) (fewer_le : fewer ≤ count) :
    load block offset fewer = some (cells.take fewer) := by
  obtain ⟨inside, rfl⟩ := load_eq_some.mp loaded
  refine load_eq_some.mpr ⟨by omega, ?_⟩
  rw [List.take_take, Nat.min_eq_left fewer_le]

/-- Load from further on. -/
theorem load_drop {block cells : List β} {offset count : Nat}
    (loaded : load block offset count = some cells) (skipped : Nat) (skipped_le : skipped ≤ count) :
    load block (offset + skipped) (count - skipped) = some (cells.drop skipped) := by
  obtain ⟨inside, rfl⟩ := load_eq_some.mp loaded
  refine load_eq_some.mpr ⟨by omega, ?_⟩
  rw [List.drop_take, List.drop_drop]

/-- Appending to a block extends a load that ends where the block ends. -/
theorem load_append_end {block cells : List β} {offset count : Nat} (more : List β)
    (loaded : load block offset count = some cells) (ends : offset + count = block.length) :
    load (block ++ more) offset (count + more.length) = some (cells ++ more) := by
  obtain ⟨inside, rfl⟩ := load_eq_some.mp loaded
  refine load_eq_some.mpr ⟨by simp; omega, ?_⟩
  have rest : (block.drop offset).length = count := by simp; omega
  rw [List.drop_append_of_le_length (by omega), List.take_of_length_le (by omega),
    List.take_of_length_le (by rw [List.length_append]; omega)]

/-- A store behind what a load returns extends the load. -/
theorem load_store_append {block result cells more : List β} {count : Nat}
    (stored : store block count more = some result) (loaded : load block 0 count = some cells) :
    load result 0 (count + more.length) = some (cells ++ more) := by
  have sameSize := store_length stored
  obtain ⟨inside, rfl⟩ := store_eq_some stored
  obtain ⟨_, rfl⟩ := load_eq_some.mp loaded
  refine load_eq_some.mpr ⟨by omega, ?_⟩
  have written : (block.take count ++ more).length = count + more.length := by simp; omega
  rw [List.drop_zero, List.drop_zero, ← written, List.take_left]

end EE323.Lib

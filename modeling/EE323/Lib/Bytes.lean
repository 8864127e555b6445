/-
Module: EE323.Lib.Bytes
Purpose: Byte buffers whose fields are read and overwritten in place at fixed offsets, and numbers
  stored most significant byte first.  A field has exactly the bytes asked for: what lies behind the
  buffer reads as zero, so the programs that use this check their lengths first.
Main exports: field, patch, field_patch_same, field_patch_other, be16, be32, ofBe32
-/
import Mathlib.Data.List.GetD

namespace EE323.Lib

abbrev Byte := UInt8

/-- The bytes of the buffer from an offset on. -/
def field (buf : List Byte) (offset count : Nat) : List Byte :=
  (List.range count).map fun i => buf.getD (offset + i) 0

theorem field_succ (buf : List Byte) (offset count : Nat) :
    field buf offset (count + 1) = buf.getD offset 0 :: field buf (offset + 1) count := by
  simp only [field, List.range_succ_eq_map, List.map_cons, List.map_map]
  congr 1
  apply List.map_congr_left
  intro i _
  simp only [Function.comp]
  congr 1
  omega

/-- Overwrite the buffer from an offset on. -/
def patch (buf : List Byte) (offset : Nat) (bytes : List Byte) : List Byte :=
  (List.range buf.length).map fun i =>
    if offset ≤ i ∧ i < offset + bytes.length then bytes.getD (i - offset) 0 else buf.getD i 0

@[simp] theorem length_field (buf : List Byte) (offset count : Nat) :
    (field buf offset count).length = count := by
  simp [field]

@[simp] theorem length_patch (buf : List Byte) (offset : Nat) (bytes : List Byte) :
    (patch buf offset bytes).length = buf.length := by
  simp [patch]

theorem getD_field {buf : List Byte} {offset count i : Nat} (inside : i < count) :
    (field buf offset count).getD i 0 = buf.getD (offset + i) 0 := by
  unfold field
  rw [List.getD_eq_getElem _ _ (by simpa using inside), List.getElem_map, List.getElem_range]

theorem getD_patch_same {buf bytes : List Byte} {offset i : Nat} (after : offset ≤ i)
    (before : i < offset + bytes.length) (inside : i < buf.length) :
    (patch buf offset bytes).getD i 0 = bytes.getD (i - offset) 0 := by
  unfold patch
  rw [List.getD_eq_getElem _ _ (by simpa using inside), List.getElem_map, List.getElem_range,
    if_pos ⟨after, before⟩]

theorem getD_patch_other {buf bytes : List Byte} {offset i : Nat}
    (outside : i < offset ∨ offset + bytes.length ≤ i) :
    (patch buf offset bytes).getD i 0 = buf.getD i 0 := by
  by_cases inside : i < buf.length
  · unfold patch
    rw [List.getD_eq_getElem _ _ (by simpa using inside), List.getElem_map, List.getElem_range,
      if_neg (by omega)]
  · rw [List.getD_eq_default _ _ (by simpa using inside),
      List.getD_eq_default _ _ (Nat.le_of_not_lt inside)]

/-- Buffers of one length are equal when they agree byte by byte. -/
theorem ext_getD {one two : List Byte} (length_eq : one.length = two.length)
    (agree : ∀ i < one.length, one.getD i 0 = two.getD i 0) : one = two := by
  apply List.ext_getElem length_eq
  intro i inOne inTwo
  have same := agree i inOne
  rwa [List.getD_eq_getElem _ _ inOne, List.getD_eq_getElem _ _ inTwo] at same

/-- What was written is what is read. -/
theorem field_patch_same {buf bytes : List Byte} {offset : Nat}
    (inside : offset + bytes.length ≤ buf.length) :
    field (patch buf offset bytes) offset bytes.length = bytes := by
  apply ext_getD (by simp)
  intro i below
  have below : i < bytes.length := by simpa using below
  rw [getD_field below, getD_patch_same (by omega) (by omega) (by omega)]
  congr 1
  omega

/-- A write outside a field leaves the field as it is. -/
theorem field_patch_other {buf bytes : List Byte} {offset other count : Nat}
    (apart : other + count ≤ offset ∨ offset + bytes.length ≤ other) :
    field (patch buf offset bytes) other count = field buf other count := by
  apply ext_getD (by simp)
  intro i below
  have below : i < count := by simpa using below
  rw [getD_field below, getD_field below, getD_patch_other (by omega)]

/-- A write inside a field is a write to the field. -/
theorem field_patch_inside {buf bytes : List Byte} {offset other count : Nat}
    (starts : other ≤ offset) (inside : other + count ≤ buf.length) :
    field (patch buf offset bytes) other count =
      patch (field buf other count) (offset - other) bytes := by
  apply ext_getD (by simp)
  intro i below
  have below : i < count := by simpa using below
  rw [getD_field below]
  by_cases written : offset ≤ other + i ∧ other + i < offset + bytes.length
  · rw [getD_patch_same written.1 written.2 (by omega),
      getD_patch_same (by omega) (by omega) (by simpa using below)]
    congr 1
    omega
  · rw [getD_patch_other (by omega), getD_patch_other (by omega), getD_field below]

/-- Two writes to the same place leave the second. -/
theorem patch_patch_same {buf first second : List Byte} {offset : Nat}
    (length_eq : first.length = second.length) :
    patch (patch buf offset first) offset second = patch buf offset second := by
  apply ext_getD (by simp)
  intro i below
  have below : i < buf.length := by simpa using below
  by_cases written : offset ≤ i ∧ i < offset + second.length
  · rw [getD_patch_same written.1 written.2 (by simpa using below),
      getD_patch_same written.1 written.2 below]
  · rw [getD_patch_other (by omega), getD_patch_other (by omega), getD_patch_other (by omega)]

/-- Writing what is already there changes nothing. -/
theorem patch_field {buf : List Byte} (offset count : Nat) :
    patch buf offset (field buf offset count) = buf := by
  apply ext_getD (by simp)
  intro i below
  have below : i < buf.length := by simpa using below
  by_cases written : offset ≤ i ∧ i < offset + (field buf offset count).length
  · rw [getD_patch_same written.1 written.2 below, getD_field (by simp at written; omega)]
    congr 1
    omega
  · rw [getD_patch_other (by omega)]

/-- A field of a field. -/
theorem field_field {buf : List Byte} {offset count inner size : Nat}
    (inside : inner + size ≤ count) :
    field (field buf offset count) inner size = field buf (offset + inner) size := by
  apply ext_getD (by simp)
  intro i below
  have below : i < size := by simpa using below
  rw [getD_field below, getD_field (by omega), getD_field below, Nat.add_assoc]

/-! ### Fields of a concatenation -/

theorem field_append_left {one : List Byte} {offset count : Nat} (two : List Byte)
    (inside : offset + count ≤ one.length) :
    field (one ++ two) offset count = field one offset count := by
  apply ext_getD (by simp)
  intro i below
  have below : i < count := by simpa using below
  rw [getD_field below, getD_field below, List.getD_append _ _ _ _ (by omega)]

theorem field_append_right {one : List Byte} {offset : Nat} (two : List Byte) (count : Nat)
    (after : one.length ≤ offset) :
    field (one ++ two) offset count = field two (offset - one.length) count := by
  apply ext_getD (by simp)
  intro i below
  have below : i < count := by simpa using below
  rw [getD_field below, getD_field below, List.getD_append_right _ _ _ _ (by omega)]
  congr 1
  omega

theorem field_whole {buf : List Byte} {offset count : Nat} (first : offset = 0)
    (all : count = buf.length) : field buf offset count = buf := by
  apply ext_getD (by simpa using all)
  intro i below
  rw [getD_field (by simpa using below), first, Nat.zero_add]

/-- From an offset in the first part on, a concatenation is the rest of that part and the second. -/
theorem field_append_rest {one : List Byte} {offset : Nat} (two : List Byte)
    (inside : offset ≤ one.length) :
    field (one ++ two) offset ((one ++ two).length - offset) =
      field one offset (one.length - offset) ++ two := by
  apply ext_getD
  · simp
    omega
  · intro i below
    have below : i < (one ++ two).length - offset := by simpa using below
    rw [getD_field below]
    by_cases early : i < one.length - offset
    · rw [List.getD_append _ _ _ _ (by omega), List.getD_append _ _ _ _ (by simpa using early),
        getD_field early]
    · rw [List.getD_append_right _ _ _ _ (by omega),
        List.getD_append_right _ _ _ _ (by simpa using early), length_field]
      congr 1
      omega

/-- A write inside the first part leaves the second alone. -/
theorem patch_append {one bytes : List Byte} {offset : Nat} (two : List Byte)
    (inside : offset + bytes.length ≤ one.length) :
    patch (one ++ two) offset bytes = patch one offset bytes ++ two := by
  apply ext_getD (by simp)
  intro i below
  have below : i < (one ++ two).length := by simpa using below
  by_cases early : i < one.length
  · rw [List.getD_append _ _ _ _ (by simpa using early)]
    by_cases written : offset ≤ i ∧ i < offset + bytes.length
    · rw [getD_patch_same written.1 written.2 below, getD_patch_same written.1 written.2 early]
    · rw [getD_patch_other (by omega), getD_patch_other (by omega),
        List.getD_append _ _ _ _ early]
  · rw [getD_patch_other (by omega), List.getD_append_right _ _ _ _ (by omega),
      List.getD_append_right _ _ _ _ (by simpa using early), length_patch]

/-! ### Numbers, most significant byte first -/

/-- A number of 16 bits. -/
def be16 (value : Nat) : List Byte := [UInt8.ofNat (value / 256), UInt8.ofNat value]

/-- A number of 32 bits. -/
def be32 (value : BitVec 32) : List Byte :=
  [⟨value.extractLsb' 24 8⟩, ⟨value.extractLsb' 16 8⟩, ⟨value.extractLsb' 8 8⟩,
    ⟨value.extractLsb' 0 8⟩]

/-- The number that four bytes store. -/
def ofBe32 (bytes : List Byte) : BitVec 32 :=
  (bytes.getD 0 0).toBitVec ++ (bytes.getD 1 0).toBitVec ++ (bytes.getD 2 0).toBitVec ++
    (bytes.getD 3 0).toBitVec

@[simp] theorem length_be16 (value : Nat) : (be16 value).length = 2 := rfl

/-- Two bytes are a 16-bit word. -/
theorem exists_be16 {bytes : List Byte} (two : bytes.length = 2) :
    ∃ value ≤ 0xffff, bytes = be16 value := by
  obtain ⟨high, low, rfl⟩ : ∃ high low, bytes = [high, low] := by
    match bytes, two with
    | [high, low], _ => exact ⟨high, low, rfl⟩
  have boundHigh := high.toNat_lt
  have boundLow := low.toNat_lt
  refine ⟨high.toNat * 256 + low.toNat, by omega, ?_⟩
  have upper : (high.toNat * 256 + low.toNat) / 256 = high.toNat := by omega
  have lower : UInt8.ofNat (high.toNat * 256 + low.toNat) = low := by
    apply UInt8.toNat_inj.mp
    rw [UInt8.toNat_ofNat']
    omega
  rw [be16, upper, lower, UInt8.ofNat_toNat]

@[simp] theorem length_be32 (value : BitVec 32) : (be32 value).length = 4 := rfl

@[simp] theorem ofBe32_be32 (value : BitVec 32) : ofBe32 (be32 value) = value := by
  have joined : value.extractLsb' 24 8 ++ value.extractLsb' 16 8 ++ value.extractLsb' 8 8 ++
      value.extractLsb' 0 8 = value := by
    rw [BitVec.extractLsb'_append_extractLsb'_eq_extractLsb' (show 24 = 16 + 8 from rfl),
      BitVec.extractLsb'_append_extractLsb'_eq_extractLsb' (show 16 = 8 + 8 from rfl),
      BitVec.extractLsb'_append_extractLsb'_eq_extractLsb' (show 8 = 0 + 8 from rfl)]
    exact BitVec.extractLsb'_eq_self
  exact joined

end EE323.Lib

/-
Module: EE323.Router.Validation
Purpose: The header check of the IP branch against the rule of RFC 1071.  The router computes the
  checksum again and compares, and `cksum` never yields zero, so the one kind of correct header that
  it refuses is the one whose checksum is stored as zero.
Main exports: headerZeroed, checksum_test, zero_checksum_dropped
-/
import EE323.Router.Checksum

namespace EE323.Router

open EE323.Lib

/-- The twenty bytes of the IP header with the checksum field zeroed. -/
def headerZeroed (packet : List Byte) : List Byte := field (patch packet 24 (be16 0)) 14 20

/-- The sum of a header is the sum of the header without its checksum, and the checksum. -/
theorem wordSum_header {packet : List Byte} {checksum : Nat} (long : 34 ≤ packet.length)
    (small : checksum ≤ 0xffff) (stored : field packet 24 2 = be16 checksum) :
    wordSum (field packet 14 20) = wordSum (headerZeroed packet) + checksum := by
  have zeroed : headerZeroed packet = patch (field packet 14 20) 10 (be16 0) :=
    field_patch_inside (by decide) long
  have same : patch (field packet 14 20) 10 (be16 checksum) = field packet 14 20 := by
    have inside := @field_patch_inside packet (be16 checksum) 24 14 20 (by decide) (by simpa using long)
    rw [← inside, ← stored, patch_field]
  rw [zeroed, ← wordSum_patch (by decide) (by simp) small, same]

/-- The router's check agrees with the rule of the receiver, that the ten words of the header sum to
all ones, except on a header whose checksum field is zero and whose other words sum to all ones. -/
theorem checksum_test (packet : List Byte) (long : 34 ≤ packet.length) :
    (IpSumValid packet ↔ onesSum (field packet 14 20) = 0xffff) ↔
      ¬(field packet 24 2 = be16 0 ∧ onesSum (headerZeroed packet) = 0xffff) := by
  obtain ⟨checksum, small, stored⟩ := exists_be16 (length_field packet 24 2)
  have valid : IpSumValid packet ↔ checksum = complete (wordSum (headerZeroed packet)) := by
    unfold IpSumValid
    rw [stored, cksum_eq (by simp), be16_inj small (complete_le _)]
    rfl
  rw [valid, eq_complete_iff small, stored, be16_inj small (Nat.zero_le _), onesSum_eq, onesSum_eq,
    wordSum_header long small stored]
  constructor
  · rintro agree ⟨rfl, full⟩
    exact (agree.mpr (by simpa using full)).2 ⟨rfl, full⟩
  · exact fun notZero => ⟨fun both => both.1, fun full => ⟨full, notZero⟩⟩

/-- A header that passes, for the lab. -/
theorem checksum_test_lab :
    (IpSumValid (ipFrame 64 17 0xC0A80202 0xAC40030A []) ↔
      onesSum (field (ipFrame 64 17 0xC0A80202 0xAC40030A []) 14 20) = 0xffff) ↔
    ¬(field (ipFrame 64 17 0xC0A80202 0xAC40030A []) 24 2 = be16 0 ∧
      onesSum (headerZeroed (ipFrame 64 17 0xC0A80202 0xAC40030A [])) = 0xffff) :=
  checksum_test _ (by decide +kernel)

/-- A datagram whose identification makes the words of its header sum to all ones, so that its
checksum is zero. -/
private def zeroChecksum : List Byte :=
  List.replicate 12 0 ++ ethertypeIp ++ [0x45, 0] ++ be16 20 ++ be16 2277 ++ be16 0 ++ [64, 17] ++
    be16 0 ++ be32 0xC0A80202 ++ be32 0xAC40030A

/-- A correct header with the checksum zero is dropped. -/
theorem zero_checksum_dropped : ∃ packet : List Byte,
    34 ≤ packet.length ∧ ipV packet = 4 ∧ packet.getD 14 0 &&& 0x0f = 5 ∧
      etherType packet = ethertypeIp ∧ onesSum (field packet 14 20) = 0xffff ∧
      ¬(IpSumValid packet ↔ onesSum (field packet 14 20) = 0xffff) ∧
      react labNetwork 4 (srArpcacheInit 5) (.frame packet) = .ok (srArpcacheInit 5) := by
  refine ⟨zeroChecksum, ?_⟩
  decide +kernel

end EE323.Router

/-
Module: EE323.Stcp.TcpSum
Purpose: The checksum of `tcp_sum.c`, as `stcp_network_send` sets it and `stcp_network_recv` asserts it.
  The assertion holds for everything the peer sent, and says exactly which changes of one word it sees.
Main exports: mysockTcpChecksum, setChecksum, verifyChecksum, stcpNetworkSend, recv_of_sent,
  verify_changed_iff
-/
import EE323.Lib.OnesComplement
import EE323.Stcp.Framing
import EE323.Stcp.Segment

namespace EE323.Stcp.TcpSum

open EE323.Lib
open EE323.Stcp.Framing (MAX_IP_PAYLOAD_LEN)

/-! ### The checksum -/

/-- An element of the `uint16_t` array that the bytes are, on a machine that stores the low byte
first. -/
def nativeWord (bytes : List Byte) (k : Nat) : Nat :=
  (bytes.getD (2 * k) 0).toNat + 0x100 * (bytes.getD (2 * k + 1) 0).toNat

/-- The index of `th_sum` in the array. -/
def thSum : Nat := 8

/-- What the loop adds for an element. -/
def summand (packet : List Byte) (k : Nat) : Nat := if k = thSum then 0 else nativeWord packet k

/-- What header and payload add to the sum. -/
def packetSum (packet : List Byte) : Nat :=
  ((List.range (packet.length / 2)).map (summand packet)).sum +
    if packet.length % 2 = 1 then (packet.getD (packet.length - 1) 0).toNat else 0

/-- `pseudo_header`. -/
def pseudoHeader (source dest : BitVec 32) (len : Nat) : List Byte :=
  be32 source ++ be32 dest ++ [0, 6] ++ be16 len

/-- The sum before it is folded. -/
def checksumSum (source dest : BitVec 32) (packet : List Byte) : Nat :=
  ((List.range 6).map (nativeWord (pseudoHeader source dest packet.length))).sum + packetSum packet

/-- The sum in 16 bits. -/
def foldSum (sum : Nat) : Nat :=
  let sum := sum / 0x10000 + sum % 0x10000
  (sum + sum / 0x10000) % 0x10000

/-- `_mysock_tcp_checksum`.  There is none where an assertion fails or the `int32_t` overflows. -/
def mysockTcpChecksum (source dest : BitVec 32) (packet : List Byte) : Option Nat :=
  if packet.length < 20 ∨ source = 0 ∨ dest = 0 ∨ 0x80000000 ≤ checksumSum source dest packet then none
  else some (0xffff - foldSum (checksumSum source dest packet))

/-- The addresses and ports of a context, and of its peer. -/
structure Context where
  localAddr : BitVec 32
  localPort : Nat
  peerAddr : BitVec 32
  peerPort : Nat
deriving DecidableEq, Repr

/-- A word as it is stored. -/
def nativeBytes (word : Nat) : List Byte := [UInt8.ofNat word, UInt8.ofNat (word / 0x100)]

/-- `_mysock_set_checksum`. -/
def setChecksum (ctx : Context) (packet : List Byte) : Option (List Byte) :=
  (mysockTcpChecksum ctx.localAddr ctx.peerAddr packet).map fun sum =>
    patch packet 16 (nativeBytes sum)

/-- `_mysock_verify_checksum`. -/
def verifyChecksum (ctx : Context) (packet : List Byte) : Option Bool :=
  (mysockTcpChecksum ctx.peerAddr ctx.localAddr packet).map fun sum =>
    sum == nativeWord packet thSum

/-- The fields of the header that `stcp_network_send` fills in: the ports, and zeros for `th_sum`
and `th_urp`. -/
def fillHeader (ctx : Context) (packet : List Byte) : List Byte :=
  patch (patch packet 0 (be16 ctx.localPort ++ be16 ctx.peerPort)) 16 [0, 0, 0, 0]

/-- What `stcp_network_send` hands to `_network_send`, for the buffers it is given. -/
def stcpNetworkSend (ctx : Context) (buffers : List (List Byte)) : Option (List Byte) :=
  let packet := buffers.flatten
  if packet.length ≤ MAX_IP_PAYLOAD_LEN ∧ 20 ≤ packet.length ∧ 0 < ctx.peerPort then
    setChecksum ctx (fillHeader ctx packet)
  else none

/-- The assertion of `stcp_network_recv`. -/
def RecvAsserts (ctx : Context) (packet : List Byte) : Prop :=
  packet = [] ∨ verifyChecksum ctx packet = some true

/-! ### Sums -/

/-- The odd byte is a word whose high byte is missing. -/
theorem packetSum_eq {packet : List Byte} (header : 20 ≤ packet.length) :
    packetSum packet = ((List.range ((packet.length + 1) / 2)).map (summand packet)).sum := by
  by_cases odd : packet.length % 2 = 1
  · have count : (packet.length + 1) / 2 = packet.length / 2 + 1 := by omega
    have place : packet.length - 1 = 2 * (packet.length / 2) := by omega
    have behind : packet.length ≤ 2 * (packet.length / 2) + 1 := by omega
    have notSum : ¬packet.length / 2 = thSum := by
      rw [thSum]
      omega
    rw [packetSum, if_pos odd, count, List.range_succ, List.map_append, List.sum_append, List.map_cons,
      List.map_nil, List.sum_cons, List.sum_nil, summand, if_neg notSum, nativeWord, place,
      List.getD_eq_default packet 0 behind]
    simp
  · have count : (packet.length + 1) / 2 = packet.length / 2 := by omega
    rw [packetSum, if_neg odd, count, Nat.add_zero]

theorem nativeWord_le (bytes : List Byte) (k : Nat) : nativeWord bytes k ≤ 0xffff := by
  have low := (bytes.getD (2 * k) 0).toNat_lt
  have high := (bytes.getD (2 * k + 1) 0).toNat_lt
  rw [nativeWord]
  omega

private theorem sum_map_le {terms : Nat → Nat} (small : ∀ k, terms k ≤ 0xffff) (count : Nat) :
    ((List.range count).map terms).sum ≤ 0xffff * count := by
  induction count with
  | zero => simp
  | succ count inductionHypothesis =>
      have last := small count
      rw [List.range_succ, List.map_append, List.sum_append, List.map_cons, List.map_nil, List.sum_cons,
        List.sum_nil]
      omega

/-- One term makes the difference of two sums. -/
private theorem sum_map_differ {one two : Nat → Nat} {k count : Nat} (inside : k < count)
    (agree : ∀ j, j ≠ k → one j = two j) :
    ((List.range count).map one).sum + two k = ((List.range count).map two).sum + one k := by
  induction count with
  | zero => omega
  | succ count inductionHypothesis =>
      simp only [List.range_succ, List.map_append, List.sum_append, List.map_cons, List.map_nil,
        List.sum_cons, List.sum_nil]
      by_cases last : k = count
      · subst last
        have before : (List.range k).map one = (List.range k).map two :=
          List.map_congr_left fun j member => agree j (by
            have := List.mem_range.mp member
            omega)
        rw [before]
        omega
      · have earlier := inductionHypothesis (by omega)
        have same := agree count fun isK => last isK.symm
        omega

/-- Two folds add every carry back. -/
theorem foldSum_eq {sum : Nat} (small : sum < 0x80000000) : foldSum sum = endAround sum := by
  rw [← endAround_carry, foldSum]
  have bound : sum / 0x10000 + sum % 0x10000 < 0x18000 := by omega
  generalize sum / 0x10000 + sum % 0x10000 = once at bound ⊢
  by_cases carries : once < 0x10000
  · rw [endAround_of_le (by omega), Nat.div_eq_of_lt carries, Nat.add_zero, Nat.mod_eq_of_lt carries]
  · have one : once / 0x10000 = 1 := by omega
    rw [one, endAround, if_neg (by omega)]
    omega

/-- No packet is so long that the sum overflows. -/
theorem checksumSum_lt (source dest : BitVec 32) {packet : List Byte}
    (short : packet.length ≤ MAX_IP_PAYLOAD_LEN) (header : 20 ≤ packet.length) :
    checksumSum source dest packet < 0x80000000 := by
  have pseudo := sum_map_le (nativeWord_le (pseudoHeader source dest packet.length)) 6
  have words : packetSum packet ≤ 0xffff * ((packet.length + 1) / 2) := by
    rw [packetSum_eq header]
    refine sum_map_le (fun k => ?_) _
    rw [summand]
    split
    · exact Nat.zero_le _
    · exact nativeWord_le packet k
  rw [checksumSum]
  rw [MAX_IP_PAYLOAD_LEN] at short
  omega

/-! ### Sent and received -/

/-- The end that receives knows the addresses the other way round. -/
structure Facing (sender receiver : Context) : Prop where
  source : receiver.peerAddr = sender.localAddr
  dest : receiver.localAddr = sender.peerAddr
  known : sender.localAddr ≠ 0
  peerKnown : sender.peerAddr ≠ 0

/-- A packet that `stcp_network_send` may send. -/
structure Sendable (packet : List Byte) : Prop where
  header : 20 ≤ packet.length
  short : packet.length ≤ MAX_IP_PAYLOAD_LEN

/-- What the checksum is of. -/
def total (sender : Context) (packet : List Byte) : Nat :=
  checksumSum sender.localAddr sender.peerAddr packet

theorem mysockTcpChecksum_eq {sender receiver : Context} (facing : Facing sender receiver)
    {packet : List Byte} (sendable : Sendable packet) :
    mysockTcpChecksum sender.localAddr sender.peerAddr packet =
      some (0xffff - endAround (total sender packet)) := by
  have header := sendable.header
  have small := checksumSum_lt sender.localAddr sender.peerAddr sendable.short header
  have fine : ¬(packet.length < 20 ∨ sender.localAddr = 0 ∨ sender.peerAddr = 0 ∨
      0x80000000 ≤ checksumSum sender.localAddr sender.peerAddr packet) := by
    rintro (short | unknown | unknown | large)
    · omega
    · exact facing.known unknown
    · exact facing.peerKnown unknown
    · omega
  rw [mysockTcpChecksum, if_neg fine, foldSum_eq small, total]

/-- What the receiver finds of a packet. -/
theorem verifyChecksum_eq {sender receiver : Context} (facing : Facing sender receiver)
    {packet : List Byte} (sendable : Sendable packet) :
    verifyChecksum receiver packet =
      some (0xffff - endAround (total sender packet) == nativeWord packet thSum) := by
  rw [verifyChecksum, facing.source, facing.dest, mysockTcpChecksum_eq facing sendable]
  rfl

theorem nativeWord_patch_same {packet : List Byte} {word : Nat} (small : word ≤ 0xffff)
    (header : 20 ≤ packet.length) :
    nativeWord (patch packet 16 (nativeBytes word)) thSum = word := by
  have length : (nativeBytes word).length = 2 := rfl
  rw [nativeWord, thSum, getD_patch_same (by decide) (by omega) (by omega),
    getD_patch_same (by decide) (by omega) (by omega)]
  simp only [nativeBytes]
  show (UInt8.ofNat word).toNat + 0x100 * (UInt8.ofNat (word / 0x100)).toNat = word
  rw [UInt8.toNat_ofNat', UInt8.toNat_ofNat']
  omega

theorem nativeWord_patch_other {packet : List Byte} (word : Nat) {k : Nat} (other : k ≠ thSum) :
    nativeWord (patch packet 16 (nativeBytes word)) k = nativeWord packet k := by
  have length : (nativeBytes word).length = 2 := rfl
  rw [thSum] at other
  rw [nativeWord, getD_patch_other (by omega), getD_patch_other (by omega), nativeWord]

/-- The sum is over everything but its own field. -/
theorem total_patch (sender : Context) {packet : List Byte} (header : 20 ≤ packet.length) (word : Nat) :
    total sender (patch packet 16 (nativeBytes word)) = total sender packet := by
  rw [total, total, checksumSum, checksumSum, packetSum_eq (by rwa [length_patch]), packetSum_eq header,
    length_patch]
  congr 2
  refine List.map_congr_left fun k _ => ?_
  rw [summand, summand]
  split
  next => rfl
  next other => exact nativeWord_patch_other word other

/-- A packet with its checksum. -/
structure Sealed (sender : Context) (packet : List Byte) : Prop where
  sendable : Sendable packet
  isSum : nativeWord packet thSum = 0xffff - endAround (total sender packet)

theorem setChecksum_sealed {sender receiver : Context} (facing : Facing sender receiver)
    {packet : List Byte} (sendable : Sendable packet) :
    ∃ word, setChecksum sender packet = some (patch packet 16 (nativeBytes word)) ∧
      Sealed sender (patch packet 16 (nativeBytes word)) := by
  refine ⟨0xffff - endAround (total sender packet), ?_, ⟨?_, ?_⟩, ?_⟩
  · rw [setChecksum, mysockTcpChecksum_eq facing sendable]
    rfl
  · rw [length_patch]
    exact sendable.header
  · rw [length_patch]
    exact sendable.short
  · rw [nativeWord_patch_same (by omega) sendable.header, total_patch sender sendable.header]

/-- The bytes that the caller of `stcp_network_send` decides: all but the ports, `th_sum` and
`th_urp`. -/
def Kept (i : Nat) : Prop := 4 ≤ i ∧ i < 16 ∨ 20 ≤ i

theorem fillHeader_kept (ctx : Context) (packet : List Byte) {i : Nat} (kept : Kept i) :
    (fillHeader ctx packet).getD i 0 = packet.getD i 0 := by
  have ports : (be16 ctx.localPort ++ be16 ctx.peerPort).length = 4 := rfl
  have zeros : ([0, 0, 0, 0] : List Byte).length = 4 := rfl
  rw [Kept] at kept
  rw [fillHeader, getD_patch_other (by omega), getD_patch_other (by omega)]

theorem length_fillHeader (ctx : Context) (packet : List Byte) :
    (fillHeader ctx packet).length = packet.length := by
  rw [fillHeader, length_patch, length_patch]

/-- Every packet that `stcp_network_send` takes is sent with the caller's bytes and the ports, and
the other end's assertion holds for it. -/
theorem recv_of_sent {sender receiver : Context} (facing : Facing sender receiver)
    (connected : 0 < sender.peerPort) {buffers : List (List Byte)}
    (sendable : Sendable buffers.flatten) :
    ∃ packet, stcpNetworkSend sender buffers = some packet ∧ RecvAsserts receiver packet ∧
      packet.length = buffers.flatten.length ∧
      (∀ i, Kept i → packet.getD i 0 = buffers.flatten.getD i 0) ∧
      field packet 0 4 = be16 sender.localPort ++ be16 sender.peerPort ∧ field packet 18 2 = [0, 0] := by
  have filled : Sendable (fillHeader sender buffers.flatten) := by
    constructor
    · rw [length_fillHeader]
      exact sendable.header
    · rw [length_fillHeader]
      exact sendable.short
  obtain ⟨word, isSet, isSealed⟩ := setChecksum_sealed facing filled
  have length : (nativeBytes word).length = 2 := rfl
  have ports : (be16 sender.localPort ++ be16 sender.peerPort).length = 4 := rfl
  have zeros : ([0, 0, 0, 0] : List Byte).length = 4 := rfl
  have header := sendable.header
  refine ⟨patch (fillHeader sender buffers.flatten) 16 (nativeBytes word), ?_, Or.inr ?_, ?_, ?_, ?_, ?_⟩
  · rw [stcpNetworkSend, if_pos ⟨sendable.short, sendable.header, connected⟩]
    exact isSet
  · rw [verifyChecksum_eq facing isSealed.sendable, isSealed.isSum, beq_self_eq_true]
  · rw [length_patch, length_fillHeader]
  · intro i kept
    rw [getD_patch_other (by rw [Kept] at kept; omega), fillHeader_kept sender _ kept]
  · rw [field_patch_other (by omega), fillHeader, field_patch_other (by omega)]
    exact field_patch_same (by omega)
  · rw [field_patch_other (by omega), field_succ, field_succ, fillHeader,
      getD_patch_same (by omega) (by omega) (by rw [length_patch]; omega),
      getD_patch_same (by omega) (by omega) (by rw [length_patch]; omega)]
    rfl

/-- The two ends of a connection. -/
def leftEnd : Context := ⟨0x0a000001#32, 1024, 0x0a000002#32, 80⟩
def rightEnd : Context := ⟨0x0a000002#32, 80, 0x0a000001#32, 1024⟩

theorem leftEnd_facing : Facing leftEnd rightEnd := ⟨rfl, rfl, by decide, by decide⟩

/-- A header and three bytes of data, in two buffers. -/
theorem recv_of_sent_odd :
    ∃ packet, stcpNetworkSend leftEnd [List.replicate 20 7, [1, 2, 3]] = some packet ∧
      RecvAsserts rightEnd packet ∧ packet.length = 23 := by
  obtain ⟨packet, isSent, asserts, length, -⟩ :=
    @recv_of_sent leftEnd rightEnd leftEnd_facing (by decide) [List.replicate 20 7, [1, 2, 3]]
      ⟨by decide, by decide⟩
  exact ⟨packet, isSent, asserts, length⟩

/-! ### Changes on the way -/

/-- A packet that differs in one word. -/
structure DiffersIn (k : Nat) (sent received : List Byte) : Prop where
  length : received.length = sent.length
  inside : k < (sent.length + 1) / 2
  others : ∀ j, j ≠ k → nativeWord received j = nativeWord sent j
  differs : nativeWord received k ≠ nativeWord sent k

/-- The two words that one's complement does not tell apart. -/
def BothZero (one two : Nat) : Prop := one = 0 ∧ two = 0xffff ∨ one = 0xffff ∧ two = 0

/-- The sums of the two packets differ as their words do. -/
theorem total_differs (sender : Context) {k : Nat} {sent received : List Byte}
    (changed : DiffersIn k sent received) (header : 20 ≤ sent.length) :
    total sender received + summand sent k = total sender sent + summand received k := by
  have agree (j : Nat) (other : j ≠ k) : summand received j = summand sent j := by
    rw [summand, summand, changed.others j other]
  have sums := sum_map_differ changed.inside agree
  rw [total, total, checksumSum, checksumSum, packetSum_eq header,
    packetSum_eq (by rw [changed.length]; exact header), changed.length]
  omega

/-- The pseudo header adds its protocol, at least. -/
theorem total_pos (sender : Context) (packet : List Byte) : 0 < total sender packet := by
  have protocol : nativeWord (pseudoHeader sender.localAddr sender.peerAddr packet.length) 4 = 0x600 :=
    rfl
  rw [total, checksumSum]
  simp only [List.range_succ, List.range_zero, List.map_append, List.map_cons, List.map_nil,
    List.sum_append, List.sum_cons, List.sum_nil, List.nil_append, protocol]
  omega

/-- A packet that was changed in one word on the way passes the other end's assertion exactly when
the word is not `th_sum` and went from all zeros to all ones or back. -/
theorem verify_changed_iff {sender receiver : Context} (facing : Facing sender receiver)
    {sent received : List Byte} {k : Nat} (isSealed : Sealed sender sent)
    (changed : DiffersIn k sent received) :
    RecvAsserts receiver received ↔
      k ≠ thSum ∧ BothZero (nativeWord sent k) (nativeWord received k) := by
  have header := isSealed.sendable.header
  have sendable : Sendable received :=
    ⟨by rw [changed.length]; exact header, by rw [changed.length]; exact isSealed.sendable.short⟩
  have nonempty : received ≠ [] := by
    rintro rfl
    have := sendable.header
    simp at this
  have verified : RecvAsserts receiver received ↔
      0xffff - endAround (total sender received) = nativeWord received thSum := by
    rw [RecvAsserts, verifyChecksum_eq facing sendable]
    simp [nonempty]
  have difference := total_differs sender changed header
  rw [verified]
  by_cases isSum : k = thSum
  · subst isSum
    have same : total sender received = total sender sent := by simpa [summand] using difference
    rw [same, ← isSealed.isSum]
    exact ⟨fun equal => absurd equal.symm changed.differs, fun both => absurd rfl both.1⟩
  · rw [changed.others thSum (fun same => isSum same.symm), isSealed.isSum]
    rw [summand, summand, if_neg isSum, if_neg isSum] at difference
    have positive := total_pos sender sent
    have positiveReceived := total_pos sender received
    have sentSmall := nativeWord_le sent k
    have receivedSmall := nativeWord_le received k
    have differs := changed.differs
    rw [endAround, endAround, if_neg (by omega), if_neg (by omega), BothZero]
    generalize nativeWord sent k = before at *
    generalize nativeWord received k = after at *
    generalize total sender sent = sumBefore at *
    generalize total sender received = sumAfter at *
    constructor
    · intro same
      refine ⟨isSum, ?_⟩
      omega
    · rintro ⟨-, ⟨rfl, rfl⟩ | ⟨rfl, rfl⟩⟩ <;> omega

/-- A header whose ports are zero, with its checksum, and two bytes of data. -/
def sealedPacket : List Byte := List.replicate 16 0 ++ [0xeb, 0xe0] ++ [0, 0, 0, 0]

/-- The data was changed on the way. -/
def changedPacket : List Byte := List.replicate 16 0 ++ [0xeb, 0xe0] ++ [0, 0, 0, 1]

theorem verify_changed_last : ¬RecvAsserts rightEnd changedPacket := by
  intro asserts
  have isSealed : Sealed leftEnd sealedPacket := ⟨⟨by decide, by decide⟩, by decide +kernel⟩
  have inside : ∀ j < 11, j ≠ 10 → nativeWord changedPacket j = nativeWord sealedPacket j := by decide
  have changed : DiffersIn 10 sealedPacket changedPacket := by
    refine ⟨rfl, by decide, fun j other => ?_, by decide⟩
    by_cases early : j < 11
    · exact inside j early other
    · have behind : 22 ≤ 2 * j := by omega
      have length : changedPacket.length = 22 ∧ sealedPacket.length = 22 := ⟨rfl, rfl⟩
      rw [nativeWord, nativeWord, List.getD_eq_default _ _ (by omega),
        List.getD_eq_default _ _ (by omega), List.getD_eq_default _ _ (by omega),
        List.getD_eq_default _ _ (by omega)]
  obtain ⟨-, ⟨-, full⟩ | ⟨full, -⟩⟩ := (verify_changed_iff leftEnd_facing isSealed changed).mp asserts
  · exact absurd full (by decide)
  · exact absurd full (by decide)

end EE323.Stcp.TcpSum

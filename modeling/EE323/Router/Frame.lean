/-
Module: EE323.Router.Frame
Purpose: Ethernet frames as bytes, with the header fields of `sr_protocol.h` at their offsets, the
  checksum of `sr_utils.c` and the frames that the router builds itself.  Checksums are numbers here
  and are stored most significant byte first, which is what `htons` arranges.
Main exports: cksum, setIpSum, setIcmpSum, IpSumValid, IcmpSumValid, icmpError, arpFrame
-/
import EE323.Lib.OnesComplement
import EE323.Router.Table

namespace EE323.Router

open EE323.Lib

/-! ### Header fields -/

def etherShost (buf : List Byte) : Mac := ⟨field buf 6 6, length_field buf 6 6⟩

def etherType (buf : List Byte) : List Byte := field buf 12 2

def setDhost (buf : List Byte) (mac : Mac) : List Byte := patch buf 0 mac.val

def setShost (buf : List Byte) (mac : Mac) : List Byte := patch buf 6 mac.val

/-- `ip_v`, the upper half of the first byte of the header. -/
def ipV (buf : List Byte) : Byte := buf.getD 14 0 >>> 4

def ipTtl (buf : List Byte) : Byte := buf.getD 22 0

def setIpTtl (buf : List Byte) (ttl : Byte) : List Byte := patch buf 22 [ttl]

def ipP (buf : List Byte) : Byte := buf.getD 23 0

def ipSrc (buf : List Byte) : IpAddr := ofBe32 (field buf 26 4)

def ipDst (buf : List Byte) : IpAddr := ofBe32 (field buf 30 4)

def icmpType (buf : List Byte) : Byte := buf.getD 34 0

def arOp (buf : List Byte) : List Byte := field buf 20 2

def arSha (buf : List Byte) : Mac := ⟨field buf 22 6, length_field buf 22 6⟩

def arSip (buf : List Byte) : IpAddr := ofBe32 (field buf 28 4)

def arTip (buf : List Byte) : IpAddr := ofBe32 (field buf 38 4)

def ethertypeIp : List Byte := be16 0x0800

def ethertypeArp : List Byte := be16 0x0806

def arpOpRequest : List Byte := be16 1

def arpOpReply : List Byte := be16 2

/-- `INIT_TTL`. -/
def initTtl : Byte := 255

/-- `ICMP_DATA_SIZE`. -/
def icmpDataSize : Nat := 28

/-! ### Checksums -/

/-- The loop of `cksum` over the data, with its 32-bit `sum`. -/
def cksumWords : List Byte → Nat → Nat
  | [], sum => sum
  | [high], sum => (sum + high.toNat * 256) % 2 ^ 32
  | high :: low :: rest, sum => cksumWords rest ((sum + (high.toNat * 256 + low.toNat)) % 2 ^ 32)

/-- `while (sum > 0xffff) sum = (sum >> 16) + (sum & 0xffff)`, for at most the given number of
rounds. -/
def foldCarries : Nat → Nat → Nat
  | 0, sum => sum
  | rounds + 1, sum =>
      if 0xffff < sum then foldCarries rounds (sum / 0x10000 + sum % 0x10000) else sum

/-- `cksum`.  Two rounds fold every 32-bit sum, so the loop is cut off there. -/
def cksum (data : List Byte) : Nat :=
  let sum := foldCarries 2 (cksumWords data 0)
  if 0xffff - sum = 0 then 0xffff else 0xffff - sum

/-- `ip_sum = 0` and then `ip_sum = cksum(i_hdr, sizeof(struct sr_ip_hdr))`. -/
def setIpSum (buf : List Byte) : List Byte :=
  let buf := patch buf 24 (be16 0)
  patch buf 24 (be16 (cksum (field buf 14 20)))

/-- `icmp_sum = 0` and then `icmp_sum = cksum(ic_hdr, ...)` over the rest of the frame. -/
def setIcmpSum (buf : List Byte) : List Byte :=
  let buf := patch buf 36 (be16 0)
  patch buf 36 (be16 (cksum (field buf 34 (buf.length - 34))))

/-- The header checksum is the one that the router computes with the field zeroed. -/
def IpSumValid (buf : List Byte) : Prop :=
  field buf 24 2 = be16 (cksum (field (patch buf 24 (be16 0)) 14 20))

/-- The ICMP checksum is the one that the router computes with the field zeroed. -/
def IcmpSumValid (buf : List Byte) : Prop :=
  field buf 36 2 = be16 (cksum (field (patch buf 36 (be16 0)) 34 (buf.length - 34)))

instance (buf : List Byte) : Decidable (IpSumValid buf) := inferInstanceAs (Decidable (_ = _))

instance (buf : List Byte) : Decidable (IcmpSumValid buf) := inferInstanceAs (Decidable (_ = _))

/-! ### Frames that the router builds -/

/-- An ICMP error about a frame: the Ethernet, IP and ICMP headers with both checksums zero.  The
destination address of the Ethernet header is not known yet.  `trailing` bytes of zero follow. -/
def icmpErrorRaw (type code : Byte) (trailing : Nat) (source : IpAddr) (shost : Mac)
    (original : List Byte) : List Byte :=
  List.replicate 6 0 ++ shost.val ++ ethertypeIp ++
    ([0x45] ++ field original 15 1 ++ be16 (56 + trailing) ++ field original 18 2 ++
      field original 20 2 ++ [initTtl, 1] ++ be16 0 ++ be32 source ++ field original 26 4) ++
    ([type, code] ++ be16 0 ++ be16 0 ++ be16 0xff ++ field original 14 icmpDataSize ++
      List.replicate trailing 0)

/-- An ICMP error about a frame, with its checksums. -/
def icmpError (type code : Byte) (trailing : Nat) (source : IpAddr) (shost : Mac)
    (original : List Byte) : List Byte :=
  setIcmpSum (setIpSum (icmpErrorRaw type code trailing source shost original))

/-- The ICMP port unreachable packet. -/
def portUnreachable : IpAddr → Mac → List Byte → List Byte := icmpError 3 3 icmpDataSize

/-- The ICMP time exceeded packet. -/
def timeExceeded : IpAddr → Mac → List Byte → List Byte := icmpError 11 0 icmpDataSize

/-- The ICMP net unreachable packet. -/
def netUnreachable : IpAddr → Mac → List Byte → List Byte := icmpError 3 0 0

/-- The ICMP host unreachable packet. -/
def hostUnreachable : IpAddr → Mac → List Byte → List Byte := icmpError 3 1 icmpDataSize

/-- An echo request turned into its reply. -/
def echoReply (packet : List Byte) : List Byte :=
  let packet := setIpTtl packet initTtl
  let packet := patch packet 26 (field packet 30 4 ++ field packet 26 4)
  let packet := setIpSum packet
  setIcmpSum (patch packet 34 [0])

/-- The time to live decremented, and the header checksum computed again. -/
def decrementTtl (packet : List Byte) : List Byte :=
  setIpSum (setIpTtl packet (ipTtl packet - 1))

/-- An Ethernet frame with an ARP header. -/
def arpFrame (dhost shost : Mac) (op : List Byte) (sha : Mac) (sip : IpAddr) (tha : Mac)
    (tip : IpAddr) : List Byte :=
  dhost.val ++ shost.val ++ ethertypeArp ++
    (be16 1 ++ ethertypeIp ++ [6, 4] ++ op ++ sha.val ++ be32 sip ++ tha.val ++ be32 tip)

def broadcast : Mac := ⟨List.replicate 6 0xff, rfl⟩

def zeroMac : Mac := ⟨List.replicate 6 0, rfl⟩

/-! ### What the edits leave alone -/

section Edits

variable (buf : List Byte) (mac : Mac)

@[simp] theorem length_setDhost : (setDhost buf mac).length = buf.length := length_patch _ _ _

@[simp] theorem length_setShost : (setShost buf mac).length = buf.length := length_patch _ _ _

@[simp] theorem length_setIpSum : (setIpSum buf).length = buf.length := by simp [setIpSum]

@[simp] theorem length_setIcmpSum : (setIcmpSum buf).length = buf.length := by simp [setIcmpSum]

@[simp] theorem length_decrementTtl : (decrementTtl buf).length = buf.length := by
  simp [decrementTtl, setIpTtl]

@[simp] theorem length_echoReply : (echoReply buf).length = buf.length := by
  simp [echoReply, setIpTtl]

theorem field_setDhost {offset : Nat} (count : Nat) (after : 6 ≤ offset) :
    field (setDhost buf mac) offset count = field buf offset count :=
  field_patch_other (.inr (by simpa using after))

theorem field_setShost {offset : Nat} (count : Nat) (after : 12 ≤ offset) :
    field (setShost buf mac) offset count = field buf offset count :=
  field_patch_other (.inr (by simpa using after))

theorem field_setIpTtl {offset count : Nat} (ttl : Byte)
    (apart : offset + count ≤ 22 ∨ 23 ≤ offset) :
    field (setIpTtl buf ttl) offset count = field buf offset count :=
  field_patch_other (by simpa using apart)

theorem field_setIpSum {offset count : Nat} (apart : offset + count ≤ 24 ∨ 26 ≤ offset) :
    field (setIpSum buf) offset count = field buf offset count := by
  unfold setIpSum
  rw [field_patch_other (by simpa using apart), field_patch_other (by simpa using apart)]

theorem field_setIcmpSum {offset count : Nat} (apart : offset + count ≤ 36 ∨ 38 ≤ offset) :
    field (setIcmpSum buf) offset count = field buf offset count := by
  unfold setIcmpSum
  rw [field_patch_other (by simpa using apart), field_patch_other (by simpa using apart)]

theorem field_decrementTtl {offset count : Nat}
    (apart : offset + count ≤ 22 ∨ 23 ≤ offset ∧ offset + count ≤ 24 ∨ 26 ≤ offset) :
    field (decrementTtl buf) offset count = field buf offset count := by
  unfold decrementTtl
  rw [field_setIpSum _ (by omega), field_setIpTtl _ _ (by omega)]

@[simp] theorem etherShost_setDhost : etherShost (setDhost buf mac) = etherShost buf :=
  Subtype.ext (field_setDhost buf mac 6 (Nat.le_refl _))

@[simp] theorem ipDst_setDhost : ipDst (setDhost buf mac) = ipDst buf := by
  unfold ipDst
  rw [field_setDhost _ _ _ (by decide)]

@[simp] theorem ipDst_setShost : ipDst (setShost buf mac) = ipDst buf := by
  unfold ipDst
  rw [field_setShost _ _ _ (by decide)]

@[simp] theorem etherShost_decrementTtl : etherShost (decrementTtl buf) = etherShost buf :=
  Subtype.ext (field_decrementTtl buf (by decide))

theorem ipTtl_decrementTtl {buf : List Byte} (long : 34 ≤ buf.length) :
    ipTtl (decrementTtl buf) = ipTtl buf - 1 := by
  unfold decrementTtl setIpSum setIpTtl ipTtl
  dsimp only
  rw [getD_patch_other (by simp), getD_patch_other (by simp),
    getD_patch_same (by decide) (by simp) (by omega)]
  rfl

theorem ipTtl_setDhost (buf : List Byte) (mac : Mac) : ipTtl (setDhost buf mac) = ipTtl buf :=
  getD_patch_other (.inr (by simp))

theorem ipTtl_setShost (buf : List Byte) (mac : Mac) : ipTtl (setShost buf mac) = ipTtl buf :=
  getD_patch_other (.inr (by simp))

variable {buf}

theorem etherShost_setShost (long : 12 ≤ buf.length) : etherShost (setShost buf mac) = mac := by
  apply Subtype.ext
  have same := @field_patch_same buf mac.val 6 (by simpa using long)
  rw [Mac.length_val] at same
  exact same

end Edits

/-! ### The frames that the router builds -/

section Built

variable (type code : Byte) (trailing : Nat) (source : IpAddr) (shost : Mac)
  (original : List Byte)

@[simp] theorem length_icmpErrorRaw :
    (icmpErrorRaw type code trailing source shost original).length = 70 + trailing := by
  simp [icmpErrorRaw, ethertypeIp, icmpDataSize]
  omega

@[simp] theorem length_icmpError :
    (icmpError type code trailing source shost original).length = 70 + trailing := by
  simp [icmpError]

theorem field_icmpError {offset count : Nat}
    (apart : offset + count ≤ 24 ∨ 26 ≤ offset ∧ offset + count ≤ 36 ∨ 38 ≤ offset) :
    field (icmpError type code trailing source shost original) offset count =
      field (icmpErrorRaw type code trailing source shost original) offset count := by
  unfold icmpError
  rw [field_setIcmpSum _ (by omega), field_setIpSum _ (by omega)]

@[simp] theorem etherShost_icmpError :
    etherShost (icmpError type code trailing source shost original) = shost := by
  apply Subtype.ext
  unfold etherShost
  dsimp only
  rw [field_icmpError _ _ _ _ _ _ (by decide)]
  simp only [icmpErrorRaw, List.append_assoc]
  rw [field_append_right _ _ (by simp), field_append_left _ (by simp), field_whole (by simp) (by simp)]

@[simp] theorem ipDst_icmpError :
    ipDst (icmpError type code trailing source shost original) = ipSrc original := by
  unfold ipDst ipSrc
  rw [field_icmpError _ _ _ _ _ _ (by decide)]
  congr 1
  simp only [icmpErrorRaw, List.append_assoc, ethertypeIp]
  iterate 11 rw [field_append_right _ _ (by simp)]
  rw [field_append_left _ (by simp), field_whole (by simp) (by simp)]

@[simp] theorem ipSrc_icmpError :
    ipSrc (icmpError type code trailing source shost original) = source := by
  unfold ipSrc
  rw [field_icmpError _ _ _ _ _ _ (by decide)]
  simp only [icmpErrorRaw, List.append_assoc, ethertypeIp]
  iterate 10 rw [field_append_right _ _ (by simp)]
  rw [field_append_left _ (by simp), field_whole (by simp) (by simp), ofBe32_be32]

theorem icmpHead_icmpError :
    field (icmpError type code trailing source shost original) 34 2 = [type, code] := by
  rw [field_icmpError _ _ _ _ _ _ (by decide)]
  simp only [icmpErrorRaw, List.append_assoc, ethertypeIp]
  iterate 12 rw [field_append_right _ _ (by simp)]
  rw [field_append_left _ (by simp), field_whole (by simp) (by simp)]

theorem ipP_icmpError : ipP (icmpError type code trailing source shost original) = 1 := by
  have protocol : field (icmpError type code trailing source shost original) 22 2 =
      [initTtl, 1] := by
    rw [field_icmpError _ _ _ _ _ _ (by decide)]
    simp only [icmpErrorRaw, List.append_assoc, ethertypeIp]
    iterate 8 rw [field_append_right _ _ (by simp)]
    rw [field_append_left _ (by simp), field_whole (by simp) (by simp)]
  unfold ipP
  rw [← @getD_field _ 22 2 1 (by decide), protocol]
  rfl

end Built

section Arp

variable (dhost shost sha tha : Mac) (op : List Byte) (sip tip : IpAddr)

@[simp] theorem length_arpFrame (two : op.length = 2) :
    (arpFrame dhost shost op sha sip tha tip).length = 42 := by
  simp [arpFrame, ethertypeArp, ethertypeIp, two]

@[simp] theorem etherShost_arpFrame :
    etherShost (arpFrame dhost shost op sha sip tha tip) = shost := by
  apply Subtype.ext
  unfold etherShost arpFrame
  simp only [List.append_assoc]
  rw [field_append_right _ _ (by simp), field_append_left _ (by simp),
    field_whole (by simp) (by simp)]

theorem etherType_arpFrame :
    etherType (arpFrame dhost shost op sha sip tha tip) = ethertypeArp := by
  unfold etherType arpFrame
  simp only [List.append_assoc, ethertypeArp]
  iterate 2 rw [field_append_right _ _ (by simp)]
  rw [field_append_left _ (by simp), field_whole (by simp) (by simp)]

theorem arOp_arpFrame (two : op.length = 2) :
    arOp (arpFrame dhost shost op sha sip tha tip) = op := by
  unfold arOp arpFrame
  simp only [List.append_assoc, ethertypeArp, ethertypeIp]
  iterate 6 rw [field_append_right _ _ (by simp)]
  rw [field_append_left _ (by simp [two]), field_whole (by simp) (by simp [two])]

theorem arSip_arpFrame (two : op.length = 2) :
    arSip (arpFrame dhost shost op sha sip tha tip) = sip := by
  unfold arSip arpFrame
  simp only [List.append_assoc, ethertypeArp, ethertypeIp]
  iterate 8 rw [field_append_right _ _ (by simp [two])]
  rw [field_append_left _ (by simp; omega), field_whole (by simp; omega) (by simp), ofBe32_be32]

theorem arTip_arpFrame (two : op.length = 2) :
    arTip (arpFrame dhost shost op sha sip tha tip) = tip := by
  unfold arTip arpFrame
  simp only [List.append_assoc, ethertypeArp, ethertypeIp]
  iterate 10 rw [field_append_right _ _ (by simp [two])]
  rw [field_whole (by simp; omega) (by simp), ofBe32_be32]

end Arp

end EE323.Router

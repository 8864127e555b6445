/-
Module: EE323.Stcp.Segment
Purpose: STCP segments (`transport.h`) and the unreliable datagram service of `network.c`.
  The fields that `stcp_network_send` fills in by itself (ports, checksum, urgent pointer) are left
  out: both ends compute the checksum from the same bytes.
Main exports: Segment, TH_FIN, TH_SYN, TH_ACK, networkSend
-/

namespace EE323.Stcp

abbrev Byte := UInt8

def TH_FIN : UInt8 := 0x01
def TH_SYN : UInt8 := 0x02
def TH_ACK : UInt8 := 0x10

/-- `sizeof(struct tcphdr)`. -/
def tcphdrSize : Nat := 20

/-- One datagram: the header fields the transport layer reads or writes, in host order as the
source keeps them, and the payload. -/
structure Segment where
  thSeq : Nat
  thAck : Nat
  thOff : Nat
  thFlags : UInt8
  thWin : Nat
  data : List Byte
deriving DecidableEq, Repr

namespace Segment

/-- The number of bytes of the datagram. -/
def size (segment : Segment) : Nat := tcphdrSize + segment.data.length

/-- A data segment is sent with no flag set. -/
def IsData (segment : Segment) : Prop := segment.thFlags = 0x00

def IsAck (segment : Segment) : Prop := segment.thFlags = TH_ACK

def IsFin (segment : Segment) : Prop := segment.thFlags = TH_FIN

def IsSyn (segment : Segment) : Prop := segment.thFlags = TH_SYN

instance (segment : Segment) : Decidable segment.IsData :=
  inferInstanceAs (Decidable (segment.thFlags = 0x00))

instance (segment : Segment) : Decidable segment.IsAck :=
  inferInstanceAs (Decidable (segment.thFlags = TH_ACK))

instance (segment : Segment) : Decidable segment.IsFin :=
  inferInstanceAs (Decidable (segment.thFlags = TH_FIN))

instance (segment : Segment) : Decidable segment.IsSyn :=
  inferInstanceAs (Decidable (segment.thFlags = TH_SYN))

end Segment

/-! ### The flags exclude one another -/

namespace Segment

variable {segment : Segment}

theorem IsAck.not_isFin (isAck : segment.IsAck) : ¬segment.IsFin := by
  unfold IsAck at isAck
  unfold IsFin
  rw [isAck]
  decide

theorem IsAck.not_isData (isAck : segment.IsAck) : ¬segment.IsData := by
  unfold IsAck at isAck
  unfold IsData
  rw [isAck]
  decide

theorem IsData.not_isAck (isData : segment.IsData) : ¬segment.IsAck :=
  fun isAck => isAck.not_isData isData

theorem IsData.not_isFin (isData : segment.IsData) : ¬segment.IsFin := by
  unfold IsData at isData
  unfold IsFin
  rw [isData]
  decide

theorem IsSyn.not_isData (isSyn : segment.IsSyn) : ¬segment.IsData := by
  unfold IsSyn at isSyn
  unfold IsData
  rw [isSyn]
  decide

theorem IsSyn.not_isFin (isSyn : segment.IsSyn) : ¬segment.IsFin := by
  unfold IsSyn at isSyn
  unfold IsFin
  rw [isSyn]
  decide

theorem IsSyn.not_isAck (isSyn : segment.IsSyn) : ¬segment.IsAck := by
  unfold IsSyn at isSyn
  unfold IsAck
  rw [isSyn]
  decide

end Segment

/-- `_network_send`: the datagrams put on the wire for one call, and the packet kept back.  In
unreliable mode `rand_r(&seed) & 0x1f` chooses between dropping, duplicating, keeping the packet,
sending the kept one in its place, and plain sending. -/
def networkSend (isReliable : Bool) (rand : Nat) (copied : Option Segment) (packet : Segment) :
    Option Segment × List Segment :=
  if isReliable then (copied, [packet])
  else
    match rand % 32 with
    | 0 => (copied, [])
    | 1 => (copied, [packet, packet])
    | 2 => (some packet, [])
    | 3 =>
        match copied with
        | some kept => (copied, [kept])
        | none => (copied, [packet])
    | _ => (copied, [packet])

@[simp] theorem networkSend_reliable (rand : Nat) (copied : Option Segment) (packet : Segment) :
    networkSend true rand copied packet = (copied, [packet]) := rfl

/-- Whatever the random choice, only the packet of the call or the packet kept back is sent or
kept. -/
theorem mem_networkSend {isReliable : Bool} {rand : Nat} {copied : Option Segment}
    {packet other : Segment}
    (sent : other ∈ (networkSend isReliable rand copied packet).2 ∨
      (networkSend isReliable rand copied packet).1 = some other) :
    other = packet ∨ copied = some other := by
  unfold networkSend at sent
  grind

end EE323.Stcp

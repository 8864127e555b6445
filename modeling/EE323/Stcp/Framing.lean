/-
Module: EE323.Stcp.Framing
Purpose: The datagram service that `network_io_tcp.c` builds on a TCP connection: each packet goes
  out behind its length in two bytes, and the receive thread of `network_io_socket.c` reads the
  packets back, however the kernel splits reads and writes.
Main exports: tcpIo, networkSendPacket, networkRecvPacket, networkRecvThread, recv_sent_iff,
  recv_prefix
-/
import Mathlib.Data.List.Infix
import EE323.Lib.Bytes

namespace EE323.Stcp.Framing

open EE323.Lib

def MAX_IP_PAYLOAD_LEN : Nat := 1500

/-! ### Reads and writes -/

/-- What the kernel does to the calls of `read` or `write` on a socket, in order: `none` is an
error, and a number bounds the bytes moved, of which there is at least one.  Behind the list a call
moves all it can. -/
abbrev Schedule := List (Option Nat)

/-- The bytes that the next call may move, out of a count. -/
def allowance (schedule : Schedule) (count : Nat) : Option Nat :=
  match schedule with
  | [] => some count
  | none :: _ => none
  | some n :: _ => some (min count (max 1 n))

/-- A socket that is read: the bytes still to come before the end of the stream, and those stored
behind `dst` so far. -/
structure Reader where
  pending : List Byte
  schedule : Schedule
  dst : List Byte
deriving DecidableEq, Repr

/-- `read`. -/
def Reader.read (r : Reader) (count : Nat) : Int × Reader :=
  match allowance r.schedule count with
  | none => (-1, { r with schedule := r.schedule.tail })
  | some n =>
      ((r.pending.take n).length,
        { pending := r.pending.drop n
          schedule := r.schedule.tail
          dst := r.dst ++ r.pending.take n })

/-- A socket that is written: the bytes behind `src` still to be written, and those sent. -/
structure Writer where
  src : List Byte
  schedule : Schedule
  sent : List Byte
deriving DecidableEq, Repr

/-- `write`. -/
def Writer.write (w : Writer) (count : Nat) : Int × Writer :=
  match allowance w.schedule count with
  | none => (-1, { w with schedule := w.schedule.tail })
  | some n =>
      ((w.src.take n).length,
        { src := w.src.drop n
          schedule := w.schedule.tail
          sent := w.sent ++ w.src.take n })

/-- The loop of `_tcp_io`.  Every turn moves a byte, so `count` turns are enough. -/
def tcpLoop {σ : Type} (io : σ → Nat → Int × σ) (count : Nat) : Nat → σ → Nat → Int × σ
  | 0, s, _ => (count, s)
  | turns + 1, s, remaining =>
      if remaining = 0 then (count, s)
      else
        match io s remaining with
        | (rc, s) => if rc ≤ 0 then (rc, s) else tcpLoop io count turns s (remaining - rc.toNat)

/-- `_tcp_io`. -/
def tcpIo {σ : Type} (io : σ → Nat → Int × σ) (s : σ) (count : Nat) : Int × σ :=
  tcpLoop io count count s count

def tcpRead (r : Reader) (count : Nat) : Int × Reader :=
  tcpIo Reader.read { r with dst := [] } count

def tcpWrite (w : Writer) (bytes : List Byte) : Int × Writer :=
  tcpIo Writer.write { w with src := bytes } bytes.length

/-! ### Packets -/

/-- `htons`, into two bytes of memory. -/
def htons (value : Nat) : List Byte := be16 (value % 0x10000)

/-- `ntohs`, from two bytes of memory. -/
def ntohs (bytes : List Byte) : Nat := (bytes.getD 0 0).toNat * 256 + (bytes.getD 1 0).toNat

/-- `_network_send_packet` on a connected socket. -/
def networkSendPacket (w : Writer) (packet : List Byte) : Int × Writer :=
  match tcpWrite w (htons packet.length) with
  | (rc, w) =>
      if rc < 0 then (-1, w)
      else
        match tcpWrite w packet with
        | (rc, w) => if rc < 0 then (-1, w) else (packet.length, w)

/-- The end of `_network_recv_packet`: what does not fit is read and discarded. -/
def discardRest (r : Reader) (packet : List Byte) (packetLen maxLen : Nat) :
    Int × List Byte × Reader :=
  if maxLen < packetLen then (packetLen, packet, (tcpRead r (packetLen - maxLen)).2)
  else (packetLen, packet, r)

/-- `_network_recv_packet` on a connected socket: what it returns, and the bytes behind `dst`. -/
def networkRecvPacket (r : Reader) (maxLen : Nat) : Int × List Byte × Reader :=
  match tcpRead r 2 with
  | (rc, r) =>
      if rc ≤ 0 then (rc, [], r)
      else
        let packetLen := ntohs r.dst
        match tcpRead r (min packetLen maxLen) with
        | (rc, r) => if rc ≤ 0 then (rc, r.dst, r) else discardRest r r.dst packetLen maxLen

/-- How the receive thread ends: on an end of stream or an error, or on its own assertion. -/
inductive Stopped where
  | closed (rc : Int)
  | assertion
deriving DecidableEq, Repr

/-- `network_recv_thread_func` on a mysocket that does not listen: the packets it queues, and how it
ends. -/
def networkRecvThread : Nat → Reader → List (List Byte) × Option Stopped
  | 0, _ => ([], none)
  | turns + 1, r =>
      match networkRecvPacket r MAX_IP_PAYLOAD_LEN with
      | (rc, packet, r) =>
          if rc ≤ 0 then ([], some (.closed rc))
          else if (MAX_IP_PAYLOAD_LEN : Int) < rc then ([], some .assertion)
          else
            let rest := networkRecvThread turns r
            (packet.take rc.toNat :: rest.1, rest.2)

/-- The calls of `_network_send_packet` for a list of packets. -/
def networkSendPackets (w : Writer) (packets : List (List Byte)) : Writer :=
  packets.foldl (fun w packet => (networkSendPacket w packet).2) w

/-! ### What the loops move -/

theorem allowance_cases (schedule : Schedule) {count : Nat} (positive : 0 < count) :
    allowance schedule count = none ∧ none ∈ schedule ∨
      ∃ n, allowance schedule count = some n ∧ 0 < n ∧ n ≤ count := by
  unfold allowance
  split
  · exact .inr ⟨count, rfl, positive, Nat.le_refl _⟩
  · exact .inl ⟨rfl, List.mem_cons_self⟩
  · rename_i n rest
    exact .inr ⟨_, rfl, by omega, Nat.min_le_left _ _⟩

theorem noError_tail {schedule : Schedule} (noError : none ∉ schedule) : none ∉ schedule.tail :=
  fun member => noError (List.mem_of_mem_tail member)

/-- The bytes asked for were there: they are stored in order. -/
structure ReadAll (r : Reader) (count : Nat) (r' : Reader) : Prop where
  enough : count ≤ r.pending.length
  stored : r'.dst = r.dst ++ r.pending.take count
  left : r'.pending = r.pending.drop count
  schedule : none ∉ r.schedule → none ∉ r'.schedule

/-- The loop stores all the bytes asked for, or ends on an error or at the end of the stream. -/
theorem tcpLoop_read (count : Nat) {turns : Nat} (remaining : Nat) (r : Reader)
    (bounded : remaining ≤ turns) :
    ((tcpLoop Reader.read count turns r remaining).1 = count ∧
        ReadAll r remaining (tcpLoop Reader.read count turns r remaining).2) ∨
      (tcpLoop Reader.read count turns r remaining).1 = -1 ∧ none ∈ r.schedule ∨
      (tcpLoop Reader.read count turns r remaining).1 = 0 ∧ r.pending.length < remaining := by
  induction turns generalizing r remaining with
  | zero =>
      obtain rfl : remaining = 0 := by omega
      exact .inl ⟨rfl, ⟨Nat.zero_le _, by simp [tcpLoop], by simp [tcpLoop], id⟩⟩
  | succ turns inductionHypothesis =>
      rw [tcpLoop]
      by_cases done : remaining = 0
      · rw [if_pos done, done]
        exact .inl ⟨rfl, ⟨Nat.zero_le _, by simp, by simp, id⟩⟩
      · rw [if_neg done]
        rcases allowance_cases r.schedule (Nat.pos_of_ne_zero done) with
          ⟨fails, isError⟩ | ⟨n, moves, positive, atMost⟩
        · refine .inr (.inl ?_)
          simp only [Reader.read, fails]
          exact ⟨rfl, isError⟩
        · simp only [Reader.read, moves]
          by_cases ended : r.pending.length = 0
          · refine .inr (.inr ?_)
            rw [if_pos (by rw [List.length_take, ended]; simp)]
            exact ⟨by rw [List.length_take, ended]; simp, by omega⟩
          · have moved : (r.pending.take n).length = min n r.pending.length := List.length_take
            rw [if_neg (by omega)]
            have later := inductionHypothesis (remaining - (r.pending.take n).length)
              ⟨r.pending.drop n, r.schedule.tail, r.dst ++ r.pending.take n⟩ (by omega)
            rw [Int.toNat_natCast]
            rcases later with
              ⟨isCount, enough, stored, left, schedule⟩ | ⟨failed, isError⟩ | ⟨eof, short⟩
            · simp only [List.length_drop] at enough
              have whole : (r.pending.take n).length = n := by omega
              rw [whole] at stored left isCount schedule ⊢
              refine .inl ⟨isCount,
                ⟨by omega, ?_, ?_, fun noError => schedule (noError_tail noError)⟩⟩
              · rw [stored, List.append_assoc, ← List.take_add]
                congr 2
                omega
              · rw [left, List.drop_drop]
                congr 1
                omega
            · exact .inr (.inl ⟨failed, List.mem_of_mem_tail isError⟩)
            · simp only [List.length_drop] at short
              exact .inr (.inr ⟨eof, by omega⟩)

/-- `_tcp_io` with `read`. -/
theorem tcpRead_cases (r : Reader) (count : Nat) :
    ((tcpRead r count).1 = count ∧ count ≤ r.pending.length ∧
        (tcpRead r count).2.dst = r.pending.take count ∧
        (tcpRead r count).2.pending = r.pending.drop count ∧
        (none ∉ r.schedule → none ∉ (tcpRead r count).2.schedule)) ∨
      (tcpRead r count).1 = -1 ∧ none ∈ r.schedule ∨
      (tcpRead r count).1 = 0 ∧ r.pending.length < count := by
  rcases tcpLoop_read count count { r with dst := [] } (Nat.le_refl count) with
    ⟨isCount, all⟩ | others
  · exact .inl ⟨isCount, all.enough, all.stored.trans (List.nil_append _), all.left, all.schedule⟩
  · exact .inr others

/-- The loop writes all the bytes, or ends on an error. -/
theorem tcpLoop_write (count : Nat) {turns : Nat} (w : Writer) (bounded : w.src.length ≤ turns) :
    ((tcpLoop Writer.write count turns w w.src.length).1 = count ∧
        (tcpLoop Writer.write count turns w w.src.length).2.sent = w.sent ++ w.src ∧
        (none ∉ w.schedule → none ∉ (tcpLoop Writer.write count turns w w.src.length).2.schedule)) ∨
      (tcpLoop Writer.write count turns w w.src.length).1 = -1 ∧ none ∈ w.schedule := by
  induction turns generalizing w with
  | zero =>
      have none : w.src = [] := List.eq_nil_of_length_eq_zero (by omega)
      exact .inl ⟨rfl, by simp [tcpLoop, none], id⟩
  | succ turns inductionHypothesis =>
      rw [tcpLoop]
      by_cases done : w.src.length = 0
      · rw [if_pos done]
        exact .inl ⟨rfl, by simp [List.eq_nil_of_length_eq_zero done], id⟩
      · rw [if_neg done]
        rcases allowance_cases w.schedule (Nat.pos_of_ne_zero done) with
          ⟨fails, isError⟩ | ⟨n, moves, positive, atMost⟩
        · refine .inr ?_
          simp only [Writer.write, fails]
          exact ⟨rfl, isError⟩
        · simp only [Writer.write, moves]
          have moved : (w.src.take n).length = n := by rw [List.length_take]; omega
          rw [if_neg (by omega), Int.toNat_natCast, moved, ← List.length_drop]
          have later := inductionHypothesis ⟨w.src.drop n, w.schedule.tail, w.sent ++ w.src.take n⟩
            (by simp only [List.length_drop]; omega)
          rcases later with ⟨isCount, sent, schedule⟩ | ⟨failed, isError⟩
          · refine .inl ⟨isCount, ?_, fun noError => schedule (noError_tail noError)⟩
            rw [sent, List.append_assoc, List.take_append_drop]
          · exact .inr ⟨failed, List.mem_of_mem_tail isError⟩

/-- `_tcp_io` with `write`. -/
theorem tcpWrite_sends {w : Writer} (noError : none ∉ w.schedule) (bytes : List Byte) :
    (tcpWrite w bytes).1 = bytes.length ∧ (tcpWrite w bytes).2.sent = w.sent ++ bytes ∧
      none ∉ (tcpWrite w bytes).2.schedule := by
  rcases tcpLoop_write bytes.length { w with src := bytes } (Nat.le_refl _) with
    ⟨isCount, sent, schedule⟩ | ⟨_, isError⟩
  · exact ⟨isCount, sent, schedule noError⟩
  · exact absurd isError noError

/-! ### The format -/

/-- A packet on the wire. -/
def frame (packet : List Byte) : List Byte := htons packet.length ++ packet

theorem ntohs_htons (value : Nat) (rest : List Byte) :
    ntohs ((htons value ++ rest).take 2) = value % 0x10000 := by
  have high : (UInt8.ofNat (value % 65536 / 256)).toNat = value % 65536 / 256 := by
    rw [UInt8.toNat_ofNat']
    omega
  have low : (UInt8.ofNat (value % 65536)).toNat = value % 65536 % 256 := UInt8.toNat_ofNat' ..
  show (UInt8.ofNat (value % 65536 / 256)).toNat * 256 + (UInt8.ofNat (value % 65536)).toNat = _
  rw [high, low]
  omega

/-- A packet is sent as its frame. -/
theorem networkSendPacket_sends {w : Writer} (noError : none ∉ w.schedule) (packet : List Byte) :
    (networkSendPacket w packet).1 = packet.length ∧
      (networkSendPacket w packet).2.sent = w.sent ++ frame packet ∧
      none ∉ (networkSendPacket w packet).2.schedule := by
  obtain ⟨headerCount, headerSent, headerSchedule⟩ := tcpWrite_sends noError (htons packet.length)
  obtain ⟨isCount, sent, schedule⟩ := tcpWrite_sends headerSchedule packet
  have headerOk : ¬(tcpWrite w (htons packet.length)).1 < 0 := by omega
  have packetOk : ¬(tcpWrite (tcpWrite w (htons packet.length)).2 packet).1 < 0 := by omega
  simp only [networkSendPacket, if_neg headerOk, if_neg packetOk]
  exact ⟨trivial, by rw [sent, headerSent, frame, List.append_assoc], schedule⟩

/-- The packets go out as one stream of frames. -/
theorem networkSendPackets_sends {w : Writer} (noError : none ∉ w.schedule)
    (packets : List (List Byte)) :
    (networkSendPackets w packets).sent = w.sent ++ packets.flatMap frame := by
  induction packets generalizing w with
  | nil => simp [networkSendPackets]
  | cons packet rest inductionHypothesis =>
      obtain ⟨_, sent, schedule⟩ := networkSendPacket_sends noError packet
      have later := inductionHypothesis schedule
      rw [networkSendPackets] at later
      rw [networkSendPackets, List.foldl_cons, later, sent, List.flatMap_cons, List.append_assoc]

/-! ### Receiving -/

/-- What the length of a packet counts as on the wire. -/
def wireLength (packet : List Byte) : Nat := packet.length % 0x10000

/-- A read from a stream that goes on with the frame of a packet, and may break off or fail: nothing
is delivered, or the bytes of the packet that its length on the wire and the buffer allow. -/
theorem networkRecvPacket_frame {r : Reader} {packet rest missing : List Byte}
    (stream : r.pending ++ missing = frame packet ++ rest) (maxLen : Nat) :
    ((networkRecvPacket r maxLen).1 = -1 ∧ none ∈ r.schedule ∨
      (networkRecvPacket r maxLen).1 = 0 ∧
        (min (wireLength packet) maxLen = 0 ∨ missing ≠ [])) ∨
      0 < wireLength packet ∧ (networkRecvPacket r maxLen).1 = wireLength packet ∧
        (networkRecvPacket r maxLen).2.1 = packet.take (min (wireLength packet) maxLen) ∧
        (wireLength packet ≤ maxLen →
          (networkRecvPacket r maxLen).2.2.pending ++ missing =
            packet.drop (wireLength packet) ++ rest ∧
          (none ∉ r.schedule → none ∉ (networkRecvPacket r maxLen).2.2.schedule)) := by
  have frameLength : (frame packet ++ rest).length = 2 + packet.length + rest.length := by
    simp only [frame, htons, List.length_append, length_be16]
  have total := congrArg List.length stream
  rw [frameLength, List.length_append] at total
  have isShort : wireLength packet ≤ packet.length := Nat.mod_le ..
  have complete : r.pending.length < 2 + min (wireLength packet) maxLen → missing ≠ [] := by
    rintro short rfl
    simp only [List.length_nil] at total
    omega
  rcases tcpRead_cases r 2 with
    ⟨isTwo, enough, header, left, schedule⟩ | ⟨failed, isError⟩ | ⟨eof, short⟩
  · have isLength : ntohs (tcpRead r 2).2.dst = wireLength packet := by
      have sameHeader : r.pending.take 2 = (frame packet ++ rest).take 2 := by
        rw [← stream, List.take_append_of_le_length enough]
      rw [header, sameHeader, frame, List.append_assoc, ntohs_htons]
      rfl
    have body : r.pending.drop 2 ++ missing = packet ++ rest := by
      have dropped := congrArg (List.drop 2) stream
      rw [List.drop_append_of_le_length enough, frame, List.append_assoc] at dropped
      exact dropped
    have twoPositive : ¬(tcpRead r 2).1 ≤ 0 := by
      rw [isTwo]
      decide
    have dispatch : networkRecvPacket r maxLen =
        match tcpRead (tcpRead r 2).2 (min (wireLength packet) maxLen) with
        | (rc, r') =>
            if rc ≤ 0 then (rc, r'.dst, r')
            else discardRest r' r'.dst (wireLength packet) maxLen := by
      simp only [networkRecvPacket, if_neg twoPositive, isLength]
    rw [dispatch]
    rcases tcpRead_cases (tcpRead r 2).2 (min (wireLength packet) maxLen) with
      ⟨isCount, enough', stored, left', schedule'⟩ | ⟨failed, isError⟩ | ⟨eof, short⟩
    · rw [left, List.length_drop] at enough'
      by_cases nothing : min (wireLength packet) maxLen = 0
      · refine .inl (.inr ?_)
        have isZero : (tcpRead (tcpRead r 2).2 (min (wireLength packet) maxLen)).1 ≤ 0 := by
          rw [isCount, nothing]
          decide
        simp only [if_pos isZero]
        exact ⟨by rw [isCount, nothing]; rfl, .inl nothing⟩
      · have positive : ¬(tcpRead (tcpRead r 2).2 (min (wireLength packet) maxLen)).1 ≤ 0 := by
          omega
        have isPacket : (tcpRead (tcpRead r 2).2 (min (wireLength packet) maxLen)).2.dst =
            packet.take (min (wireLength packet) maxLen) := by
          have sameBody := congrArg (List.take (min (wireLength packet) maxLen)) body
          rw [List.take_append_of_le_length (by rw [List.length_drop]; omega),
            List.take_append_of_le_length (by omega)] at sameBody
          rw [stored, left, sameBody]
        simp only [if_neg positive, discardRest]
        by_cases tooLong : maxLen < wireLength packet
        · simp only [if_pos tooLong]
          exact .inr ⟨by omega, trivial, isPacket, fun fits => absurd fits (by omega)⟩
        · simp only [if_neg tooLong]
          refine .inr ⟨by omega, trivial, isPacket, fun fits =>
            ⟨?_, fun noError => schedule' (schedule noError)⟩⟩
          have isMin : min (wireLength packet) maxLen = wireLength packet := by omega
          have sameRest := congrArg (List.drop (wireLength packet)) body
          rw [List.drop_append_of_le_length (by rw [List.length_drop]; omega),
            List.drop_append_of_le_length (by omega)] at sameRest
          rw [left', left, isMin, sameRest]
    · refine .inl (.inl ?_)
      have negative : (tcpRead (tcpRead r 2).2 (min (wireLength packet) maxLen)).1 ≤ 0 := by omega
      simp only [if_pos negative]
      refine ⟨failed, ?_⟩
      by_contra noError
      exact schedule noError isError
    · refine .inl (.inr ?_)
      have isZero : (tcpRead (tcpRead r 2).2 (min (wireLength packet) maxLen)).1 ≤ 0 := by omega
      rw [left, List.length_drop] at short
      simp only [if_pos isZero]
      exact ⟨eof, .inr (complete (by omega))⟩
  · refine .inl (.inl ?_)
    have negative : (tcpRead r 2).1 ≤ 0 := by omega
    simp only [networkRecvPacket, if_pos negative]
    exact ⟨failed, isError⟩
  · refine .inl (.inr ?_)
    have isZero : (tcpRead r 2).1 ≤ 0 := by omega
    simp only [networkRecvPacket, if_pos isZero]
    exact ⟨eof, .inr (complete (by omega))⟩

/-- At the end of the stream nothing is received. -/
theorem networkRecvPacket_end {r : Reader} (ended : r.pending = []) (maxLen : Nat) :
    (networkRecvPacket r maxLen).1 = -1 ∧ none ∈ r.schedule ∨
      (networkRecvPacket r maxLen).1 = 0 := by
  rcases tcpRead_cases r 2 with ⟨_, enough, _⟩ | ⟨failed, isError⟩ | ⟨eof, _⟩
  · rw [ended] at enough
    exact absurd enough (by decide)
  · have negative : (tcpRead r 2).1 ≤ 0 := by omega
    simp only [networkRecvPacket, if_pos negative]
    exact .inl ⟨failed, isError⟩
  · have isZero : (tcpRead r 2).1 ≤ 0 := by omega
    simp only [networkRecvPacket, if_pos isZero]
    exact .inr eof

/-- A length the receive thread can take in. -/
def Deliverable (packet : List Byte) : Prop :=
  0 < packet.length ∧ packet.length ≤ MAX_IP_PAYLOAD_LEN

instance (packet : List Byte) : Decidable (Deliverable packet) :=
  inferInstanceAs (Decidable (_ ∧ _))

theorem Deliverable.wireLength_eq {packet : List Byte} (deliverable : Deliverable packet) :
    wireLength packet = packet.length ∧ packet.length ≤ MAX_IP_PAYLOAD_LEN := by
  refine ⟨Nat.mod_eq_of_lt ?_, deliverable.2⟩
  have atMost : packet.length ≤ 1500 := deliverable.2
  omega

/-- However the stream breaks off or the reads fail, what the receive thread queues is where the
packets start. -/
theorem recv_prefix {packets : List (List Byte)}
    (deliverable : ∀ packet ∈ packets, Deliverable packet)
    {r : Reader} {missing : List Byte} (stream : r.pending ++ missing = packets.flatMap frame)
    (turns : Nat) : (networkRecvThread turns r).1 <+: packets := by
  induction turns generalizing packets r with
  | zero => exact List.nil_prefix
  | succ turns inductionHypothesis =>
      rw [networkRecvThread]
      cases packets with
      | nil =>
          have ended : r.pending = [] := (List.append_eq_nil_iff.mp stream).1
          have stops : (networkRecvPacket r MAX_IP_PAYLOAD_LEN).1 ≤ 0 := by
            rcases networkRecvPacket_end ended MAX_IP_PAYLOAD_LEN with ⟨failed, _⟩ | eof <;> omega
          simp only [if_pos stops]
          exact List.nil_prefix
      | cons packet rest =>
          obtain ⟨isLength, fits⟩ := (deliverable packet List.mem_cons_self).wireLength_eq
          rw [List.flatMap_cons] at stream
          rcases networkRecvPacket_frame stream MAX_IP_PAYLOAD_LEN with
            stops | ⟨positive, isCount, isPacket, later⟩
          · have atMost : (networkRecvPacket r MAX_IP_PAYLOAD_LEN).1 ≤ 0 := by
              rcases stops with ⟨failed, _⟩ | ⟨eof, _⟩ <;> omega
            simp only [if_pos atMost]
            exact List.nil_prefix
          · obtain ⟨follows, _⟩ := later (isLength ▸ fits)
            rw [isLength, List.drop_length, List.nil_append] at follows
            have isMore : ¬(networkRecvPacket r MAX_IP_PAYLOAD_LEN).1 ≤ 0 := by omega
            have isAllowed : ¬(MAX_IP_PAYLOAD_LEN : Int) <
                (networkRecvPacket r MAX_IP_PAYLOAD_LEN).1 := by
              omega
            simp only [if_neg isMore, if_neg isAllowed]
            have whole : (networkRecvPacket r MAX_IP_PAYLOAD_LEN).2.1.take
                (networkRecvPacket r MAX_IP_PAYLOAD_LEN).1.toNat = packet := by
              rw [isPacket, isCount, isLength, Nat.min_eq_left fits, List.take_length,
                Int.toNat_natCast, List.take_length]
            rw [whole]
            exact List.prefix_cons_inj packet |>.mpr (inductionHypothesis
              (fun other member => deliverable other (List.mem_cons_of_mem _ member)) follows)

/-- A thread that reads all frames to the end queues exactly the packets, and ends at the end of the
stream, when each of them has a length it can take in. -/
theorem recvThread_all_iff {packets : List (List Byte)} {r : Reader} (noError : none ∉ r.schedule)
    (stream : r.pending = packets.flatMap frame) {turns : Nat} (enough : packets.length < turns) :
    networkRecvThread turns r = (packets, some (.closed 0)) ↔
      ∀ packet ∈ packets, Deliverable packet := by
  obtain ⟨turns, rfl⟩ : ∃ more, turns = more + 1 := ⟨turns - 1, by omega⟩
  induction packets generalizing turns r with
  | nil =>
      have isZero : (networkRecvPacket r MAX_IP_PAYLOAD_LEN).1 = 0 := by
        rcases networkRecvPacket_end stream MAX_IP_PAYLOAD_LEN with ⟨_, isError⟩ | eof
        · exact absurd isError noError
        · exact eof
      simp [networkRecvThread, isZero]
  | cons packet rest inductionHypothesis =>
      simp only [List.length_cons] at enough
      obtain ⟨more, rfl⟩ : ∃ more, turns = more + 1 := ⟨turns - 1, by omega⟩
      have whole : r.pending ++ [] = frame packet ++ rest.flatMap frame := by
        rw [List.append_nil, stream, List.flatMap_cons]
      rw [networkRecvThread]
      rcases networkRecvPacket_frame whole MAX_IP_PAYLOAD_LEN with
        (⟨_, isError⟩ | ⟨eof, cause⟩) | ⟨positive, isCount, isPacket, later⟩
      · exact absurd isError noError
      · -- a length on the wire of zero looks like the end of the stream
        have noLength : wireLength packet = 0 := by
          rcases cause with isMin | missing
          · exact (Nat.min_eq_zero_iff.mp isMin).resolve_right (by decide)
          · exact absurd rfl missing
        simp only [eof]
        refine iff_of_false (by simp) fun all => ?_
        have deliverable := all packet List.mem_cons_self
        rw [deliverable.wireLength_eq.1] at noLength
        exact absurd deliverable.1 (by omega)
      · have isMore : ¬(networkRecvPacket r MAX_IP_PAYLOAD_LEN).1 ≤ 0 := by omega
        simp only [if_neg isMore]
        by_cases fits : wireLength packet ≤ MAX_IP_PAYLOAD_LEN
        · have isAllowed : ¬(MAX_IP_PAYLOAD_LEN : Int) <
              (networkRecvPacket r MAX_IP_PAYLOAD_LEN).1 := by
            omega
          have taken : (networkRecvPacket r MAX_IP_PAYLOAD_LEN).2.1.take
              (networkRecvPacket r MAX_IP_PAYLOAD_LEN).1.toNat =
                packet.take (wireLength packet) := by
            rw [isPacket, isCount, Nat.min_eq_left fits, Int.toNat_natCast, List.take_take,
              Nat.min_self]
          simp only [if_neg isAllowed, taken]
          obtain ⟨follows, schedule⟩ := later fits
          rw [List.append_nil] at follows
          by_cases isLength : wireLength packet = packet.length
          · rw [isLength, List.drop_length, List.nil_append] at follows
            have tail := inductionHypothesis (schedule noError) follows more (by omega)
            rw [isLength, List.take_length, List.forall_mem_cons]
            have deliverable : Deliverable packet := ⟨isLength ▸ positive, isLength ▸ fits⟩
            constructor
            · intro same
              rw [Prod.mk.injEq, List.cons.injEq] at same
              exact ⟨deliverable, tail.mp (Prod.ext same.1.2 same.2)⟩
            · rintro ⟨_, others⟩
              rw [tail.mpr others]
          · -- a length above 65535 loses its high part, and the packet its end
            refine iff_of_false ?_ fun all =>
              isLength (all packet List.mem_cons_self).wireLength_eq.1
            intro same
            rw [Prod.mk.injEq, List.cons.injEq] at same
            have lengths := congrArg List.length same.1.1
            rw [List.length_take] at lengths
            have isShort : wireLength packet ≤ packet.length := Nat.mod_le ..
            omega
        · -- the assertion on the length
          have isTooLong : (MAX_IP_PAYLOAD_LEN : Int) <
              (networkRecvPacket r MAX_IP_PAYLOAD_LEN).1 := by
            omega
          simp only [if_pos isTooLong]
          refine iff_of_false (by simp) fun all => fits ?_
          obtain ⟨isLength, atMost⟩ := (all packet List.mem_cons_self).wireLength_eq
          exact isLength ▸ atMost

/-- However the kernel splits the writes and the reads, the receive thread queues exactly the
packets sent, in order, and ends at the end of the stream, if and only if each has between 1 and
1500 bytes. -/
theorem recv_sent_iff {packets : List (List Byte)} {writes reads : Schedule}
    (written : none ∉ writes)
    (read : none ∉ reads) {turns : Nat} (enough : packets.length < turns) :
    networkRecvThread turns ⟨(networkSendPackets ⟨[], writes, []⟩ packets).sent, reads, []⟩ =
        (packets, some (.closed 0)) ↔
      ∀ packet ∈ packets, Deliverable packet :=
  recvThread_all_iff read (networkSendPackets_sends written packets) enough

/-- Two packets over writes and reads of a few bytes each. -/
theorem recv_sent_iff_split :
    networkRecvThread 3
        ⟨(networkSendPackets ⟨[], [some 1, some 7], []⟩ [[1, 2, 3], [4, 5]]).sent,
          [some 1, some 1, some 2], []⟩ =
      ([[1, 2, 3], [4, 5]], some (.closed 0)) :=
  (recv_sent_iff (by decide) (by decide) (by decide)).mpr (by decide)

/-- A stream that breaks off in the second packet. -/
theorem recv_prefix_broken :
    (networkRecvThread 9 ⟨[0, 3, 1, 2, 3, 0], [some 4], []⟩).1 <+: [[1, 2, 3], [4, 5]] := by
  have stream : [0, 3, 1, 2, 3, 0] ++ [2, 4, 5] = [[1, 2, 3], [4, 5]].flatMap frame := by decide
  exact recv_prefix (by decide) stream 9

end EE323.Stcp.Framing

/-
Module: EE323.Stcp.Sender
Purpose: The sending half of one endpoint in `ESTABLISHED`.  The application supplies chunks of any
  size and the network acknowledgements between `SendBase` and `next_seqnum`, in any order; the
  window, the buffer and the segments sent agree with the stream of the application.
Main exports: Sender, AcksInside, WindowCoherent, window_coherent
-/
import EE323.Stcp.Numbers

namespace EE323.Stcp

open EE323.Lib

/-- One endpoint and the segments it has sent. -/
structure Sender where
  endpoint : Endpoint
  sent : List Segment

/-- What the environment of the endpoint can do, and the move of its transport thread. -/
inductive SenderAction where
  | write (data : List Byte)
  | receive (packet : Segment)
  | move (overread : Bool)
deriving DecidableEq, Repr

namespace Sender

/-- The endpoint on entry to `control_loop`. -/
def established (isActive : Bool) : Sender :=
  { endpoint :=
      { Endpoint.init isActive with
        pc := .waiting
        ctx := (Endpoint.init isActive).ctx.establish isActive }
    sent := [] }

def step (s : Sender) : SenderAction → Option Sender
  | .write data => some { s with endpoint := s.endpoint.appWrite data }
  | .receive packet => some { s with endpoint := s.endpoint.receive packet }
  | .move overread =>
      (s.endpoint.threadStep overread).map fun (endpoint, sent) =>
        { endpoint := endpoint, sent := s.sent ++ sent.toList }

end Sender

/-- Only acknowledgements arrive, the one processed next lies between `SendBase` and `next_seqnum`,
and the sequence numbers stay below 2^32. -/
def AcksInside (s : Sender) : SenderAction → Prop
  | .write _ => True
  | .receive packet => packet.IsAck ∧ packet.data.length ≤ MSS
  | .move _ =>
      s.endpoint.ctx.nextSeqnum < 2 ^ 32 ∧
        ∀ packet ∈ s.endpoint.nextAck,
          s.endpoint.ctx.sendBase ≤ packet.thAck ∧ packet.thAck ≤ s.endpoint.ctx.nextSeqnum

instance (s : Sender) (action : SenderAction) : Decidable (AcksInside s action) :=
  match action with
  | .write _ => .isTrue trivial
  | .receive _ | .move _ => inferInstanceAs (Decidable (_ ∧ _))

/-- A data segment of at most `MSS` bytes that carries the part of a stream its sequence number
names; the first byte of the stream has the number 1. -/
structure Segment.Carries (segment : Segment) (stream : List Byte) : Prop where
  isData : segment.IsData
  short : segment.data.length ≤ MSS
  numbered : 1 ≤ segment.thSeq
  payload : load stream (segment.thSeq - 1) segment.data.length = some segment.data

theorem Segment.Carries.append {segment : Segment} {stream : List Byte}
    (carries : segment.Carries stream) (more : List Byte) : segment.Carries (stream ++ more) :=
  ⟨carries.isData, carries.short, carries.numbered, load_append more carries.payload⟩

/-- The first `next_seqnum - SendBase` bytes of the buffer are the bytes of the stream that have
been sent and not acknowledged. -/
structure Unacknowledged (ctx : Context) (stream : List Byte) : Prop where
  start : 1 ≤ ctx.sendBase
  bytes : ∃ unacked, load ctx.buffer 0 (ctx.nextSeqnum - ctx.sendBase) = some unacked ∧
    load stream (ctx.sendBase - 1) (ctx.nextSeqnum - ctx.sendBase) = some unacked

namespace Unacknowledged

variable {ctx : Context} {stream : List Byte}

theorem append (unacknowledged : Unacknowledged ctx stream) (more : List Byte) :
    Unacknowledged ctx (stream ++ more) := by
  obtain ⟨start, unacked, inBuffer, inStream⟩ := unacknowledged
  exact ⟨start, unacked, inBuffer, load_append more inStream⟩

/-- The data sent stands behind what is unacknowledged, in the buffer and in the stream. -/
theorem sent (unacknowledged : Unacknowledged ctx stream) (window : InWindow ctx)
    (small : ctx.nextSeqnum < 2 ^ 32) (counted : ctx.nextSeqnum = 1 + stream.length)
    {data buffer : List Byte}
    (stored : store ctx.buffer (sizeSub ctx.nextSeqnum ctx.sendBase) data = some buffer)
    (next : (ctx.sent buffer data.length).nextSeqnum = ctx.nextSeqnum + data.length) :
    Unacknowledged (ctx.sent buffer data.length) (stream ++ data) := by
  obtain ⟨start, unacked, inBuffer, inStream⟩ := unacknowledged
  have ordered := window.ordered
  rw [sizeSub_eq ordered (by omega)] at stored
  have sendBase : (ctx.sent buffer data.length).sendBase = ctx.sendBase := rfl
  have size : ctx.nextSeqnum + data.length - ctx.sendBase =
      ctx.nextSeqnum - ctx.sendBase + data.length := by omega
  refine ⟨start, unacked ++ data, ?_, ?_⟩
  · rw [next, sendBase, size]
    exact load_store_append stored inBuffer
  · rw [next, sendBase, size]
    exact load_append_end data inStream (by omega)

/-- Shifting the buffer drops what is acknowledged. -/
theorem acked (unacknowledged : Unacknowledged ctx stream) (window : InWindow ctx)
    (sized : Sized ctx) (small : ctx.nextSeqnum < 2 ^ 33) {thAck : Nat} {buffer : List Byte}
    (above : ctx.sendBase ≤ thAck) (below : thAck ≤ ctx.nextSeqnum)
    (shifted : (ctx.acked thAck).shiftBuffer = some buffer) :
    Unacknowledged { ctx.acked thAck with buffer := buffer } stream := by
  obtain ⟨start, unacked, inBuffer, inStream⟩ := unacknowledged
  have fits := window.fits
  have most := sized.swnd_le
  have ackSize : (ctx.acked thAck).ackSize = thAck - ctx.sendBase := sizeSub_eq above (by omega)
  have rest : ctx.nextSeqnum - ctx.sendBase - (thAck - ctx.sendBase) = ctx.nextSeqnum - thAck := by
    omega
  obtain ⟨copied, loaded, stored⟩ := Option.bind_eq_some_iff.mp shifted
  have buffered : (ctx.acked thAck).buffer = ctx.buffer := rfl
  have swndPrev : (ctx.acked thAck).swndPrev = ctx.swnd := rfl
  rw [buffered, swndPrev, ackSize, sizeSub_eq (by omega) (by omega)] at loaded
  refine ⟨Nat.le_trans start above, unacked.drop (thAck - ctx.sendBase), ?_, ?_⟩
  · show load buffer 0 (ctx.nextSeqnum - thAck) = _
    have kept : load buffer 0 copied.length = some copied := load_store stored
    rw [load_length loaded] at kept
    rw [load_take kept (by omega)]
    -- what has been copied starts with what is left
    have inOld := load_drop inBuffer (thAck - ctx.sendBase) (by omega)
    rw [Nat.zero_add, rest, load_take loaded (by omega)] at inOld
    exact inOld
  · show load stream (thAck - 1) (ctx.nextSeqnum - thAck) = _
    have inRest := load_drop inStream (thAck - ctx.sendBase) (by omega)
    rw [rest, show ctx.sendBase - 1 + (thAck - ctx.sendBase) = thAck - 1 by omega] at inRest
    exact inRest

end Unacknowledged

/-- The window, the buffer and the segments of an endpoint, measured against the bytes its
application has written. -/
structure WindowCoherent (s : Sender) : Prop where
  established : s.endpoint.ctx.connectionState = .established
  alive : s.endpoint.pc ≠ .crashed
  swnd : s.endpoint.ctx.swnd ≤ 3072
  sized : Sized s.endpoint.ctx
  window : InWindow s.endpoint.ctx
  unacknowledged : Unacknowledged s.endpoint.ctx s.endpoint.history.wrote
  segments : ∀ segment ∈ s.sent, segment.Carries s.endpoint.history.wrote

/-- The invariant, measured against the bytes taken from the application. -/
private structure Sending (s : Sender) : Prop where
  established : s.endpoint.ctx.connectionState = .established ∧ s.endpoint.ctx.done = false
  place : s.endpoint.pc ≠ .start ∧ s.endpoint.pc ≠ .handshake ∧ s.endpoint.pc ≠ .crashed
  noClose : s.endpoint.sock.closeRequested = false ∧ s.endpoint.pc.closing = false
  acks : ∀ packet ∈ s.endpoint.sock.networkRecvQueue, packet.IsAck ∧ packet.data.length ≤ MSS
  accounted : s.endpoint.history.taken ++ s.endpoint.sock.appRecvQueue.flatten =
    s.endpoint.history.wrote
  counted : s.endpoint.ctx.nextSeqnum = 1 + s.endpoint.history.taken.length
  sized : Sized s.endpoint.ctx
  window : InWindow s.endpoint.ctx
  unacknowledged : Unacknowledged s.endpoint.ctx s.endpoint.history.taken
  segments : ∀ segment ∈ s.sent, segment.Carries s.endpoint.history.taken

namespace Sending

private theorem coherent {s : Sender} (sending : Sending s) : WindowCoherent s where
  established := sending.established.1
  alive := sending.place.2.2
  swnd := sending.sized.swnd_le
  sized := sending.sized
  window := sending.window
  unacknowledged := by
    rw [← sending.accounted]
    exact sending.unacknowledged.append _
  segments := by
    rw [← sending.accounted]
    exact fun segment member => (sending.segments segment member).append _

private theorem init (isActive : Bool) : Sending (Sender.established isActive) where
  established := ⟨rfl, rfl⟩
  place := ⟨Pc.noConfusion, Pc.noConfusion, Pc.noConfusion⟩
  noClose := ⟨rfl, rfl⟩
  acks := by simp [Sender.established, Endpoint.init, MysockContext.init]
  accounted := rfl
  counted := rfl
  sized := Sized.establish _ _
  window := InWindow.establish _ _
  unacknowledged := ⟨Nat.le_refl 1, [], rfl, rfl⟩
  segments := by simp [Sender.established]

/-- The thread moves on in its loop and touches nothing. -/
private theorem resume {s : Sender} {pc : Pc} (sending : Sending s)
    (place : pc ≠ .start ∧ pc ≠ .handshake ∧ pc ≠ .crashed) (notClosing : pc.closing = false) :
    Sending { endpoint := { s.endpoint with pc := pc }, sent := s.sent ++ [] } where
  established := sending.established
  place := place
  noClose := ⟨sending.noClose.1, notClosing⟩
  acks := sending.acks
  accounted := sending.accounted
  counted := sending.counted
  sized := sending.sized
  window := sending.window
  unacknowledged := sending.unacknowledged
  segments := by simpa using sending.segments

private theorem move {s : Sender} {e' : Endpoint} {taken sent : Option Segment}
    (sending : Sending s) (small : s.endpoint.ctx.nextSeqnum < 2 ^ 32)
    (inside : ∀ packet ∈ s.endpoint.nextAck,
      s.endpoint.ctx.sendBase ≤ packet.thAck ∧ packet.thAck ≤ s.endpoint.ctx.nextSeqnum)
    (moved : ThreadStep s.endpoint taken sent e') :
    Sending { endpoint := e', sent := s.sent ++ sent.toList } := by
  have ⟨⟨state, notDone⟩, ⟨notStart, notHandshake, alive⟩, ⟨notAsked, notClosing⟩, acks,
    accounted, counted, sized, window, unacknowledged, segments⟩ := sending
  have headAck : ∀ {packet rest}, s.endpoint.sock.networkRecvQueue = packet :: rest →
      packet.IsAck ∧ packet.data.length ≤ MSS := by
    intro packet rest queue
    exact acks packet (by rw [queue]; exact List.mem_cons_self)
  have popped : ∀ packet ∈ s.endpoint.pop.sock.networkRecvQueue,
      packet.IsAck ∧ packet.data.length ≤ MSS :=
    fun packet member => acks packet (List.mem_of_mem_tail member)
  have unsent : ∀ segment ∈ s.sent ++ (none : Option Segment).toList,
      segment.Carries s.endpoint.history.taken := by
    simpa using segments
  cases moved with
  | sendSyn pc => exact absurd pc notStart
  | connect pc => exact absurd pc notHandshake
  | accept pc => exact absurd pc notHandshake
  | accepted pc => exact absurd pc notHandshake
  | stalled pc => exact absurd pc notHandshake
  | overread atHeader =>
      rcases atHeader with pc | ⟨_, other⟩
      · exact absurd pc notHandshake
      · rw [state] at other
        simp at other
  | oversized pc ready queue long =>
      have short := (headAck queue).2
      simp only [Segment.size] at long
      omega
  | dispatch pc woken =>
      obtain ⟨rfl, rfl⟩ := stcpWaitForEvent_cases woken
      exact ⟨⟨state, notDone⟩, ⟨Pc.noConfusion, Pc.noConfusion, Pc.noConfusion⟩,
        ⟨by simp [notAsked], by simp [Pc.closing, notAsked]⟩, acks, accounted, counted, sized,
        window, unacknowledged, unsent⟩
  | appSkip pc =>
      rw [pc] at notClosing
      exact sending.resume ⟨Pc.noConfusion, Pc.noConfusion, Pc.noConfusion⟩ notClosing
  | appSend pc ready room dequeued stored =>
      rename_i event data buffer left
      rw [pc] at notClosing
      have short := mysockDequeueBuffer_length_le dequeued
      obtain ⟨within, next⟩ := window.sent (by omega) sized.swnd_le
        (Nat.le_trans short (Nat.min_le_left _ _)) buffer
      have taken : load (s.endpoint.history.taken ++ data) (s.endpoint.ctx.nextSeqnum - 1)
          data.length = some data := by
        rw [counted]
        refine load_eq_some.mpr ⟨by simp, ?_⟩
        simp
      refine ⟨⟨state, notDone⟩, ⟨Pc.noConfusion, Pc.noConfusion, Pc.noConfusion⟩,
        ⟨notAsked, notClosing⟩, acks, ?_, ?_, sized.sent stored _, within,
        unacknowledged.sent window small counted stored next, ?_⟩
      · rw [← accounted, ← mysockDequeueBuffer_flatten dequeued, List.append_assoc]
      · rw [next, counted, List.length_append, Nat.add_assoc]
      · intro segment member
        rcases List.mem_append.mp member with earlier | now
        · exact (segments segment earlier).append _
        · rw [List.mem_singleton.mp now]
          have thSeq : (s.endpoint.ctx.dataSegment data).thSeq = s.endpoint.ctx.nextSeqnum :=
            trunc32_eq small
          refine ⟨s.endpoint.ctx.dataSegment_isData data,
            Nat.le_trans short (Nat.min_le_right _ _), ?_, ?_⟩
          · omega
          · rw [thSeq]
            exact taken
  | appOverflow pc ready room dequeued outside =>
      have short := mysockDequeueBuffer_length_le dequeued
      obtain ⟨buffer, stored⟩ := window.store_isSome sized (by omega)
        (Nat.le_trans short (Nat.min_le_left _ _))
      rw [outside] at stored
      cases stored
  | networkSkip pc =>
      rw [pc] at notClosing
      exact sending.resume ⟨Pc.noConfusion, Pc.noConfusion, Pc.noConfusion⟩ notClosing
  | ack pc ready reads queue isAck shifted =>
      rw [pc] at notClosing
      obtain ⟨above, below⟩ := inside _ (nextAck_of_ack pc ready reads queue isAck)
      exact ⟨⟨state, notDone⟩, ⟨Pc.noConfusion, Pc.noConfusion, Pc.noConfusion⟩,
        ⟨notAsked, notClosing⟩, popped, accounted, counted, sized.acked shifted,
        window.acked sized (by omega) above below _,
        unacknowledged.acked window sized (by omega) above below shifted, unsent⟩
  | ackOverflow pc ready reads queue isAck outside =>
      obtain ⟨above, below⟩ := inside _ (nextAck_of_ack pc ready reads queue isAck)
      have fits := window.fits
      obtain ⟨buffer, shifted⟩ := sized.shiftBuffer_isSome above (by omega) (by omega)
      rw [outside] at shifted
      cases shifted
  | fin pc ready reads queue isFin => exact absurd isFin (headAck queue).1.not_isFin
  | data pc ready reads queue notAck => exact absurd (headAck queue).1 notAck
  | finAcked enters role =>
      rw [state] at role
      cases client : s.endpoint.ctx.isClient <;> simp [client] at role
  | ignored enters role =>
      rw [state] at role
      cases client : s.endpoint.ctx.isClient <;> simp [client] at role
  | sendFin pc asked =>
      rw [pc] at notClosing
      simp [Pc.closing, asked] at notClosing
  | noClose pc quiet =>
      have again : s.endpoint.loopEnd = { s.endpoint with pc := .waiting } := by
        simp [Endpoint.loopEnd, notDone]
      rw [again]
      exact sending.resume ⟨Pc.noConfusion, Pc.noConfusion, Pc.noConfusion⟩ rfl
  | forget enters role header dispatched =>
      rcases enters with ⟨pc, _⟩ | ⟨pc, asked⟩
      · have other := dispatched pc
        rw [state] at other
        simp at other
      · rw [pc] at notClosing
        simp [Pc.closing, asked] at notClosing

end Sending

/-- Send window and buffer coherence: whatever chunks the application supplies and whatever
acknowledgements between `SendBase` and `next_seqnum` arrive, the window, the buffer and every
segment sent agree with the stream, and no access leaves the buffer. -/
theorem window_coherent {isActive : Bool} {labels : List SenderAction} {s : Sender}
    (run : Run Sender.step AcksInside (Sender.established isActive) labels s) :
    WindowCoherent s := by
  refine (run.invariant (Sending.init isActive) ?_).coherent
  intro s action t sending admitted stepped
  cases action with
  | write data =>
      cases stepped
      refine ⟨sending.established, sending.place, sending.noClose, sending.acks, ?_,
        sending.counted, sending.sized, sending.window, sending.unacknowledged, sending.segments⟩
      simp [Endpoint.appWrite, mywrite, mysockEnqueueBuffer, ← sending.accounted]
  | receive packet =>
      cases stepped
      refine ⟨sending.established, sending.place, sending.noClose, ?_, sending.accounted,
        sending.counted, sending.sized, sending.window, sending.unacknowledged, sending.segments⟩
      intro other member
      rcases List.mem_append.mp member with earlier | now
      · exact sending.acks other earlier
      · rw [List.mem_singleton.mp now]
        exact admitted
  | move overread =>
      simp only [Sender.step, Option.map_eq_some_iff] at stepped
      obtain ⟨⟨e', sent⟩, threadStepped, rfl⟩ := stepped
      obtain ⟨taken, moved⟩ := Endpoint.threadStep_sound threadStepped
      exact sending.move admitted.1 admitted.2 moved

/-- A full window of 536 bytes, of which the peer acknowledges 300: the window grows to 1072 bytes,
and the remaining 236 bytes move to the front of the new buffer. -/
theorem window_coherent_partial_ack : ∃ s : Sender,
    s.endpoint.ctx.sendBase = 301 ∧ s.endpoint.ctx.nextSeqnum = 537 ∧
      s.endpoint.ctx.buffer.length = 1072 ∧ WindowCoherent s := by
  let ack : Segment := ⟨1, 301, 0, TH_ACK, 0, []⟩
  let schedule : List SenderAction := [.write (List.replicate 600 7)] ++
    List.replicate 4 (.move false) ++ [.receive ack] ++ List.replicate 3 (.move false)
  have reached : ∃ s, Run Sender.step AcksInside (Sender.established true) schedule s ∧
      s.endpoint.ctx.sendBase = 301 ∧ s.endpoint.ctx.nextSeqnum = 537 ∧
        s.endpoint.ctx.buffer.length = 1072 :=
    exec_reaches _ (by decide +kernel)
  obtain ⟨s, run, sendBase, next, size⟩ := reached
  exact ⟨s, sendBase, next, size, window_coherent run⟩

end EE323.Stcp

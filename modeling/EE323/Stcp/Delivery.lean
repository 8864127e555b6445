/-
Module: EE323.Stcp.Delivery
Purpose: What is passed up over the network that drops, duplicates and delays segments.  The receiver
  acknowledges and passes up every data segment it takes without looking at its sequence number, so
  the bytes passed up are a prefix of the bytes written as long as data arrives in sequence.
Main exports: Endpoint.nextData, InSequence, Delivering, reliable_delivery, duplicate_delivered_twice
-/
import EE323.Stcp.Sender
import EE323.Stcp.Unreliable

namespace EE323.Stcp

open EE323.Lib

/-- The segment that the next step of the transport thread passes up. -/
def Endpoint.nextData (e : Endpoint) : Option Segment :=
  match e.pc with
  | .networkData event =>
      if event.networkData = true ∧
          ¬(e.ctx.connectionState = .finWait1 ∨ e.ctx.connectionState = .lastAck) then
        e.sock.networkRecvQueue.head?.filter fun packet => ¬packet.IsAck ∧ ¬packet.IsFin
      else none
  | _ => none

/-- A segment with a payload is passed up only when its sequence number is the number of the next
byte, and each application writes fewer than 2^32 - 1 bytes. -/
def InSequence (s : System) : Action → Prop
  | .thread side _ _ =>
      ∀ packet ∈ (s.endpoint side).nextData, packet.data ≠ [] →
        packet.thSeq = 1 + (s.endpoint side).history.delivered.length
  | .write side data => (s.endpoint side).history.wrote.length + data.length < 2 ^ 32 - 1
  | _ => True

instance (s : System) (action : Action) : Decidable (InSequence s action) :=
  match action with
  | .thread side _ _ => inferInstanceAs (Decidable (∀ packet ∈ (s.endpoint side).nextData, _ → _))
  | .write _ _ => inferInstanceAs (Decidable (_ < _))
  | .deliver _ | .read _ _ | .close _ => .isTrue trivial

/-! ### Single endpoints -/

/-- The sequence number counts the bytes taken from the application. -/
structure CountsTaken (e : Endpoint) : Prop where
  opening : e.ctx.Opening → e.history.taken = []
  running : ¬e.ctx.Opening → ¬e.ctx.FinSent → e.ctx.nextSeqnum = 1 + e.history.taken.length

namespace CountsTaken

variable {e e' : Endpoint} {taken sent : Option Segment}

private theorem same (counted : CountsTaken e) (phase : Context.SamePhase e.ctx e'.ctx)
    (next : e'.ctx.nextSeqnum = e.ctx.nextSeqnum)
    (history : e'.history.taken = e.history.taken) : CountsTaken e' where
  opening := by
    rw [phase.opening, history]
    exact counted.opening
  running := by
    rw [phase.opening, phase.finSent, next, history]
    exact counted.running

theorem thread (counted : CountsTaken e) (near : Coherent e) (isn : e.ctx.initialSequenceNum = 1)
    (small : e.history.taken.length + e.sock.appRecvQueue.flatten.length < 2 ^ 32)
    (moved : ThreadStep e taken sent e') : CountsTaken e' := by
  have stays : ¬e.ctx.Opening → ¬e'.ctx.Opening := fun running => near.stays_open running moved
  have sentStays : e.ctx.FinSent → e'.ctx.FinSent := near.finSent_mono moved
  cases moved with
  | sendSyn pc =>
      obtain ⟨closed, notDone⟩ := near.start pc
      have opening : e.ctx.Opening := by simp [Context.Opening, closed, notDone]
      exact ⟨fun _ => counted.opening opening,
        fun running => absurd (Context.opening_of_synSent rfl) running⟩
  | connect pc =>
      refine ⟨fun opening => absurd opening (Context.establish_not_opening _ _), fun _ _ => ?_⟩
      simp [Context.establish, isn, counted.opening (near.handshake pc).1]
  | accept pc =>
      exact ⟨fun _ => counted.opening (near.handshake pc).1,
        fun running => absurd (Context.opening_of_synRcvd rfl) running⟩
  | accepted pc =>
      refine ⟨fun opening => absurd opening (Context.establish_not_opening _ _), fun _ _ => ?_⟩
      simp [Context.establish, isn, counted.opening (near.handshake pc).1]
  | appSend pc ready room dequeued stored =>
      rename_i event data buffer left
      have running : ¬e.ctx.Opening :=
        near.not_opening (by simp [Endpoint.InLoop, pc])
      have notSent := near.not_finSent_of_dequeued dequeued
      have next := counted.running running notSent
      have size : data.length ≤ e.sock.appRecvQueue.flatten.length := by
        rw [← mysockDequeueBuffer_flatten dequeued, List.length_append]
        exact Nat.le_add_right _ _
      refine ⟨fun opening => absurd ((Context.samePhase_sent _ _ _).opening.mp opening) running,
        fun _ _ => ?_⟩
      simp only [Context.sent, List.length_append]
      rw [sizeAdd_eq (by omega)]
      omega
  | ack => exact counted.same (Context.samePhase_acked _ _ _) rfl rfl
  | fin pc =>
      have running : ¬e.ctx.Opening :=
        near.not_opening (by simp [Endpoint.InLoop, pc])
      refine ⟨fun opening => absurd opening (stays running), fun _ notSent => ?_⟩
      rw [← counted.running running fun finSent => notSent (sentStays finSent)]
      simp only [Context.receivedFin]
      split <;> rfl
  | data => exact counted.same (Context.samePhase_recvBase _ _) rfl rfl
  | finAcked enters state =>
      have finSent := (Context.awaitsFinAck_of_header state).finSent
      exact ⟨fun opening => absurd opening (stays finSent.not_opening),
        fun _ notSent => absurd (sentStays finSent) notSent⟩
  | sendFin =>
      refine ⟨fun opening => ?_, fun _ notSent => absurd ?_ notSent⟩
      · rw [Endpoint.loopEnd_ctx] at opening
        cases client : e.ctx.isClient <;> simp [Context.Opening, Context.sentFin, client] at opening
      · rw [Endpoint.loopEnd_ctx]
        cases e.ctx.isClient <;> simp [Context.FinSent, Context.sentFin]
  | ignored => exact counted.same (by simp [Context.samePhase_refl]) (by simp) (by simp)
  | noClose => exact counted.same (by simp [Context.samePhase_refl]) (by simp) (by simp)
  | forget => exact counted.same (by simp [Context.samePhase_refl]) (by simp) (by simp)
  | _ => exact counted.same (Context.samePhase_refl _) rfl rfl

end CountsTaken

/-- What an endpoint passes up is the payload of the segment that the guard of a run speaks
about. -/
theorem ThreadStep.delivered {e e' : Endpoint} {taken sent : Option Segment}
    (moved : ThreadStep e taken sent e') :
    e'.history.delivered = e.history.delivered ∨
      ∃ packet, taken = some packet ∧ packet ∈ e.nextData ∧
        e'.history.delivered = e.history.delivered ++ packet.data.take MSS := by
  cases moved with
  | data pc ready reads queue notAck notFin copied =>
      rename_i event packet rest data
      have notAwaiting := Endpoint.not_awaiting pc ready reads
      refine .inr ⟨packet, rfl, ?_, by rw [copied]⟩
      unfold Endpoint.nextData
      simp [pc, ready, notAwaiting, queue, notAck, notFin]
  | _ => exact .inl (by simp)

/-- A segment sent carries no payload, or the bytes taken from the application now. -/
theorem CountsTaken.carries {e e' : Endpoint} {taken : Option Segment} {segment : Segment}
    (counted : CountsTaken e) (near : Coherent e)
    (small : e.history.taken.length + e.sock.appRecvQueue.flatten.length < 2 ^ 32 - 1)
    (moved : ThreadStep e taken (some segment) e') :
    segment.data = [] ∨ segment.Carries e'.history.taken := by
  cases moved with
  | appSend pc ready room dequeued stored =>
      rename_i event data buffer left
      have running : ¬e.ctx.Opening :=
        near.not_opening (by simp [Endpoint.InLoop, pc])
      have notSent := near.not_finSent_of_dequeued dequeued
      have next := counted.running running notSent
      have thSeq : (e.ctx.dataSegment data).thSeq = e.ctx.nextSeqnum := trunc32_eq (by omega)
      refine .inr ⟨e.ctx.dataSegment_isData data,
        Nat.le_trans (mysockDequeueBuffer_length_le dequeued) (Nat.min_le_right _ _), ?_, ?_⟩
      · omega
      · rw [thSeq, next]
        exact load_eq_some.mpr ⟨by simp, by simp⟩
  | _ => exact .inl rfl

/-- The payload of the segment that carries the next byte continues a prefix of its stream. -/
theorem Segment.Carries.extends {segment : Segment} {stream received : List Byte}
    (carries : segment.Carries stream) (before : received <+: stream)
    (inSequence : segment.thSeq = 1 + received.length) :
    received ++ segment.data.take MSS <+: stream := by
  obtain ⟨_, payload⟩ := load_eq_some.mp carries.payload
  rw [List.take_of_length_le carries.short, payload, inSequence, Nat.add_sub_cancel_left]
  have start : stream.take received.length = received := (List.prefix_iff_eq_take.mp before).symm
  calc received ++ (stream.drop received.length).take segment.data.length
      = stream.take (received.length + segment.data.length) := by rw [List.take_add, start]
    _ <+: stream := List.take_prefix _ _

/-! ### Both ends -/

/-- The segments around that have a payload carry the stream of their sender, and what a receiver
has passed up is the beginning of it. -/
structure Delivering (s : System) : Prop where
  isn : ∀ side, (s.endpoint side).ctx.initialSequenceNum = 1
  bounded : ∀ side, (s.endpoint side).history.wrote.length < 2 ^ 32 - 1
  counted : ∀ side, CountsTaken (s.endpoint side)
  carried : ∀ side, ∀ segment ∈ s.around side,
    segment.data = [] ∨ segment.Carries (s.endpoint side).history.taken
  delivered : ∀ side, (s.endpoint side.peer).history.delivered <+: (s.endpoint side).history.taken

namespace Delivering

theorem init : Delivering System.init where
  isn := fun side => rfl
  bounded := fun side => show 0 < 2 ^ 32 - 1 by decide
  counted := by
    intro side
    refine ⟨fun _ => rfl, fun running => absurd ?_ running⟩
    cases side <;> simp [System.init, Endpoint.init, Context.init, Context.Opening]
  carried := fun side segment member => by cases member
  delivered := fun side => List.prefix_refl _

variable {s t : System} {action : Action} {side : Side} {taken : Option Segment}

private theorem thread (delivering : Delivering s) (sound : Sound s)
    (accounted : ∀ side, (s.endpoint side).Accounted)
    (stepped : System.step false s action = some t)
    (moved : ThreadStep (s.endpoint side) taken (s.sends side action) (t.endpoint side))
    (known : ∀ packet, taken = some packet → packet ∈ s.around side.peer)
    (watches : t.endpoint side.peer = s.endpoint side.peer)
    (silent : s.sends side.peer action = none)
    (inSequence : ∀ packet ∈ (s.endpoint side).nextData, packet.data ≠ [] →
      packet.thSeq = 1 + (s.endpoint side).history.delivered.length) : Delivering t := by
  have small : (s.endpoint side).history.taken.length +
      (s.endpoint side).sock.appRecvQueue.flatten.length < 2 ^ 32 - 1 := by
    rw [← List.length_append, accounted side]
    exact delivering.bounded side
  have near := sound.coherent side
  refine ⟨fun other => ?_, fun other => ?_, fun other => ?_, fun other segment member => ?_,
    fun other => ?_⟩
  · rcases Side.eq_or_eq_peer side other with rfl | rfl
    · exact moved.initialSequenceNum.trans (delivering.isn other)
    · rw [watches]
      exact delivering.isn _
  · rcases Side.eq_or_eq_peer side other with rfl | rfl
    · rw [moved.history_wrote]
      exact delivering.bounded other
    · rw [watches]
      exact delivering.bounded _
  · rcases Side.eq_or_eq_peer side other with rfl | rfl
    · exact (delivering.counted other).thread near (delivering.isn other) (by omega) moved
    · rw [watches]
      exact delivering.counted _
  · rcases Side.eq_or_eq_peer side other with rfl | rfl
    · rcases around_step stepped segment member with earlier | now
      · rw [moved.history_taken]
        exact (delivering.carried other segment earlier).imp_right fun carries => carries.append _
      · rw [now] at moved
        exact (delivering.counted other).carries near small moved
    · rcases around_step stepped segment member with earlier | now
      · rw [watches]
        exact delivering.carried _ segment earlier
      · rw [silent] at now
        cases now
  · rcases Side.eq_or_eq_peer side other with rfl | rfl
    · rw [watches, moved.history_taken]
      exact (delivering.delivered other).trans (List.prefix_append _ _)
    · rw [watches, Side.peer_peer]
      have before := delivering.delivered side.peer
      rw [Side.peer_peer] at before
      rcases moved.delivered with same | ⟨packet, isTaken, next, passed⟩
      · rw [same]
        exact before
      · rw [passed]
        rcases delivering.carried side.peer packet (known packet isTaken) with empty | carries
        · simpa [empty] using before
        · by_cases empty : packet.data = []
          · simpa [empty] using before
          · exact carries.extends before (inSequence packet next empty)

/-- An action that moves no transport thread. -/
private theorem idle (delivering : Delivering s) (stepped : System.step false s action = some t)
    (admitted : InSequence s action)
    (still : ∀ side, s.sends side action = none ∧
      IdleStep side (s.endpoint side) action (t.endpoint side)) : Delivering t := by
  have history : ∀ side, (t.endpoint side).history.taken = (s.endpoint side).history.taken ∧
      (t.endpoint side).history.delivered = (s.endpoint side).history.delivered := by
    intro side
    have moved := (still side).2
    generalize t.endpoint side = after at moved ⊢
    cases moved with
    | same => exact ⟨rfl, rfl⟩
    | receive => exact ⟨rfl, rfl⟩
    | app called => exact called.history
  refine ⟨fun side => ?_, fun side => ?_, fun side => ?_, fun side segment member => ?_,
    fun side => ?_⟩
  · rw [(still side).2.ctx]
    exact delivering.isn side
  · have moved := (still side).2
    generalize t.endpoint side = after at moved ⊢
    cases moved with
    | same => exact delivering.bounded side
    | receive => exact delivering.bounded side
    | app called =>
        cases called with
        | write =>
            simp only [Endpoint.appWrite, List.length_append]
            exact admitted
        | read _ returned =>
            rcases appRead_cases returned with ⟨_, rfl⟩ | ⟨_, _, _, _, rfl⟩ <;>
              exact delivering.bounded side
        | close => exact delivering.bounded side
  · have counted := delivering.counted side
    exact ⟨by rw [(still side).2.ctx, (history side).1]; exact counted.opening,
      by rw [(still side).2.ctx, (history side).1]; exact counted.running⟩
  · rw [(history side).1]
    rcases around_step stepped segment member with earlier | now
    · exact delivering.carried side segment earlier
    · rw [(still side).1] at now
      cases now
  · rw [(history side).1, (history side.peer).2]
    exact delivering.delivered side

end Delivering

theorem delivering_of_run {labels : List Action} {s : System}
    (run : UnreliableRun InSequence labels s) : Delivering s := by
  have known : ∀ {labels t}, UnreliableRun InSequence labels t →
      Sound t ∧ ∀ side, (t.endpoint side).Accounted :=
    fun run => ⟨Sound.of_run run, accounted_of_run run⟩
  refine run.invariant_with known Delivering.init ?_
  intro s action t ⟨sound, accounted⟩ _ delivering admitted stepped
  rcases step_cases stepped with
    ⟨side, rand, overread, taken, rfl, moved, known, watches, silent⟩ | idle
  · exact delivering.thread sound accounted stepped moved known watches silent admitted
  · exact delivering.idle stepped admitted idle

/-- Reliability: in every run over the network that drops, duplicates and delays segments, what an
end has passed up is a prefix of what the other application wrote, as long as the payloads it passes
up arrive in sequence. -/
theorem reliable_delivery {labels : List Action} {s : System}
    (run : UnreliableRun InSequence labels s) (side : Side) :
    (s.endpoint side.peer).history.delivered <+: (s.endpoint side).history.wrote := by
  have delivered := (delivering_of_run run).delivered side
  have accounted : (s.endpoint side).Accounted := accounted_of_run run side
  exact delivered.trans ⟨_, accounted⟩

/-- The network duplicates the acknowledgement of two bytes that arrive in sequence. -/
theorem reliable_delivery_two_bytes : ∃ s : System,
    (s.endpoint .server).history.delivered = [7, 8] ∧
      [7, 8] <+: (s.endpoint .client).history.wrote := by
  let schedule := handshakeSchedule ++ [Action.write .client [7, 8]] ++ iteration .client ++
    [Action.deliver .client, .move .server, .move .server, .thread .server 1 false]
  have reached : ∃ s, UnreliableRun InSequence schedule s ∧
      (s.endpoint .server).history.delivered = [7, 8] :=
    exec_reaches _ (by decide +kernel)
  obtain ⟨s, run, delivered⟩ := reached
  have isPrefix := reliable_delivery run .client
  rw [Side.peer, delivered] at isPrefix
  exact ⟨s, delivered, isPrefix⟩

/-- The network sends a data segment twice: the server passes its byte up twice. -/
theorem duplicate_delivered_twice : ∃ (labels : List Action) (s : System),
    UnreliableRun anyStep labels s ∧ (s.endpoint .client).history.wrote = [7] ∧
      (s.endpoint .server).history.delivered = [7, 7] ∧
      ¬(s.endpoint .server).history.delivered <+: (s.endpoint .client).history.wrote := by
  let schedule := handshakeSchedule ++ [Action.write .client [7], .move .client, .thread .client 1 false,
    .deliver .client, .deliver .client] ++ iteration .server ++ iteration .server
  have reached : ∃ s, UnreliableRun anyStep schedule s ∧
      (s.endpoint .client).history.wrote = [7] ∧
        (s.endpoint .server).history.delivered = [7, 7] :=
    exec_reaches _ (by decide +kernel)
  obtain ⟨s, run, wrote, delivered⟩ := reached
  refine ⟨_, s, run, wrote, delivered, ?_⟩
  rw [wrote, delivered]
  decide

end EE323.Stcp

/-
Module: EE323.Stcp.Stream
Purpose: Over the reliable network the bytes taken from one application are the bytes passed up to
  the other, followed by the payloads in flight.  From it follow complete delivery to the server and
  the fate of data that reaches the client after its FIN.
Main exports: payloads, Stream, stream_to_server
-/
import EE323.Stcp.Protocol

namespace EE323.Stcp

open EE323.Lib

/-- The payload of a data segment; no other segment has one. -/
def Segment.payload (segment : Segment) : List Byte :=
  if segment.IsData then segment.data else []

/-- The payloads of the data segments of a list. -/
def payloads (segments : List Segment) : List Byte := segments.flatMap Segment.payload

@[simp] theorem payloads_nil : payloads [] = [] := rfl

@[simp] theorem payloads_cons (segment : Segment) (rest : List Segment) :
    payloads (segment :: rest) = segment.payload ++ payloads rest := rfl

@[simp] theorem payloads_append (first second : List Segment) :
    payloads (first ++ second) = payloads first ++ payloads second := by
  simp [payloads]

namespace Segment

variable {segment : Segment}

theorem IsData.payload (isData : segment.IsData) : segment.payload = segment.data :=
  if_pos isData

theorem IsAck.payload (isAck : segment.IsAck) : segment.payload = [] :=
  if_neg isAck.not_isData

theorem IsSyn.payload (isSyn : segment.IsSyn) : segment.payload = [] :=
  if_neg isSyn.not_isData

theorem IsFin.payload (isFin : segment.IsFin) : segment.payload = [] :=
  if_neg fun isData => isData.not_isFin isFin

theorem echo_payload (thSeq thAck : Nat) : (segment.echo thSeq thAck).payload = [] := by
  unfold payload
  split <;> rfl

end Segment

theorem Acks.payloads {segments : List Segment} (acks : Acks segments) :
    payloads segments = [] := by
  induction segments with
  | nil => rfl
  | cons segment rest inductionHypothesis =>
      rw [payloads_cons, acks.head.payload, inductionHypothesis acks.tail]
      rfl

/-! ### What a step does to the histories -/

theorem ThreadStep.history_wrote {e e' : Endpoint} {taken sent : Option Segment}
    (moved : ThreadStep e taken sent e') : e'.history.wrote = e.history.wrote := by
  cases moved <;> simp

/-- The bytes taken from the application are the payloads sent. -/
theorem ThreadStep.history_taken {e e' : Endpoint} {taken sent : Option Segment}
    (moved : ThreadStep e taken sent e') :
    e'.history.taken = e.history.taken ++ payloads sent.toList := by
  cases moved with
  | sendSyn => simp [e.ctx.synSegment_isSyn.payload]
  | connect => simp [Segment.echo_payload]
  | accept => simp [Segment.echo_payload]
  | appSend => simp [(e.ctx.dataSegment_isData _).payload]
  | fin => simp [(Context.ackSegment_isAck _ _).payload]
  | data => simp [(Context.ackSegment_isAck _ _).payload]
  | sendFin => simp [e.ctx.finSegment_isFin.payload]
  | _ => simp

/-- The bytes passed up are the payload of the segment taken, unless an end that waits for the
acknowledgement of its FIN takes a data segment. -/
theorem View.history_delivered {link : Link} {e' : Endpoint} {taken sent : Option Segment}
    {inc : List Segment} (view : View link) (incoming : link.inc = taken.toList ++ inc)
    (moved : ThreadStep link.self taken sent e')
    (lossless : link.self.isActive = true → ∀ packet, taken = some packet → packet.IsData →
      ¬link.self.ctx.AwaitsFinAck) :
    e'.history.delivered = link.self.history.delivered ++ payloads taken.toList := by
  have handshake : ∀ {packet}, link.self.pc = .handshake → link.inc = packet :: inc →
      packet.payload = [] := by
    intro packet pc head
    exact ((view.opening (view.near.handshake pc).1).1 packet inc head).1.payload
  have inLoop : ∀ {event : Event}, link.self.pc = .networkData event ∨
      link.self.pc = .close event → ¬link.self.ctx.Opening := by
    intro event place
    refine view.near.not_opening ?_
    rcases place with pc | pc <;> simp [Endpoint.InLoop, pc]
  cases moved with
  | connect pc => simp [handshake pc incoming]
  | accept pc => simp [handshake pc incoming]
  | accepted pc => simp [handshake pc incoming]
  | stalled pc => simp [handshake pc incoming]
  | ack pc ready reads queue isAck => simp [isAck.payload]
  | ackOverflow pc ready reads queue isAck => simp [isAck.payload]
  | fin pc ready reads queue isFin => simp [isFin.payload]
  | data pc ready reads queue notAck notFin copied =>
      obtain ⟨out, connected⟩ := view.opened (inLoop (.inl pc))
      have flow := connected.incoming.flow
      rw [incoming] at flow
      obtain ⟨isData, short⟩ := flow.head_data notAck notFin
      simp [copied, isData.payload, List.take_of_length_le short]
  | finAcked enters header queue isAck => simp [isAck.payload]
  | ignored enters header queue notAck =>
      obtain ⟨out, connected⟩ := view.opened (inLoop enters.place)
      rw [incoming] at connected
      have awaits := Context.awaitsFinAck_of_header header
      obtain ⟨isData, active⟩ :=
        connected.dropped view.near view.far view.roles awaits notAck
      exact absurd awaits (lossless active _ rfl isData)
  | _ => simp

theorem AppStep.history {e e' : Endpoint} {side : Side} {action : Action}
    (called : AppStep e side action e') :
    e'.history.taken = e.history.taken ∧ e'.history.delivered = e.history.delivered := by
  cases called with
  | write => exact ⟨rfl, rfl⟩
  | read _ returned =>
      rcases appRead_cases returned with ⟨_, rfl⟩ | ⟨_, _, _, _, rfl⟩ <;> exact ⟨rfl, rfl⟩
  | close => exact ⟨rfl, rfl⟩

/-! ### The stream of one direction -/

/-- What the sender has taken is what the receiver has passed up and what is in flight. -/
def Stream (link : Link) : Prop :=
  link.peer.history.delivered ++ payloads link.out = link.self.history.taken

/-- The sender of a stream moves. -/
theorem Stream.sender_step {link link' : Link} {side : Side} {action : Action}
    (stream : Stream link) (moved : LinkStep side link action link') : Stream link' := by
  unfold Stream at stream ⊢
  cases moved with
  | thread moved incoming =>
      rw [moved.history_taken, payloads_append, ← List.append_assoc, stream]
  | receive packet => exact stream
  | app called => rw [called.history.1, stream]

/-- The receiver of a stream moves without losing data. -/
theorem Stream.receiver_step {link link' : Link} {side : Side} {action : Action}
    (stream : Stream link.swap) (view : View link) (moved : LinkStep side link action link')
    (lossless : ∀ {rand overread packet sent e'}, action = .thread side rand overread →
      ThreadStep link.self (some packet) sent e' → packet.IsData →
      link.self.isActive = true → ¬link.self.ctx.AwaitsFinAck) :
    Stream link'.swap := by
  unfold Stream at stream ⊢
  cases moved with
  | thread moved incoming =>
      simp only [Link.swap] at stream ⊢
      rw [view.history_delivered incoming moved ?_, List.append_assoc, ← payloads_append,
        ← incoming, stream]
      rintro active packet rfl isData
      exact lossless rfl moved isData active
  | receive packet => exact stream
  | app called =>
      simp only [Link.swap] at stream ⊢
      rw [called.history.2, stream]

/-! ### The queue of unsent data -/

/-- What an application wrote and the transport layer has not taken is in the queue between them. -/
def Endpoint.Accounted (e : Endpoint) : Prop :=
  e.history.taken ++ e.sock.appRecvQueue.flatten = e.history.wrote

theorem Endpoint.Accounted.step {e e' : Endpoint} {side : Side} {action : Action}
    (accounted : e.Accounted) (moved : EndpointStep side e action e') : e'.Accounted := by
  unfold Endpoint.Accounted at accounted ⊢
  cases moved with
  | thread moved =>
      cases moved with
      | appSend pc ready room dequeued =>
          rw [List.append_assoc, mysockDequeueBuffer_flatten dequeued]
          exact accounted
      | dispatch pc woken =>
          obtain ⟨rfl, rfl⟩ := stcpWaitForEvent_cases woken
          exact accounted
      | _ => simpa [stcpFinReceived] using accounted
  | receive => exact accounted
  | app called =>
      cases called with
      | write =>
          simp only [Endpoint.appWrite, mywrite, mysockEnqueueBuffer, List.flatten_append,
            List.flatten_singleton, ← List.append_assoc, accounted]
      | read _ returned =>
          rcases appRead_cases returned with ⟨_, rfl⟩ | ⟨_, _, _, _, rfl⟩ <;> exact accounted
      | close => exact accounted

/-- In every run over either network. -/
theorem accounted_of_run {isReliable : Bool} {guard : System → Action → Prop}
    {labels : List Action} {s : System}
    (run : Run (System.step isReliable) guard System.init labels s) (side : Side) :
    (s.endpoint side).Accounted :=
  endpoint_invariant run rfl fun accounted _ moved => accounted.step moved

/-! ### The queue of data passed up -/

/-- What has been passed up is returned or queued; the queue holds non-empty buffers and behind
them the marks of the end of the stream, which the FIN sets. -/
structure Unread (e : Endpoint) : Prop where
  returned : e.history.returned ++ e.sock.appSendQueue.flatten = e.history.delivered
  queue : ∃ buffers marks, e.sock.appSendQueue = buffers ++ List.replicate marks [] ∧
    (∀ buffer ∈ buffers, buffer ≠ []) ∧ (0 < marks → e.ctx.FinReceived) ∧
    (e.sock.eof = true → e.ctx.FinReceived ∧ buffers = [])

/-- `done` is set in the state `CLOSED` only. -/
theorem Coherent.finReceived_of_done {e : Endpoint} (coherent : Coherent e)
    (done : e.ctx.done = true) : e.ctx.FinReceived := by
  have role := coherent.role
  unfold Context.InRole at role
  unfold Context.FinReceived
  split at role <;> simp_all

/-- A FIN that has been received stays received. -/
theorem Coherent.finReceived_mono {e e' : Endpoint} {taken sent : Option Segment}
    (coherent : Coherent e) (moved : ThreadStep e taken sent e')
    (received : e.ctx.FinReceived) : e'.ctx.FinReceived := by
  cases moved with
  | sendSyn pc =>
      obtain ⟨closed, notDone⟩ := coherent.start pc
      simp [Context.FinReceived, closed, notDone] at received
  | connect _ _ state => simp [Context.FinReceived, state] at received
  | accept _ _ state => simp [Context.FinReceived, state] at received
  | accepted _ _ state => simp [Context.FinReceived, state] at received
  | appSend => exact (Context.samePhase_sent _ _ _).finReceived.mpr received
  | ack => exact (Context.samePhase_acked _ _ _).finReceived.mpr received
  | data => exact (Context.samePhase_recvBase _ _).finReceived.mpr received
  | fin =>
      simp only [Context.receivedFin]
      split <;> simp [Context.FinReceived]
  | finAcked enters header =>
      rw [Endpoint.loopEnd_ctx]
      unfold Context.FinReceived at received
      rw [header] at received
      unfold Context.finAcked
      cases client : e.ctx.isClient <;> simp_all [Context.FinReceived]
  | sendFin pc asked state =>
      rw [Endpoint.loopEnd_ctx]
      unfold Context.FinReceived at received
      rw [state] at received
      cases client : e.ctx.isClient <;> simp_all [Context.FinReceived, Context.sentFin]
  | _ => simpa using received

namespace Unread

/-- A step that passes up nothing but marks of the end of the stream. -/
private theorem mark {e e' : Endpoint} (unread : Unread e) (marks : Nat)
    (queue : e'.sock.appSendQueue = e.sock.appSendQueue ++ List.replicate marks [])
    (eof : e'.sock.eof = e.sock.eof) (returned : e'.history.returned = e.history.returned)
    (delivered : e'.history.delivered = e.history.delivered)
    (mono : e.ctx.FinReceived → e'.ctx.FinReceived)
    (marked : 0 < marks → e'.ctx.FinReceived) : Unread e' := by
  obtain ⟨before, buffers, oldMarks, split, filled, oldMarked, ended⟩ := unread
  refine ⟨?_, buffers, oldMarks + marks, ?_, filled, ?_, ?_⟩
  · rw [queue, returned, delivered, List.flatten_append, List.flatten_replicate_nil,
      List.append_nil, before]
  · rw [queue, split, List.append_assoc, List.replicate_append_replicate]
  · intro positive
    rcases Nat.eq_zero_or_pos oldMarks with none | some
    · exact marked (by omega)
    · exact mono (oldMarked some)
  · intro atEnd
    rw [eof] at atEnd
    exact ⟨mono (ended atEnd).1, (ended atEnd).2⟩

private theorem keep {e e' : Endpoint} (unread : Unread e)
    (queue : e'.sock.appSendQueue = e.sock.appSendQueue) (eof : e'.sock.eof = e.sock.eof)
    (history : e'.history.returned = e.history.returned ∧
      e'.history.delivered = e.history.delivered)
    (mono : e.ctx.FinReceived → e'.ctx.FinReceived) : Unread e' :=
  unread.mark 0 (by simpa using queue) eof history.1 history.2 mono (by simp)

/-- Data is passed up while no FIN has been received. -/
private theorem pass {e e' : Endpoint} {data : List Byte} (unread : Unread e)
    (open_ : ¬e.ctx.FinReceived) (sock : e'.sock = stcpAppSend e.pop.sock data)
    (returned : e'.history.returned = e.history.returned)
    (delivered : e'.history.delivered = e.history.delivered ++ data) : Unread e' := by
  obtain ⟨before, buffers, marks, split, filled, marked, ended⟩ := unread
  have noMarks : marks = 0 := by
    rcases Nat.eq_zero_or_pos marks with none | some
    · exact none
    · exact absurd (marked some) open_
  have notEnded : e.sock.eof ≠ true := fun atEnd => open_ (ended atEnd).1
  subst noMarks
  simp only [List.replicate_zero, List.append_nil] at split
  have flat : e'.sock.appSendQueue.flatten = e.sock.appSendQueue.flatten ++ data := by
    rw [sock]
    unfold stcpAppSend
    split
    · simp [mysockEnqueueBuffer]
    · rename_i empty
      simp [List.length_eq_zero_iff.mp (Nat.eq_zero_of_not_pos empty)]
  have refilled : ∀ buffer ∈ e'.sock.appSendQueue, buffer ≠ [] := by
    rw [sock]
    unfold stcpAppSend
    split
    · rename_i nonEmpty
      intro buffer member
      simp only [mysockEnqueueBuffer, Endpoint.pop_appSendQueue, split, List.mem_append,
        List.mem_singleton] at member
      rcases member with earlier | last
      · exact filled buffer earlier
      · rw [last]
        exact List.ne_nil_of_length_pos nonEmpty
    · simpa [split] using filled
  refine ⟨?_, e'.sock.appSendQueue, 0, by simp, refilled, by simp, ?_⟩
  · rw [returned, delivered, flat, ← List.append_assoc, before]
  · intro atEnd
    rw [sock, stcpAppSend_eof, Endpoint.pop_eof] at atEnd
    exact absurd atEnd notEnded

theorem threadStep {link : Link} {e' : Endpoint} {taken sent : Option Segment}
    {inc : List Segment} (unread : Unread link.self) (view : View link)
    (incoming : link.inc = taken.toList ++ inc) (moved : ThreadStep link.self taken sent e')
    (after : Coherent e') : Unread e' := by
  have mono := view.near.finReceived_mono moved
  have atLoopEnd : ∀ e : Endpoint, e' = e.loopEnd →
      e.sock.appSendQueue = link.self.sock.appSendQueue → e.sock.eof = link.self.sock.eof →
      e.history = link.self.history → Unread e' := by
    rintro e rfl queue eof history
    refine unread.mark (if e.ctx.done then 1 else 0) ?_ ?_ ?_ ?_ mono ?_
    · rw [Endpoint.loopEnd_appSendQueue, queue]
      split <;> simp
    · rw [Endpoint.loopEnd_eof, eof]
    · rw [Endpoint.loopEnd_history, history]
    · rw [Endpoint.loopEnd_history, history]
    · intro marked
      refine after.finReceived_of_done ?_
      rw [Endpoint.loopEnd_ctx]
      by_contra notDone
      simp [notDone] at marked
  cases moved with
  | dispatch pc woken =>
      obtain ⟨rfl, rfl⟩ := stcpWaitForEvent_cases woken
      exact unread.keep rfl rfl ⟨rfl, rfl⟩ mono
  | fin =>
      refine unread.mark 1 rfl rfl rfl rfl mono ?_
      intro _
      simp only [Context.receivedFin]
      split <;> simp [Context.FinReceived]
  | data pc ready reads queue notAck =>
      refine unread.pass ?_ rfl rfl rfl
      intro received
      have running : ¬link.self.ctx.Opening :=
        view.near.not_opening (by simp [Endpoint.InLoop, pc])
      obtain ⟨out, connected⟩ := view.opened running
      have acks := connected.incoming.finReceived received
      rw [incoming] at acks
      exact notAck acks.head
  | finAcked => exact atLoopEnd _ rfl rfl rfl rfl
  | ignored => exact atLoopEnd _ rfl rfl rfl rfl
  | sendFin => exact atLoopEnd _ rfl rfl rfl rfl
  | noClose => exact atLoopEnd _ rfl rfl rfl rfl
  | forget => exact atLoopEnd _ rfl rfl rfl rfl
  | _ => exact unread.keep rfl rfl ⟨rfl, rfl⟩ mono

/-- A read into a buffer of positive size returns nothing only at a mark. -/
theorem read {e e' : Endpoint} {bufLen : Nat} (unread : Unread e) (positive : 0 < bufLen)
    (read : e.appRead bufLen = some e') : Unread e' := by
  rcases appRead_cases read with ⟨_, rfl⟩ | ⟨unended, data, left, dequeued, rfl⟩
  · exact unread
  · obtain ⟨before, buffers, marks, split, filled, marked, ended⟩ := unread
    refine ⟨?_, ?_⟩
    · rw [List.append_assoc, mysockDequeueBuffer_flatten dequeued]
      exact before
    · rw [split] at dequeued
      cases buffers with
      | nil =>
          cases marks with
          | zero => cases dequeued
          | succ marks =>
              simp only [List.nil_append, List.replicate_succ, mysockDequeueBuffer,
                List.length_nil, Nat.not_lt_zero, if_false, Option.some.injEq,
                Prod.mk.injEq] at dequeued
              obtain ⟨rfl, rfl⟩ := dequeued
              exact ⟨[], marks, rfl, by simp, fun _ => marked (Nat.succ_pos _),
                fun _ => ⟨marked (Nat.succ_pos _), rfl⟩⟩
      | cons buffer rest =>
          have nonEmpty := filled buffer List.mem_cons_self
          simp only [List.cons_append, mysockDequeueBuffer] at dequeued
          split at dequeued
          · rename_i partly
            cases dequeued
            refine ⟨buffer.drop bufLen :: rest, marks, rfl, ?_, marked, ?_⟩
            · intro other member
              rcases List.mem_cons.mp member with rfl | later
              · simpa using partly
              · exact filled other (List.mem_cons_of_mem _ later)
            · intro empty
              simp only [List.isEmpty_iff, List.take_eq_nil_iff] at empty
              rcases empty with zero | nil
              · omega
              · exact absurd nil nonEmpty
          · cases dequeued
            refine ⟨rest, marks, rfl, ?_, marked, ?_⟩
            · exact fun other later => filled other (List.mem_cons_of_mem _ later)
            · intro empty
              exact absurd (List.isEmpty_iff.mp empty) nonEmpty

theorem linkStep {link link' : Link} {side : Side} {action : Action} (unread : Unread link.self)
    (view : View link) (moved : LinkStep side link action link') (after : Coherent link'.self)
    (positive : ∀ bufLen, action = .read side bufLen → 0 < bufLen) : Unread link'.self := by
  cases moved with
  | thread moved incoming => exact unread.threadStep view incoming moved after
  | receive packet => exact ⟨unread.returned, unread.queue⟩
  | app called =>
      cases called with
      | write => exact ⟨unread.returned, unread.queue⟩
      | read _ returned => exact unread.read (positive _ rfl) returned
      | close => exact ⟨unread.returned, unread.queue⟩

end Unread

/-! ### Runs -/

/-- One direction of a run is a stream when its receiver never takes a data segment while it waits
for the acknowledgement of its FIN. -/
theorem stream_of_run {guard : System → Action → Prop} {labels : List Action} {s : System}
    (sender : Side) (run : ReliableRun guard labels s)
    (lossless : ∀ {labels s rand overread packet sent e'}, ReliableRun guard labels s →
      guard s (.thread sender.peer rand overread) →
      ThreadStep (s.endpoint sender.peer) (some packet) sent e' → packet.IsData →
      (s.endpoint sender.peer).isActive = true →
      ¬(s.endpoint sender.peer).ctx.AwaitsFinAck) :
    Stream (s.link sender) := by
  induction run with
  | refl => cases sender <;> rfl
  | @snoc s t labels action before admitted stepped inductionHypothesis =>
      obtain ⟨actor, moved⟩ := step_link stepped
      rcases Side.eq_or_eq_peer sender actor with rfl | rfl
      · exact inductionHypothesis.sender_step moved
      · have swapped : ∀ u : System, (u.link sender.peer).swap = u.link sender := by
          intro u
          rw [← u.link_peer, Side.peer_peer]
        rw [← swapped] at inductionHypothesis ⊢
        refine inductionHypothesis.receiver_step (Protocol.view_of_run before sender.peer) moved ?_
        rintro rand overread packet sent e' rfl moved isData active
        exact lossless before admitted moved isData active

/-- The direction to the server never loses a byte: a passive end sends its FIN only after the
other end has sent everything. -/
theorem stream_to_server {guard : System → Action → Prop} {labels : List Action} {s : System}
    (run : ReliableRun guard labels s) : Stream (s.link .client) := by
  refine stream_of_run .client run ?_
  intro labels s rand overread packet sent e' before _ _ _ active
  have passive : (s.endpoint .server).isActive = false := (Protocol.of_run before).passive
  rw [show Side.client.peer = Side.server from rfl, passive] at active
  cases active

/-! ### Complete delivery to the server -/

/-- The server's application reads into buffers of positive size. -/
def ServerReadsPositive (_ : System) : Action → Prop
  | .read .server bufLen => 0 < bufLen
  | _ => True

instance (s : System) (action : Action) : Decidable (ServerReadsPositive s action) :=
  match action with
  | .read .server bufLen => inferInstanceAs (Decidable (0 < bufLen))
  | .read .client _ => .isTrue trivial
  | .thread _ _ _ | .deliver _ | .write _ _ | .close _ => .isTrue trivial

theorem unread_of_run {labels : List Action} {s : System}
    (run : ReliableRun ServerReadsPositive labels s) : Unread (s.endpoint .server) := by
  induction run with
  | refl =>
      exact ⟨rfl, [], 0, rfl, by simp, by simp,
        by simp [Endpoint.init, System.init, MysockContext.init]⟩
  | @snoc s t labels action before admitted stepped inductionHypothesis =>
      obtain ⟨actor, moved⟩ := step_link stepped
      cases actor with
      | client =>
          have same : t.endpoint .server = s.endpoint .server := moved.peer_eq
          rw [same]
          exact inductionHypothesis
      | server =>
          have unread : Unread (s.link .server).self := inductionHypothesis
          refine unread.linkStep (Protocol.view_of_run before .server) moved
            (Protocol.view_of_run (.snoc before admitted stepped) .server).near ?_
          rintro bufLen rfl
          exact admitted

/-- At the end of the stream the server's application has been given everything the client's
application wrote. -/
private theorem returned_at_end {labels : List Action} {s : System}
    (run : ReliableRun ServerReadsPositive labels s)
    (atEnd : (s.endpoint .server).sock.eof = true) :
    (s.endpoint .server).history.returned = (s.endpoint .client).history.wrote := by
  have view := Protocol.view_of_run run .server
  obtain ⟨returned, buffers, marks, split, _, _, ended⟩ := unread_of_run run
  obtain ⟨received, noBuffers⟩ := ended atEnd
  -- nothing is left in the server's queue
  have all_returned : (s.endpoint .server).history.returned =
      (s.endpoint .server).history.delivered := by
    rw [← returned, split, noBuffers, List.nil_append, List.flatten_replicate_nil,
      List.append_nil]
  obtain ⟨out, connected⟩ := view.opened received.not_opening
  -- nothing but acknowledgements is in flight
  have stream : (s.endpoint .server).history.delivered ++ payloads (s.inFlight .client) =
      (s.endpoint .client).history.taken := stream_to_server run
  have acks : Acks (s.inFlight .client) := connected.incoming.finReceived received
  rw [acks.payloads, List.append_nil] at stream
  -- the client sent its FIN when its application had nothing left to send
  have finSent : (s.endpoint .client).ctx.FinSent := connected.incoming.finSent.mpr (.inl received)
  have drained : (s.endpoint .client).sock.appRecvQueue = [] := (view.far.finished finSent).2
  have accounted := accounted_of_run run .client
  unfold Endpoint.Accounted at accounted
  rw [drained, List.flatten_nil, List.append_nil] at accounted
  rw [all_returned, stream, accounted]

/-- A read that returns nothing reaches the end of the stream. -/
private theorem eof_of_empty_read {e e' : Endpoint} {bufLen : Nat}
    (returned : e.appRead bufLen = some e')
    (nothing : e'.history.returned = e.history.returned) : e'.sock.eof = true := by
  rcases appRead_cases returned with ⟨ended, rfl⟩ | ⟨_, data, left, _, rfl⟩
  · exact ended
  · have empty : data = [] := by simpa using nothing
    simp [empty]

/-- Complete delivery: when a read of the server's application returns nothing, what its reads
returned before is everything the client's application wrote. -/
theorem server_reads_everything {labels : List Action} {s t : System} {bufLen : Nat}
    (run : ReliableRun ServerReadsPositive labels s) (positive : 0 < bufLen)
    (read : System.step true s (.read .server bufLen) = some t)
    (nothing : (t.endpoint .server).history.returned = (s.endpoint .server).history.returned) :
    (s.endpoint .server).history.returned = (s.endpoint .client).history.wrote := by
  have after : ReliableRun ServerReadsPositive (labels ++ [Action.read .server bufLen]) t :=
    .snoc run positive read
  simp only [System.step, Option.ite_none_right_eq_some, Option.map_eq_some_iff] at read
  obtain ⟨_, e', returned, rfl⟩ := read
  have server : ∀ e, (s.update .server e).endpoint .server = e := by
    intro e
    simp [System.update]
  have client : ∀ e, (s.update .server e).endpoint .client = s.endpoint .client := by
    intro e
    simp [System.update]
  rw [server] at nothing
  have everything := returned_at_end after (by
    rw [server]
    exact eof_of_empty_read returned nothing)
  rwa [server, client, nothing] at everything

/-- One byte written before the close is read before the end of the stream. -/
theorem server_reads_one_byte : ∃ s : System,
    (s.endpoint .server).history.returned = (s.endpoint .client).history.wrote ∧
      (s.endpoint .client).history.wrote = [7] := by
  let schedule := handshakeSchedule ++ [Action.write .client [7], .close .client] ++
    iteration .client ++ iteration .client ++ [Action.deliver .client, .deliver .client] ++
    iteration .server ++ iteration .server ++ [Action.read .server 4]
  have reached : ∃ s, ReliableRun ServerReadsPositive schedule s ∧
      (s.endpoint .client).history.wrote = [7] ∧
        (System.step true s (.read .server 4)).any (fun t =>
          decide ((t.endpoint .server).history.returned =
            (s.endpoint .server).history.returned)) = true :=
    exec_reaches _ (by decide +kernel)
  obtain ⟨s, run, written, atEnd⟩ := reached
  obtain ⟨t, read, nothing⟩ := (Option.any_eq_true _ _).mp atEnd
  exact ⟨s, server_reads_everything run (by decide) read (of_decide_eq_true nothing), written⟩

end EE323.Stcp

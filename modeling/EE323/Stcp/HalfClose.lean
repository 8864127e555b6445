/-
Module: EE323.Stcp.HalfClose
Purpose: The direction from the server to the client after the client has asked for close.  In
  `FIN_WAIT_1` the client reads whatever comes into a bare header, so a data segment that arrives
  there is lost; as long as none does, the direction stays intact.
Main exports: Endpoint.recvLength, ClientKeepsData, half_close_intact, half_close_drops_data
-/
import EE323.Stcp.Stream

namespace EE323.Stcp

open EE323.Lib

namespace Endpoint

/-- The connection is in the state in which the block at `close` reads a header. -/
def ReadsFinAck (e : Endpoint) : Prop :=
  e.ctx.connectionState = if e.ctx.isClient then .finWait1 else .lastAck

instance (e : Endpoint) : Decidable e.ReadsFinAck :=
  inferInstanceAs (Decidable (_ = _))

/-- The length of the buffer that the next step of the transport thread passes to
`stcp_network_recv`, if it calls it. -/
def recvLength (e : Endpoint) : Option Nat :=
  match e.pc with
  | .handshake => some tcphdrSize
  | .networkData event =>
      if event.networkData then
        if e.ctx.connectionState = .finWait1 ∨ e.ctx.connectionState = .lastAck then
          if e.ReadsFinAck then some tcphdrSize else none
        else some (tcphdrSize + MSS)
      else none
  | .close event =>
      if event.appCloseRequested ∧ e.ReadsFinAck then some tcphdrSize else none
  | _ => none

private theorem stcpNetworkRecv_fits {sock : MysockContext} {length : Nat}
    (fits : ∀ packet rest, sock.networkRecvQueue = packet :: rest → packet.size ≤ length) :
    stcpNetworkRecv sock length true = stcpNetworkRecv sock length false := by
  unfold stcpNetworkRecv
  cases queue : sock.networkRecvQueue with
  | nil => rfl
  | cons packet rest => simp [fits packet rest queue]

private theorem closeBlock_fits {e : Endpoint}
    (fits : e.ReadsFinAck → ∀ packet rest, e.sock.networkRecvQueue = packet :: rest →
      packet.size ≤ tcphdrSize) : e.closeBlock true = e.closeBlock false := by
  have same : e.ReadsFinAck → e.awaitFinAck true = e.awaitFinAck false := by
    intro reads
    unfold awaitFinAck
    rw [stcpNetworkRecv_fits (fits reads)]
  unfold closeBlock
  unfold ReadsFinAck at same
  cases client : e.ctx.isClient <;> cases state : e.ctx.connectionState <;>
    simp [client, state] at same ⊢ <;> exact same

/-- `recvLength` is the length that matters: when the segment at the head of the receive queue fits
it, no checksum is computed past the end of a buffer. -/
theorem threadStep_of_fits {e : Endpoint}
    (fits : ∀ length packet rest, e.recvLength = some length →
      e.sock.networkRecvQueue = packet :: rest → packet.size ≤ length) :
    e.threadStep true = e.threadStep false := by
  unfold threadStep
  unfold recvLength at fits
  cases pc : e.pc with
  | handshake =>
      simp only [pc] at fits ⊢
      rw [stcpNetworkRecv_fits fun packet rest => fits _ packet rest rfl]
  | networkData event =>
      simp only [pc] at fits ⊢
      cases ready : event.networkData with
      | false => rfl
      | true =>
          simp only [ready, if_true] at fits ⊢
          split
          · rename_i header
            rw [closeBlock_fits fun reads packet rest =>
              fits _ packet rest (by simp [header, reads])]
          · rename_i header
            unfold networkDataBlock
            rw [stcpNetworkRecv_fits fun packet rest => fits _ packet rest (by simp [header])]
  | close event =>
      simp only [pc] at fits ⊢
      cases asked : event.appCloseRequested with
      | false => rfl
      | true =>
          simp only [asked, if_true] at fits ⊢
          rw [closeBlock_fits fun reads packet rest => fits _ packet rest (by simp [reads])]
  | _ => rfl

/-- In `FIN_WAIT_1` the next step reads a header, and a data segment is at the head of the queue. -/
def DropsData (e : Endpoint) : Prop :=
  e.ctx.connectionState = .finWait1 ∧ e.recvLength.isSome = true ∧
    ∃ packet ∈ e.sock.networkRecvQueue.head?, packet.IsData

instance (e : Endpoint) : Decidable e.DropsData :=
  inferInstanceAs (Decidable (_ ∧ _ ∧ _))

end Endpoint

/-- The client takes no data segment in `FIN_WAIT_1`. -/
def ClientKeepsData (s : System) : Action → Prop
  | .thread .client _ _ => ¬(s.endpoint .client).DropsData
  | _ => True

instance (s : System) (action : Action) : Decidable (ClientKeepsData s action) :=
  match action with
  | .thread .client _ _ => inferInstanceAs (Decidable ¬_)
  | .thread .server _ _ => .isTrue trivial
  | .deliver _ | .write _ _ | .read _ _ | .close _ => .isTrue trivial

theorem Endpoint.EntersClose.recvLength {e : Endpoint} {event : Event}
    (enters : e.EntersClose event) (header : e.ReadsFinAck) :
    e.recvLength = some tcphdrSize := by
  have state : e.ctx.connectionState = .finWait1 ∨ e.ctx.connectionState = .lastAck := by
    unfold Endpoint.ReadsFinAck at header
    rw [header]
    cases e.ctx.isClient <;> simp
  unfold Endpoint.recvLength
  rcases enters with ⟨pc, ready⟩ | ⟨pc, asked⟩
  · simp [pc, ready, state, header]
  · simp [pc, asked, header]

/-- Taking a data segment in `FIN_WAIT_1` is what `DropsData` describes. -/
private theorem dropsData_of_taken {e e' : Endpoint} {packet : Segment} {sent : Option Segment}
    (moved : ThreadStep e (some packet) sent e') (isData : packet.IsData)
    (state : e.ctx.connectionState = .finWait1) : e.DropsData := by
  have head : packet ∈ e.sock.networkRecvQueue.head? := by
    rw [moved.queue]
    rfl
  cases moved with
  | connect _ _ synSent => simp [state] at synSent
  | accept _ _ listen => simp [state] at listen
  | accepted _ _ synRcvd => simp [state] at synRcvd
  | stalled pc => exact ⟨state, by simp [Endpoint.recvLength, pc], packet, head, isData⟩
  | ack _ _ _ _ isAck => exact absurd isAck isData.not_isAck
  | ackOverflow _ _ _ _ isAck => exact absurd isAck isData.not_isAck
  | fin _ _ _ _ isFin => exact absurd isFin isData.not_isFin
  | data pc ready reads =>
      exact absurd (.inr ⟨⟨_, .inl ⟨pc, ready⟩⟩, .inl state⟩) reads
  | finAcked _ _ _ isAck => exact absurd isAck isData.not_isAck
  | ignored enters header =>
      refine ⟨state, ?_, packet, head, isData⟩
      rw [enters.recvLength header]
      rfl

/-- As long as the client keeps its data, the direction to it is a stream as well. -/
theorem stream_to_client {labels : List Action} {s : System}
    (run : ReliableRun ClientKeepsData labels s) : Stream (s.link .server) := by
  refine stream_of_run .server run ?_
  intro labels s rand overread packet sent e' before admitted moved isData active awaits
  have coherent : Coherent (s.endpoint .client) := (Protocol.of_run before).near
  have isActive : (s.endpoint .client).isActive = true := active
  rcases awaits with finWait1 | lastAck
  · exact admitted (dropsData_of_taken moved isData finWait1)
  · have lastAck : (s.endpoint .client).ctx.connectionState = .lastAck := lastAck
    have role := coherent.role
    simp [Context.InRole, lastAck, isActive] at role

/-- The bytes passed up at one end are a prefix of the bytes written at the other. -/
theorem delivered_prefix {s : System} {sender : Side} (stream : Stream (s.link sender))
    (accounted : (s.endpoint sender).Accounted) :
    (s.endpoint sender.peer).history.delivered <+: (s.endpoint sender).history.wrote := by
  unfold Endpoint.Accounted at accounted
  have sent : (s.endpoint sender.peer).history.delivered ++ payloads (s.inFlight sender) =
      (s.endpoint sender).history.taken := stream
  rw [← accounted, ← sent, List.append_assoc]
  exact List.prefix_append _ _

/-- The buffers of the calls of `stcp_network_recv`. -/
private theorem recvLength_cases {e : Endpoint} {length : Nat}
    (receives : e.recvLength = some length) :
    length = tcphdrSize ∧ (e.pc = .handshake ∨ e.ReadsFinAck) ∨ length = tcphdrSize + MSS := by
  unfold Endpoint.recvLength at receives
  split at receives
  · rename_i pc
    exact .inl ⟨(Option.some.inj receives).symm, .inl pc⟩
  · split at receives
    · split at receives
      · split at receives
        · rename_i reads
          exact .inl ⟨(Option.some.inj receives).symm, .inr reads⟩
        · cases receives
      · exact .inr (Option.some.inj receives).symm
    · cases receives
  · split at receives
    · rename_i reads
      exact .inl ⟨(Option.some.inj receives).symm, .inr reads.2⟩
    · cases receives
  · cases receives

/-- Every segment that the client's next step could read fits the buffer of that step. -/
private theorem recv_fits {labels : List Action} {s : System} {rand : Nat} {overread : Bool}
    (run : ReliableRun ClientKeepsData labels s)
    (admitted : ClientKeepsData s (.thread .client rand overread))
    {length : Nat} {packet : Segment} {rest : List Segment}
    (receives : (s.endpoint .client).recvLength = some length)
    (queue : (s.endpoint .client).sock.networkRecvQueue = packet :: rest) :
    packet.size ≤ length := by
  have view := Protocol.view_of_run run .client
  have near : Coherent (s.endpoint .client) := view.near
  have incoming : (s.link .client).inc = packet :: (rest ++ s.wire .server) := by
    simp [System.link, System.inFlight, Side.peer, queue]
  by_cases opening : (s.endpoint .client).ctx.Opening
  · have empty := ((view.opening opening).1 packet _ incoming).2
    rcases recvLength_cases receives with ⟨rfl, _⟩ | rfl <;> simp [Segment.size, empty]
  · obtain ⟨out, connected⟩ := view.opened opening
    have flow := connected.incoming.flow
    rw [incoming] at flow
    rcases recvLength_cases receives with ⟨rfl, handshake | reads⟩ | rfl
    · exact absurd (near.handshake handshake).1 opening
    · -- a header is read in `FIN_WAIT_1`, where no data segment is at the head
      have active : (s.endpoint .client).isActive = true := (Protocol.of_run run).active
      have isClient := near.client opening
      have state : (s.endpoint .client).ctx.connectionState = .finWait1 := by
        simpa [Endpoint.ReadsFinAck, isClient, active] using reads
      have notData : ¬packet.IsData := by
        intro isData
        refine admitted ⟨state, by simp [receives], packet, ?_, isData⟩
        rw [queue]
        rfl
      simp [Segment.size, flow.head_empty notData]
    · simpa [Segment.size] using flow.head_short

/-- A data segment that the client takes after its FIN is passed up whole and acknowledged. -/
private theorem takes_data {labels : List Action} {s t : System} {rand : Nat} {overread : Bool}
    (run : ReliableRun ClientKeepsData labels s)
    (admitted : ClientKeepsData s (.thread .client rand overread))
    (stepped : System.step true s (.thread .client rand overread) = some t)
    {packet : Segment} {rest : List Segment}
    (queue : (s.endpoint .client).sock.networkRecvQueue = packet :: rest)
    (taken : (t.endpoint .client).sock.networkRecvQueue = rest) (isData : packet.IsData)
    (finSent : (s.endpoint .client).ctx.FinSent) :
    (t.endpoint .client).history.delivered =
        (s.endpoint .client).history.delivered ++ packet.data ∧
      ∃ ack, ack.IsAck ∧ ack.thAck = trunc32 (packet.thSeq + packet.data.length) ∧
        t.inFlight .client = s.inFlight .client ++ [ack] := by
  obtain ⟨head, sent, moved, incoming, outgoing⟩ := (step_link_thread stepped).of_thread
  have moved : ThreadStep (s.endpoint .client) head sent (t.endpoint .client) := moved
  have outgoing : t.inFlight .client = s.inFlight .client ++ sent.toList := outgoing
  have popped := moved.queue
  rw [queue, taken] at popped
  cases head with
  | none => exact absurd (congrArg List.length popped) (Nat.succ_ne_self _)
  | some other =>
      obtain rfl : packet = other := (List.cons.inj popped).1
      have view := Protocol.view_of_run run .client
      have near : Coherent (s.endpoint .client) := view.near
      have notOpening := finSent.not_opening
      have notAwaiting : ¬(s.endpoint .client).ctx.AwaitsFinAck := by
        rintro (finWait1 | lastAck)
        · exact admitted (dropsData_of_taken moved isData finWait1)
        · have active : (s.endpoint .client).isActive = true := (Protocol.of_run run).active
          have role := near.role
          simp [Context.InRole, lastAck, active] at role
      have whole : (t.endpoint .client).history.delivered =
          (s.endpoint .client).history.delivered ++ payloads [packet] :=
        view.history_delivered incoming moved fun _ _ _ _ => notAwaiting
      refine ⟨by simpa [isData.payload] using whole, ?_⟩
      rw [outgoing]
      clear whole outgoing incoming popped taken
      generalize t.endpoint .client = e' at moved
      cases moved with
      | connect pc => exact absurd (near.handshake pc).1 notOpening
      | accept pc => exact absurd (near.handshake pc).1 notOpening
      | accepted pc => exact absurd (near.handshake pc).1 notOpening
      | stalled pc => exact absurd (near.handshake pc).1 notOpening
      | ack _ _ _ _ isAck => exact absurd isAck isData.not_isAck
      | ackOverflow _ _ _ _ isAck => exact absurd isAck isData.not_isAck
      | fin _ _ _ _ isFin => exact absurd isFin isData.not_isFin
      | data _ _ _ _ _ _ copied =>
          obtain ⟨out, connected⟩ := view.opened notOpening
          have flow := connected.incoming.flow
          have inc : (s.link .client).inc = packet :: (rest ++ s.wire .server) := by
            simp [System.link, System.inFlight, Side.peer, queue]
          rw [inc] at flow
          have short := (flow.head_data isData.not_isAck isData.not_isFin).2
          rw [List.take_of_length_le short] at copied
          refine ⟨_, Context.ackSegment_isAck _ _, ?_, rfl⟩
          rw [copied]
          rfl
      | finAcked _ _ _ isAck => exact absurd isAck isData.not_isAck
      | ignored enters header =>
          exact absurd (Context.awaitsFinAck_of_header header) notAwaiting

/-- The half-close leaves the other direction intact in every run in which the client keeps its
data: what it passes up is a prefix of what the server wrote; no step of it reads into a buffer
smaller than the segment at the head of its queue; and a data segment taken after its FIN is passed
up whole and acknowledged. -/
theorem half_close_intact {labels : List Action} {s : System}
    (run : ReliableRun ClientKeepsData labels s) :
    (s.endpoint .client).history.delivered <+: (s.endpoint .server).history.wrote ∧
      ∀ rand overread t, ClientKeepsData s (.thread .client rand overread) →
        System.step true s (.thread .client rand overread) = some t →
        ∀ packet rest, (s.endpoint .client).sock.networkRecvQueue = packet :: rest →
          (∀ length, (s.endpoint .client).recvLength = some length → packet.size ≤ length) ∧
            ((t.endpoint .client).sock.networkRecvQueue = rest → packet.IsData →
              (s.endpoint .client).ctx.FinSent →
              (t.endpoint .client).history.delivered =
                  (s.endpoint .client).history.delivered ++ packet.data ∧
                ∃ ack, ack.IsAck ∧ ack.thAck = trunc32 (packet.thSeq + packet.data.length) ∧
                  t.inFlight .client = s.inFlight .client ++ [ack]) := by
  refine ⟨?_, ?_⟩
  · exact delivered_prefix (stream_to_client run) (accounted_of_run run .server)
  · intro rand overread t admitted stepped packet rest queue
    refine ⟨fun length receives => recv_fits run admitted receives queue, ?_⟩
    intro taken isData finSent
    exact takes_data run admitted stepped queue taken isData finSent

/-- The handshake, one byte from the server on its way to the client, and the client's FIN. -/
private def halfCloseSchedule : List Action :=
  handshakeSchedule ++ [Action.write .server [1]] ++ iteration .server ++ [Action.close .client] ++
    iteration .client

/-- A client that takes the byte after its FIN has been acknowledged. -/
theorem half_close_intact_after_fin : ∃ s : System,
    (s.endpoint .client).ctx.connectionState = .finWait2 ∧
      (s.endpoint .client).history.delivered = [1] ∧
      (s.endpoint .client).history.delivered <+: (s.endpoint .server).history.wrote := by
  let schedule := handshakeSchedule ++ [Action.close .client] ++ iteration .client ++
    [Action.deliver .client] ++ iteration .server ++ [Action.write .server [1], .deliver .server] ++
    [Action.move .client, .move .client, .move .client] ++ iteration .server ++
    [Action.deliver .server] ++ iteration .client
  have reached : ∃ s, ReliableRun ClientKeepsData schedule s ∧
      (s.endpoint .client).ctx.connectionState = .finWait2 ∧
      (s.endpoint .client).history.delivered = [1] :=
    exec_reaches _ (by decide +kernel)
  obtain ⟨s, run, state, delivered⟩ := reached
  exact ⟨s, state, delivered, (half_close_intact run).1⟩

/-- Without the condition the claim fails: the client reads the 21 bytes of the data segment into a
header of 20, drops its byte and acknowledges nothing. -/
theorem half_close_drops_data : ∃ (labels : List Action) (s t : System),
    ReliableRun anyStep labels s ∧ System.step true s (.thread .client 31 true) = some t ∧
      (s.endpoint .client).ctx.connectionState = .finWait1 ∧
      (s.endpoint .client).recvLength = some 20 ∧
      (s.endpoint .client).sock.networkRecvQueue.map Segment.size = [21] ∧
      (∀ packet ∈ (s.endpoint .client).sock.networkRecvQueue, packet.IsData) ∧
      (t.endpoint .client).sock.networkRecvQueue = [] ∧
      (t.endpoint .client).history.delivered = [] ∧
      t.inFlight .client = s.inFlight .client := by
  have reached : ∃ s, ReliableRun anyStep
      (halfCloseSchedule ++ [Action.deliver .server, .move .client, .move .client]) s ∧
      (System.step true s (.thread .client 31 true)).any (fun t =>
        decide ((s.endpoint .client).ctx.connectionState = .finWait1 ∧
          (s.endpoint .client).recvLength = some 20 ∧
          (s.endpoint .client).sock.networkRecvQueue.map Segment.size = [21] ∧
          (∀ packet ∈ (s.endpoint .client).sock.networkRecvQueue, packet.IsData) ∧
          (t.endpoint .client).sock.networkRecvQueue = [] ∧
          (t.endpoint .client).history.delivered = [] ∧
          t.inFlight .client = s.inFlight .client)) = true :=
    exec_reaches _ (by decide +kernel)
  obtain ⟨s, run, next⟩ := reached
  obtain ⟨t, stepped, facts⟩ := (Option.any_eq_true _ _).mp next
  exact ⟨_, s, t, run, stepped, of_decide_eq_true facts⟩

end EE323.Stcp

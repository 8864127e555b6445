/-
Module: EE323.Stcp.Teardown
Purpose: The end of a connection.  When both applications have closed and nothing is left to process,
  both control loops have set `done`, unless the server has consumed its close event while it was
  still in `ESTABLISHED`, where the block at `close` does nothing with it.
Main exports: Endpoint.ForgetsClose, CloseKept, Quiet, no_stuck_close, server_closes_first
-/
import EE323.Stcp.Window
import EE323.Stcp.HalfClose

namespace EE323.Stcp

open EE323.Lib

/-- The server is about to run the block at `close` for a close event in `ESTABLISHED`. -/
def Endpoint.ForgetsClose (e : Endpoint) : Prop :=
  match e.pc with
  | .close event =>
      event.appCloseRequested = true ∧ e.ctx.isClient = false ∧
        e.ctx.connectionState = .established
  | _ => False

instance (e : Endpoint) : Decidable e.ForgetsClose :=
  match e with
  | { pc := .close _, .. } => inferInstanceAs (Decidable (_ ∧ _ ∧ _))
  | { pc := .start, .. } | { pc := .handshake, .. } | { pc := .waiting, .. }
  | { pc := .appData _, .. } | { pc := .networkData _, .. } | { pc := .exited, .. }
  | { pc := .crashed, .. } => .isFalse id

/-- The next step reads a bare header, and the segment at the head of the queue has a payload. -/
def Endpoint.OverreadsHeader (e : Endpoint) : Prop :=
  e.recvLength = some tcphdrSize ∧ ∃ packet ∈ e.sock.networkRecvQueue.head?, packet.data ≠ []

instance (e : Endpoint) : Decidable e.OverreadsHeader :=
  inferInstanceAs (Decidable (_ ∧ _))

/-- The acknowledgement processed next lies in the window. -/
def Endpoint.AckInWindow (e : Endpoint) : Prop :=
  ∀ packet ∈ e.nextAck,
    e.ctx.sendBase ≤ packet.thAck ∧ packet.thAck ≤ e.ctx.sendBase + e.ctx.swnd

instance (e : Endpoint) : Decidable e.AckInWindow := by
  unfold Endpoint.AckInWindow
  infer_instance

/-- No close event is forgotten, no payload is read into a bare header, and every acknowledgement
processed lies in the window. -/
def CloseKept (s : System) : Action → Prop
  | .thread side _ _ =>
      ¬(s.endpoint side).ForgetsClose ∧ ¬(s.endpoint side).OverreadsHeader ∧
        (s.endpoint side).AckInWindow
  | _ => True

instance (s : System) (action : Action) : Decidable (CloseKept s action) :=
  match action with
  | .thread _ _ _ => inferInstanceAs (Decidable (_ ∧ _ ∧ _))
  | .deliver _ | .write _ _ | .read _ _ | .close _ => .isTrue trivial

theorem CloseKept.acksInOrder {s : System} {action : Action} (kept : CloseKept s action) :
    AcksInOrder s action := by
  cases action with
  | thread => exact fun packet next => (kept.2.2 packet next).1
  | _ => trivial

/-! ### No step ends the process -/

private theorem loopEnd_not_crashed (e : Endpoint) : e.loopEnd.pc ≠ .crashed := by
  rw [Endpoint.loopEnd_pc]
  split <;> simp

private theorem not_crashed_step {s : System} {side : Side} {e' : Endpoint}
    {taken sent : Option Segment} (view : View (s.link side)) (numbered : Numbered (s.link side))
    (admitted : ¬(s.endpoint side).OverreadsHeader ∧ (s.endpoint side).AckInWindow)
    (moved : ThreadStep (s.endpoint side) taken sent e') : e'.pc ≠ .crashed := by
  have near : Coherent (s.endpoint side) := view.near
  have head : ∀ {packet rest}, (s.endpoint side).sock.networkRecvQueue = packet :: rest →
      (s.link side).inc = packet :: (rest ++ s.wire side.peer) := by
    intro packet rest queue
    simp [System.link, System.inFlight, queue]
  cases moved with
  | overread atHeader queue long =>
      rename_i packet rest
      exfalso
      rcases atHeader with pc | ⟨⟨event, enters⟩, state⟩
      · have empty := ((view.opening (near.handshake pc).1).1 _ _ (head queue)).2
        simp [Segment.size, empty] at long
      · have running : ¬(s.endpoint side).ctx.Opening := by
          rcases state with state | state <;> simp [Context.Opening, state]
        have isClient := near.client running
        have reads : (s.endpoint side).ReadsFinAck := by
          have role := near.role
          unfold Endpoint.ReadsFinAck
          rcases state with state | state <;> simp only [Context.InRole, state] at role <;>
            simp [state, isClient, role]
        refine admitted.1 ⟨enters.recvLength reads, packet, ?_, ?_⟩
        · rw [queue]
          rfl
        · intro empty
          simp [Segment.size, empty] at long
  | oversized pc ready queue long =>
      exfalso
      have running : ¬(s.endpoint side).ctx.Opening :=
        near.not_opening (by simp [Endpoint.InLoop, pc])
      obtain ⟨out, connected⟩ := view.opened running
      have flow := connected.incoming.flow
      rw [head queue] at flow
      have short := flow.head_short
      simp only [Segment.size] at long
      omega
  | appOverflow pc ready room dequeued outside =>
      exfalso
      have running : ¬(s.endpoint side).ctx.Opening :=
        near.not_opening (by simp [Endpoint.InLoop, pc])
      obtain ⟨sized, base, numbers⟩ := numbered.opened running
      have sized : Sized (s.endpoint side).ctx := sized
      have small : (s.endpoint side).ctx.nextSeqnum < 2 ^ 33 := numbers.small
      have notSent : ¬(s.endpoint side).ctx.FinSent := by
        intro finSent
        exact absurd finSent (near.not_finSent_of_dequeued dequeued)
      have window : InWindow (s.endpoint side).ctx := numbers.window notSent
      have short := mysockDequeueBuffer_length_le dequeued
      obtain ⟨buffer, stored⟩ := window.store_isSome sized (by omega)
        (Nat.le_trans short (Nat.min_le_left _ _))
      rw [outside] at stored
      cases stored
  | ackOverflow pc ready reads queue isAck outside =>
      exfalso
      have running : ¬(s.endpoint side).ctx.Opening :=
        near.not_opening (by simp [Endpoint.InLoop, pc])
      obtain ⟨sized, base, numbers⟩ := numbered.opened running
      have sized : Sized (s.endpoint side).ctx := sized
      have sendBase : (s.endpoint side).ctx.sendBase < 2 ^ 32 := numbers.sendBase
      obtain ⟨above, within⟩ := admitted.2 _ (nextAck_of_ack pc ready reads queue isAck)
      have most := sized.swnd_le
      obtain ⟨buffer, shifted⟩ := sized.shiftBuffer_isSome above within (by omega)
      rw [outside] at shifted
      cases shifted
  | finAcked => exact loopEnd_not_crashed _
  | ignored => exact loopEnd_not_crashed _
  | sendFin => exact loopEnd_not_crashed _
  | noClose => exact loopEnd_not_crashed _
  | forget => exact loopEnd_not_crashed _
  | accept pc => simp [pc]
  | stalled pc => simp [pc]
  | _ => simp

private theorem not_crashed {labels : List Action} {s : System}
    (run : ReliableRun CloseKept labels s) (side : Side) : (s.endpoint side).pc ≠ .crashed := by
  induction run generalizing side with
  | refl => cases side <;> simp [System.init, Endpoint.init]
  | @snoc s t labels action before admitted stepped inductionHypothesis =>
      rcases step_endpoint stepped side with same | moved
      · rw [same]
        exact inductionHypothesis side
      · have alive := inductionHypothesis side
        generalize t.endpoint side = e' at moved
        cases moved with
        | thread moved =>
            exact not_crashed_step (Protocol.view_of_run before side)
              (numbered_of_run CloseKept.acksInOrder before side) admitted.2 moved
        | receive => exact alive
        | app called =>
            rw [called.pc]
            exact alive

/-! ### The close event -/

/-- An end whose application has closed still holds the close event or has sent its FIN. -/
private structure Pending (e : Endpoint) : Prop where
  pending : e.appClosed = true →
    e.sock.closeRequested = true ∨ e.pc.closing = true ∨ e.ctx.FinSent

private theorem pending_step {link : Link} {e' : Endpoint} {taken sent : Option Segment}
    {inc : List Segment} (pending : Pending link.self) (view : View link)
    (kept : ¬link.self.ForgetsClose) (incoming : link.inc = taken.toList ++ inc)
    (moved : ThreadStep link.self taken sent e') (alive : e'.pc ≠ .crashed) : Pending e' := by
  have mono := view.near.finSent_mono moved
  -- a step that holds on to the event and to the request
  have hold : ∀ {e : Endpoint}, e.appClosed = link.self.appClosed →
      e.sock.closeRequested = link.self.sock.closeRequested →
      (link.self.pc.closing = true → e.pc.closing = true) →
      (link.self.ctx.FinSent → e.ctx.FinSent) → Pending e := by
    intro e appClosed closeRequested closing finSent
    refine ⟨fun closed => ?_⟩
    rw [appClosed] at closed
    rw [closeRequested]
    rcases pending.pending closed with requested | held | sent
    · exact .inl requested
    · exact .inr (.inl (closing held))
    · exact .inr (.inr (finSent sent))
  cases moved with
  | dispatch pc woken =>
      obtain ⟨rfl, rfl⟩ := stcpWaitForEvent_cases woken
      refine ⟨fun closed => ?_⟩
      rcases pending.pending closed with requested | held | sent
      · cases empty : link.self.sock.appRecvQueue.isEmpty with
        | false => exact .inl (by simp [requested])
        | true => exact .inr (.inl (by simp [Pc.closing, requested]))
      · rw [pc] at held
        cases held
      · exact .inr (.inr sent)
  | sendFin pc asked state => exact ⟨fun _ => .inr (.inr (by
      rw [Endpoint.loopEnd_ctx]
      cases link.self.ctx.isClient <;> simp [Context.FinSent, Context.sentFin]))⟩
  | finAcked enters header =>
      exact ⟨fun _ => .inr (.inr (mono (Context.awaitsFinAck_of_header header).finSent))⟩
  | ignored enters header =>
      exact ⟨fun _ => .inr (.inr (mono (Context.awaitsFinAck_of_header header).finSent))⟩
  | noClose pc quiet =>
      refine hold (by simp) (by simp) ?_ mono
      rw [pc]
      intro held
      simp only [Pc.closing, quiet] at held
      cases held
  | forget enters opening header dispatched =>
      refine ⟨fun _ => .inr (.inr (mono ?_))⟩
      have running := view.near.not_opening enters.inLoop
      have isClient := view.near.client running
      have role := view.near.role
      have established : link.self.ctx.connectionState = .established →
          link.self.ctx.isClient = false → False := by
        intro state passive
        rcases enters with ⟨pc, _⟩ | ⟨pc, asked⟩
        · rcases dispatched pc with other | other <;> rw [state] at other <;> cases other
        · exact kept (by simp [Endpoint.ForgetsClose, pc, asked, state, passive])
      unfold Context.Opening at running
      unfold Context.InRole at role
      unfold Context.FinSent
      cases active : link.self.isActive <;> cases state : link.self.ctx.connectionState <;>
        simp_all
  | connect pc =>
      refine hold rfl rfl ?_ mono
      rw [pc]
      exact fun held => Bool.noConfusion held
  | accept pc =>
      refine hold rfl rfl ?_ mono
      rw [pc]
      exact fun held => Bool.noConfusion held
  | accepted pc =>
      refine hold rfl rfl ?_ mono
      rw [pc]
      exact fun held => Bool.noConfusion held
  | sendSyn pc =>
      refine hold rfl rfl ?_ mono
      rw [pc]
      exact fun held => Bool.noConfusion held
  | stalled pc => exact hold rfl rfl (fun held => held) mono
  | overread => exact absurd rfl alive
  | oversized => exact absurd rfl alive
  | appOverflow => exact absurd rfl alive
  | ackOverflow => exact absurd rfl alive
  | appSkip pc =>
      refine hold rfl rfl ?_ mono
      rw [pc]
      exact fun held => held
  | appSend pc =>
      refine hold rfl rfl ?_ mono
      rw [pc]
      exact fun held => held
  | networkSkip pc =>
      refine hold rfl rfl ?_ mono
      rw [pc]
      exact fun held => held
  | ack pc =>
      refine hold rfl rfl ?_ mono
      rw [pc]
      exact fun held => held
  | fin pc =>
      refine hold rfl rfl ?_ mono
      rw [pc]
      exact fun held => held
  | data pc =>
      refine hold rfl (stcpAppSend_closeRequested _ _) ?_ mono
      rw [pc]
      exact fun held => held

private theorem pending_of_run {labels : List Action} {s : System}
    (run : ReliableRun CloseKept labels s) (side : Side) : Pending (s.endpoint side) := by
  induction run generalizing side with
  | refl => exact ⟨fun closed => Bool.noConfusion closed⟩
  | @snoc s t labels action before admitted stepped inductionHypothesis =>
      have alive := not_crashed (.snoc before admitted stepped) side
      obtain ⟨actor, moved⟩ := step_link stepped
      rcases Side.eq_or_eq_peer actor side with rfl | rfl
      · have pending : Pending (s.link side).self := inductionHypothesis side
        have view := Protocol.view_of_run before side
        have alive : (t.link side).self.pc ≠ .crashed := alive
        show Pending (t.link side).self
        generalize t.link side = after at moved alive
        cases moved with
        | thread moved incoming => exact pending_step pending view admitted.1 incoming moved alive
        | receive packet => exact ⟨pending.pending⟩
        | app called =>
            cases called with
            | write => exact ⟨pending.pending⟩
            | read _ returned =>
                rcases appRead_cases returned with ⟨_, rfl⟩ | ⟨_, _, _, _, rfl⟩
                · exact pending
                · exact ⟨pending.pending⟩
            | close => exact ⟨fun _ => .inl rfl⟩
      · have same : t.endpoint actor.peer = s.endpoint actor.peer := moved.peer_eq
        rw [same]
        exact inductionHypothesis _

/-! ### Quiet states -/

/-- Both applications have closed, every close event has been consumed, and nothing is in flight or
waiting to be sent. -/
structure Quiet (s : System) : Prop where
  closed : ∀ side, (s.endpoint side).appClosed = true
  consumed : ∀ side, (s.endpoint side).sock.closeRequested = false ∧
    (s.endpoint side).pc.closing = false
  drained : ∀ side, s.inFlight side = [] ∧ (s.endpoint side).sock.appRecvQueue = []

theorem Quiet.of_sides {s : System} (quiet : ∀ side ∈ [Side.client, Side.server],
    (s.endpoint side).appClosed = true ∧
      ((s.endpoint side).sock.closeRequested = false ∧ (s.endpoint side).pc.closing = false) ∧
      s.inFlight side = [] ∧ (s.endpoint side).sock.appRecvQueue = []) : Quiet s := by
  have both : ∀ side, side ∈ [Side.client, Side.server] := by
    intro side
    cases side <;> simp
  exact ⟨fun side => (quiet side (both side)).1, fun side => (quiet side (both side)).2.1,
    fun side => (quiet side (both side)).2.2⟩

instance (s : System) : Decidable (Quiet s) :=
  decidable_of_iff _
    ⟨Quiet.of_sides, fun quiet side _ => ⟨quiet.closed side, quiet.consumed side, quiet.drained side⟩⟩

/-- No stuck close: in every run that forgets no close event, reads no payload into a bare header
and processes no acknowledgement outside the window, both loops are done in every quiet state. -/
theorem no_stuck_close {labels : List Action} {s : System} (run : ReliableRun CloseKept labels s)
    (quiet : Quiet s) (side : Side) : (s.endpoint side).ctx.done = true := by
  have finSent : ∀ side, (s.endpoint side).ctx.FinSent := by
    intro side
    rcases (pending_of_run run side).pending (quiet.closed side) with requested | held | sent
    · rw [(quiet.consumed side).1] at requested
      cases requested
    · rw [(quiet.consumed side).2] at held
      cases held
    · exact sent
  have connected : ∀ side : Side,
      ∃ out, Connected (s.endpoint side).ctx (s.endpoint side.peer).ctx out [] := by
    intro side
    obtain ⟨out, connected⟩ := (Protocol.view_of_run run side).opened (finSent side).not_opening
    have incoming : (s.link side).inc = [] := (quiet.drained side.peer).1
    rw [incoming] at connected
    exact ⟨out, connected⟩
  have received : ∀ side : Side, (s.endpoint side).ctx.FinReceived := by
    intro side
    obtain ⟨out, connected⟩ := connected side
    rcases connected.incoming.finSent.mp (finSent side.peer) with received | inFlight
    · exact received
    · exact absurd inFlight hasFin_nil
  -- an end that has sent and received a FIN is done or waits for an acknowledgement in flight
  obtain ⟨out, connected⟩ := connected side
  have notAwaiting : ¬(s.endpoint side).ctx.AwaitsFinAck :=
    fun awaits => AckFirst.not_nil (connected.nearAwaits awaits (received side.peer))
  have near : Coherent (s.endpoint side) := (Protocol.view_of_run run side).near
  have sent := finSent side
  have received := received side
  have role := near.role
  unfold Context.FinSent at sent
  unfold Context.FinReceived at received
  unfold Context.AwaitsFinAck at notAwaiting
  cases state : (s.endpoint side).ctx.connectionState <;> simp_all

/-- The client closes first, the server after it. -/
theorem no_stuck_close_client_first : ∃ s : System, Quiet s ∧
    (s.endpoint .client).ctx.done = true ∧ (s.endpoint .server).ctx.done = true := by
  let schedule := handshakeSchedule ++ [Action.close .client] ++ iteration .client ++
    [Action.deliver .client] ++ iteration .server ++ [Action.close .server] ++ iteration .server ++
    [Action.deliver .server] ++ [Action.move .client, .move .client, .move .client] ++
    [Action.deliver .server] ++
    iteration .client ++ [Action.deliver .client] ++ [Action.move .server, .move .server, .move .server]
  have reached : ∃ s, ReliableRun CloseKept schedule s ∧ Quiet s :=
    exec_reaches _ (by decide +kernel)
  obtain ⟨s, run, quiet⟩ := reached
  exact ⟨s, quiet, no_stuck_close run quiet .client, no_stuck_close run quiet .server⟩

/-- The server closes first: its close event is consumed in `ESTABLISHED` and forgotten, and both
loops wait for ever. -/
theorem server_closes_first : ∃ (labels : List Action) (s : System),
    ReliableRun anyStep labels s ∧ Quiet s ∧
      (s.endpoint .client).pc = .waiting ∧ (s.endpoint .client).ctx.done = false ∧
      (s.endpoint .server).pc = .waiting ∧ (s.endpoint .server).ctx.done = false := by
  let schedule := handshakeSchedule ++ [Action.close .server] ++ iteration .server ++
    [Action.close .client] ++ iteration .client ++ [Action.deliver .client] ++ iteration .server ++
    [Action.deliver .server, .move .client, .move .client, .move .client]
  have reached : ∃ s, ReliableRun anyStep schedule s ∧ Quiet s ∧
      (s.endpoint .client).pc = .waiting ∧ (s.endpoint .client).ctx.done = false ∧
      (s.endpoint .server).pc = .waiting ∧ (s.endpoint .server).ctx.done = false :=
    exec_reaches _ (by decide +kernel)
  exact ⟨schedule, reached⟩

end EE323.Stcp

/-
Module: EE323.Stcp.Protocol
Purpose: The stages of a reliable connection, from the first SYN to the data phase.  The client is in
  the data phase before the server is, so for one stage the handshake acknowledgement travels ahead
  of data.
Main exports: Stage, Protocol, protocol_of_run, Protocol.head
-/
import EE323.Stcp.Flow

namespace EE323.Stcp

open EE323.Lib

/-- How far the handshake has come: the states of both ends and the segments in flight. -/
inductive Stage (client server : Context) (toServer toClient : List Segment) : Prop where
  | closed (clientState : client.connectionState = .closed) (notDone : client.done = false)
      (serverState : server.connectionState = .listen)
      (outgoing : toServer = []) (incoming : toClient = [])
  | synSent {syn : Segment} (clientState : client.connectionState = .synSent)
      (serverState : server.connectionState = .listen) (isSyn : syn.IsSyn) (empty : syn.data = [])
      (outgoing : toServer = [syn]) (incoming : toClient = [])
  | synRcvd {synAck : Segment} (clientState : client.connectionState = .synSent)
      (serverState : server.connectionState = .synRcvd) (isSyn : synAck.IsSyn)
      (empty : synAck.data = []) (outgoing : toServer = []) (incoming : toClient = [synAck])
  | halfOpen {ack : Segment} {segments : List Segment} (clientOpen : ¬client.Opening)
      (serverState : server.connectionState = .synRcvd) (isSyn : ack.IsSyn)
      (empty : ack.data = []) (outgoing : toServer = ack :: segments) (incoming : toClient = [])
      (noAcks : ∀ segment ∈ segments, ¬segment.IsAck)
      (connected : Connected client server segments [])
  | connected (clientOpen : ¬client.Opening) (serverOpen : ¬server.Opening)
      (connected : Connected client server toServer toClient)

/-- The state of a connection, seen from the client. -/
structure Protocol (link : Link) : Prop where
  near : Coherent link.self
  far : Coherent link.peer
  active : link.self.isActive = true
  passive : link.peer.isActive = false
  stage : Stage link.self.ctx link.peer.ctx link.out link.inc

/-! ### Steps -/

/-- Only its transport thread changes the context of an end. -/
theorem ctx_or_thread {s t : System} {action : Action}
    (stepped : System.step true s action = some t) (side : Side) :
    (t.endpoint side).ctx = (s.endpoint side).ctx ∨
      ∃ rand overread, action = .thread side rand overread := by
  rcases step_endpoint stepped side with same | moved
  · rw [same]
    exact .inl rfl
  · generalize t.endpoint side = after at moved ⊢
    cases moved with
    | thread => exact .inr ⟨_, _, rfl⟩
    | receive => exact .inl rfl
    | app called => exact .inl called.ctx

theorem ThreadStep.isActive {e e' : Endpoint} {taken sent : Option Segment}
    (moved : ThreadStep e taken sent e') : e'.isActive = e.isActive := by
  cases moved <;> simp

/-- Only a segment that has been received is acknowledged. -/
theorem ThreadStep.sent_not_ack {e e' : Endpoint} {segment : Segment}
    (moved : ThreadStep e none (some segment) e') : ¬segment.IsAck := by
  cases moved with
  | sendSyn => exact e.ctx.synSegment_isSyn.not_isAck
  | appSend => exact (e.ctx.dataSegment_isData _).not_isAck
  | sendFin => exact fun isAck => isAck.not_isFin e.ctx.finSegment_isFin

/-- What a transport thread that is still in its handshake can do. -/
inductive OpeningStep (e : Endpoint) : Option Segment → Option Segment → Context → Prop where
  | sendSyn (state : e.ctx.connectionState = .closed) :
      OpeningStep e none (some e.ctx.synSegment) { e.ctx with connectionState := .synSent }
  | connect {packet : Segment} (state : e.ctx.connectionState = .synSent) :
      OpeningStep e (some packet)
        (some (packet.echo packet.thAck (trunc32 (packet.thSeq + 1))))
        (e.ctx.establish e.isActive)
  | accept {packet : Segment} (state : e.ctx.connectionState = .listen) :
      OpeningStep e (some packet)
        (some (packet.echo e.ctx.initialSequenceNum (trunc32 (packet.thSeq + 1))))
        { e.ctx with connectionState := .synRcvd }
  | accepted {packet : Segment} (state : e.ctx.connectionState = .synRcvd) :
      OpeningStep e (some packet) none (e.ctx.establish e.isActive)
  | overread : OpeningStep e none none e.ctx

namespace OpeningStep

variable {e : Endpoint} {taken sent : Option Segment} {ctx' : Context}

/-- In `SYN_SENT` a thread takes a header and answers it, or does nothing. -/
theorem of_synSent (step : OpeningStep e taken sent ctx')
    (state : e.ctx.connectionState = .synSent) :
    (∃ packet, taken = some packet ∧
        sent = some (packet.echo packet.thAck (trunc32 (packet.thSeq + 1))) ∧
        ctx' = e.ctx.establish e.isActive) ∨
      taken = none ∧ sent = none ∧ ctx' = e.ctx := by
  cases step with
  | sendSyn other => exact absurd (state.symm.trans other) (by decide)
  | connect => exact .inl ⟨_, rfl, rfl, rfl⟩
  | accept other => exact absurd (state.symm.trans other) (by decide)
  | accepted other => exact absurd (state.symm.trans other) (by decide)
  | overread => exact .inr ⟨rfl, rfl, rfl⟩

/-- In `LISTEN` likewise, and it waits for one more. -/
theorem of_listen (step : OpeningStep e taken sent ctx')
    (state : e.ctx.connectionState = .listen) :
    (∃ packet, taken = some packet ∧
        sent = some (packet.echo e.ctx.initialSequenceNum (trunc32 (packet.thSeq + 1))) ∧
        ctx' = { e.ctx with connectionState := .synRcvd }) ∨
      taken = none ∧ sent = none ∧ ctx' = e.ctx := by
  cases step with
  | sendSyn other => exact absurd (state.symm.trans other) (by decide)
  | connect other => exact absurd (state.symm.trans other) (by decide)
  | accept => exact .inl ⟨_, rfl, rfl, rfl⟩
  | accepted other => exact absurd (state.symm.trans other) (by decide)
  | overread => exact .inr ⟨rfl, rfl, rfl⟩

/-- In `SYN_RCVD` it takes a header and sends nothing. -/
theorem of_synRcvd (step : OpeningStep e taken sent ctx')
    (state : e.ctx.connectionState = .synRcvd) :
    sent = none ∧ ((∃ packet, taken = some packet ∧ ctx' = e.ctx.establish e.isActive) ∨
      taken = none ∧ ctx' = e.ctx) := by
  cases step with
  | sendSyn other => exact absurd (state.symm.trans other) (by decide)
  | connect other => exact absurd (state.symm.trans other) (by decide)
  | accept other => exact absurd (state.symm.trans other) (by decide)
  | accepted => exact ⟨rfl, .inl ⟨_, rfl, rfl⟩⟩
  | overread => exact ⟨rfl, .inr ⟨rfl, rfl⟩⟩

end OpeningStep

theorem Coherent.opening_step {e e' : Endpoint} {taken sent : Option Segment}
    (coherent : Coherent e) (opening : e.ctx.Opening) (moved : ThreadStep e taken sent e') :
    OpeningStep e taken sent e'.ctx := by
  have place := coherent.opening opening
  cases moved with
  | sendSyn pc => exact .sendSyn (coherent.start pc).1
  | connect _ _ state => exact .connect state
  | accept _ _ state => exact .accept state
  | accepted _ _ state => exact .accepted state
  | stalled pc _ notSynSent notListen notSynRcvd =>
      have inHandshake := coherent.handshake pc
      unfold Context.Opening at inHandshake
      split at inHandshake <;> simp_all
  | overread => exact .overread
  | finAcked enters => rcases enters.place with pc | pc <;> simp [pc] at place
  | ignored enters => rcases enters.place with pc | pc <;> simp [pc] at place
  | forget enters => rcases enters.place with pc | pc <;> simp [pc] at place
  | sendFin pc => simp [pc] at place
  | oversized pc => simp [pc] at place
  | dispatch pc => simp [pc] at place
  | appSkip pc => simp [pc] at place
  | appSend pc => simp [pc] at place
  | appOverflow pc => simp [pc] at place
  | networkSkip pc => simp [pc] at place
  | ack pc => simp [pc] at place
  | ackOverflow pc => simp [pc] at place
  | fin pc => simp [pc] at place
  | data pc => simp [pc] at place
  | noClose pc => simp [pc] at place

/-- An end that has left the handshake never returns to it. -/
theorem Coherent.stays_open {e e' : Endpoint} {taken sent : Option Segment}
    (coherent : Coherent e) (running : ¬e.ctx.Opening) (moved : ThreadStep e taken sent e') :
    ¬e'.ctx.Opening := by
  cases moved with
  | sendSyn pc =>
      exact absurd (coherent.opening_of_start pc) running
  | connect pc => exact absurd (coherent.handshake pc).1 running
  | accept pc => exact absurd (coherent.handshake pc).1 running
  | accepted pc => exact absurd (coherent.handshake pc).1 running
  | stalled => exact running
  | overread => exact running
  | oversized => exact running
  | dispatch => exact running
  | appSkip => exact running
  | appSend => exact fun opening => running ((Context.samePhase_sent _ _ _).opening.mp opening)
  | appOverflow => exact running
  | networkSkip => exact running
  | ack => exact fun opening => running ((Context.samePhase_acked _ _ _).opening.mp opening)
  | ackOverflow => exact running
  | fin =>
      simp only [Context.receivedFin]
      split <;> simp [Context.Opening]
  | data => exact fun opening => running ((Context.samePhase_recvBase _ _).opening.mp opening)
  | finAcked =>
      rw [Endpoint.loopEnd_ctx]
      simp only [Context.finAcked]
      split <;> simp [Context.Opening]
  | ignored => simpa using running
  | sendFin =>
      rw [Endpoint.loopEnd_ctx]
      cases e.ctx.isClient <;> simp [Context.Opening, Context.sentFin]
  | noClose => simpa using running
  | forget => simpa using running

namespace Context

theorem opening_of_listen {ctx : Context} (state : ctx.connectionState = .listen) :
    ctx.Opening := by
  simp [Opening, state]

theorem opening_of_synSent {ctx : Context} (state : ctx.connectionState = .synSent) :
    ctx.Opening := by
  simp [Opening, state]

theorem opening_of_synRcvd {ctx : Context} (state : ctx.connectionState = .synRcvd) :
    ctx.Opening := by
  simp [Opening, state]

end Context

/-- Both directions are empty, and no end has sent a FIN. -/
private theorem connected_of_established {client server : Context} (isActive : Bool)
    (serverState : server.connectionState = .synRcvd) :
    Connected (client.establish isActive) server [] [] where
  outgoing :=
    { flow := .nil
      finSent := by simp [Context.establish, Context.FinSent, Context.FinReceived, serverState]
      finReceived := fun _ => .nil }
  incoming :=
    { flow := .nil
      finSent := by simp [Context.establish, Context.FinSent, Context.FinReceived, serverState]
      finReceived := fun _ => .nil }
  nearAwaits := by simp [Context.establish, Context.AwaitsFinAck]
  farAwaits := by simp [Context.AwaitsFinAck, serverState]

private theorem connected_of_accepted {client server : Context} {segments : List Segment}
    (isActive : Bool) (serverState : server.connectionState = .synRcvd)
    (connected : Connected client server segments []) :
    Connected client (server.establish isActive) segments [] where
  outgoing := connected.outgoing.congr Iff.rfl
    (by simp [Context.establish, Context.FinReceived, serverState])
  incoming := connected.incoming.congr
    (by simp [Context.establish, Context.FinSent, serverState]) Iff.rfl
  nearAwaits := by simp [Context.establish, Context.FinReceived]
  farAwaits := by simp [Context.establish, Context.AwaitsFinAck]

/-- The stage after a step of the client's thread. -/
private theorem stage_client {client client' server : Endpoint} {taken sent : Option Segment}
    {toServer toClient : List Segment} (coherent : Coherent client)
    (serverCoherent : Coherent server) (active : client.isActive = true)
    (passive : server.isActive = false)
    (stage : Stage client.ctx server.ctx toServer (taken.toList ++ toClient))
    (moved : ThreadStep client taken sent client') :
    Stage client'.ctx server.ctx (toServer ++ sent.toList) toClient := by
  cases stage with
  | closed clientState notDone serverState outgoing incoming =>
      have opening : client.ctx.Opening := by simp [Context.Opening, clientState, notDone]
      have step := coherent.opening_step opening moved
      generalize client'.ctx = ctx' at step
      cases step with
      | sendSyn =>
          exact .synSent rfl serverState client.ctx.synSegment_isSyn rfl (by simp [outgoing])
            (by simpa using incoming)
      | connect => cases incoming
      | accept => cases incoming
      | accepted => cases incoming
      | overread =>
          exact .closed clientState notDone serverState (by simp [outgoing])
            (by simpa using incoming)
  | synSent clientState serverState isSyn empty outgoing incoming =>
      have step := coherent.opening_step (Context.opening_of_synSent clientState) moved
      rcases step.of_synSent clientState with ⟨packet, rfl, _, _⟩ | ⟨rfl, rfl, same⟩
      · cases incoming
      · rw [same]
        exact .synSent clientState serverState isSyn empty (by simp [outgoing])
          (by simpa using incoming)
  | synRcvd clientState serverState isSyn empty outgoing incoming =>
      have step := coherent.opening_step (Context.opening_of_synSent clientState) moved
      rcases step.of_synSent clientState with ⟨packet, rfl, rfl, established⟩ | ⟨rfl, rfl, same⟩
      · cases incoming
        rw [established]
        exact .halfOpen (Context.establish_not_opening _ _) serverState (isSyn.echo _ _) rfl
          (by rw [outgoing]; rfl) rfl (by simp) (connected_of_established _ serverState)
      · rw [same]
        exact .synRcvd clientState serverState isSyn empty (by simp [outgoing])
          (by simpa using incoming)
  | halfOpen clientOpen serverState isSyn empty outgoing incoming noAcks connected =>
      have none_taken : taken = none ∧ toClient = [] := by
        cases taken with
        | none => exact ⟨rfl, incoming⟩
        | some packet => cases incoming
      obtain ⟨rfl, rfl⟩ := none_taken
      refine .halfOpen (coherent.stays_open clientOpen moved) serverState isSyn empty
        (by rw [outgoing]; rfl) rfl ?_ ?_
      · intro segment member
        rcases List.mem_append.mp member with earlier | last
        · exact noAcks segment earlier
        · have isSent := Option.mem_toList.mp last
          subst isSent
          exact moved.sent_not_ack
      · exact connected.threadStep coherent serverCoherent (by simp [active, passive]) clientOpen moved
  | connected clientOpen serverOpen connected =>
      exact .connected (coherent.stays_open clientOpen moved) serverOpen
        (connected.threadStep coherent serverCoherent (by simp [active, passive]) clientOpen moved)

/-- The stage after a step of the server's thread. -/
private theorem stage_server {client server server' : Endpoint} {taken sent : Option Segment}
    {toServer toClient : List Segment} (coherent : Coherent server)
    (clientCoherent : Coherent client) (active : client.isActive = true)
    (passive : server.isActive = false)
    (stage : Stage client.ctx server.ctx (taken.toList ++ toServer) toClient)
    (moved : ThreadStep server taken sent server') :
    Stage client.ctx server'.ctx toServer (toClient ++ sent.toList) := by
  cases stage with
  | closed clientState notDone serverState outgoing incoming =>
      have step := coherent.opening_step (Context.opening_of_listen serverState) moved
      rcases step.of_listen serverState with ⟨packet, rfl, _, _⟩ | ⟨rfl, rfl, same⟩
      · cases outgoing
      · rw [same]
        exact .closed clientState notDone serverState (by simpa using outgoing)
          (by simp [incoming])
  | synSent clientState serverState isSyn empty outgoing incoming =>
      have step := coherent.opening_step (Context.opening_of_listen serverState) moved
      rcases step.of_listen serverState with ⟨packet, rfl, rfl, accepted⟩ | ⟨rfl, rfl, same⟩
      · cases outgoing
        rw [accepted]
        exact .synRcvd clientState rfl (isSyn.echo _ _) rfl rfl (by rw [incoming]; rfl)
      · rw [same]
        exact .synSent clientState serverState isSyn empty (by simpa using outgoing)
          (by simp [incoming])
  | synRcvd clientState serverState isSyn empty outgoing incoming =>
      have step := coherent.opening_step (Context.opening_of_synRcvd serverState) moved
      obtain ⟨rfl, ⟨packet, rfl, _⟩ | ⟨rfl, same⟩⟩ := step.of_synRcvd serverState
      · cases outgoing
      · rw [same]
        exact .synRcvd clientState serverState isSyn empty (by simpa using outgoing)
          (by simp [incoming])
  | halfOpen clientOpen serverState isSyn empty outgoing incoming noAcks connected =>
      have step := coherent.opening_step (Context.opening_of_synRcvd serverState) moved
      obtain ⟨rfl, ⟨packet, rfl, established⟩ | ⟨rfl, same⟩⟩ := step.of_synRcvd serverState
      · cases outgoing
        rw [established]
        refine .connected clientOpen (Context.establish_not_opening _ _) ?_
        rw [incoming]
        exact connected_of_accepted _ serverState connected
      · rw [same]
        exact .halfOpen clientOpen serverState isSyn empty (by simpa using outgoing)
          (by simp [incoming]) noAcks connected
  | connected clientOpen serverOpen connected =>
      refine .connected clientOpen (coherent.stays_open serverOpen moved) ?_
      exact (connected.swap.threadStep coherent clientCoherent (by simp [active, passive])
        serverOpen moved).swap

namespace Protocol

theorem init : Protocol (System.init.link .client) where
  near := Coherent.init true
  far := Coherent.init false
  active := rfl
  passive := rfl
  stage := .closed rfl rfl rfl rfl rfl

private theorem client_step {link link' : Link} {action : Action} (protocol : Protocol link)
    (moved : LinkStep .client link action link') : Protocol link' := by
  obtain ⟨near, far, active, passive, stage⟩ := protocol
  cases moved with
  | thread moved incoming =>
      rw [incoming] at stage
      refine ⟨near.threadStep moved ?_, far, moved.isActive.trans active, passive,
        stage_client near far active passive stage moved⟩
      rintro packet rfl isFin _ running
      cases stage with
      | closed clientState notDone =>
          exact absurd (by simp [Context.Opening, clientState, notDone]) running
      | synSent clientState => exact absurd (Context.opening_of_synSent clientState) running
      | synRcvd clientState => exact absurd (Context.opening_of_synSent clientState) running
      | halfOpen _ _ _ _ _ incoming => cases incoming
      | connected _ _ connected => exact connected.finSent_of_head_fin far passive isFin
  | receive packet => exact ⟨near.receive packet, far, active, passive, stage⟩
  | app called =>
      refine ⟨near.appStep called, far, called.isActive.trans active, passive, ?_⟩
      simpa only [called.ctx] using stage

private theorem server_step {link link' : Link} {action : Action} (protocol : Protocol link.swap)
    (moved : LinkStep .server link action link') : Protocol link'.swap := by
  obtain ⟨near, far, active, passive, stage⟩ := protocol
  cases moved with
  | thread moved incoming =>
      simp only [Link.swap, incoming] at stage
      refine ⟨near, far.threadStep moved ?_, active, moved.isActive.trans passive,
        stage_server far near active passive stage moved⟩
      rintro packet rfl isFin serverActive
      rw [passive] at serverActive
      cases serverActive
  | receive packet => exact ⟨near, far.receive packet, active, passive, stage⟩
  | app called =>
      refine ⟨near, far.appStep called, active, called.isActive.trans passive, ?_⟩
      simpa only [Link.swap, called.ctx] using stage

/-- Every run over the reliable network follows the protocol. -/
theorem of_run {guard : System → Action → Prop} {labels : List Action} {s : System}
    (run : ReliableRun guard labels s) : Protocol (s.link .client) := by
  let Inv : System → Prop := fun u => Protocol (u.link .client)
  have initially : Inv System.init := init
  refine run.invariant initially ?_
  intro s action t protocol _ stepped
  obtain ⟨side, moved⟩ := step_link stepped
  cases side with
  | client => exact protocol.client_step moved
  | server =>
      have peer : ∀ u : System, (u.link .server).swap = u.link .client :=
        fun u => (u.link_peer .server).symm
      have swapped := Protocol.server_step (by rwa [peer]) moved
      rwa [peer] at swapped

private theorem finSent_of_hasFin {link : Link} (protocol : Protocol link) :
    (HasFin link.out → link.self.ctx.FinSent) ∧ (HasFin link.inc → link.peer.ctx.FinSent) := by
  obtain ⟨_, _, _, _, stage⟩ := protocol
  cases stage with
  | closed _ _ _ outgoing incoming => simp [outgoing, incoming]
  | synSent _ _ isSyn _ outgoing incoming => simp [outgoing, incoming, isSyn.not_isFin]
  | synRcvd _ _ isSyn _ outgoing incoming => simp [outgoing, incoming, isSyn.not_isFin]
  | halfOpen _ _ isSyn _ outgoing incoming _ connected =>
      rw [outgoing, incoming, hasFin_cons]
      refine ⟨fun sent => ?_, fun sent => absurd sent hasFin_nil⟩
      rcases sent with isFin | sent
      · exact absurd isFin isSyn.not_isFin
      · exact connected.outgoing.finSent.mpr (.inr sent)
  | connected _ _ connected =>
      exact ⟨fun sent => connected.outgoing.finSent.mpr (.inr sent),
        fun sent => connected.incoming.finSent.mpr (.inr sent)⟩

/-- The end that has not answered yet has a peer in its handshake, and at most one segment on its
way to it. -/
private theorem unanswered {link : Link} (protocol : Protocol link) :
    (link.self.ctx.Opening → link.peer.ctx.Opening ∧
      (link.inc = [] ∨ link.peer.ctx.connectionState = .synRcvd ∧ ∃ packet, link.inc = [packet])) ∧
    (link.peer.ctx.Opening → link.peer.ctx.connectionState ≠ .synRcvd →
      link.self.ctx.Opening ∧ (link.out = [] ∨ ∃ packet, link.out = [packet])) := by
  obtain ⟨_, _, _, _, stage⟩ := protocol
  cases stage with
  | closed clientState notDone serverState outgoing incoming =>
      have opening : link.self.ctx.Opening := by simp [Context.Opening, clientState, notDone]
      exact ⟨fun _ => ⟨Context.opening_of_listen serverState, .inl incoming⟩,
        fun _ _ => ⟨opening, .inl outgoing⟩⟩
  | synSent clientState serverState _ _ outgoing incoming =>
      exact ⟨fun _ => ⟨Context.opening_of_listen serverState, .inl incoming⟩,
        fun _ _ => ⟨Context.opening_of_synSent clientState, .inr ⟨_, outgoing⟩⟩⟩
  | synRcvd clientState serverState _ _ outgoing incoming =>
      exact ⟨fun _ => ⟨Context.opening_of_synRcvd serverState, .inr ⟨serverState, _, incoming⟩⟩,
        fun _ answered => absurd serverState answered⟩
  | halfOpen clientOpen serverState =>
      exact ⟨fun opening => absurd opening clientOpen,
        fun _ answered => absurd serverState answered⟩
  | connected clientOpen serverOpen =>
      exact ⟨fun opening => absurd opening clientOpen, fun opening => absurd opening serverOpen⟩

/-- What an end in `LISTEN`, or before its answer to a SYN-ACK, has on its way to it. -/
theorem unanswered_of_run {guard : System → Action → Prop} {labels : List Action} {s : System}
    (run : ReliableRun guard labels s) (side : Side)
    (opening : (s.link side).self.ctx.Opening)
    (notAnswered : (s.link side).self.ctx.connectionState ≠ .synRcvd) :
    (s.link side).peer.ctx.Opening ∧ ((s.link side).inc = [] ∨
      ((s.link side).self.ctx.connectionState = .synSent →
        (s.link side).peer.ctx.connectionState = .synRcvd) ∧
          ∃ packet, (s.link side).inc = [packet]) := by
  have protocol := of_run run
  cases side with
  | client =>
      obtain ⟨peerOpening, empty | ⟨state, single⟩⟩ := protocol.unanswered.1 opening
      · exact ⟨peerOpening, .inl empty⟩
      · exact ⟨peerOpening, .inr ⟨fun _ => state, single⟩⟩
  | server =>
      obtain ⟨peerOpening, empty | single⟩ := protocol.unanswered.2 opening notAnswered
      · exact ⟨peerOpening, .inl empty⟩
      · refine ⟨peerOpening, .inr ⟨fun state => ?_, single⟩⟩
        have role := protocol.far.role
        have passive := protocol.passive
        have state : (s.link .client).peer.ctx.connectionState = .synSent := state
        simp [Context.InRole, state, passive] at role

/-- A FIN in flight has been sent. -/
theorem finSent_of_run {guard : System → Action → Prop} {labels : List Action} {s : System}
    (run : ReliableRun guard labels s) (side : Side) (sent : HasFin (s.link side).out) :
    (s.link side).self.ctx.FinSent := by
  cases side with
  | client => exact (of_run run).finSent_of_hasFin.1 sent
  | server => exact (of_run run).finSent_of_hasFin.2 sent

end Protocol

/-- What the protocol says to an end about the segments it may take: a handshake segment while it is
in its handshake, and afterwards segments in the order of the data phase. -/
structure View (link : Link) : Prop where
  near : Coherent link.self
  far : Coherent link.peer
  roles : link.peer.isActive = !link.self.isActive
  opening : link.self.ctx.Opening →
    (∀ packet rest, link.inc = packet :: rest → packet.IsSyn ∧ packet.data = []) ∧
      ∀ segment ∈ link.inc, ¬segment.IsAck
  opened : ¬link.self.ctx.Opening →
    ∃ out, Connected link.self.ctx link.peer.ctx out link.inc

namespace Protocol

private theorem client_view {link : Link} (protocol : Protocol link) : View link := by
  obtain ⟨near, far, active, passive, stage⟩ := protocol
  refine ⟨near, far, by simp [active, passive], ?_, ?_⟩
  · intro opening
    cases stage with
    | closed _ _ _ _ incoming => simp [incoming]
    | synSent _ _ _ _ _ incoming => simp [incoming]
    | synRcvd _ _ isSyn empty _ incoming => simp [incoming, isSyn, empty, isSyn.not_isAck]
    | halfOpen clientOpen => exact absurd opening clientOpen
    | connected clientOpen => exact absurd opening clientOpen
  · intro running
    cases stage with
    | closed clientState notDone =>
        exact absurd (by simp [Context.Opening, clientState, notDone]) running
    | synSent clientState => exact absurd (Context.opening_of_synSent clientState) running
    | synRcvd clientState => exact absurd (Context.opening_of_synSent clientState) running
    | halfOpen _ _ _ _ _ incoming _ connected =>
        rw [incoming]
        exact ⟨_, connected⟩
    | connected _ _ connected => exact ⟨_, connected⟩

private theorem server_view {link : Link} (protocol : Protocol link) : View link.swap := by
  obtain ⟨near, far, active, passive, stage⟩ := protocol
  refine ⟨far, near, by simp [Link.swap, active, passive], ?_, ?_⟩
  · intro opening
    simp only [Link.swap]
    cases stage with
    | closed _ _ _ outgoing => simp [outgoing]
    | synSent _ _ isSyn empty outgoing => simp [outgoing, isSyn, empty, isSyn.not_isAck]
    | synRcvd _ _ _ _ outgoing => simp [outgoing]
    | halfOpen _ _ isSyn empty outgoing _ noAcks =>
        simpa [outgoing, isSyn, empty, isSyn.not_isAck] using noAcks
    | connected _ serverOpen => exact absurd opening serverOpen
  · intro running
    cases stage with
    | closed _ _ serverState => exact absurd (Context.opening_of_listen serverState) running
    | synSent _ serverState => exact absurd (Context.opening_of_listen serverState) running
    | synRcvd _ serverState => exact absurd (Context.opening_of_synRcvd serverState) running
    | halfOpen _ serverState => exact absurd (Context.opening_of_synRcvd serverState) running
    | connected _ _ connected => exact ⟨_, connected.swap⟩

/-- Both ends have a view of the same protocol. -/
theorem view_of_run {guard : System → Action → Prop} {labels : List Action} {s : System}
    (run : ReliableRun guard labels s) (side : Side) : View (s.link side) := by
  cases side with
  | client => exact (of_run run).client_view
  | server =>
      have swapped := (of_run run).server_view
      rwa [← s.link_peer .client] at swapped

end Protocol

end EE323.Stcp

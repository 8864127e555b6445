/-
Module: EE323.Stcp.Flow
Purpose: The order of the segments that one end sends: data and acknowledgements, then at most one
  FIN, then acknowledgements only.  The order is tied to the states of both ends, and it decides
  which segments can stand at the head of a receive queue.
Main exports: Flow, AckFirst, Direction, Connected, Connected.threadStep
-/
import EE323.Stcp.Roles

namespace EE323.Stcp

open EE323.Lib

/-! ### Segments in flight one way -/

/-- Only acknowledgements. -/
def Acks (segments : List Segment) : Prop :=
  ∀ segment ∈ segments, segment.IsAck ∧ segment.data = []

def HasFin (segments : List Segment) : Prop := ∃ segment ∈ segments, segment.IsFin

/-- Data and acknowledgements, then at most one FIN, then acknowledgements only. -/
inductive Flow : List Segment → Prop where
  | nil : Flow []
  | ack {segment : Segment} {rest : List Segment} (isAck : segment.IsAck)
      (empty : segment.data = []) (tail : Flow rest) : Flow (segment :: rest)
  | data {segment : Segment} {rest : List Segment} (isData : segment.IsData)
      (short : segment.data.length ≤ MSS) (tail : Flow rest) : Flow (segment :: rest)
  | fin {segment : Segment} {rest : List Segment} (isFin : segment.IsFin)
      (empty : segment.data = []) (tail : Acks rest) : Flow (segment :: rest)

/-- An acknowledgement comes before anything but data. -/
inductive AckFirst : List Segment → Prop where
  | here {segment : Segment} {rest : List Segment} (isAck : segment.IsAck) :
      AckFirst (segment :: rest)
  | there {segment : Segment} {rest : List Segment} (isData : segment.IsData)
      (tail : AckFirst rest) : AckFirst (segment :: rest)

@[simp] theorem hasFin_nil : ¬HasFin [] := by
  rintro ⟨segment, member, _⟩
  cases member

@[simp] theorem hasFin_cons {segment : Segment} {rest : List Segment} :
    HasFin (segment :: rest) ↔ segment.IsFin ∨ HasFin rest := by
  simp [HasFin]

@[simp] theorem hasFin_append {first second : List Segment} :
    HasFin (first ++ second) ↔ HasFin first ∨ HasFin second := by
  simp [HasFin, or_and_right, exists_or]

namespace Acks

theorem nil : Acks [] := by
  intro segment member
  cases member

theorem cons {segment : Segment} {rest : List Segment} (isAck : segment.IsAck)
    (empty : segment.data = []) (tail : Acks rest) : Acks (segment :: rest) := by
  intro other member
  rcases List.mem_cons.mp member with rfl | later
  · exact ⟨isAck, empty⟩
  · exact tail other later

theorem tail {segment : Segment} {rest : List Segment} (acks : Acks (segment :: rest)) :
    Acks rest :=
  fun other member => acks other (List.mem_cons_of_mem _ member)

theorem head {segment : Segment} {rest : List Segment} (acks : Acks (segment :: rest)) :
    segment.IsAck :=
  (acks segment List.mem_cons_self).1

theorem snoc {segments : List Segment} {segment : Segment} (acks : Acks segments)
    (isAck : segment.IsAck) (empty : segment.data = []) : Acks (segments ++ [segment]) := by
  intro other member
  rcases List.mem_append.mp member with earlier | last
  · exact acks other earlier
  · rw [List.mem_singleton.mp last]
    exact ⟨isAck, empty⟩

theorem flow {segments : List Segment} (acks : Acks segments) : Flow segments := by
  induction segments with
  | nil => exact .nil
  | cons segment rest inductionHypothesis =>
      have head := acks segment List.mem_cons_self
      exact .ack head.1 head.2 (inductionHypothesis acks.tail)

theorem ackFirst_snoc {segments : List Segment} {segment : Segment} (acks : Acks segments)
    (isAck : segment.IsAck) : AckFirst (segments ++ [segment]) := by
  cases segments with
  | nil => exact .here isAck
  | cons first rest => exact .here acks.head

end Acks

namespace Flow

theorem snoc_ack {segments : List Segment} {segment : Segment} (flow : Flow segments)
    (isAck : segment.IsAck) (empty : segment.data = []) : Flow (segments ++ [segment]) := by
  induction flow with
  | nil => exact .ack isAck empty .nil
  | ack headAck headEmpty _ inductionHypothesis => exact .ack headAck headEmpty inductionHypothesis
  | data isData short _ inductionHypothesis => exact .data isData short inductionHypothesis
  | fin isFin headEmpty tail => exact .fin isFin headEmpty (tail.snoc isAck empty)

/-- What may follow when no FIN has been sent. -/
private theorem snoc {segments : List Segment} {segment : Segment} (flow : Flow segments)
    (unfinished : ¬HasFin segments) (last : Flow [segment]) : Flow (segments ++ [segment]) := by
  induction flow with
  | nil => exact last
  | ack headAck headEmpty _ inductionHypothesis =>
      rw [hasFin_cons, not_or] at unfinished
      exact .ack headAck headEmpty (inductionHypothesis unfinished.2)
  | data isData short _ inductionHypothesis =>
      rw [hasFin_cons, not_or] at unfinished
      exact .data isData short (inductionHypothesis unfinished.2)
  | fin isFin => exact absurd (hasFin_cons.mpr (.inl isFin)) unfinished

theorem snoc_data {segments : List Segment} {segment : Segment} (flow : Flow segments)
    (unfinished : ¬HasFin segments) (isData : segment.IsData)
    (short : segment.data.length ≤ MSS) : Flow (segments ++ [segment]) :=
  flow.snoc unfinished (.data isData short .nil)

theorem snoc_fin {segments : List Segment} {segment : Segment} (flow : Flow segments)
    (unfinished : ¬HasFin segments) (isFin : segment.IsFin) (empty : segment.data = []) :
    Flow (segments ++ [segment]) :=
  flow.snoc unfinished (.fin isFin empty .nil)

theorem tail {segment : Segment} {rest : List Segment} (flow : Flow (segment :: rest)) :
    Flow rest := by
  cases flow with
  | ack _ _ tail => exact tail
  | data _ _ tail => exact tail
  | fin _ _ tail => exact tail.flow

/-- A segment that is neither an acknowledgement nor a FIN is a data segment that fits the receive
buffer. -/
theorem head_data {segment : Segment} {rest : List Segment} (flow : Flow (segment :: rest))
    (notAck : ¬segment.IsAck) (notFin : ¬segment.IsFin) :
    segment.IsData ∧ segment.data.length ≤ MSS := by
  cases flow with
  | ack isAck => exact absurd isAck notAck
  | data isData short => exact ⟨isData, short⟩
  | fin isFin => exact absurd isFin notFin

theorem after_fin {segment : Segment} {rest : List Segment} (flow : Flow (segment :: rest))
    (isFin : segment.IsFin) : Acks rest := by
  cases flow with
  | ack isAck => exact absurd isFin isAck.not_isFin
  | data isData => exact absurd isFin isData.not_isFin
  | fin _ _ tail => exact tail

theorem head_empty {segment : Segment} {rest : List Segment} (flow : Flow (segment :: rest))
    (notData : ¬segment.IsData) : segment.data = [] := by
  cases flow with
  | ack _ empty => exact empty
  | data isData => exact absurd isData notData
  | fin _ empty => exact empty

theorem head_short {segment : Segment} {rest : List Segment} (flow : Flow (segment :: rest)) :
    segment.data.length ≤ MSS := by
  cases flow with
  | ack _ empty => simp [empty]
  | data _ short => exact short
  | fin _ empty => simp [empty]

theorem ackFirst_snoc {segments : List Segment} {segment : Segment} (flow : Flow segments)
    (unfinished : ¬HasFin segments) (isAck : segment.IsAck) :
    AckFirst (segments ++ [segment]) := by
  induction flow with
  | nil => exact .here isAck
  | ack headAck => exact .here headAck
  | data isData _ _ inductionHypothesis =>
      rw [hasFin_cons, not_or] at unfinished
      exact .there isData (inductionHypothesis unfinished.2)
  | fin isFin => exact absurd (hasFin_cons.mpr (.inl isFin)) unfinished

end Flow

namespace AckFirst

theorem append {segments : List Segment} (ackFirst : AckFirst segments) (more : List Segment) :
    AckFirst (segments ++ more) := by
  induction ackFirst with
  | here isAck => exact .here isAck
  | there isData _ inductionHypothesis => exact .there isData inductionHypothesis

theorem head {segment : Segment} {rest : List Segment} (ackFirst : AckFirst (segment :: rest))
    (notAck : ¬segment.IsAck) : segment.IsData ∧ AckFirst rest := by
  cases ackFirst with
  | here isAck => exact absurd isAck notAck
  | there isData tail => exact ⟨isData, tail⟩

theorem not_nil : ¬AckFirst [] := by
  intro ackFirst
  cases ackFirst

end AckFirst

/-! ### The segments in flight and the states of the two ends -/

/-- One direction of a connection: the FIN of the sender is either in flight or received, and
nothing but acknowledgements is left once it has been received. -/
structure Direction (sender receiver : Context) (segments : List Segment) : Prop where
  flow : Flow segments
  finSent : sender.FinSent ↔ receiver.FinReceived ∨ HasFin segments
  finReceived : receiver.FinReceived → Acks segments

namespace Direction

variable {sender receiver sender' receiver' : Context} {segments : List Segment}

theorem congr (direction : Direction sender receiver segments)
    (finSent : sender'.FinSent ↔ sender.FinSent)
    (finReceived : receiver'.FinReceived ↔ receiver.FinReceived) :
    Direction sender' receiver' segments where
  flow := direction.flow
  finSent := by
    rw [finSent, finReceived]
    exact direction.finSent
  finReceived := by
    rw [finReceived]
    exact direction.finReceived

/-- While no FIN has been sent there is none to receive. -/
theorem unfinished (direction : Direction sender receiver segments)
    (notSent : ¬sender.FinSent) : ¬receiver.FinReceived ∧ ¬HasFin segments :=
  not_or.mp fun received => notSent (direction.finSent.mpr received)

theorem sendAck (direction : Direction sender receiver segments) {segment : Segment}
    (isAck : segment.IsAck) (empty : segment.data = []) :
    Direction sender receiver (segments ++ [segment]) where
  flow := direction.flow.snoc_ack isAck empty
  finSent := by
    rw [direction.finSent]
    simp [isAck.not_isFin]
  finReceived := fun received => (direction.finReceived received).snoc isAck empty

theorem sendData (direction : Direction sender receiver segments) {segment : Segment}
    (notSent : ¬sender.FinSent) (isData : segment.IsData) (short : segment.data.length ≤ MSS) :
    Direction sender receiver (segments ++ [segment]) where
  flow := direction.flow.snoc_data (direction.unfinished notSent).2 isData short
  finSent := by
    rw [direction.finSent]
    simp [isData.not_isFin]
  finReceived := fun received => absurd received (direction.unfinished notSent).1

theorem sendFin (direction : Direction sender receiver segments) {segment : Segment}
    (notSent : ¬sender.FinSent) (nowSent : sender'.FinSent) (isFin : segment.IsFin)
    (empty : segment.data = []) : Direction sender' receiver (segments ++ [segment]) where
  flow := direction.flow.snoc_fin (direction.unfinished notSent).2 isFin empty
  finSent := by simp [nowSent, isFin]
  finReceived := fun received => absurd received (direction.unfinished notSent).1

/-- Taking a segment other than a FIN. -/
theorem take {segment : Segment} {rest : List Segment}
    (direction : Direction sender receiver (segment :: rest)) (notFin : ¬segment.IsFin) :
    Direction sender receiver rest where
  flow := direction.flow.tail
  finSent := by
    rw [direction.finSent]
    simp [notFin]
  finReceived := fun received => (direction.finReceived received).tail

theorem takeFin {segment : Segment} {rest : List Segment}
    (direction : Direction sender receiver (segment :: rest)) (isFin : segment.IsFin)
    (nowReceived : receiver'.FinReceived) : Direction sender receiver' rest where
  flow := direction.flow.tail
  finSent := by
    have sent := direction.finSent.mpr (.inr (hasFin_cons.mpr (.inl isFin)))
    simp [sent, nowReceived]
  finReceived := fun _ => direction.flow.after_fin isFin

end Direction

/-- The two directions of a connection after the handshake.  An end that waits for the
acknowledgement of its FIN finds one in its queue, once the other end has received the FIN. -/
structure Connected (near far : Context) (out inc : List Segment) : Prop where
  outgoing : Direction near far out
  incoming : Direction far near inc
  nearAwaits : near.AwaitsFinAck → far.FinReceived → AckFirst inc
  farAwaits : far.AwaitsFinAck → near.FinReceived → AckFirst out

/-- A passive end sends its FIN only after it has received one. -/
theorem Coherent.passive_finReceived {e : Endpoint} (coherent : Coherent e)
    (passive : e.isActive = false) (finSent : e.ctx.FinSent) : e.ctx.FinReceived := by
  have role := coherent.role
  unfold Context.InRole at role
  unfold Context.FinSent at finSent
  unfold Context.FinReceived
  split at role <;> simp_all

namespace Connected

variable {near far near' : Context} {out inc : List Segment}

theorem swap (connected : Connected near far out inc) : Connected far near inc out :=
  ⟨connected.incoming, connected.outgoing, connected.farAwaits, connected.nearAwaits⟩

theorem congr (connected : Connected near far out inc) (same : Context.SamePhase near near') :
    Connected near' far out inc where
  outgoing := connected.outgoing.congr same.finSent Iff.rfl
  incoming := connected.incoming.congr Iff.rfl same.finReceived
  nearAwaits := fun awaits => connected.nearAwaits (same.awaitsFinAck.mp awaits)
  farAwaits := fun awaits received => connected.farAwaits awaits (same.finReceived.mp received)

/-- An active end has sent its FIN before it finds one in its queue. -/
theorem finSent_of_head_fin {e other : Endpoint} {packet : Segment}
    (connected : Connected e.ctx other.ctx out (packet :: inc)) (otherCoherent : Coherent other)
    (passive : other.isActive = false) (isFin : packet.IsFin) : e.ctx.FinSent := by
  have otherSent : other.ctx.FinSent :=
    connected.incoming.finSent.mpr (.inr (hasFin_cons.mpr (.inl isFin)))
  exact connected.outgoing.finSent.mpr
    (.inl (otherCoherent.passive_finReceived passive otherSent))

/-- Taking a data segment or an acknowledgement outside the states that wait for one. -/
private theorem take {packet : Segment} (connected : Connected near far out (packet :: inc))
    (notFin : ¬packet.IsFin) (notAwaiting : ¬near.AwaitsFinAck) : Connected near far out inc where
  outgoing := connected.outgoing
  incoming := connected.incoming.take notFin
  nearAwaits := fun awaits => absurd awaits notAwaiting
  farAwaits := connected.farAwaits

private theorem sendAck (connected : Connected near far out inc) {segment : Segment}
    (isAck : segment.IsAck) (empty : segment.data = []) :
    Connected near far (out ++ [segment]) inc where
  outgoing := connected.outgoing.sendAck isAck empty
  incoming := connected.incoming
  nearAwaits := connected.nearAwaits
  farAwaits := fun awaits received => (connected.farAwaits awaits received).append _

private theorem sendData (connected : Connected near far out inc) {segment : Segment}
    (notSent : ¬near.FinSent) (isData : segment.IsData) (short : segment.data.length ≤ MSS) :
    Connected near far (out ++ [segment]) inc where
  outgoing := connected.outgoing.sendData notSent isData short
  incoming := connected.incoming
  nearAwaits := connected.nearAwaits
  farAwaits := fun awaits received => (connected.farAwaits awaits received).append _

/-- The FIN is received once. -/
theorem not_finReceived {e other : Endpoint} {packet : Segment}
    (connected : Connected e.ctx other.ctx out (packet :: inc)) (isFin : packet.IsFin) :
    ¬e.ctx.FinReceived :=
  fun received => (connected.incoming.finReceived received).head.not_isFin isFin

/-- Receiving a FIN does not change whether one has been sent. -/
theorem receivedFin_finSent {e other : Endpoint} {packet : Segment}
    (connected : Connected e.ctx other.ctx out (packet :: inc)) (coherent : Coherent e)
    (otherCoherent : Coherent other) (roles : other.isActive = !e.isActive)
    (running : ¬e.ctx.Opening) (isFin : packet.IsFin) :
    e.ctx.receivedFin.FinSent ↔ e.ctx.FinSent := by
  have isClient := coherent.client running
  cases active : e.isActive with
  | true =>
      have finSent := connected.finSent_of_head_fin otherCoherent (by simp [roles, active]) isFin
      refine iff_of_true ?_ finSent
      simp [Context.receivedFin, isClient, active, Context.FinSent]
  | false =>
      have unsent : ¬e.ctx.FinSent := fun finSent =>
        connected.not_finReceived isFin (coherent.passive_finReceived active finSent)
      rw [iff_false_right unsent]
      simp [Context.receivedFin, isClient, active, Context.FinSent]

/-- Receiving the FIN and acknowledging it. -/
private theorem fin {e other : Endpoint} {packet : Segment} {thAck : Nat}
    (connected : Connected e.ctx other.ctx out (packet :: inc)) (coherent : Coherent e)
    (otherCoherent : Coherent other) (roles : other.isActive = !e.isActive)
    (running : ¬e.ctx.Opening) (isFin : packet.IsFin) :
    Connected e.ctx.receivedFin other.ctx (out ++ [e.ctx.receivedFin.ackSegment thAck]) inc := by
  have isAck := e.ctx.receivedFin.ackSegment_isAck thAck
  have notReceived := connected.not_finReceived isFin
  have nowReceived : e.ctx.receivedFin.FinReceived := by
    unfold Context.receivedFin
    split <;> simp [Context.FinReceived]
  have sameSent := connected.receivedFin_finSent coherent otherCoherent roles running isFin
  refine ⟨(connected.outgoing.congr sameSent Iff.rfl).sendAck isAck rfl,
    connected.incoming.takeFin isFin nowReceived, ?_, ?_⟩
  · intro awaits
    unfold Context.receivedFin Context.AwaitsFinAck at awaits
    split at awaits <;> simp at awaits
  · intro awaits _
    -- the acknowledgement just sent is the one the other end waits for
    cases active : e.isActive with
    | true =>
        have otherSent : other.ctx.FinSent :=
          connected.incoming.finSent.mpr (.inr (hasFin_cons.mpr (.inl isFin)))
        have received := otherCoherent.passive_finReceived (by simp [roles, active]) otherSent
        exact (connected.outgoing.finReceived received).ackFirst_snoc isAck
    | false =>
        have unsent : ¬e.ctx.FinSent :=
          fun finSent => notReceived (coherent.passive_finReceived active finSent)
        exact connected.outgoing.flow.ackFirst_snoc (connected.outgoing.unfinished unsent).2 isAck

/-- The acknowledgement of the FIN, or what is taken for it. -/
private theorem finAcked {e other : Endpoint} {packet : Segment}
    (connected : Connected e.ctx other.ctx out (packet :: inc))
    (header : e.ctx.connectionState = if e.ctx.isClient then .finWait1 else .lastAck)
    (isAck : packet.IsAck) : Connected e.ctx.finAcked other.ctx out inc := by
  have sameSent : e.ctx.finAcked.FinSent ↔ e.ctx.FinSent := by
    unfold Context.finAcked Context.FinSent
    rw [header]
    cases e.ctx.isClient <;> simp
  have sameReceived : e.ctx.finAcked.FinReceived ↔ e.ctx.FinReceived := by
    unfold Context.finAcked Context.FinReceived
    rw [header]
    cases e.ctx.isClient <;> simp
  refine ⟨connected.outgoing.congr sameSent Iff.rfl,
    (connected.incoming.take isAck.not_isFin).congr Iff.rfl sameReceived, ?_, ?_⟩
  · intro awaits
    unfold Context.finAcked Context.AwaitsFinAck at awaits
    split at awaits <;> simp at awaits
  · exact fun awaits received => connected.farAwaits awaits (sameReceived.mp received)

/-- What an end that waits for the acknowledgement of its FIN drops is a data segment, never the
FIN of the other end. -/
theorem dropped {e other : Endpoint} {packet : Segment}
    (connected : Connected e.ctx other.ctx out (packet :: inc)) (coherent : Coherent e)
    (otherCoherent : Coherent other) (roles : other.isActive = !e.isActive)
    (awaits : e.ctx.AwaitsFinAck) (notAck : ¬packet.IsAck) :
    packet.IsData ∧ e.isActive = true := by
  have notReceived : ¬e.ctx.FinReceived :=
    fun received => notAck (connected.incoming.finReceived received).head
  have active : e.isActive = true := by
    cases active : e.isActive with
    | true => rfl
    | false =>
        exact absurd (coherent.passive_finReceived active awaits.finSent) notReceived
  refine ⟨?_, active⟩
  by_cases isFin : packet.IsFin
  · have otherSent : other.ctx.FinSent :=
      connected.incoming.finSent.mpr (.inr (hasFin_cons.mpr (.inl isFin)))
    have received := otherCoherent.passive_finReceived (by simp [roles, active]) otherSent
    exact ((connected.nearAwaits awaits received).head notAck).1
  · exact (connected.incoming.flow.head_data notAck isFin).1

private theorem ignored {e other : Endpoint} {packet : Segment}
    (connected : Connected e.ctx other.ctx out (packet :: inc)) (coherent : Coherent e)
    (otherCoherent : Coherent other) (roles : other.isActive = !e.isActive)
    (awaits : e.ctx.AwaitsFinAck) (notAck : ¬packet.IsAck) :
    Connected e.ctx other.ctx out inc where
  outgoing := connected.outgoing
  incoming := connected.incoming.take
    (connected.dropped coherent otherCoherent roles awaits notAck).1.not_isFin
  nearAwaits := fun _ received => ((connected.nearAwaits awaits received).head notAck).2
  farAwaits := connected.farAwaits

private theorem sendFin {ctx other : Context} {next : CState}
    (connected : Connected ctx other out inc)
    (notSent : ¬ctx.FinSent) (nowSent : (ctx.sentFin next).FinSent)
    (sameReceived : (ctx.sentFin next).FinReceived ↔ ctx.FinReceived) :
    Connected (ctx.sentFin next) other (out ++ [ctx.finSegment]) inc where
  outgoing := connected.outgoing.sendFin notSent nowSent ctx.finSegment_isFin rfl
  incoming := connected.incoming.congr Iff.rfl sameReceived
  nearAwaits := fun _ received => absurd received (connected.outgoing.unfinished notSent).1
  farAwaits := fun awaits received =>
    (connected.farAwaits awaits (sameReceived.mp received)).append _

/-- The order of segments survives every step of a transport thread in `control_loop`. -/
theorem threadStep {e e' other : Endpoint} {taken sent : Option Segment}
    (connected : Connected e.ctx other.ctx out (taken.toList ++ inc)) (coherent : Coherent e)
    (otherCoherent : Coherent other) (roles : other.isActive = !e.isActive)
    (running : ¬e.ctx.Opening) (moved : ThreadStep e taken sent e') :
    Connected e'.ctx other.ctx (out ++ sent.toList) inc := by
  have place : e.pc ≠ .start ∧ e.pc ≠ .handshake := by
    refine ⟨fun pc => running ?_, fun pc => running ?_⟩
    · exact coherent.opening_of_start pc
    · exact (coherent.handshake pc).1
  cases moved with
  | sendSyn pc => exact absurd pc place.1
  | connect pc => exact absurd pc place.2
  | accept pc => exact absurd pc place.2
  | accepted pc => exact absurd pc place.2
  | stalled pc => exact absurd pc place.2
  | overread => simpa using connected
  | oversized => simpa using connected
  | dispatch => simpa using connected
  | appSkip => simpa using connected
  | appSend pc ready room dequeued stored =>
      have notSent := coherent.not_finSent_of_dequeued dequeued
      have short := mysockDequeueBuffer_length_le dequeued
      exact (connected.sendData notSent (Context.dataSegment_isData _ _)
        (by simp only [Context.dataSegment_data]; omega)).congr
        (Context.samePhase_sent _ _ _)
  | appOverflow => simpa using connected
  | networkSkip => simpa using connected
  | ack pc ready reads queue isAck shifted =>
      have notAwaiting : ¬e.ctx.AwaitsFinAck := Endpoint.not_awaiting pc ready reads
      simpa using (connected.take isAck.not_isFin notAwaiting).congr
        (Context.samePhase_acked _ _ _)
  | ackOverflow pc ready reads queue isAck outside =>
      have notAwaiting : ¬e.ctx.AwaitsFinAck := Endpoint.not_awaiting pc ready reads
      simpa using connected.take isAck.not_isFin notAwaiting
  | fin pc ready reads queue isFin => exact connected.fin coherent otherCoherent roles running isFin
  | data pc ready reads queue notAck notFin copied =>
      have notAwaiting : ¬e.ctx.AwaitsFinAck := Endpoint.not_awaiting pc ready reads
      exact ((connected.take notFin notAwaiting).sendAck (Context.ackSegment_isAck _ _) rfl).congr
        (Context.samePhase_recvBase _ _)
  | finAcked pc header queue isAck =>
      simpa using connected.finAcked header isAck
  | ignored pc header queue notAck =>
      have awaits := Context.awaitsFinAck_of_header header
      simpa using connected.ignored coherent otherCoherent roles awaits notAck
  | sendFin pc asked state =>
      rw [Endpoint.loopEnd_ctx]
      refine connected.sendFin ?_ ?_ ?_ <;>
        simp only [Context.FinSent, Context.FinReceived, Context.sentFin, state] <;>
        cases e.ctx.isClient <;> simp
  | noClose => simpa using connected
  | forget => simpa using connected

end Connected

end EE323.Stcp

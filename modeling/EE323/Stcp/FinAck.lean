/-
Module: EE323.Stcp.FinAck
Purpose: What acknowledges a FIN.  In `FIN_WAIT_1` and `LAST_ACK` any acknowledgement moves the
  connection on, so the transition waits for the right one only when no earlier one can arrive.
Main exports: FinSentAlone, teardown_waits_for_ack, data_ack_ends_fin_wait
-/
import EE323.Stcp.Teardown

namespace EE323.Stcp

open EE323.Lib

/-- A FIN is sent only while the end has no data segment in flight and no acknowledgement is on its
way to it. -/
def FinSentAlone (s : System) : Action → Prop
  | .thread side _ _ =>
      (s.endpoint side).SendsFin →
        (∀ segment ∈ s.inFlight side, ¬segment.IsData) ∧
          ∀ segment ∈ s.inFlight side.peer, ¬segment.IsAck
  | _ => True

instance (s : System) (action : Action) : Decidable (FinSentAlone s action) :=
  match action with
  | .thread _ _ _ => inferInstanceAs (Decidable (_ → _ ∧ _))
  | .deliver _ | .write _ _ | .read _ _ | .close _ => .isTrue trivial

theorem Endpoint.SendsFin.cases {e : Endpoint} (sends : e.SendsFin) :
    ∃ event, e.pc = .close event ∧ event.appCloseRequested = true ∧
      e.ctx.connectionState = if e.ctx.isClient then .established else .closeWait := by
  unfold Endpoint.SendsFin at sends
  split at sends
  · rename_i event pc
    exact ⟨event, pc, sends⟩
  · exact absurd sends id

/-- While an end waits for the acknowledgement of its FIN, no other acknowledgement can reach it. -/
structure AwaitsAlone (link : Link) : Prop where
  alone : link.self.ctx.AwaitsFinAck → ¬link.peer.ctx.FinReceived →
    (∀ segment ∈ link.out, ¬segment.IsData) ∧ ∀ segment ∈ link.inc, ¬segment.IsAck
  acks : link.self.ctx.AwaitsFinAck → ∀ segment ∈ link.inc, segment.IsAck →
    segment.thAck = trunc32 link.self.ctx.nextSeqnum
  fin : link.self.ctx.AwaitsFinAck → ∀ segment ∈ link.out, segment.IsFin →
    trunc32 (segment.thSeq + 1) = trunc32 link.self.ctx.nextSeqnum

theorem trunc32_sizeAdd (a b : Nat) : trunc32 (trunc32 a + b) = trunc32 (sizeAdd a b) := by
  unfold trunc32 sizeAdd
  omega

namespace AwaitsAlone

variable {link : Link} {e' : Endpoint} {taken sent : Option Segment} {inc : List Segment}

/-- Taking a segment off the queue. -/
private theorem take (alone : AwaitsAlone link) (incoming : link.inc = taken.toList ++ inc) :
    AwaitsAlone { link with inc := inc } := by
  have later : ∀ segment ∈ inc, segment ∈ link.inc := by
    intro segment member
    rw [incoming]
    exact List.mem_append_right _ member
  refine ⟨fun awaits notReceived => ?_, fun awaits segment member => ?_, alone.fin⟩
  · exact ⟨(alone.alone awaits notReceived).1,
      fun segment member => (alone.alone awaits notReceived).2 segment (later segment member)⟩
  · exact alone.acks awaits segment (later segment member)

/-- An end that waits for the acknowledgement sends nothing and keeps its numbers. -/
theorem awaiting_step (view : View link) (incoming : link.inc = taken.toList ++ inc)
    (moved : ThreadStep link.self taken sent e') (awaits : link.self.ctx.AwaitsFinAck)
    (still : e'.ctx.AwaitsFinAck) : sent = none ∧ e'.ctx = link.self.ctx := by
  have finSent := awaits.finSent
  have running := finSent.not_opening
  cases moved with
  | sendSyn pc =>
      exact absurd (view.near.opening_of_start pc) running
  | connect pc => exact absurd (view.near.handshake pc).1 running
  | accept pc => exact absurd (view.near.handshake pc).1 running
  | accepted pc => exact absurd (view.near.handshake pc).1 running
  | stalled => exact ⟨rfl, rfl⟩
  | overread => exact ⟨rfl, rfl⟩
  | oversized => exact ⟨rfl, rfl⟩
  | dispatch => exact ⟨rfl, rfl⟩
  | appSkip => exact ⟨rfl, rfl⟩
  | appSend pc ready room dequeued =>
      exact absurd finSent (view.near.not_finSent_of_dequeued dequeued)
  | appOverflow => exact ⟨rfl, rfl⟩
  | networkSkip => exact ⟨rfl, rfl⟩
  | ack pc ready reads => exact absurd (.inr ⟨⟨_, .inl ⟨pc, ready⟩⟩, awaits⟩) reads
  | ackOverflow => exact ⟨rfl, rfl⟩
  | fin pc ready reads => exact absurd (.inr ⟨⟨_, .inl ⟨pc, ready⟩⟩, awaits⟩) reads
  | data pc ready reads => exact absurd (.inr ⟨⟨_, .inl ⟨pc, ready⟩⟩, awaits⟩) reads
  | finAcked =>
      rw [Endpoint.loopEnd_ctx] at still
      unfold Context.finAcked Context.AwaitsFinAck at still
      split at still <;> simp at still
  | ignored => exact ⟨rfl, Endpoint.loopEnd_ctx _⟩
  | sendFin pc asked state =>
      exact absurd finSent (Context.not_finSent_of_unsent state)
  | noClose => exact ⟨rfl, Endpoint.loopEnd_ctx _⟩
  | forget => exact ⟨rfl, Endpoint.loopEnd_ctx _⟩

/-- Only the step that sends the FIN starts the wait for its acknowledgement. -/
theorem sendsFin_of_awaits (moved : ThreadStep link.self taken sent e')
    (before : ¬link.self.ctx.AwaitsFinAck) (after : e'.ctx.AwaitsFinAck) :
    link.self.SendsFin ∧ taken = none ∧ sent = some link.self.ctx.finSegment ∧
      e'.ctx.nextSeqnum = sizeAdd link.self.ctx.nextSeqnum 1 := by
  cases moved with
  | sendSyn => simp [Context.AwaitsFinAck] at after
  | connect => simp [Context.AwaitsFinAck, Context.establish] at after
  | accept => simp [Context.AwaitsFinAck] at after
  | accepted => simp [Context.AwaitsFinAck, Context.establish] at after
  | appSend => exact absurd ((Context.samePhase_sent _ _ _).awaitsFinAck.mp after) before
  | ack => exact absurd ((Context.samePhase_acked _ _ _).awaitsFinAck.mp after) before
  | data => exact absurd ((Context.samePhase_recvBase _ _).awaitsFinAck.mp after) before
  | fin =>
      simp only [Context.receivedFin] at after
      split at after <;> simp [Context.AwaitsFinAck] at after
  | finAcked =>
      rw [Endpoint.loopEnd_ctx] at after
      simp only [Context.finAcked] at after
      split at after <;> simp [Context.AwaitsFinAck] at after
  | sendFin pc asked state =>
      rw [Endpoint.loopEnd_ctx]
      exact ⟨by simp [Endpoint.SendsFin, pc, asked, state], rfl, rfl, rfl⟩
  | _ => exact absurd (by simpa using after) before

private theorem self_step (alone : AwaitsAlone link) (view : View link)
    (admitted : link.self.SendsFin →
      (∀ segment ∈ link.out, ¬segment.IsData) ∧ ∀ segment ∈ link.inc, ¬segment.IsAck)
    (finSent : HasFin link.out → link.self.ctx.FinSent)
    (incoming : link.inc = taken.toList ++ inc) (moved : ThreadStep link.self taken sent e') :
    AwaitsAlone { self := e', peer := link.peer, out := link.out ++ sent.toList, inc := inc } := by
  by_cases still : e'.ctx.AwaitsFinAck
  · by_cases awaits : link.self.ctx.AwaitsFinAck
    · obtain ⟨rfl, same⟩ := awaiting_step view incoming moved awaits still
      have taken := alone.take incoming
      refine ⟨?_, ?_, ?_⟩
      · simp only [same, Option.toList_none, List.append_nil]
        exact taken.alone
      · simp only [same]
        exact taken.acks
      · simp only [same, Option.toList_none, List.append_nil]
        exact taken.fin
    · -- the FIN is sent now, with nothing else in flight
      obtain ⟨sends, rfl, rfl, next⟩ := sendsFin_of_awaits moved awaits still
      obtain ⟨noData, noAcks⟩ := admitted sends
      have noAcks : ∀ segment ∈ inc, ¬segment.IsAck := by
        rw [incoming] at noAcks
        exact noAcks
      have isFin := link.self.ctx.finSegment_isFin
      obtain ⟨_, _, _, state⟩ := sends.cases
      have notSent := Context.not_finSent_of_unsent state
      have unsent := fun inFlight => notSent (finSent inFlight)
      refine ⟨fun _ _ => ⟨?_, noAcks⟩, fun _ segment member isAck => ?_, ?_⟩
      · intro segment member
        rcases List.mem_append.mp member with earlier | last
        · exact noData segment earlier
        · rw [List.mem_singleton.mp last]
          exact fun isData => isData.not_isFin isFin
      · exact absurd isAck (noAcks segment member)
      · intro _ segment member segmentFin
        rcases List.mem_append.mp member with earlier | last
        · exact absurd ⟨segment, earlier, segmentFin⟩ unsent
        · rw [List.mem_singleton.mp last]
          simp only [next]
          exact trunc32_sizeAdd _ _
  · exact ⟨fun awaits => absurd awaits still, fun awaits => absurd awaits still,
      fun awaits => absurd awaits still⟩

private theorem peer_step (alone : AwaitsAlone link.swap) (view : View link)
    (incoming : link.inc = taken.toList ++ inc) (moved : ThreadStep link.self taken sent e') :
    AwaitsAlone { self := link.peer, peer := e', out := inc, inc := link.out ++ sent.toList } := by
  have later : ∀ segment ∈ inc, segment ∈ link.inc := by
    intro segment member
    rw [incoming]
    exact List.mem_append_right _ member
  -- an acknowledgement sent now answers the FIN
  have answers : link.peer.ctx.AwaitsFinAck → ∀ segment, sent = some segment → segment.IsAck →
      e'.ctx.FinReceived ∧ segment.thAck = trunc32 link.peer.ctx.nextSeqnum := by
    rintro awaits segment rfl isAck
    cases taken with
    | none => exact absurd isAck moved.sent_not_ack
    | some packet =>
        have member : packet ∈ link.inc := by
          rw [incoming]
          exact List.mem_cons_self
        rcases view.answer incoming moved with ⟨_, isSyn⟩ | ⟨_, isData | isFin, thAck⟩
        · exact absurd isAck isSyn.not_isAck
        · exfalso
          by_cases received : link.self.ctx.FinReceived
          · obtain ⟨out, connected⟩ := view.opened received.not_opening
            exact isData.not_isAck (connected.incoming.finReceived received packet member).1
          · exact (alone.alone awaits received).1 packet member isData
        · rw [isFin.span] at thAck
          rw [thAck]
          refine ⟨?_, alone.fin awaits packet member isFin⟩
          cases moved with
          | connect pc =>
              have isSyn := ((view.opening (view.near.handshake pc).1).1 packet inc incoming).1
              exact absurd isFin isSyn.not_isFin
          | accept pc =>
              have isSyn := ((view.opening (view.near.handshake pc).1).1 packet inc incoming).1
              exact absurd isFin isSyn.not_isFin
          | fin =>
              simp only [Context.receivedFin]
              split <;> simp [Context.FinReceived]
          | data _ _ _ _ _ notFin => exact absurd isFin notFin
  refine ⟨fun awaits notReceived => ?_, fun awaits segment member isAck => ?_,
    fun awaits segment member => ?_⟩
  · have notBefore : ¬link.self.ctx.FinReceived :=
      fun received => notReceived (view.near.finReceived_mono moved received)
    obtain ⟨noData, noAcks⟩ := alone.alone awaits notBefore
    refine ⟨fun segment member => noData segment (later segment member), ?_⟩
    intro segment member isAck
    rcases List.mem_append.mp member with earlier | last
    · exact noAcks segment earlier isAck
    · exact notReceived (answers awaits segment (Option.mem_toList.mp last) isAck).1
  · rcases List.mem_append.mp member with earlier | last
    · exact alone.acks awaits segment earlier isAck
    · exact (answers awaits segment (Option.mem_toList.mp last) isAck).2
  · exact alone.fin awaits segment (later segment member)

private theorem init (side : Side) : AwaitsAlone (System.init.link side) := by
  cases side <;> constructor <;> simp [System.link, System.init, Endpoint.init, Context.init,
    Context.AwaitsFinAck]

theorem of_run {labels : List Action} {s : System} (run : ReliableRun FinSentAlone labels s)
    (side : Side) : AwaitsAlone (s.link side) := by
  induction run generalizing side with
  | refl => exact init side
  | @snoc s t labels action before admitted stepped inductionHypothesis =>
      refine links_preserved inductionHypothesis stepped ?_ side
      intro actor link own other moved
      have view := Protocol.view_of_run before actor
      have finSent := Protocol.finSent_of_run before actor
      cases moved with
      | thread moved incoming =>
          exact ⟨own.self_step view admitted finSent incoming moved,
            other.peer_step view incoming moved⟩
      | receive packet =>
          exact ⟨⟨own.alone, own.acks, own.fin⟩, ⟨other.alone, other.acks, other.fin⟩⟩
      | app called =>
          refine ⟨⟨?_, ?_, ?_⟩, ⟨?_, other.acks, other.fin⟩⟩
          · rw [called.ctx]
            exact own.alone
          · rw [called.ctx]
            exact own.acks
          · rw [called.ctx]
            exact own.fin
          · simp only [Link.swap, called.ctx]
            exact other.alone

end AwaitsAlone

/-- The run to `s` has a step in which a side puts `fin` behind its segments in flight. -/
structure SentItsFin (guard : System → Action → Prop) (labels : List Action) (s : System)
    (side : Side) (fin : Segment) : Prop where
  isFin : fin.IsFin
  sent : Passed (System.step true) guard
    (fun u _ v => v.inFlight side = u.inFlight side ++ [fin]) System.init labels s

/-- An end that waits for the acknowledgement of its FIN has sent one, and its next sequence number
is the one after it. -/
private theorem sentItsFin_of_run {guard : System → Action → Prop} {labels : List Action}
    {s : System} (run : ReliableRun guard labels s) (side : Side)
    (awaits : (s.endpoint side).ctx.AwaitsFinAck) :
    ∃ fin, SentItsFin guard labels s side fin ∧
      trunc32 (fin.thSeq + 1) = trunc32 (s.endpoint side).ctx.nextSeqnum := by
  induction run with
  | refl => cases side <;> simp [System.init, Endpoint.init, Context.init,
      Context.AwaitsFinAck] at awaits
  | @snoc s t labels action before admitted stepped inductionHypothesis =>
      have kept : (t.endpoint side).ctx = (s.endpoint side).ctx →
          ∃ fin, SentItsFin guard (labels ++ [action]) t side fin ∧
            trunc32 (fin.thSeq + 1) = trunc32 (t.endpoint side).ctx.nextSeqnum := by
        intro same
        rw [same] at awaits ⊢
        obtain ⟨fin, sentFin, next⟩ := inductionHypothesis awaits
        exact ⟨fin, ⟨sentFin.isFin, sentFin.sent.snoc admitted stepped⟩, next⟩
      rcases ctx_or_thread stepped side with same | ⟨rand, overread, rfl⟩
      · exact kept same
      · obtain ⟨taken, sent, moved, incoming, out⟩ := (step_link_thread stepped).of_thread
        have view := Protocol.view_of_run before side
        by_cases waited : (s.endpoint side).ctx.AwaitsFinAck
        · exact kept (AwaitsAlone.awaiting_step view incoming moved waited awaits).2
        · -- the FIN is sent now
          obtain ⟨sends, rfl, rfl, next⟩ := AwaitsAlone.sendsFin_of_awaits moved waited awaits
          have next : (t.endpoint side).ctx.nextSeqnum = _ := next
          refine ⟨_, ⟨Context.finSegment_isFin _, .last before stepped out⟩, ?_⟩
          rw [next]
          exact trunc32_sizeAdd _ _

/-- Only an acknowledgement taken off the receive queue ends the wait for one. -/
private theorem acked_of_step {e e' : Endpoint} {taken sent : Option Segment}
    (near : Coherent e) (moved : ThreadStep e taken sent e') (awaits : e.ctx.AwaitsFinAck)
    (left : ¬e'.ctx.AwaitsFinAck) : ∃ ack, taken = some ack ∧ ack.IsAck := by
  have running := awaits.finSent.not_opening
  cases moved with
  | sendSyn pc =>
      exact absurd (near.opening_of_start pc) running
  | connect pc => exact absurd (near.handshake pc).1 running
  | accept pc => exact absurd (near.handshake pc).1 running
  | accepted pc => exact absurd (near.handshake pc).1 running
  | appSend => exact absurd ((Context.samePhase_sent _ _ _).awaitsFinAck.mpr awaits) left
  | ack pc ready reads => exact absurd (.inr ⟨⟨_, .inl ⟨pc, ready⟩⟩, awaits⟩) reads
  | fin pc ready reads => exact absurd (.inr ⟨⟨_, .inl ⟨pc, ready⟩⟩, awaits⟩) reads
  | data pc ready reads => exact absurd (.inr ⟨⟨_, .inl ⟨pc, ready⟩⟩, awaits⟩) reads
  | finAcked enters role queue isAck => exact ⟨_, rfl, isAck⟩
  | sendFin pc asked state =>
      unfold Context.AwaitsFinAck at awaits
      rw [state] at awaits
      cases client : e.ctx.isClient <;> simp [client] at awaits
  | _ => exact absurd (by simpa using awaits) left

/-- Teardown transitions wait for the acknowledgement of the FIN: in every run in which FINs are
sent alone, an end that leaves `FIN_WAIT_1` or `LAST_ACK` has sent a FIN, and the segment it takes
is an acknowledgement of that FIN. -/
theorem teardown_waits_for_ack {labels : List Action} {s t : System} {action : Action} {side : Side}
    (run : ReliableRun FinSentAlone labels s) (stepped : System.step true s action = some t)
    (awaits : (s.endpoint side).ctx.AwaitsFinAck) (left : ¬(t.endpoint side).ctx.AwaitsFinAck) :
    ∃ fin ack rest, SentItsFin FinSentAlone labels s side fin ∧
      (s.endpoint side).sock.networkRecvQueue = ack :: rest ∧
      (t.endpoint side).sock.networkRecvQueue = rest ∧
      ack.IsAck ∧ ack.thAck = trunc32 (fin.thSeq + 1) := by
  obtain ⟨fin, sentFin, next⟩ := sentItsFin_of_run run side awaits
  have view := Protocol.view_of_run run side
  rcases ctx_or_thread stepped side with same | ⟨rand, overread, rfl⟩
  · rw [same] at left
    exact absurd awaits left
  · obtain ⟨taken, sent, moved, _, _⟩ := (step_link_thread stepped).of_thread
    obtain ⟨ack, rfl, isAck⟩ := acked_of_step view.near moved awaits left
    have queue : (s.endpoint side).sock.networkRecvQueue = _ := moved.queue
    have member : ack ∈ (s.link side).inc := by
      simp [System.link, System.inFlight, queue]
    refine ⟨fin, ack, _, sentFin, queue, rfl, isAck, ?_⟩
    rw [next]
    exact (AwaitsAlone.of_run run side).acks awaits ack member isAck

/-- The client closes with nothing in flight. -/
theorem teardown_waits_for_ack_alone : ∃ (labels : List Action) (s : System)
    (fin ack : Segment) (rest : List Segment),
    (s.endpoint .client).ctx.connectionState = .finWait1 ∧
      SentItsFin FinSentAlone labels s .client fin ∧
      (s.endpoint .client).sock.networkRecvQueue = ack :: rest ∧ ack.IsAck ∧
      ack.thAck = trunc32 (fin.thSeq + 1) := by
  let schedule := handshakeSchedule ++ [Action.close .client] ++ iteration .client ++
    [Action.deliver .client] ++ iteration .server ++
    [Action.deliver .server, .move .client, .move .client]
  have reached : ∃ s, ReliableRun FinSentAlone schedule s ∧
      (s.endpoint .client).ctx.connectionState = .finWait1 ∧
        (System.step true s (.move .client)).any
          (fun t => decide ((t.endpoint .client).ctx.connectionState = .finWait2)) = true :=
    exec_reaches _ (by decide +kernel)
  obtain ⟨s, run, state, leaves⟩ := reached
  obtain ⟨t, stepped, after⟩ := (Option.any_eq_true _ _).mp leaves
  obtain ⟨fin, ack, rest, sentFin, queue, _, isAck, thAck⟩ :=
    teardown_waits_for_ack run stepped (.inl state)
      (by simp [Context.AwaitsFinAck, of_decide_eq_true after])
  exact ⟨_, s, fin, ack, rest, state, sentFin, queue, isAck, thAck⟩

/-- The acknowledgement of data that was in flight when the client sent its FIN: it moves the client
from `FIN_WAIT_1` to `FIN_WAIT_2` while the FIN is still on the wire. -/
theorem data_ack_ends_fin_wait : ∃ (labels : List Action) (s t : System) (fin ack : Segment),
    ReliableRun anyStep labels s ∧ System.step true s (.move .client) = some t ∧
      (s.endpoint .client).ctx.connectionState = .finWait1 ∧
      (t.endpoint .client).ctx.connectionState = .finWait2 ∧
      s.wire .client = [fin] ∧ t.wire .client = [fin] ∧ fin.IsFin ∧
      (s.endpoint .client).sock.networkRecvQueue = [ack] ∧ ack.IsAck ∧
      ack.thAck ≠ trunc32 (fin.thSeq + 1) := by
  let schedule := handshakeSchedule ++ [Action.write .client [7], .close .client] ++
    iteration .client ++ iteration .client ++ [Action.deliver .client] ++ iteration .server ++
    [Action.deliver .server, .move .client, .move .client]
  let fin : Segment := ⟨2, 0, 0, TH_FIN, 3072, []⟩
  let ack : Segment := ⟨2, 2, 0, TH_ACK, 0, []⟩
  have reached : ∃ s, ReliableRun anyStep schedule s ∧
      (s.endpoint .client).ctx.connectionState = .finWait1 ∧ s.wire .client = [fin] ∧
        (s.endpoint .client).sock.networkRecvQueue = [ack] ∧
        (System.step true s (.move .client)).any (fun t =>
          decide ((t.endpoint .client).ctx.connectionState = .finWait2 ∧
            t.wire .client = [fin])) = true :=
    exec_reaches _ (by decide +kernel)
  obtain ⟨s, run, state, wire, queue, leaves⟩ := reached
  obtain ⟨t, stepped, after⟩ := (Option.any_eq_true _ _).mp leaves
  obtain ⟨stateAfter, wireAfter⟩ := of_decide_eq_true after
  exact ⟨_, s, t, fin, ack, run, stepped, state, stateAfter, wire, wireAfter, rfl, queue, rfl,
    by decide +kernel⟩

end EE323.Stcp

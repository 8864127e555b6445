/-
Module: EE323.Stcp.Handshake
Purpose: The handshake over the network that drops, duplicates and delays segments.  The client
  agrees with the server whatever arrives; the server agrees with the client as long as the segment
  it takes in `SYN_RCVD` is the client's answer to its SYN-ACK.
Main exports: AnswersSynAck, Handshaking, handshake_agreement, duplicate_syn_establishes
-/
import EE323.Stcp.Unreliable

namespace EE323.Stcp

open EE323.Lib

/-- What the server takes in `SYN_RCVD` is the client's answer to its SYN-ACK, which keeps the SYN
flag and carries an acknowledgement, and not a second copy of the SYN, data, a FIN or a later
ACK. -/
def AnswersSynAck (s : System) : Action → Prop
  | .thread .server _ _ =>
      (s.endpoint .server).ctx.connectionState = .synRcvd →
        ∀ packet ∈ (s.endpoint .server).sock.networkRecvQueue.head?,
          packet.IsSyn ∧ packet.thAck ≠ 0
  | _ => True

instance (s : System) (action : Action) : Decidable (AnswersSynAck s action) :=
  match action with
  | .thread .server _ _ => inferInstanceAs (Decidable (_ → _))
  | .thread .client _ _ => .isTrue trivial
  | .deliver _ | .write _ _ | .read _ _ | .close _ => .isTrue trivial

theorem AnswersSynAck.taken {s : System} {rand : Nat} {overread : Bool} {taken : Option Segment}
    {rest : List Segment} (admitted : AnswersSynAck s (.thread .server rand overread))
    (queue : (s.endpoint .server).sock.networkRecvQueue = taken.toList ++ rest)
    (state : (s.endpoint .server).ctx.connectionState = .synRcvd) :
    ∀ packet, taken = some packet → packet.IsSyn ∧ packet.thAck ≠ 0 := by
  rintro packet rfl
  refine admitted state packet ?_
  rw [queue]
  rfl

/-- The client's SYN. -/
structure Segment.IsFirstSyn (segment : Segment) : Prop where
  isSyn : segment.IsSyn
  thSeq : segment.thSeq = 1
  thAck : segment.thAck = 0

/-- The server's SYN-ACK. -/
structure Segment.IsSynAck (segment : Segment) : Prop where
  isSyn : segment.IsSyn
  thSeq : segment.thSeq = 1
  thAck : segment.thAck = 2

/-- The handshake segments that are around, and how far the ends are apart. -/
structure Handshaking (s : System) : Prop where
  isn : ∀ side, (s.endpoint side).ctx.initialSequenceNum = 1
  syn : (s.endpoint .client).ctx.Opening → ∀ segment ∈ s.around .client, segment.IsFirstSyn
  synAck : (s.endpoint .server).ctx.Opening → ∀ segment ∈ s.around .server, segment.IsSynAck
  agreed : ¬(s.endpoint .server).ctx.Opening → ¬(s.endpoint .client).ctx.Opening
  answers : ∀ segment ∈ s.around .client, segment.IsSyn → segment.thAck = 0 ∨ segment.thAck = 2

/-- Only an end in its handshake sends a segment with the SYN flag. -/
theorem Coherent.sent_not_syn {e e' : Endpoint} {taken : Option Segment} {segment : Segment}
    (coherent : Coherent e) (running : ¬e.ctx.Opening)
    (moved : ThreadStep e taken (some segment) e') : ¬segment.IsSyn := by
  cases moved with
  | sendSyn pc =>
      exact absurd (coherent.opening_of_start pc) running
  | connect pc => exact absurd (coherent.handshake pc).1 running
  | accept pc => exact absurd (coherent.handshake pc).1 running
  | appSend => exact fun isSyn => isSyn.not_isData (e.ctx.dataSegment_isData _)
  | fin => exact fun isSyn => isSyn.not_isAck (Context.ackSegment_isAck _ _)
  | data => exact fun isSyn => isSyn.not_isAck (Context.ackSegment_isAck _ _)
  | sendFin => exact fun isSyn => isSyn.not_isFin e.ctx.finSegment_isFin

namespace Handshaking

theorem init : Handshaking System.init where
  isn := fun side => rfl
  syn := fun _ segment member => by cases member
  synAck := fun _ segment member => by cases member
  agreed := fun running => absurd
    (by simp [System.init, Endpoint.init, Context.init, Context.Opening]) running
  answers := fun segment member => by cases member

variable {s t : System} {action : Action} {side : Side} {taken : Option Segment}

private theorem trunc32_two : trunc32 (1 + 1) = 2 := by decide +kernel

/-- The client in its handshake sends its SYN, or takes the SYN-ACK and answers it. -/
private theorem client_opening (handshaking : Handshaking s) (sound : Sound s)
    (moved : ThreadStep (s.endpoint .client) taken (s.sends .client action) (t.endpoint .client))
    (known : ∀ packet, taken = some packet → packet ∈ s.around .server)
    (opening : (s.endpoint .client).ctx.Opening) :
    (t.endpoint .client).ctx.Opening ∧
        (∀ segment, s.sends .client action = some segment → segment.IsFirstSyn) ∨
      ¬(t.endpoint .client).ctx.Opening ∧ (s.endpoint .client).ctx.connectionState = .synSent ∧
        (∃ packet, taken = some packet ∧ packet.IsSynAck) ∧
        ∀ segment, s.sends .client action = some segment → segment.thAck = 2 := by
  have role := (sound.coherent .client).role
  have active : (s.endpoint .client).isActive = true := sound.roles .client
  have isn := handshaking.isn .client
  have step := (sound.coherent .client).opening_step opening moved
  generalize s.sends .client action = sent at step ⊢
  generalize (t.endpoint .client).ctx = ctx' at step ⊢
  cases step with
  | sendSyn =>
      refine .inl ⟨Context.opening_of_synSent rfl, ?_⟩
      rintro _ ⟨⟩
      exact ⟨Context.synSegment_isSyn _, isn, rfl⟩
  | connect state =>
      have serverOpening : (s.endpoint .server).ctx.Opening := by
        by_contra running
        exact handshaking.agreed running opening
      have isSynAck := handshaking.synAck serverOpening _ (known _ rfl)
      refine .inr ⟨Context.establish_not_opening _ _, state, ⟨_, rfl, isSynAck⟩, ?_⟩
      rintro _ ⟨⟩
      simp only [Segment.echo, isSynAck.thSeq, trunc32_two]
  | accept state => simp [Context.InRole, state, active] at role
  | accepted state => simp [Context.InRole, state, active] at role
  | overread => exact .inl ⟨opening, by simp⟩

/-- A step of the client's thread. -/
private theorem client_step (handshaking : Handshaking s) (sound : Sound s)
    (stepped : System.step false s action = some t)
    (moved : ThreadStep (s.endpoint .client) taken (s.sends .client action) (t.endpoint .client))
    (known : ∀ packet, taken = some packet → packet ∈ s.around .server)
    (watches : t.endpoint .server = s.endpoint .server) (silent : s.sends .server action = none) :
    Handshaking t := by
  have stays : ∀ segment ∈ t.around .server, segment ∈ s.around .server := by
    intro segment member
    rcases around_step stepped segment member with earlier | now
    · exact earlier
    · rw [silent] at now
      cases now
  have isn : ∀ side, (t.endpoint side).ctx.initialSequenceNum = 1 := by
    intro side
    cases side with
    | client => exact moved.initialSequenceNum.trans (handshaking.isn .client)
    | server =>
        rw [watches]
        exact handshaking.isn .server
  have synAck : (t.endpoint .server).ctx.Opening → ∀ segment ∈ t.around .server,
      segment.IsSynAck := by
    rw [watches]
    exact fun opening segment member => handshaking.synAck opening segment (stays segment member)
  by_cases opening : (s.endpoint .client).ctx.Opening
  · rcases handshaking.client_opening sound moved known opening with
      ⟨stillOpening, sends⟩ | ⟨opened, _, _, sends⟩
    · have syn : ∀ segment ∈ t.around .client, segment.IsFirstSyn := by
        intro segment member
        rcases around_step stepped segment member with earlier | now
        · exact handshaking.syn opening segment earlier
        · exact sends segment now
      refine ⟨isn, fun _ => syn, synAck, ?_, fun segment member _ => .inl (syn segment member).thAck⟩
      rw [watches]
      exact fun running => absurd opening (handshaking.agreed running)
    · refine ⟨isn, fun stillOpening => absurd stillOpening opened, synAck, fun _ => opened, ?_⟩
      intro segment member isSyn
      rcases around_step stepped segment member with earlier | now
      · exact handshaking.answers segment earlier isSyn
      · exact .inr (sends segment now)
  · have running := (sound.coherent .client).stays_open opening moved
    refine ⟨isn, fun stillOpening => absurd stillOpening running, synAck, fun _ => running, ?_⟩
    intro segment member isSyn
    rcases around_step stepped segment member with earlier | now
    · exact handshaking.answers segment earlier isSyn
    · rw [now] at moved
      exact absurd isSyn ((sound.coherent .client).sent_not_syn opening moved)

/-- The server in its handshake answers the SYN, or takes the client's answer. -/
private theorem server_opening (handshaking : Handshaking s) (sound : Sound s)
    (moved : ThreadStep (s.endpoint .server) taken (s.sends .server action) (t.endpoint .server))
    (known : ∀ packet, taken = some packet → packet ∈ s.around .client)
    (admitted : (s.endpoint .server).ctx.connectionState = .synRcvd →
      ∀ packet, taken = some packet → packet.IsSyn ∧ packet.thAck ≠ 0)
    (opening : (s.endpoint .server).ctx.Opening) :
    (t.endpoint .server).ctx.Opening ∧
        (∀ segment, s.sends .server action = some segment → segment.IsSynAck) ∨
      ¬(t.endpoint .server).ctx.Opening ∧ (s.endpoint .server).ctx.connectionState = .synRcvd ∧
        ¬(s.endpoint .client).ctx.Opening ∧ ∃ packet, taken = some packet ∧ packet.thAck = 2 := by
  have role := (sound.coherent .server).role
  have isn := handshaking.isn .server
  have listening := sound.listening
  have step := (sound.coherent .server).opening_step opening moved
  generalize s.sends .server action = sent at step ⊢
  generalize (t.endpoint .server).ctx = ctx' at step ⊢
  cases step with
  | sendSyn state =>
      have notDone : (s.endpoint .server).ctx.done = false := by
        simpa [Context.Opening, state] using opening
      simp [Context.InRole, state, sound.passive, notDone] at role
  | connect state => simp [Context.InRole, state, sound.passive] at role
  | accept state =>
      have syn := handshaking.syn (listening state).2 _ (known _ rfl)
      refine .inl ⟨Context.opening_of_synRcvd rfl, ?_⟩
      rintro _ ⟨⟩
      refine ⟨syn.isSyn.echo _ _, isn, ?_⟩
      simp only [Segment.echo, syn.thSeq, trunc32_two]
  | accepted state =>
      rename_i packet
      obtain ⟨isSyn, acknowledges⟩ := admitted state packet rfl
      refine .inr ⟨Context.establish_not_opening _ _, state, ?_, packet, rfl, ?_⟩
      · exact fun clientOpening => acknowledges
          (handshaking.syn clientOpening packet (known packet rfl)).thAck
      · exact (handshaking.answers packet (known packet rfl) isSyn).resolve_left acknowledges
  | overread => exact .inl ⟨opening, by simp⟩

/-- A step of the server's thread. -/
private theorem server_step (handshaking : Handshaking s) (sound : Sound s)
    (stepped : System.step false s action = some t)
    (moved : ThreadStep (s.endpoint .server) taken (s.sends .server action) (t.endpoint .server))
    (known : ∀ packet, taken = some packet → packet ∈ s.around .client)
    (watches : t.endpoint .client = s.endpoint .client) (silent : s.sends .client action = none)
    (admitted : (s.endpoint .server).ctx.connectionState = .synRcvd →
      ∀ packet, taken = some packet → packet.IsSyn ∧ packet.thAck ≠ 0) :
    Handshaking t := by
  have stays : ∀ segment ∈ t.around .client, segment ∈ s.around .client := by
    intro segment member
    rcases around_step stepped segment member with earlier | now
    · exact earlier
    · rw [silent] at now
      cases now
  have isn : ∀ side, (t.endpoint side).ctx.initialSequenceNum = 1 := by
    intro side
    cases side with
    | server => exact moved.initialSequenceNum.trans (handshaking.isn .server)
    | client =>
        rw [watches]
        exact handshaking.isn .client
  refine ⟨isn, ?_, ?_, ?_, fun segment member => handshaking.answers segment (stays segment member)⟩
  · rw [watches]
    exact fun opening segment member => handshaking.syn opening segment (stays segment member)
  · intro stillOpening segment member
    have opening : (s.endpoint .server).ctx.Opening := by
      by_contra running
      exact (sound.coherent .server).stays_open running moved stillOpening
    rcases handshaking.server_opening sound moved known admitted opening with
      ⟨_, sends⟩ | ⟨opened, _⟩
    · rcases around_step stepped segment member with earlier | now
      · exact handshaking.synAck opening segment earlier
      · exact sends segment now
    · exact absurd stillOpening opened
  · intro running
    rw [watches]
    by_cases opening : (s.endpoint .server).ctx.Opening
    · rcases handshaking.server_opening sound moved known admitted opening with
        ⟨stillOpening, _⟩ | ⟨_, _, clientOpen, _⟩
      · exact absurd stillOpening running
      · exact clientOpen
    · exact handshaking.agreed opening

/-- An action that moves no transport thread. -/
private theorem idle_step (handshaking : Handshaking s)
    (stepped : System.step false s action = some t)
    (idle : ∀ side, s.sends side action = none ∧
      IdleStep side (s.endpoint side) action (t.endpoint side)) : Handshaking t := by
  have stays : ∀ side, ∀ segment ∈ t.around side, segment ∈ s.around side := by
    intro side segment member
    rcases around_step stepped segment member with earlier | now
    · exact earlier
    · rw [(idle side).1] at now
      cases now
  obtain ⟨isn, syn, synAck, agreed, answers⟩ := handshaking
  refine ⟨fun side => ?_, ?_, ?_, ?_, fun segment member => answers segment (stays _ _ member)⟩
  · rw [(idle side).2.ctx]
    exact isn side
  · rw [(idle .client).2.ctx]
    exact fun opening segment member => syn opening segment (stays _ _ member)
  · rw [(idle .server).2.ctx]
    exact fun opening segment member => synAck opening segment (stays _ _ member)
  · rw [(idle .client).2.ctx, (idle .server).2.ctx]
    exact agreed

end Handshaking

theorem handshaking_of_run {labels : List Action} {s : System}
    (run : UnreliableRun AnswersSynAck labels s) : Handshaking s := by
  refine run.invariant_with (fun run => Sound.of_run run) Handshaking.init ?_
  intro s action t sound _ handshaking admitted stepped
  rcases step_cases stepped with
    ⟨side, rand, overread, taken, rfl, moved, known, watches, silent⟩ | idle
  · cases side with
    | client => exact handshaking.client_step sound stepped moved known watches silent
    | server =>
        refine handshaking.server_step sound stepped moved known watches silent ?_
        exact admitted.taken moved.queue
  · exact handshaking.idle_step stepped idle

/-- The client takes the SYN-ACK in `SYN_SENT`. -/
def ReceivesSynAck (u : System) (_ : Action) (v : System) : Prop :=
  (u.endpoint .client).ctx.connectionState = .synSent ∧ ∃ packet : Segment, packet.IsSynAck ∧
    (u.endpoint .client).sock.networkRecvQueue =
      packet :: (v.endpoint .client).sock.networkRecvQueue

/-- The server takes the SYN in `LISTEN`. -/
def ReceivesSyn (u : System) (_ : Action) (v : System) : Prop :=
  (u.endpoint .server).ctx.connectionState = .listen ∧ ∃ packet : Segment, packet.IsFirstSyn ∧
    (u.endpoint .server).sock.networkRecvQueue =
      packet :: (v.endpoint .server).sock.networkRecvQueue

section Leaving

variable {s t : System} {action : Action}

/-- The client leaves its handshake on the SYN-ACK. -/
private theorem client_leaves (sound : Sound s) (handshaking : Handshaking s)
    (stepped : System.step false s action = some t) (opening : (s.endpoint .client).ctx.Opening)
    (running : ¬(t.endpoint .client).ctx.Opening) : ReceivesSynAck s action t := by
  rcases step_cases stepped with
    ⟨side, rand, overread, taken, rfl, moved, known, watches, silent⟩ | idle
  · cases side with
    | client =>
        rcases handshaking.client_opening sound moved known opening with
          ⟨stillOpening, _⟩ | ⟨_, state, ⟨packet, rfl, isSynAck⟩, _⟩
        · exact absurd stillOpening running
        · exact ⟨state, packet, isSynAck, moved.queue⟩
    | server =>
        have watches : t.endpoint .client = s.endpoint .client := watches
        rw [watches] at running
        exact absurd opening running
  · rw [(idle .client).2.ctx] at running
    exact absurd opening running

/-- The server leaves its handshake on the client's answer. -/
private theorem server_leaves (sound : Sound s) (handshaking : Handshaking s)
    (admitted : AnswersSynAck s action) (stepped : System.step false s action = some t)
    (opening : (s.endpoint .server).ctx.Opening) (running : ¬(t.endpoint .server).ctx.Opening) :
    ∃ packet : Segment, packet.thAck = 2 ∧ (s.endpoint .server).sock.networkRecvQueue =
      packet :: (t.endpoint .server).sock.networkRecvQueue := by
  rcases step_cases stepped with
    ⟨side, rand, overread, taken, rfl, moved, known, watches, silent⟩ | idle
  · cases side with
    | server =>
        have taken_admitted := admitted.taken moved.queue
        rcases handshaking.server_opening sound moved known taken_admitted opening with
          ⟨stillOpening, _⟩ | ⟨_, _, _, packet, rfl, thAck⟩
        · exact absurd stillOpening running
        · exact ⟨packet, thAck, moved.queue⟩
    | client =>
        have watches : t.endpoint .server = s.endpoint .server := watches
        rw [watches] at running
        exact absurd opening running
  · rw [(idle .server).2.ctx] at running
    exact absurd opening running

/-- The server leaves `LISTEN` on the SYN. -/
private theorem server_answers (sound : Sound s) (handshaking : Handshaking s)
    (stepped : System.step false s action = some t)
    (state : (s.endpoint .server).ctx.connectionState = .listen)
    (left : (t.endpoint .server).ctx.connectionState ≠ .listen) : ReceivesSyn s action t := by
  have opening := Context.opening_of_listen state
  rcases step_cases stepped with
    ⟨side, rand, overread, taken, rfl, moved, known, watches, silent⟩ | idle
  · cases side with
    | server =>
        have step := (sound.coherent .server).opening_step opening moved
        rcases step.of_listen state with ⟨packet, rfl, _, _⟩ | ⟨_, _, same⟩
        · exact ⟨state, packet, handshaking.syn (sound.listening state).2 packet (known packet rfl),
            moved.queue⟩
        · rw [same] at left
          exact absurd state left
    | client =>
        have watches : t.endpoint .server = s.endpoint .server := watches
        rw [watches] at left
        exact absurd state left
  · rw [(idle .server).2.ctx] at left
    exact absurd state left

end Leaving

/-- An end that is past a handshake state has received the segment this state waits for. -/
private theorem received_of_run {labels : List Action} {s : System}
    (run : UnreliableRun AnswersSynAck labels s) :
    (¬(s.endpoint .client).ctx.Opening →
        Passed (System.step false) AnswersSynAck ReceivesSynAck System.init labels s) ∧
      ((s.endpoint .server).ctx.connectionState ≠ .listen →
        Passed (System.step false) AnswersSynAck ReceivesSyn System.init labels s) := by
  induction run with
  | refl =>
      refine ⟨fun running => absurd ?_ running, fun state => absurd rfl state⟩
      simp [System.init, Endpoint.init, Context.init, Context.Opening]
  | @snoc s t labels action before admitted stepped inductionHypothesis =>
      obtain ⟨client, server⟩ := inductionHypothesis
      have sound := Sound.of_run before
      have handshaking := handshaking_of_run before
      refine ⟨fun running => ?_, fun state => ?_⟩
      · by_cases opening : (s.endpoint .client).ctx.Opening
        · exact .last before stepped (client_leaves sound handshaking stepped opening running)
        · exact (client opening).snoc admitted stepped
      · by_cases listening : (s.endpoint .server).ctx.connectionState = .listen
        · exact .last before stepped (server_answers sound handshaking stepped listening state)
        · exact (server listening).snoc admitted stepped

/-- An end that leaves `SYN_SENT` or `SYN_RCVD` leaves its handshake. -/
private theorem leaves_opening {s t : System} {action : Action} {side : Side} (sound : Sound s)
    (stepped : System.step false s action = some t)
    (state : (s.endpoint side).ctx.connectionState = .synSent ∨
      (s.endpoint side).ctx.connectionState = .synRcvd)
    (left : (t.endpoint side).ctx.connectionState ≠ (s.endpoint side).ctx.connectionState) :
    (s.endpoint side).ctx.Opening ∧ ¬(t.endpoint side).ctx.Opening := by
  have opening : (s.endpoint side).ctx.Opening := by
    rcases state with state | state <;> simp [Context.Opening, state]
  refine ⟨opening, ?_⟩
  rcases step_cases stepped with
    ⟨actor, rand, overread, taken, rfl, moved, known, watches, silent⟩ | idle
  · rcases Side.eq_or_eq_peer actor side with rfl | rfl
    · have step := (sound.coherent side).opening_step opening moved
      generalize s.sends side _ = sent at step
      generalize (t.endpoint side).ctx = ctx' at step left ⊢
      cases step with
      | sendSyn other => simp [other] at state
      | connect => exact Context.establish_not_opening _ _
      | accept other => simp [other] at state
      | accepted => exact Context.establish_not_opening _ _
      | overread => exact absurd rfl left
    · rw [watches] at left
      exact absurd rfl left
  · rw [(idle side).2.ctx] at left
    exact absurd rfl left

/-- Handshake agreement: over the network that loses, duplicates and delays segments, an established
end knows that the other has received its handshake segment, and each end leaves `SYN_SENT` and
`SYN_RCVD` only on an acknowledgement of its initial sequence number plus one. -/
theorem handshake_agreement {labels : List Action} {s : System}
    (run : UnreliableRun AnswersSynAck labels s) :
    ((s.endpoint .server).ctx.connectionState = .established →
        Passed (System.step false) AnswersSynAck ReceivesSynAck System.init labels s) ∧
      ((s.endpoint .client).ctx.connectionState = .established →
        Passed (System.step false) AnswersSynAck ReceivesSyn System.init labels s) ∧
      ∀ (side : Side) (action : Action) (t : System), AnswersSynAck s action →
        System.step false s action = some t →
        ((s.endpoint side).ctx.connectionState = .synSent ∨
          (s.endpoint side).ctx.connectionState = .synRcvd) →
        (t.endpoint side).ctx.connectionState ≠ (s.endpoint side).ctx.connectionState →
        ∃ packet, (s.endpoint side).sock.networkRecvQueue =
            packet :: (t.endpoint side).sock.networkRecvQueue ∧
          packet.thAck = trunc32 ((s.endpoint side).ctx.initialSequenceNum + 1) := by
  have sound := Sound.of_run run
  have handshaking := handshaking_of_run run
  obtain ⟨clientReceived, serverReceived⟩ := received_of_run run
  refine ⟨fun state => ?_, fun state => ?_, fun side action t admitted stepped state left => ?_⟩
  · exact clientReceived (handshaking.agreed (by simp [Context.Opening, state]))
  · refine serverReceived fun listening => ?_
    have opening := (sound.listening listening).2
    simp [Context.Opening, state] at opening
  · obtain ⟨opening, running⟩ := leaves_opening sound stepped state left
    rw [handshaking.isn side, Handshaking.trunc32_two]
    cases side with
    | client =>
        obtain ⟨_, packet, isSynAck, queue⟩ :=
          client_leaves sound handshaking stepped opening running
        exact ⟨packet, queue, isSynAck.thAck⟩
    | server =>
        obtain ⟨packet, thAck, queue⟩ :=
          server_leaves sound handshaking admitted stepped opening running
        exact ⟨packet, queue, thAck⟩

/-- The network duplicates the SYN-ACK, and both ends agree. -/
theorem handshake_agreement_duplicate : ∃ (labels : List Action) (s : System),
    (s.endpoint .server).ctx.connectionState = .established ∧
      (s.endpoint .client).ctx.connectionState = .established ∧
      Passed (System.step false) AnswersSynAck ReceivesSynAck System.init labels s := by
  let schedule : List Action := [.move .client, .deliver .client, .thread .server 1 false,
    .deliver .server, .deliver .server, .move .client, .deliver .client, .move .server]
  have reached : ∃ s, UnreliableRun AnswersSynAck schedule s ∧
      (s.endpoint .server).ctx.connectionState = .established ∧
        (s.endpoint .client).ctx.connectionState = .established :=
    exec_reaches _ (by decide +kernel)
  obtain ⟨s, run, server, client⟩ := reached
  exact ⟨_, s, server, client, (handshake_agreement run).1 server⟩

/-- The network duplicates the SYN: the server takes the second copy for the answer to its SYN-ACK,
and is established while the client has received nothing. -/
theorem duplicate_syn_establishes : ∃ (labels : List Action) (s t : System) (packet : Segment),
    UnreliableRun anyStep labels s ∧ System.step false s (.move .server) = some t ∧
      (s.endpoint .server).ctx.connectionState = .synRcvd ∧
      (s.endpoint .server).sock.networkRecvQueue = [packet] ∧ packet.thAck = 0 ∧
      (t.endpoint .server).ctx.connectionState = .established ∧
      (t.endpoint .client).ctx.connectionState = .synSent := by
  let schedule : List Action := [.thread .client 1 false, .deliver .client, .deliver .client,
    .move .server]
  let packet : Segment := ⟨1, 0, 5, TH_SYN, 3072, []⟩
  have reached : ∃ s, UnreliableRun anyStep schedule s ∧
      (s.endpoint .server).ctx.connectionState = .synRcvd ∧
        (s.endpoint .server).sock.networkRecvQueue = [packet] ∧
        (System.step false s (.move .server)).any (fun t =>
          decide ((t.endpoint .server).ctx.connectionState = .established ∧
            (t.endpoint .client).ctx.connectionState = .synSent)) = true :=
    exec_reaches _ (by decide +kernel)
  obtain ⟨s, run, state, queue, established⟩ := reached
  obtain ⟨t, stepped, after⟩ := (Option.any_eq_true _ _).mp established
  obtain ⟨server, client⟩ := of_decide_eq_true after
  exact ⟨_, s, t, packet, run, stepped, state, queue, rfl, server, client⟩

end EE323.Stcp

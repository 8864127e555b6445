/-
Module: EE323.Stcp.Wraparound
Purpose: A transfer that passes 2^32 bytes.  One byte at a time is written, sent, acknowledged and
  counted; each round is the same, so the rounds are taken by induction up to the acknowledgement
  that stands for 2^32.
Main exports: Resting, Moves, Attained, sendBase_lost_at_wrap
-/
import EE323.Stcp.LongTransfer

namespace EE323.Stcp

open EE323.Lib

/-! ### One endpoint -/

/-- An established endpoint that waits for an event with nothing to do. -/
structure Resting (e : Endpoint) : Prop where
  pc : e.pc = .waiting
  established : e.ctx.connectionState = .established
  notDone : e.ctx.done = false
  unclosed : e.appClosed = false
  unasked : e.sock.closeRequested = false
  unsent : e.sock.appRecvQueue = []
  unread : e.sock.networkRecvQueue = []

instance (e : Endpoint) : Decidable (Resting e) :=
  decidable_of_iff
    (e.pc = .waiting ∧ e.ctx.connectionState = .established ∧ e.ctx.done = false ∧
      e.appClosed = false ∧ e.sock.closeRequested = false ∧ e.sock.appRecvQueue = [] ∧
      e.sock.networkRecvQueue = [])
    ⟨fun ⟨pc, established, notDone, unclosed, unasked, unsent, unread⟩ =>
        ⟨pc, established, notDone, unclosed, unasked, unsent, unread⟩,
      fun ⟨pc, established, notDone, unclosed, unasked, unsent, unread⟩ =>
        ⟨pc, established, notDone, unclosed, unasked, unsent, unread⟩⟩

/-- Steps of a transport thread with the segments they send.  None sends a FIN, and none processes
an acknowledgement after `next_seqnum` has reached 2^32. -/
inductive Moves : Endpoint → List Segment → Endpoint → Prop where
  | refl (e : Endpoint) : Moves e [] e
  | step {e middle last : Endpoint} {sent : Option Segment} {out : List Segment}
      (stepped : e.threadStep false = some (middle, sent))
      (safe : e.nextAck = none ∨ e.ctx.nextSeqnum < 2 ^ 32) (noFin : ¬e.SendsFin)
      (later : Moves middle out last) : Moves e (sent.toList ++ out) last

/-! ### The steps of one round -/

/-- Without a close request nothing is taken off the socket. -/
theorem stcpWaitForEvent_open {sock : MysockContext} (unasked : sock.closeRequested = false)
    (work : sock.appRecvQueue ≠ [] ∨ sock.networkRecvQueue ≠ []) :
    stcpWaitForEvent sock =
      some
        ({ appData := !sock.appRecvQueue.isEmpty
           networkData := !sock.networkRecvQueue.isEmpty
           appCloseRequested := false }, sock) := by
  obtain ⟨closeRequested, eof, networkRecvQueue, appSendQueue, appRecvQueue⟩ := sock
  cases unasked
  rcases work with work | work <;> simp_all [stcpWaitForEvent]

namespace Endpoint

variable {e : Endpoint} {event : Event}

theorem threadStep_dispatch {sock : MysockContext} (pc : e.pc = .waiting)
    (woken : stcpWaitForEvent e.sock = some (event, sock)) :
    e.threadStep false = some ({ e with pc := .appData event, sock := sock }, none) := by
  simp only [threadStep, pc, woken]

theorem threadStep_appSkip (pc : e.pc = .appData event) (idle : event.appData = false) :
    e.threadStep false = some ({ e with pc := .networkData event }, none) := by
  simp [threadStep, pc, idle]

theorem threadStep_appSend {data buffer : List Byte} {sock : MysockContext}
    (pc : e.pc = .appData event) (ready : event.appData = true) (room : e.ctx.rem ≠ 0)
    (dequeued : stcpAppRecv e.sock (min e.ctx.rem MSS) = some (data, sock))
    (stored :
      store e.ctx.buffer (sizeSub e.ctx.nextSeqnum e.ctx.sendBase) data = some buffer) :
    e.threadStep false =
      some
        ({ e with
            pc := .networkData event
            ctx := e.ctx.sent buffer data.length
            sock := sock
            history := { e.history with taken := e.history.taken ++ data } },
          some (e.ctx.dataSegment data)) := by
  have filled : e.ctx.fillBuffer data = some (buffer, data) := by
    simp [Context.fillBuffer, stored, load_store stored]
  simp [threadStep, pc, ready, appDataBlock, room, dequeued, sendData, filled, goto]

theorem threadStep_networkSkip (pc : e.pc = .networkData event)
    (idle : event.networkData = false) :
    e.threadStep false = some ({ e with pc := .close event }, none) := by
  simp [threadStep, pc, idle]

/-- The segment at the head of the queue is processed. -/
theorem threadStep_networkData {packet : Segment} {rest : List Segment} {e' : Endpoint}
    {sent : Option Segment} (pc : e.pc = .networkData event) (ready : event.networkData = true)
    (established : e.ctx.connectionState = .established)
    (queue : e.sock.networkRecvQueue = packet :: rest) (short : packet.data.length ≤ MSS)
    (processed : e.pop.processPacket packet = (e', sent)) (alive : e'.pc ≠ .crashed) :
    e.threadStep false = some ({ e' with pc := .close event }, sent) := by
  have fits : packet.size ≤ tcphdrSize + MSS := Nat.add_le_add_left short _
  have whole : packet.data.take (tcphdrSize + MSS - tcphdrSize) = packet.data := by
    rw [Nat.add_sub_cancel_left, List.take_of_length_le short]
  have popped : { e with sock := { e.sock with networkRecvQueue := rest } } = e.pop := by
    simp [pop, queue]
  have received : e.networkDataBlock false = some (e', sent) := by
    unfold networkDataBlock stcpNetworkRecv
    rw [queue]
    simp only [fits, true_or, if_true, whole]
    rw [popped, processed]
  simp [threadStep, pc, ready, established, received, goto, alive]

theorem threadStep_noClose (pc : e.pc = .close event) (quiet : event.appCloseRequested = false) :
    e.threadStep false = some (e.loopEnd, none) := by
  simp [threadStep, pc, quiet]

theorem nextAck_of_unread (unread : e.sock.networkRecvQueue = []) : e.nextAck = none := by
  unfold nextAck
  split
  · rw [unread]
    simp
  · rfl

theorem nextAck_of_notAck {packet : Segment} {rest : List Segment}
    (queue : e.sock.networkRecvQueue = packet :: rest) (notAck : ¬packet.IsAck) :
    e.nextAck = none := by
  unfold nextAck
  split
  · rw [queue]
    simp [notAck]
  · rfl

end Endpoint

/-! ### The rounds -/

namespace Resting

variable {e : Endpoint}

/-- One pass through the loop in which only the place and the thread's own work change. -/
private theorem pass {e sent read last : Endpoint} {out answer : Option Segment} {event : Event}
    (waiting : e.pc = .waiting) (woken : stcpWaitForEvent e.sock = some (event, e.sock))
    (quiet : event.appCloseRequested = false)
    (first : ({ e with pc := .appData event } : Endpoint).threadStep false = some (sent, out))
    (second : sent.threadStep false = some (read, answer))
    (place : sent.pc = .networkData event) (ended : read.pc = .close event)
    (notDone : read.ctx.done = false) (final : last = { read with pc := .waiting })
    (safe : sent.nextAck = none ∨ sent.ctx.nextSeqnum < 2 ^ 32) :
    Moves e (out.toList ++ answer.toList) last := by
  have atWaiting : e.nextAck = none := by simp [Endpoint.nextAck, waiting]
  have atAppData : ({ e with pc := .appData event } : Endpoint).nextAck = none := rfl
  have atClose : read.nextAck = none := by simp [Endpoint.nextAck, ended]
  have looped : read.loopEnd = last := by
    rw [final, Endpoint.loopEnd, if_neg (by simp [notDone])]
  have fourth : Moves read ((none : Option Segment).toList ++ []) last := by
    refine .step (Endpoint.threadStep_noClose ended quiet) (.inl atClose) ?_ ?_
    · simp [Endpoint.SendsFin, ended, quiet]
    · rw [looped]
      exact .refl last
  have third : Moves sent answer.toList last := by
    have moves := Moves.step second safe (by simp [Endpoint.SendsFin, place]) fourth
    simpa using moves
  have one := Moves.step first (.inl atAppData) (by simp [Endpoint.SendsFin]) third
  have all : Moves e ((none : Option Segment).toList ++ (out.toList ++ answer.toList)) last :=
    .step (Endpoint.threadStep_dispatch waiting woken) (.inl atWaiting)
      (by simp [Endpoint.SendsFin, waiting]) one
  exact all

/-- A byte written is sent. -/
theorem sendByte (resting : Resting e) (sized : Sized e.ctx) (room : e.ctx.rem = e.ctx.swnd)
    (drained : e.ctx.nextSeqnum = e.ctx.sendBase) (byte : Byte) :
    ∃ e', Moves (e.appWrite [byte]) [e.ctx.dataSegment [byte]] e' ∧ Resting e' ∧
      e'.ctx.nextSeqnum = sizeAdd e.ctx.nextSeqnum 1 ∧ e'.ctx.sendBase = e.ctx.sendBase := by
  have mss : MSS = 536 := rfl
  have window : MSS ≤ e.ctx.swnd := by
    rw [sized.swnd]
    exact Nat.le_min.mpr ⟨sized.cwndLeast, by decide⟩
  have most : min e.ctx.rem MSS = 536 := by rw [room, Nat.min_eq_right window, mss]
  have offset : sizeSub e.ctx.nextSeqnum e.ctx.sendBase = 0 := by
    rw [drained]
    unfold sizeSub
    omega
  obtain ⟨buffer, stored⟩ : ∃ buffer, store e.ctx.buffer 0 [byte] = some buffer := by
    refine store_isSome ?_
    rw [sized.buffer, List.length_singleton]
    omega
  rw [← offset] at stored
  have queue : (e.appWrite [byte]).sock.appRecvQueue = [[byte]] := by
    simp [Endpoint.appWrite, mywrite, mysockEnqueueBuffer, resting.unsent]
  let event : Event := { appData := true, networkData := false, appCloseRequested := false }
  have woken : stcpWaitForEvent (e.appWrite [byte]).sock =
      some (event, (e.appWrite [byte]).sock) := by
    have unasked : (e.appWrite [byte]).sock.closeRequested = false := resting.unasked
    have unread : (e.appWrite [byte]).sock.networkRecvQueue = [] := resting.unread
    rw [stcpWaitForEvent_open unasked (.inl (by simp [queue])), queue, unread]
    rfl
  have dequeued : stcpAppRecv (e.appWrite [byte]).sock (min e.ctx.rem MSS) =
      some ([byte], { (e.appWrite [byte]).sock with appRecvQueue := [] }) := by
    rw [stcpAppRecv, queue, most]
    rfl
  have atAppData := Endpoint.threadStep_appSend
    (e := { e.appWrite [byte] with pc := .appData event }) rfl rfl
    (show e.ctx.rem ≠ 0 by omega) dequeued stored
  have waiting : (e.appWrite [byte]).pc = .waiting := resting.pc
  refine ⟨_, pass waiting woken rfl atAppData (Endpoint.threadStep_networkSkip rfl rfl) rfl rfl
    resting.notDone rfl (.inl (Endpoint.nextAck_of_unread resting.unread)), ?_, rfl, rfl⟩
  exact ⟨rfl, resting.established, resting.notDone, resting.unclosed, resting.unasked, rfl,
    resting.unread⟩

/-- The event that a segment in the queue raises. -/
private def arrived : Event := { appData := false, networkData := true, appCloseRequested := false }

private theorem woken (resting : Resting e) (packet : Segment) :
    (e.receive packet).sock.networkRecvQueue = [packet] ∧
      stcpWaitForEvent (e.receive packet).sock = some (arrived, (e.receive packet).sock) := by
  have queue : (e.receive packet).sock.networkRecvQueue = [packet] := by
    simp [Endpoint.receive, resting.unread]
  have unasked : (e.receive packet).sock.closeRequested = false := resting.unasked
  have unsent : (e.receive packet).sock.appRecvQueue = [] := resting.unsent
  refine ⟨queue, ?_⟩
  rw [stcpWaitForEvent_open unasked (.inr (by simp [queue])), queue, unsent]
  rfl

/-- A data segment received is acknowledged. -/
theorem receiveByte {packet : Segment} {byte : Byte} (resting : Resting e) (isData : packet.IsData)
    (data : packet.data = [byte]) :
    ∃ e' answer, Moves (e.receive packet) [answer] e' ∧ Resting e' ∧ answer.IsAck ∧
      answer.data = [] ∧ answer.thAck = trunc32 (packet.thSeq + 1) := by
  obtain ⟨queue, woken⟩ := resting.woken packet
  have waiting : (e.receive packet).pc = .waiting := resting.pc
  let ready : Endpoint := { e.receive packet with pc := .networkData arrived }
  have processed : ready.pop.processPacket packet = ready.pop.processData packet := by
    unfold Endpoint.processPacket
    rw [if_neg isData.not_isAck, if_neg isData.not_isFin]
  have second := Endpoint.threadStep_networkData (e := ready) rfl rfl resting.established queue
    (by simp [data, MSS]) processed (by simp [ready])
  refine ⟨_, _, pass waiting woken rfl (Endpoint.threadStep_appSkip rfl rfl) second rfl rfl
    resting.notDone rfl (.inl (Endpoint.nextAck_of_notAck queue isData.not_isAck)), ?_,
    Context.ackSegment_isAck _ _, rfl, ?_⟩
  · refine ⟨rfl, resting.established, resting.notDone, resting.unclosed, ?_, ?_, ?_⟩
    · exact (stcpAppSend_closeRequested _ _).trans resting.unasked
    · exact (stcpAppSend_appRecvQueue _ _).trans resting.unsent
    · refine (stcpAppSend_networkRecvQueue _ _).trans ?_
      show (e.receive packet).sock.networkRecvQueue.tail = []
      rw [queue]
      rfl
  · simp [Context.ackSegment, data]

/-- An acknowledgement received moves `SendBase`. -/
theorem hearAck {packet : Segment} {buffer : List Byte} (resting : Resting e)
    (isAck : packet.IsAck) (empty : packet.data = [])
    (shifted : (e.ctx.acked packet.thAck).shiftBuffer = some buffer)
    (small : e.ctx.nextSeqnum < 2 ^ 32) :
    ∃ e', Moves (e.receive packet) [] e' ∧ Resting e' ∧
      e'.ctx.nextSeqnum = e.ctx.nextSeqnum ∧ e'.ctx.sendBase = packet.thAck := by
  obtain ⟨queue, woken⟩ := resting.woken packet
  have waiting : (e.receive packet).pc = .waiting := resting.pc
  let ready : Endpoint := { e.receive packet with pc := .networkData arrived }
  have processed : ready.pop.processPacket packet =
      ({ ready.pop with ctx := { e.ctx.acked packet.thAck with buffer := buffer } }, none) := by
    have shiftedToo : (ready.pop.ctx.acked packet.thAck).shiftBuffer = some buffer := shifted
    simp only [Endpoint.processPacket, Endpoint.processAck, if_pos isAck, shiftedToo]
    rfl
  have second := Endpoint.threadStep_networkData (e := ready) rfl rfl resting.established queue
    (by simp [empty]) processed nofun
  refine ⟨_, pass waiting woken rfl (Endpoint.threadStep_appSkip rfl rfl) second rfl rfl
    resting.notDone rfl (.inr small), ?_, rfl, rfl⟩
  refine ⟨rfl, resting.established, resting.notDone, resting.unclosed, resting.unasked,
    resting.unsent, ?_⟩
  show (e.receive packet).sock.networkRecvQueue.tail = []
  rw [queue]
  rfl

/-- A segment received is found by the thread. -/
theorem arrive (resting : Resting e) (packet : Segment) :
    Moves (e.receive packet) [] { e.receive packet with pc := .networkData arrived } := by
  obtain ⟨_, woken⟩ := resting.woken packet
  have waiting : (e.receive packet).pc = .waiting := resting.pc
  let found : Endpoint := { e.receive packet with pc := .appData arrived }
  have skip : Moves found ((none : Option Segment).toList ++ [])
      { e.receive packet with pc := .networkData arrived } :=
    .step (Endpoint.threadStep_appSkip rfl rfl) (.inl rfl) (by simp [Endpoint.SendsFin, found])
      (.refl _)
  have all : Moves (e.receive packet) ((none : Option Segment).toList ++ [])
      { e.receive packet with pc := .networkData arrived } :=
    .step (Endpoint.threadStep_dispatch waiting woken) (.inl (by simp [Endpoint.nextAck, waiting]))
      (by simp [Endpoint.SendsFin, waiting]) skip
  exact all

end Resting

/-! ### Both ends -/

/-- The connections that the runs below the wrap reach. -/
def Attained (s : System) : Prop :=
  ∃ (labels : List Action) (l : Ledger),
    Run Ledger.step Unwrapped Ledger.init labels l ∧ l.system = s

/-- A step whose acknowledgement is safe keeps the guard of the ledger. -/
private theorem Balanced.unwrapped {labels : List Action} {l : Ledger} {side : Side} {rand : Nat}
    {overread : Bool} (balanced : Balanced labels l)
    (safe : (l.system.endpoint side).nextAck = none ∨
      (l.system.endpoint side).ctx.nextSeqnum < 2 ^ 32)
    (noFin : ¬(l.system.endpoint side).SendsFin) : Unwrapped l (.thread side rand overread) := by
  refine ⟨fun processes place isHead => ?_, fun sends => absurd sends noFin⟩
  rcases safe with none | small
  · rw [none] at processes
    cases processes
  · obtain ⟨packet, next⟩ := Option.isSome_iff_exists.mp processes
    obtain ⟨⟨event, pc⟩, _⟩ := ack_of_nextAck next
    have near : Coherent (l.system.endpoint side) := (Protocol.view_of_run balanced.run side).near
    have running : ¬(l.system.endpoint side).ctx.Opening :=
      near.not_opening (by simp [Endpoint.InLoop, pc])
    have tallied := balanced.tallied side
    have total : (l.system.endpoint side).ctx.nextSeqnum =
        1 + span (l.tally side).received + span (l.system.link side).out := tallied.next running
    have below := span_mono
      (tallied.within place (List.mem_cons_of_mem _ (List.mem_of_mem_head? isHead)))
    omega

namespace Attained

variable {s : System} {side : Side}

private theorem step {t : System} {action : Action} (attained : Attained s)
    (stepped : System.step true s action = some t)
    (admitted : ∀ {labels l}, Balanced labels l → l.system = s → Unwrapped l action) :
    Attained t := by
  obtain ⟨labels, l, run, rfl⟩ := attained
  refine ⟨labels ++ [action], { system := t, tally := l.book action }, ?_, rfl⟩
  refine .snoc run (admitted (balanced_of_run run) rfl) ?_
  rw [Ledger.step, stepped]
  rfl

theorem move {e' : Endpoint} {sent : Option Segment} (attained : Attained s)
    (stepped : (s.endpoint side).threadStep false = some (e', sent))
    (safe : (s.endpoint side).nextAck = none ∨ (s.endpoint side).ctx.nextSeqnum < 2 ^ 32)
    (noFin : ¬(s.endpoint side).SendsFin) :
    ∃ t, Attained t ∧ t.endpoint side = e' ∧ t.endpoint side.peer = s.endpoint side.peer ∧
      t.wire side = s.wire side ++ sent.toList ∧ t.wire side.peer = s.wire side.peer := by
  have systemStepped : System.step true s (.move side) =
      some (s.transmit true 31 side (e', sent)) := by
    simp [System.step, Action.move, stepped]
  refine ⟨_, attained.step systemStepped ?_, ?_⟩
  · rintro labels l balanced rfl
    exact balanced.unwrapped safe noFin
  · cases sent with
    | none => simp [System.transmit, System.update]
    | some segment => simp [System.transmit]

/-- The thread of one side makes several steps. -/
theorem moves {e e' : Endpoint} {out : List Segment} (moves : Moves e out e')
    (attained : Attained s) (place : s.endpoint side = e) :
    ∃ t, Attained t ∧ t.endpoint side = e' ∧ t.endpoint side.peer = s.endpoint side.peer ∧
      t.wire side = s.wire side ++ out ∧ t.wire side.peer = s.wire side.peer := by
  induction moves generalizing s with
  | refl => exact ⟨s, attained, place, rfl, (List.append_nil _).symm, rfl⟩
  | step stepped safe noFin _ inductionHypothesis =>
      subst place
      obtain ⟨t, attained, place, peer, wire, peerWire⟩ := attained.move stepped safe noFin
      obtain ⟨u, attained, place, peer', wire', peerWire'⟩ := inductionHypothesis attained place
      exact ⟨u, attained, place, peer'.trans peer,
        by rw [wire', wire, List.append_assoc], peerWire'.trans peerWire⟩

/-- The only datagram on a wire is handed over. -/
theorem deliver {packet : Segment} (attained : Attained s) (waiting : s.wire side = [packet]) :
    ∃ t, Attained t ∧ t.endpoint side = s.endpoint side ∧
      t.endpoint side.peer = (s.endpoint side.peer).receive packet ∧
      t.wire side = [] ∧ t.wire side.peer = s.wire side.peer := by
  have stepped : System.step true s (.deliver side) = some
      { s.update side.peer ((s.endpoint side.peer).receive packet) with
        wire := Function.update s.wire side [] } := by
    simp [System.step, waiting]
  refine ⟨_, attained.step stepped fun _ _ => trivial, ?_⟩
  simp [System.update]

theorem write (attained : Attained s) (running : (s.endpoint side).AppRunning) (data : List Byte) :
    ∃ t, Attained t ∧ t.endpoint side = (s.endpoint side).appWrite data ∧
      t.endpoint side.peer = s.endpoint side.peer ∧ t.wire = s.wire := by
  have stepped : System.step true s (.write side data) =
      some (s.update side ((s.endpoint side).appWrite data)) := by
    simp [System.step, running]
  refine ⟨_, attained.step stepped fun _ _ => trivial, ?_⟩
  simp [System.update]

/-- The window of an established end. -/
private theorem window (attained : Attained s)
    (established : (s.endpoint side).ctx.connectionState = .established) :
    Sized (s.endpoint side).ctx ∧ InWindow (s.endpoint side).ctx := by
  obtain ⟨labels, l, run, rfl⟩ := attained
  have balanced := balanced_of_run run
  obtain ⟨sized, _⟩ := (balanced.numbered side).opened
    (by simp [System.link, Context.Opening, established])
  exact ⟨sized, inWindow_of_run balanced.run side⟩

end Attained

/-! ### The transfer -/

/-- So many bytes have been written at the client, received and acknowledged; nothing is left. -/
structure Quiescent (total : Nat) (s : System) : Prop where
  attained : Attained s
  client : Resting (s.endpoint .client)
  server : Resting (s.endpoint .server)
  wires : s.wire .client = [] ∧ s.wire .server = []
  next : (s.endpoint .client).ctx.nextSeqnum = 1 + total
  base : (s.endpoint .client).ctx.sendBase = 1 + total

namespace Quiescent

variable {total : Nat} {s : System}

/-- The handshake. -/
theorem initial : ∃ s, Quiescent 0 s := by
  have reached : ∃ l, Run Ledger.step Unwrapped Ledger.init handshakeSchedule l ∧
      Resting (l.system.endpoint .client) ∧ Resting (l.system.endpoint .server) ∧
      (l.system.wire .client = [] ∧ l.system.wire .server = []) ∧
      (l.system.endpoint .client).ctx.nextSeqnum = 1 ∧
      (l.system.endpoint .client).ctx.sendBase = 1 :=
    exec_reaches _ (by decide +kernel)
  obtain ⟨l, run, client, server, wires, next, base⟩ := reached
  exact ⟨l.system, ⟨_, l, run, rfl⟩, client, server, wires, next, base⟩

/-- One more byte is written, sent and received, and its acknowledgement has arrived. -/
theorem exchange (quiescent : Quiescent total s) (small : total < 2 ^ 32) :
    ∃ (t : System) (e : Endpoint) (answer : Segment), Attained t ∧
      t.endpoint .client = e.receive answer ∧ Resting e ∧ Resting (t.endpoint .server) ∧
      t.wire .client = [] ∧ t.wire .server = [] ∧ e.ctx.nextSeqnum = 2 + total ∧
      e.ctx.sendBase = 1 + total ∧ answer.IsAck ∧ answer.data = [] ∧
      answer.thAck = trunc32 (2 + total) := by
  obtain ⟨attained, client, server, ⟨upEmpty, downEmpty⟩, next, base⟩ := quiescent
  obtain ⟨sized, window⟩ := attained.window client.established
  have room : (s.endpoint .client).ctx.rem = (s.endpoint .client).ctx.swnd := by
    rw [window.rem, next, base, Nat.sub_self, Nat.sub_zero]
  -- the client's application writes the byte and its thread sends it
  have running : (s.endpoint .client).AppRunning := by
    simp [Endpoint.AppRunning, client.pc, client.unclosed]
  obtain ⟨written, attained, place, other, wire⟩ := attained.write running [0]
  obtain ⟨e, moves, resting, nextAfter, baseAfter⟩ :=
    client.sendByte sized room (next.trans base.symm) 0
  obtain ⟨sent, attained, sentClient, sentOther, up, down⟩ := attained.moves moves place
  rw [wire, upEmpty, List.nil_append] at up
  rw [wire] at down
  -- the server receives and acknowledges it
  obtain ⟨reached, attained, reachedClient, arrived, up, reachedDown⟩ := attained.deliver up
  rw [sentOther, other] at arrived
  obtain ⟨f, answer, moves, serverResting, isAck, empty, thAck⟩ :=
    server.receiveByte ((s.endpoint .client).ctx.dataSegment_isData [0]) rfl
  obtain ⟨answered, attained, answeredServer, answeredClient, answerDown, answerUp⟩ :=
    attained.moves moves arrived
  have answerWaits : answered.wire .server = [answer] := by
    rw [show answered.wire .server = _ from answerDown, reachedDown, down,
      show s.wire Side.client.peer = [] from downEmpty, List.nil_append]
  -- the acknowledgement is handed over to the client
  obtain ⟨t, attained, finalServer, finalClient, finalDown, finalUp⟩ := attained.deliver answerWaits
  refine ⟨t, e, answer, attained, ?_, resting, ?_, ?_, finalDown, ?_, ?_, isAck, empty, ?_⟩
  · rw [← sentClient, ← reachedClient]
    exact finalClient.trans (congrArg (Endpoint.receive · answer) answeredClient)
  · rw [finalServer, show answered.endpoint .server = f from answeredServer]
    exact serverResting
  · exact finalUp.trans (answerUp.trans up)
  · rw [nextAfter, next, sizeAdd_eq (by omega)]
    omega
  · rw [baseAfter, base]
  · rw [thAck]
    simp only [Context.dataSegment, next, trunc32_add_trunc32]
    rw [show 1 + total + 1 = 2 + total by omega]

/-- Below 2^32 the round ends where it began. -/
theorem round (quiescent : Quiescent total s) (small : 2 + total < 2 ^ 32) :
    ∃ t, Quiescent (total + 1) t := by
  obtain ⟨t, e, answer, attained, place, resting, server, up, down, next, base, isAck, empty,
    thAck⟩ := quiescent.exchange (by omega)
  rw [trunc32_eq small] at thAck
  have ctx : (t.endpoint .client).ctx = e.ctx := by
    rw [place]
    rfl
  obtain ⟨sized, window⟩ := attained.window (by rw [ctx]; exact resting.established)
  rw [ctx] at sized window
  have fits := window.fits
  obtain ⟨buffer, shifted⟩ : ∃ buffer, (e.ctx.acked answer.thAck).shiftBuffer = some buffer :=
    sized.shiftBuffer_isSome (by omega) (by omega) (by omega)
  obtain ⟨e', moves, restingAfter, nextAfter, baseAfter⟩ :=
    resting.hearAck isAck empty shifted (by omega)
  obtain ⟨u, attained, uClient, uServer, uUp, uDown⟩ := attained.moves moves place
  refine ⟨u, attained, ?_, ?_, ⟨?_, uDown.trans down⟩, ?_, ?_⟩
  · rw [uClient]
    exact restingAfter
  · rw [show u.endpoint .server = _ from uServer]
    exact server
  · rw [uUp, up]
    rfl
  · rw [uClient, nextAfter]
    omega
  · rw [uClient, baseAfter]
    omega

theorem all (total : Nat) (small : 1 + total < 2 ^ 32) : ∃ s, Quiescent total s := by
  induction total with
  | zero => exact initial
  | succ total inductionHypothesis =>
      obtain ⟨s, quiescent⟩ := inductionHypothesis (by omega)
      exact quiescent.round (by omega)

end Quiescent

/-- After 2^32 - 2 bytes the acknowledgement of one more byte stands for 2^32 and carries 0: the
client is established and processes it, and `SendBase` does not advance by the byte. -/
theorem sendBase_lost_at_wrap : ∃ (labels : List Action) (l l' : Ledger),
    Run Ledger.step Unwrapped Ledger.init labels l ∧
      l.step (.move .client) = some l' ∧
      (l.system.endpoint .client).nextAck.isSome = true ∧
      (l.system.endpoint .client).ctx.connectionState = .established ∧
      (l'.system.endpoint .client).ctx.sendBase ≠
        (l.system.endpoint .client).ctx.sendBase + (l.tally .client).newBytes := by
  obtain ⟨s, quiescent⟩ := Quiescent.all (2 ^ 32 - 2) (by omega)
  obtain ⟨t, e, answer, attained, place, resting, _, _, _, _, _, isAck, empty, thAck⟩ :=
    quiescent.exchange (by omega)
  obtain ⟨u, ⟨labels, l, run, rfl⟩, client, _⟩ := attained.moves (resting.arrive answer) place
  have queue : (l.system.endpoint .client).sock.networkRecvQueue = [answer] := by
    rw [client]
    simp [Endpoint.receive, resting.unread]
  have established : (l.system.endpoint .client).ctx.connectionState = .established := by
    rw [client]
    exact resting.established
  have pc : (l.system.endpoint .client).pc = .networkData Resting.arrived := by
    rw [client]
  have next : answer ∈ (l.system.endpoint .client).nextAck := by
    simp [Endpoint.nextAck, pc, Resting.arrived, established, queue, isAck]
  have processes : (l.system.endpoint .client).nextAck.isSome = true := by
    rw [Option.mem_def.mp next]
    rfl
  obtain ⟨result, threadStepped⟩ :
      ∃ result, (l.system.endpoint .client).threadStep false = some result := by
    have fits : answer.size ≤ tcphdrSize + MSS := by simp [Segment.size, empty]
    simp [Endpoint.threadStep, pc, Resting.arrived, established, Endpoint.networkDataBlock,
      stcpNetworkRecv, queue, fits]
  obtain ⟨l', stepped⟩ : ∃ l', l.step (.move .client) = some l' := by
    simp [Ledger.step, System.step, Action.move, threadStepped]
  refine ⟨labels, l, l', run, stepped, processes, established, ?_⟩
  -- the number 0 stands for no place below 2^32, because the first byte has number 1
  have balanced := balanced_of_run run
  have head : (l.system.link .client).inc = answer :: ([] ++ l.system.wire .server) := by
    show l.system.inFlight .server = _
    simp [System.inFlight, Side.peer, queue]
  obtain ⟨known, rest, promised, number, _⟩ := (balanced.tallied .client).promise head isAck
  rw [Ne, balanced.advances_iff stepped processes established, promised]
  intro below
  rw [trunc32_eq (below known rfl), thAck] at number
  have zero : trunc32 (2 + (2 ^ 32 - 2)) = 0 := by
    unfold trunc32
    rfl
  omega

end EE323.Stcp

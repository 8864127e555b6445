/-
Module: EE323.Stcp.ThreadStep
Purpose: What one step of a transport thread can do, said once as a relation that names the segment
  taken from the receive queue and the segment sent.  Every invariant of a connection is derived
  from this relation.
Main exports: ThreadStep, threadStep_sound, ThreadStep.queue
-/
import EE323.Stcp.System

namespace EE323.Stcp

open EE323.Lib

/-! ### Frame facts of the small operations -/

namespace Endpoint

@[simp] theorem loopEnd_ctx (e : Endpoint) : e.loopEnd.ctx = e.ctx := by
  unfold loopEnd; split <;> rfl

@[simp] theorem loopEnd_history (e : Endpoint) : e.loopEnd.history = e.history := by
  unfold loopEnd; split <;> rfl

@[simp] theorem loopEnd_appClosed (e : Endpoint) : e.loopEnd.appClosed = e.appClosed := by
  unfold loopEnd; split <;> rfl

@[simp] theorem loopEnd_isActive (e : Endpoint) : e.loopEnd.isActive = e.isActive := by
  unfold loopEnd; split <;> rfl

@[simp] theorem loopEnd_networkRecvQueue (e : Endpoint) :
    e.loopEnd.sock.networkRecvQueue = e.sock.networkRecvQueue := by
  unfold loopEnd; split <;> rfl

@[simp] theorem loopEnd_appRecvQueue (e : Endpoint) :
    e.loopEnd.sock.appRecvQueue = e.sock.appRecvQueue := by
  unfold loopEnd; split <;> rfl

@[simp] theorem loopEnd_closeRequested (e : Endpoint) :
    e.loopEnd.sock.closeRequested = e.sock.closeRequested := by
  unfold loopEnd; split <;> rfl

@[simp] theorem loopEnd_eof (e : Endpoint) : e.loopEnd.sock.eof = e.sock.eof := by
  unfold loopEnd; split <;> rfl

theorem loopEnd_pc (e : Endpoint) :
    e.loopEnd.pc = if e.ctx.done then .exited else .waiting := by
  unfold loopEnd; split <;> rfl

theorem loopEnd_appSendQueue (e : Endpoint) :
    e.loopEnd.sock.appSendQueue =
      if e.ctx.done then e.sock.appSendQueue ++ [[]] else e.sock.appSendQueue := by
  unfold loopEnd; split <;> rfl

/-- Take the head off the receive queue. -/
def pop (e : Endpoint) : Endpoint :=
  { e with sock := { e.sock with networkRecvQueue := e.sock.networkRecvQueue.tail } }

@[simp] theorem pop_pc (e : Endpoint) : e.pop.pc = e.pc := rfl

@[simp] theorem pop_ctx (e : Endpoint) : e.pop.ctx = e.ctx := rfl

@[simp] theorem pop_history (e : Endpoint) : e.pop.history = e.history := rfl

@[simp] theorem pop_isActive (e : Endpoint) : e.pop.isActive = e.isActive := rfl

@[simp] theorem pop_appClosed (e : Endpoint) : e.pop.appClosed = e.appClosed := rfl

@[simp] theorem pop_appRecvQueue (e : Endpoint) :
    e.pop.sock.appRecvQueue = e.sock.appRecvQueue := rfl

@[simp] theorem pop_appSendQueue (e : Endpoint) :
    e.pop.sock.appSendQueue = e.sock.appSendQueue := rfl

@[simp] theorem pop_closeRequested (e : Endpoint) :
    e.pop.sock.closeRequested = e.sock.closeRequested := rfl

@[simp] theorem pop_eof (e : Endpoint) : e.pop.sock.eof = e.sock.eof := rfl

@[simp] theorem crash_pc (e : Endpoint) : e.crash.pc = .crashed := rfl

@[simp] theorem crash_ctx (e : Endpoint) : e.crash.ctx = e.ctx := rfl

@[simp] theorem crash_history (e : Endpoint) : e.crash.history = e.history := rfl

@[simp] theorem crash_isActive (e : Endpoint) : e.crash.isActive = e.isActive := rfl

@[simp] theorem crash_appClosed (e : Endpoint) : e.crash.appClosed = e.appClosed := rfl

@[simp] theorem crash_sock (e : Endpoint) : e.crash.sock = e.sock := rfl

end Endpoint

/-! ### The segments an endpoint builds -/

theorem Context.dataSegment_isData (ctx : Context) (payload : List Byte) :
    (ctx.dataSegment payload).IsData := rfl

theorem Context.finSegment_isFin (ctx : Context) : ctx.finSegment.IsFin := rfl

theorem Context.ackSegment_isAck (ctx : Context) (thAck : Nat) :
    (ctx.ackSegment thAck).IsAck := rfl

theorem Context.synSegment_isSyn (ctx : Context) : ctx.synSegment.IsSyn := rfl

@[simp] theorem Context.dataSegment_data (ctx : Context) (payload : List Byte) :
    (ctx.dataSegment payload).data = payload := rfl

@[simp] theorem stcpAppSend_networkRecvQueue (sock : MysockContext) (data : List Byte) :
    (stcpAppSend sock data).networkRecvQueue = sock.networkRecvQueue := by
  unfold stcpAppSend; split <;> rfl

@[simp] theorem stcpAppSend_appRecvQueue (sock : MysockContext) (data : List Byte) :
    (stcpAppSend sock data).appRecvQueue = sock.appRecvQueue := by
  unfold stcpAppSend; split <;> rfl

@[simp] theorem stcpAppSend_closeRequested (sock : MysockContext) (data : List Byte) :
    (stcpAppSend sock data).closeRequested = sock.closeRequested := by
  unfold stcpAppSend; split <;> rfl

@[simp] theorem stcpAppSend_eof (sock : MysockContext) (data : List Byte) :
    (stcpAppSend sock data).eof = sock.eof := by
  unfold stcpAppSend; split <;> rfl

/-- The event word, and the one-shot close request taken off the socket with it. -/
theorem stcpWaitForEvent_cases {sock left : MysockContext} {event : Event}
    (woken : stcpWaitForEvent sock = some (event, left)) :
    event =
        { appData := !sock.appRecvQueue.isEmpty
          networkData := !sock.networkRecvQueue.isEmpty
          appCloseRequested := sock.closeRequested && sock.appRecvQueue.isEmpty } ∧
      left = { sock with closeRequested := sock.closeRequested && !event.appCloseRequested } := by
  simp only [stcpWaitForEvent, Option.ite_none_right_eq_some, Option.some.injEq,
    Prod.mk.injEq] at woken
  obtain ⟨_, rfl, rfl⟩ := woken
  exact ⟨rfl, rfl⟩

/-- A handshake header sent back with new numbers. -/
def Segment.echo (packet : Segment) (thSeq thAck : Nat) : Segment :=
  { packet with thSeq := thSeq, thAck := thAck, data := [] }

theorem Segment.IsSyn.echo {packet : Segment} (isSyn : packet.IsSyn) (thSeq thAck : Nat) :
    (packet.echo thSeq thAck).IsSyn := isSyn

/-! ### One step of a transport thread -/

/-- The two ways into the block at the label `close`. -/
def Endpoint.EntersClose (e : Endpoint) (event : Event) : Prop :=
  e.pc = .networkData event ∧ event.networkData = true ∨
    e.pc = .close event ∧ event.appCloseRequested = true

theorem Endpoint.EntersClose.place {e : Endpoint} {event : Event} (enters : e.EntersClose event) :
    e.pc = .networkData event ∨ e.pc = .close event :=
  enters.imp And.left And.left

/-- The thread stands where it reads a bare header: in the handshake, or waiting for the
acknowledgement of its FIN. -/
def Endpoint.ReadsHeader (e : Endpoint) : Prop :=
  e.pc = .handshake ∨
    (∃ event, e.EntersClose event) ∧
      (e.ctx.connectionState = .finWait1 ∨ e.ctx.connectionState = .lastAck)

/-- Where the thread reads a whole segment, no acknowledgement of its FIN is awaited. -/
theorem Endpoint.not_awaiting {e : Endpoint} {event : Event} (pc : e.pc = .networkData event)
    (ready : event.networkData = true) (reads : ¬e.ReadsHeader) :
    ¬(e.ctx.connectionState = .finWait1 ∨ e.ctx.connectionState = .lastAck) :=
  fun awaits => reads (.inr ⟨⟨event, .inl ⟨pc, ready⟩⟩, awaits⟩)

/-- `ThreadStep e taken sent e'`: the transport thread moves from `e` to `e'`, taking at most one
segment off its receive queue and sending at most one. -/
inductive ThreadStep (e : Endpoint) : Option Segment → Option Segment → Endpoint → Prop where
  | sendSyn (pc : e.pc = .start) :
      ThreadStep e none (some e.ctx.synSegment)
        { e with pc := .handshake, ctx := { e.ctx with connectionState := .synSent } }
  | connect {packet : Segment} {rest : List Segment}
      (pc : e.pc = .handshake) (queue : e.sock.networkRecvQueue = packet :: rest)
      (state : e.ctx.connectionState = .synSent) :
      ThreadStep e (some packet)
        (some (packet.echo packet.thAck (trunc32 (packet.thSeq + 1))))
        { e.pop with pc := .waiting, ctx := e.ctx.establish e.isActive }
  | accept {packet : Segment} {rest : List Segment}
      (pc : e.pc = .handshake) (queue : e.sock.networkRecvQueue = packet :: rest)
      (state : e.ctx.connectionState = .listen) :
      ThreadStep e (some packet)
        (some (packet.echo e.ctx.initialSequenceNum (trunc32 (packet.thSeq + 1))))
        { e.pop with ctx := { e.ctx with connectionState := .synRcvd } }
  | accepted {packet : Segment} {rest : List Segment}
      (pc : e.pc = .handshake) (queue : e.sock.networkRecvQueue = packet :: rest)
      (state : e.ctx.connectionState = .synRcvd) :
      ThreadStep e (some packet) none
        { e.pop with pc := .waiting, ctx := e.ctx.establish e.isActive }
  | stalled {packet : Segment} {rest : List Segment}
      (pc : e.pc = .handshake) (queue : e.sock.networkRecvQueue = packet :: rest)
      (notSynSent : e.ctx.connectionState ≠ .synSent) (notListen : e.ctx.connectionState ≠ .listen)
      (notSynRcvd : e.ctx.connectionState ≠ .synRcvd) :
      ThreadStep e (some packet) none e.pop
  | overread {packet : Segment} {rest : List Segment}
      (at_header : e.ReadsHeader) (queue : e.sock.networkRecvQueue = packet :: rest)
      (long : tcphdrSize < packet.size) :
      ThreadStep e none none e.crash
  | oversized {packet : Segment} {rest : List Segment} {event : Event}
      (pc : e.pc = .networkData event) (ready : event.networkData = true)
      (queue : e.sock.networkRecvQueue = packet :: rest) (long : tcphdrSize + MSS < packet.size) :
      ThreadStep e none none e.crash
  | dispatch {event : Event} {sock : MysockContext} (pc : e.pc = .waiting)
      (woken : stcpWaitForEvent e.sock = some (event, sock)) :
      ThreadStep e none none { e with pc := .appData event, sock := sock }
  | appSkip {event : Event} (pc : e.pc = .appData event)
      (idle : event.appData = false ∨ e.ctx.rem = 0) :
      ThreadStep e none none { e with pc := .networkData event }
  | appSend {event : Event} {data buffer : List Byte} {left : PacketQueue}
      (pc : e.pc = .appData event) (ready : event.appData = true) (room : e.ctx.rem ≠ 0)
      (dequeued :
        mysockDequeueBuffer e.sock.appRecvQueue (min e.ctx.rem MSS) = some (data, left))
      (stored :
        store e.ctx.buffer (sizeSub e.ctx.nextSeqnum e.ctx.sendBase) data = some buffer) :
      ThreadStep e none (some (e.ctx.dataSegment data))
        { e with
          pc := .networkData event
          ctx := e.ctx.sent buffer data.length
          sock := { e.sock with appRecvQueue := left }
          history := { e.history with taken := e.history.taken ++ data } }
  | appOverflow {event : Event} {data : List Byte} {left : PacketQueue}
      (pc : e.pc = .appData event) (ready : event.appData = true) (room : e.ctx.rem ≠ 0)
      (dequeued :
        mysockDequeueBuffer e.sock.appRecvQueue (min e.ctx.rem MSS) = some (data, left))
      (outside : store e.ctx.buffer (sizeSub e.ctx.nextSeqnum e.ctx.sendBase) data = none) :
      ThreadStep e none none e.crash
  | networkSkip {event : Event} (pc : e.pc = .networkData event)
      (idle : event.networkData = false) :
      ThreadStep e none none { e with pc := .close event }
  | ack {event : Event} {packet : Segment} {rest : List Segment} {buffer : List Byte}
      (pc : e.pc = .networkData event) (ready : event.networkData = true)
      (reads : ¬e.ReadsHeader)
      (queue : e.sock.networkRecvQueue = packet :: rest) (isAck : packet.IsAck)
      (shifted : (e.ctx.acked packet.thAck).shiftBuffer = some buffer) :
      ThreadStep e (some packet) none
        { e.pop with
          pc := .close event
          ctx := { e.ctx.acked packet.thAck with buffer := buffer } }
  | ackOverflow {event : Event} {packet : Segment} {rest : List Segment}
      (pc : e.pc = .networkData event) (ready : event.networkData = true)
      (reads : ¬e.ReadsHeader)
      (queue : e.sock.networkRecvQueue = packet :: rest) (isAck : packet.IsAck)
      (outside : (e.ctx.acked packet.thAck).shiftBuffer = none) :
      ThreadStep e (some packet) none e.pop.crash
  | fin {event : Event} {packet : Segment} {rest : List Segment}
      (pc : e.pc = .networkData event) (ready : event.networkData = true)
      (reads : ¬e.ReadsHeader)
      (queue : e.sock.networkRecvQueue = packet :: rest) (isFin : packet.IsFin) :
      ThreadStep e (some packet) (some (e.ctx.receivedFin.ackSegment (packet.thSeq + 1)))
        { e with
          pc := .close event
          ctx := e.ctx.receivedFin
          sock := stcpFinReceived e.pop.sock }
  | data {event : Event} {packet : Segment} {rest : List Segment} {data : List Byte}
      (pc : e.pc = .networkData event) (ready : event.networkData = true)
      (reads : ¬e.ReadsHeader)
      (queue : e.sock.networkRecvQueue = packet :: rest)
      (notAck : ¬packet.IsAck) (notFin : ¬packet.IsFin) (copied : data = packet.data.take MSS) :
      ThreadStep e (some packet)
        (some
          ({ e.ctx with recvBase := sizeAdd e.ctx.recvBase data.length }.ackSegment
            (packet.thSeq + data.length)))
        { e with
          pc := .close event
          ctx := { e.ctx with recvBase := sizeAdd e.ctx.recvBase data.length }
          sock := stcpAppSend e.pop.sock data
          history := { e.history with delivered := e.history.delivered ++ data } }
  | finAcked {event : Event} {packet : Segment} {rest : List Segment}
      (enters : e.EntersClose event)
      (role : e.ctx.connectionState = if e.ctx.isClient then .finWait1 else .lastAck)
      (queue : e.sock.networkRecvQueue = packet :: rest) (isAck : packet.IsAck) :
      ThreadStep e (some packet) none { e.pop with ctx := e.ctx.finAcked }.loopEnd
  | ignored {event : Event} {packet : Segment} {rest : List Segment}
      (enters : e.EntersClose event)
      (role : e.ctx.connectionState = if e.ctx.isClient then .finWait1 else .lastAck)
      (queue : e.sock.networkRecvQueue = packet :: rest) (notAck : ¬packet.IsAck) :
      ThreadStep e (some packet) none e.pop.loopEnd
  | sendFin {event : Event} (pc : e.pc = .close event) (asked : event.appCloseRequested = true)
      (role : e.ctx.connectionState = if e.ctx.isClient then .established else .closeWait) :
      ThreadStep e none (some e.ctx.finSegment)
        { e with
          ctx := e.ctx.sentFin (if e.ctx.isClient then .finWait1 else .lastAck) }.loopEnd
  | noClose {event : Event} (pc : e.pc = .close event) (quiet : event.appCloseRequested = false) :
      ThreadStep e none none e.loopEnd
  | forget {event : Event} (enters : e.EntersClose event)
      (role : e.ctx.connectionState ≠ if e.ctx.isClient then .established else .closeWait)
      (header : e.ctx.connectionState ≠ if e.ctx.isClient then .finWait1 else .lastAck)
      (dispatched : e.pc = .networkData event →
        e.ctx.connectionState = .finWait1 ∨ e.ctx.connectionState = .lastAck) :
      ThreadStep e none none e.loopEnd

namespace Endpoint

/-- What `stcp_network_recv` can return to an endpoint. -/
theorem stcpNetworkRecv_cases {e : Endpoint} {maxLen : Nat} {overread : Bool}
    {result : NetworkRecv} (received : stcpNetworkRecv e.sock maxLen overread = some result) :
    ∃ packet rest, e.sock.networkRecvQueue = packet :: rest ∧
      ((∃ sock, { e with sock := sock } = e.pop ∧
          result =
            .received { packet with data := packet.data.take (maxLen - tcphdrSize) } sock) ∨
        result = .checksumAssertion ∧ maxLen < packet.size) := by
  unfold stcpNetworkRecv at received
  split at received
  · cases received
  · rename_i packet rest queue
    refine ⟨packet, rest, queue, ?_⟩
    split at received
    · refine .inl ⟨_, ?_, (Option.some.inj received).symm⟩
      simp [pop, queue]
    · rename_i tooLong
      exact .inr ⟨(Option.some.inj received).symm, by omega⟩

private theorem finish_inv {e' : Endpoint} {sent : Option Segment}
    {result : Endpoint × Option Segment}
    (finished : (some result).map finish = some (e', sent)) (alive : result.1.pc ≠ .crashed) :
    e' = result.1.loopEnd ∧ sent = result.2 := by
  simp only [Option.map_some, finish, alive, if_false, Option.some.injEq, Prod.mk.injEq] at finished
  exact ⟨finished.1.symm, finished.2.symm⟩

private theorem goto_inv {e' : Endpoint} {sent : Option Segment} {pc : Pc}
    {result : Endpoint × Option Segment}
    (moved : (some result).map (goto pc) = some (e', sent)) (alive : result.1.pc ≠ .crashed) :
    e' = { result.1 with pc := pc } ∧ sent = result.2 := by
  simp only [Option.map_some, goto, alive, if_false, Option.some.injEq, Prod.mk.injEq] at moved
  exact ⟨moved.1.symm, moved.2.symm⟩

private theorem finish_crash (e : Endpoint) (out : Option Segment) :
    finish (e.crash, out) = (e.crash, out) := by
  simp [finish, crash]

private theorem goto_crash (e : Endpoint) (pc : Pc) (out : Option Segment) :
    goto pc (e.crash, out) = (e.crash, out) := by
  simp [goto, crash]

private theorem crash_inv {e e' : Endpoint} {out sent : Option Segment}
    {next : Endpoint × Option Segment → Endpoint × Option Segment}
    (stays : next (e.crash, out) = (e.crash, out))
    (ended : (some (e.crash, out)).map next = some (e', sent)) :
    e' = e.crash ∧ sent = out := by
  rw [Option.map_some, stays, Option.some.injEq, Prod.mk.injEq] at ended
  exact ⟨ended.1.symm, ended.2.symm⟩

private theorem awaitFinAck_sound {e e' : Endpoint} {event : Event} {overread : Bool}
    {sent : Option Segment}
    (enters : e.EntersClose event)
    (role : e.ctx.connectionState = if e.ctx.isClient then .finWait1 else .lastAck)
    (stepped : (e.awaitFinAck overread).map finish = some (e', sent)) :
    ∃ taken, ThreadStep e taken sent e' := by
  have notCrashed : e.pc ≠ .crashed := by rcases enters.place with pc | pc <;> rw [pc] <;> simp
  have readsHeader : e.ReadsHeader := by
    refine .inr ⟨⟨event, enters⟩, ?_⟩
    rw [role]
    split <;> simp
  unfold awaitFinAck at stepped
  cases received : stcpNetworkRecv e.sock tcphdrSize overread with
  | none => simp [received] at stepped
  | some result =>
      obtain ⟨packet, rest, queue, ⟨sock, popped, outcome⟩ | ⟨outcome, long⟩⟩ :=
        stcpNetworkRecv_cases received
      · subst outcome
        rw [received] at stepped
        simp only [popped, Nat.sub_self, List.take_zero] at stepped
        have popAlive : e.pop.pc ≠ .crashed := notCrashed
        unfold processFinAck at stepped
        split at stepped
        · rename_i isAck
          obtain ⟨rfl, rfl⟩ := finish_inv stepped popAlive
          exact ⟨some packet, .finAcked enters role queue isAck⟩
        · rename_i notAck
          obtain ⟨rfl, rfl⟩ := finish_inv stepped popAlive
          exact ⟨some packet, .ignored enters role queue notAck⟩
      · subst outcome
        rw [received] at stepped
        obtain ⟨rfl, rfl⟩ := crash_inv (finish_crash _ _) stepped
        exact ⟨none, .overread readsHeader queue long⟩

private theorem closeBlock_sound {e e' : Endpoint} {event : Event} {overread : Bool}
    {sent : Option Segment} (enters : e.EntersClose event)
    (dispatched : e.pc = .networkData event →
      e.ctx.connectionState = .finWait1 ∨ e.ctx.connectionState = .lastAck)
    (stepped : (e.closeBlock overread).map finish = some (e', sent)) :
    ∃ taken, ThreadStep e taken sent e' := by
  have notCrashed : e.pc ≠ .crashed := by rcases enters.place with pc | pc <;> rw [pc] <;> simp
  unfold closeBlock at stepped
  by_cases await : e.ctx.connectionState = if e.ctx.isClient then .finWait1 else .lastAck
  · have reads : (e.awaitFinAck overread).map finish = some (e', sent) := by
      cases client : e.ctx.isClient <;> simp only [client] at await stepped <;>
        simpa [await] using stepped
    exact awaitFinAck_sound enters await reads
  · by_cases opening : e.ctx.connectionState = if e.ctx.isClient then .established else .closeWait
    · rcases enters with ⟨atNetworkData, _⟩ | ⟨atClose, asked⟩
      · -- `goto close` is taken in FIN_WAIT_1 and LAST_ACK only
        have header := dispatched atNetworkData
        cases client : e.ctx.isClient <;> simp [client] at opening <;> simp_all
      · have sends : (some (e.sendFin (if e.ctx.isClient then .finWait1 else .lastAck))).map
            finish = some (e', sent) := by
          cases client : e.ctx.isClient <;> simp only [client] at opening stepped <;>
            simpa [opening] using stepped
        obtain ⟨rfl, rfl⟩ := finish_inv sends notCrashed
        exact ⟨none, .sendFin atClose asked opening⟩
    · have idle : (some (e, none)).map finish = some (e', sent) := by
        cases client : e.ctx.isClient <;> simp only [client] at stepped opening await <;>
          cases state : e.ctx.connectionState <;>
          simp only [state] at stepped opening await <;> simp at opening await <;>
          exact stepped
      obtain ⟨rfl, rfl⟩ := finish_inv idle notCrashed
      exact ⟨none, .forget enters opening await dispatched⟩

private theorem fillBuffer_none {ctx : Context} {data : List Byte}
    (outside : store ctx.buffer (sizeSub ctx.nextSeqnum ctx.sendBase) data = none) :
    ctx.fillBuffer data = none := by
  simp [Context.fillBuffer, outside]

private theorem fillBuffer_some {ctx : Context} {data buffer : List Byte}
    (stored : store ctx.buffer (sizeSub ctx.nextSeqnum ctx.sendBase) data = some buffer) :
    ctx.fillBuffer data = some (buffer, data) := by
  simp [Context.fillBuffer, stored, load_store stored]

private theorem appDataBlock_sound {e e' : Endpoint} {event : Event} {sent : Option Segment}
    (pc : e.pc = .appData event) (ready : event.appData = true)
    (stepped : e.appDataBlock.map (goto (.networkData event)) = some (e', sent)) :
    ∃ taken, ThreadStep e taken sent e' := by
  refine ⟨none, ?_⟩
  have notCrashed : e.pc ≠ .crashed := by rw [pc]; simp
  unfold appDataBlock at stepped
  split at stepped
  · rename_i full
    obtain ⟨rfl, rfl⟩ := goto_inv stepped notCrashed
    exact .appSkip pc (.inr full)
  · rename_i room
    unfold stcpAppRecv at stepped
    cases dequeued : mysockDequeueBuffer e.sock.appRecvQueue (min e.ctx.rem MSS) with
    | none => simp [dequeued] at stepped
    | some taken =>
        obtain ⟨data, left⟩ := taken
        rw [dequeued] at stepped
        simp only at stepped
        unfold sendData at stepped
        cases stored : store e.ctx.buffer (sizeSub e.ctx.nextSeqnum e.ctx.sendBase) data with
        | none =>
            rw [fillBuffer_none stored] at stepped
            obtain ⟨rfl, rfl⟩ := crash_inv (goto_crash _ _ _) stepped
            exact .appOverflow pc ready room dequeued stored
        | some buffer =>
            rw [fillBuffer_some stored] at stepped
            obtain ⟨rfl, rfl⟩ := goto_inv stepped notCrashed
            exact .appSend pc ready room dequeued stored

private theorem processAck_cases (e : Endpoint) (packet : Segment) :
    (e.ctx.acked packet.thAck).shiftBuffer = none ∧ e.processAck packet = e.crash ∨
      ∃ buffer, (e.ctx.acked packet.thAck).shiftBuffer = some buffer ∧
        e.processAck packet =
          { e with ctx := { e.ctx.acked packet.thAck with buffer := buffer } } := by
  unfold processAck
  generalize e.ctx.acked packet.thAck = ctx
  cases shifted : ctx.shiftBuffer with
  | none => exact .inl ⟨rfl, by simp [shifted]⟩
  | some buffer => exact .inr ⟨buffer, rfl, by simp [shifted]⟩

private theorem networkDataBlock_sound {e e' : Endpoint} {event : Event} {overread : Bool}
    {sent : Option Segment} (pc : e.pc = .networkData event) (ready : event.networkData = true)
    (reads : ¬e.ReadsHeader)
    (stepped : (e.networkDataBlock overread).map (goto (.close event)) = some (e', sent)) :
    ∃ taken, ThreadStep e taken sent e' := by
  have notCrashed : e.pc ≠ .crashed := by rw [pc]; simp
  have popAlive : e.pop.pc ≠ .crashed := notCrashed
  unfold networkDataBlock at stepped
  cases received : stcpNetworkRecv e.sock (tcphdrSize + MSS) overread with
  | none => simp [received] at stepped
  | some result =>
      obtain ⟨packet, rest, queue, ⟨sock, popped, outcome⟩ | ⟨outcome, long⟩⟩ :=
        stcpNetworkRecv_cases received
      · subst outcome
        rw [received] at stepped
        simp only [popped, Nat.add_sub_cancel_left] at stepped
        unfold processPacket at stepped
        split at stepped
        · rename_i isAck
          rcases processAck_cases e.pop { packet with data := packet.data.take MSS } with
            ⟨outside, crashes⟩ | ⟨buffer, shifted, moves⟩
          · rw [crashes] at stepped
            obtain ⟨rfl, rfl⟩ := crash_inv (goto_crash _ _ _) stepped
            exact ⟨some packet, .ackOverflow pc ready reads queue isAck outside⟩
          · rw [moves] at stepped
            obtain ⟨rfl, rfl⟩ := goto_inv stepped popAlive
            exact ⟨some packet, .ack pc ready reads queue isAck shifted⟩
        · rename_i notAck
          split at stepped
          · rename_i isFin
            obtain ⟨rfl, rfl⟩ := goto_inv stepped popAlive
            exact ⟨some packet, .fin pc ready reads queue isFin⟩
          · rename_i notFin
            obtain ⟨rfl, rfl⟩ := goto_inv stepped popAlive
            exact ⟨some packet, .data pc ready reads queue notAck notFin rfl⟩
      · subst outcome
        rw [received] at stepped
        obtain ⟨rfl, rfl⟩ := crash_inv (goto_crash _ _ _) stepped
        exact ⟨none, .oversized pc ready queue long⟩

private theorem handshakeBlock_sound {e e' : Endpoint} {sent : Option Segment} {packet : Segment}
    {rest : List Segment} (pc : e.pc = .handshake)
    (queue : e.sock.networkRecvQueue = packet :: rest)
    (block : e.pop.handshakeBlock { packet with data := [] } = (e', sent)) :
    ThreadStep e (some packet) sent e' := by
  unfold handshakeBlock at block
  split at block
  · rename_i state
    cases block
    exact .connect pc queue state
  · rename_i state
    cases block
    exact .accept pc queue state
  · rename_i state
    cases block
    exact .accepted pc queue state
  · rename_i notSynSent notListen notSynRcvd
    cases block
    exact .stalled pc queue notSynSent notListen notSynRcvd

/-- Every step of the transport thread is one of the listed ones. -/
theorem threadStep_sound {e e' : Endpoint} {overread : Bool} {sent : Option Segment}
    (stepped : e.threadStep overread = some (e', sent)) :
    ∃ taken, ThreadStep e taken sent e' := by
  unfold threadStep at stepped
  split at stepped
  · rename_i pc
    cases stepped
    exact ⟨none, .sendSyn pc⟩
  · rename_i pc
    cases received : stcpNetworkRecv e.sock tcphdrSize overread with
    | none => simp [received] at stepped
    | some result =>
        obtain ⟨packet, rest, queue, ⟨sock, popped, outcome⟩ | ⟨outcome, long⟩⟩ :=
        stcpNetworkRecv_cases received
        · subst outcome
          simp only [received, Nat.sub_self, List.take_zero, popped,
            Option.some.injEq] at stepped
          exact ⟨some packet, handshakeBlock_sound pc queue stepped⟩
        · subst outcome
          simp only [received, Option.some.injEq, Prod.mk.injEq] at stepped
          obtain ⟨rfl, rfl⟩ := stepped
          exact ⟨none, .overread (.inl pc) queue long⟩
  · rename_i pc
    cases woken : stcpWaitForEvent e.sock with
    | none => simp [woken] at stepped
    | some result =>
        obtain ⟨event, sock⟩ := result
        simp only [woken, Option.some.injEq, Prod.mk.injEq] at stepped
        obtain ⟨rfl, rfl⟩ := stepped
        exact ⟨none, .dispatch pc woken⟩
  · rename_i event pc
    split at stepped
    · rename_i ready
      exact appDataBlock_sound pc ready stepped
    · rename_i idle
      cases stepped
      exact ⟨none, .appSkip pc (.inl (by simpa using idle))⟩
  · rename_i event pc
    split at stepped
    · rename_i ready
      split at stepped
      · rename_i header
        exact closeBlock_sound (.inl ⟨pc, ready⟩) (fun _ => header) stepped
      · rename_i header
        refine networkDataBlock_sound pc ready ?_ stepped
        rintro (atHandshake | ⟨_, atHeader⟩)
        · rw [pc] at atHandshake
          cases atHandshake
        · exact header atHeader
    · rename_i idle
      cases stepped
      exact ⟨none, .networkSkip pc (by simpa using idle)⟩
  · rename_i event pc
    split at stepped
    · rename_i asked
      refine closeBlock_sound (.inr ⟨pc, asked⟩) ?_ stepped
      rw [pc]
      exact fun atNetworkData => nomatch atNetworkData
    · rename_i quiet
      cases stepped
      exact ⟨none, .noClose pc (by simpa using quiet)⟩
  · cases stepped
  · cases stepped

end Endpoint

/-- The segment taken is the head of the receive queue. -/
theorem ThreadStep.queue {e e' : Endpoint} {taken sent : Option Segment}
    (moved : ThreadStep e taken sent e') :
    e.sock.networkRecvQueue = taken.toList ++ e'.sock.networkRecvQueue := by
  cases moved with
  | dispatch _ woken =>
      rw [(stcpWaitForEvent_cases woken).2]
      rfl
  | connect _ queue => simp [Endpoint.pop, queue]
  | accept _ queue => simp [Endpoint.pop, queue]
  | accepted _ queue => simp [Endpoint.pop, queue]
  | stalled _ queue => simp [Endpoint.pop, queue]
  | ack _ _ _ queue => simp [Endpoint.pop, queue]
  | ackOverflow _ _ _ queue => simp [Endpoint.pop, Endpoint.crash, queue]
  | fin _ _ _ queue => simp [Endpoint.pop, stcpFinReceived, queue]
  | data _ _ _ queue => simp [Endpoint.pop, queue]
  | finAcked _ _ queue => simp [Endpoint.pop, queue]
  | ignored _ _ queue => simp [Endpoint.pop, queue]
  | _ => first | rfl | simp

theorem ThreadStep.initialSequenceNum {e e' : Endpoint} {taken sent : Option Segment}
    (moved : ThreadStep e taken sent e') :
    e'.ctx.initialSequenceNum = e.ctx.initialSequenceNum := by
  cases moved with
  | fin =>
      simp only [Context.receivedFin]
      split <;> rfl
  | finAcked =>
      rw [Endpoint.loopEnd_ctx]
      simp only [Context.finAcked]
      split <;> rfl
  | _ => first | rfl | simp [Context.sentFin]

theorem ThreadStep.appClosed {e e' : Endpoint} {taken sent : Option Segment}
    (moved : ThreadStep e taken sent e') : e'.appClosed = e.appClosed := by
  cases moved <;> simp

theorem Endpoint.EntersClose.inLoop {e : Endpoint} {event : Event} (enters : e.EntersClose event) :
    e.InLoop := by
  rcases enters.place with pc | pc <;> simp [Endpoint.InLoop, pc]

/-- The loop is entered by establishing the connection. -/
theorem ThreadStep.inLoop {e e' : Endpoint} {taken sent : Option Segment}
    (moved : ThreadStep e taken sent e') (inLoop : e'.InLoop) :
    e.InLoop ∨ e.pc = .handshake ∧ e'.ctx = e.ctx.establish e.isActive ∧
      e'.history.taken = e.history.taken := by
  cases moved with
  | sendSyn => exact absurd rfl inLoop.2.1
  | connect pc => exact .inr ⟨pc, rfl, rfl⟩
  | accept pc => exact absurd pc inLoop.2.1
  | accepted pc => exact .inr ⟨pc, rfl, rfl⟩
  | stalled pc => exact absurd pc inLoop.2.1
  | overread => exact absurd rfl inLoop.2.2
  | oversized => exact absurd rfl inLoop.2.2
  | appOverflow => exact absurd rfl inLoop.2.2
  | ackOverflow => exact absurd rfl inLoop.2.2
  | finAcked enters => exact .inl enters.inLoop
  | ignored enters => exact .inl enters.inLoop
  | forget enters => exact .inl enters.inLoop
  | dispatch pc => exact .inl (by simp [Endpoint.InLoop, pc])
  | appSkip pc => exact .inl (by simp [Endpoint.InLoop, pc])
  | appSend pc => exact .inl (by simp [Endpoint.InLoop, pc])
  | networkSkip pc => exact .inl (by simp [Endpoint.InLoop, pc])
  | ack pc => exact .inl (by simp [Endpoint.InLoop, pc])
  | fin pc => exact .inl (by simp [Endpoint.InLoop, pc])
  | data pc => exact .inl (by simp [Endpoint.InLoop, pc])
  | sendFin pc => exact .inl (by simp [Endpoint.InLoop, pc])
  | noClose pc => exact .inl (by simp [Endpoint.InLoop, pc])

end EE323.Stcp

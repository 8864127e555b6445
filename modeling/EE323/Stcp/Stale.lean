/-
Module: EE323.Stcp.Stale
Purpose: Acknowledgements that acknowledge nothing new.  `control_loop` takes every `th_ack` for the
  new `SendBase`, so a stale or invented one is harmless only when it repeats `SendBase`.  While the
  thread waits for the acknowledgement of its FIN it reads a bare header, and no window moves.
Main exports: KeptInLoop, sized_of_run, Harmless, stale_ack_harmless, old_ack_leaves_buffer
-/
import EE323.Stcp.HalfClose
import EE323.Stcp.Numbers

namespace EE323.Stcp

open EE323.Lib

/-! ### The context of every endpoint in the loop -/

/-- Every update of the context that the transport thread makes keeps the property, and the context
with which `control_loop` begins has it. -/
structure KeptInLoop (Holds : Context → Prop) : Prop where
  establish : ∀ (ctx : Context) (isActive : Bool), Holds (ctx.establish isActive)
  sent : ∀ {ctx : Context} {offset : Nat} {data buffer : List Byte}, Holds ctx →
    store ctx.buffer offset data = some buffer → ∀ size, Holds (ctx.sent buffer size)
  acked : ∀ {ctx : Context} {thAck : Nat} {buffer : List Byte}, Holds ctx →
    (ctx.acked thAck).shiftBuffer = some buffer → Holds { ctx.acked thAck with buffer := buffer }
  recvBase : ∀ {ctx : Context}, Holds ctx → ∀ recvBase, Holds { ctx with recvBase := recvBase }
  receivedFin : ∀ {ctx : Context}, Holds ctx → Holds ctx.receivedFin
  finAcked : ∀ {ctx : Context}, Holds ctx → Holds ctx.finAcked
  sentFin : ∀ {ctx : Context}, Holds ctx → ∀ next, Holds (ctx.sentFin next)

namespace KeptInLoop

variable {Holds : Context → Prop}

theorem threadStep (kept : KeptInLoop Holds) {e e' : Endpoint} {taken sent : Option Segment}
    (moved : ThreadStep e taken sent e') (before : e.InLoop → Holds e.ctx) (inLoop : e'.InLoop) :
    Holds e'.ctx := by
  rcases moved.inLoop inLoop with loop | ⟨_, established, _⟩
  · have held := before loop
    cases moved with
    | sendSyn => exact absurd rfl inLoop.2.1
    | connect => exact kept.establish _ _
    | accept pc => exact absurd pc inLoop.2.1
    | accepted => exact kept.establish _ _
    | appSend pc ready room dequeued stored => exact kept.sent held stored _
    | ack pc ready reads queue isAck shifted => exact kept.acked held shifted
    | fin => exact kept.receivedFin held
    | data => exact kept.recvBase held _
    | finAcked =>
        rw [Endpoint.loopEnd_ctx]
        exact kept.finAcked held
    | sendFin =>
        rw [Endpoint.loopEnd_ctx]
        exact kept.sentFin held _
    | _ => simpa using held
  · rw [established]
    exact kept.establish _ _

/-- In every run, over either network, the context of an endpoint in the loop has the property. -/
theorem of_run (kept : KeptInLoop Holds) {isReliable : Bool} {guard : System → Action → Prop}
    {labels : List Action} {s : System}
    (run : Run (System.step isReliable) guard System.init labels s) (side : Side)
    (inLoop : (s.endpoint side).InLoop) : Holds (s.endpoint side).ctx := by
  let Inv : Endpoint → Prop := fun e => e.InLoop → Holds e.ctx
  have start : Inv (Endpoint.init (side = .client)) := by
    intro inLoop
    cases side with
    | client => exact absurd rfl inLoop.1
    | server => exact absurd rfl inLoop.2.1
  have invariant : Inv (s.endpoint side) := by
    refine endpoint_invariant run start ?_
    intro s action e' before _ moved
    cases moved with
    | thread moved => exact kept.threadStep moved before
    | receive packet => exact before
    | app called =>
        simp only [Inv, Endpoint.InLoop, called.pc, called.ctx]
        exact before
  exact invariant inLoop

end KeptInLoop

/-- In every run the sizes of an endpoint in the loop belong together. -/
theorem sized_of_run {isReliable : Bool} {guard : System → Action → Prop} {labels : List Action}
    {s : System} (run : Run (System.step isReliable) guard System.init labels s) (side : Side) :
    (s.endpoint side).InLoop → Sized (s.endpoint side).ctx := by
  have kept : KeptInLoop Sized :=
    { establish := Sized.establish
      sent := fun sized => sized.sent
      acked := fun sized => sized.acked
      recvBase := Sized.recvBase
      receivedFin := Sized.receivedFin
      finAcked := Sized.finAcked
      sentFin := Sized.sentFin }
  exact kept.of_run run side

/-- In every run `rem` is what the expression of its last update gives. -/
theorem rem_of_run {isReliable : Bool} {guard : System → Action → Prop} {labels : List Action}
    {s : System} (run : Run (System.step isReliable) guard System.init labels s) (side : Side) :
    (s.endpoint side).InLoop → (s.endpoint side).ctx.rem = (s.endpoint side).ctx.window := by
  have kept : KeptInLoop fun ctx => ctx.rem = ctx.window :=
    { establish := fun _ _ => rfl
      sent := fun _ _ _ => rfl
      acked := fun _ _ => rfl
      recvBase := fun before _ => before
      receivedFin := fun before => by
        unfold Context.receivedFin
        split <;> exact before
      finAcked := fun before => by
        unfold Context.finAcked
        split <;> exact before
      sentFin := fun _ _ => rfl }
  exact kept.of_run run side

/-! ### Stale acknowledgements -/

/-- The bytes in flight, as the code computes them. -/
def Context.bytesInFlight (ctx : Context) : Nat := sizeSub ctx.nextSeqnum ctx.sendBase

/-- The acknowledgement names nothing new: a number up to `SendBase`, or one never sent. -/
def Stale (ctx : Context) (packet : Segment) : Prop :=
  packet.thAck ≤ ctx.sendBase ∨ ctx.nextSeqnum < packet.thAck

instance (ctx : Context) (packet : Segment) : Decidable (Stale ctx packet) :=
  inferInstanceAs (Decidable (_ ∨ _))

/-- The endpoint at the label `next`, with this segment at the head of its receive queue. -/
def Endpoint.reading (e : Endpoint) (event : Event) (packet : Segment) : Endpoint :=
  { e with
    pc := .networkData { event with networkData := true }
    sock := { e.sock with networkRecvQueue := packet :: e.sock.networkRecvQueue.tail } }

/-- The endpoint after the segment was processed. -/
def Endpoint.processed (e : Endpoint) (event : Event) (packet : Segment) (overread : Bool) :
    Option Endpoint :=
  ((e.reading event packet).threadStep overread).map Prod.fst

/-- `stcp_network_recv` returns the segment: it fits the buffer that is read into, or the checksum
over the bytes behind that buffer happens to pass. -/
def Endpoint.CanRead (e : Endpoint) (packet : Segment) (overread : Bool) : Prop :=
  overread = true ∨ ∀ length ∈ e.recvLength, packet.size ≤ length

/-- What an endpoint keeps when a segment does it no harm.  `rem` and `ACK_size` go beyond their
bounds only where they were beyond them before. -/
structure Harmless (e after : Endpoint) : Prop where
  alive : after.pc ≠ .crashed
  sendBase : after.ctx.sendBase = e.ctx.sendBase
  nextSeqnum : after.ctx.nextSeqnum = e.ctx.nextSeqnum
  inFlight : after.ctx.bytesInFlight = e.ctx.bytesInFlight
  unacknowledged : e.ctx.buffer.take e.ctx.bytesInFlight <+: after.ctx.buffer
  rem : e.ctx.rem ≤ e.ctx.swnd → after.ctx.rem ≤ after.ctx.swnd
  ackSize : e.ctx.ackSize ≤ e.ctx.bytesInFlight →
    after.ctx.ackSize ≤ after.ctx.bytesInFlight

theorem sizeSub_self (a : Nat) : sizeSub a a = 0 := by
  unfold sizeSub
  omega

/-- A difference is at most the minuend exactly when the subtrahend is. -/
theorem sizeSub_le_iff {a b : Nat} (aFits : a < 2 ^ 64) (bFits : b < 2 ^ 64) :
    sizeSub a b ≤ a ↔ b ≤ a := by
  unfold sizeSub
  omega

theorem sizeSub_lt (a b : Nat) : sizeSub a b < 2 ^ 64 := by
  unfold sizeSub
  exact Nat.mod_lt _ (by decide)

/-- An acknowledgement of `SendBase` itself keeps the whole buffer, with room behind it. -/
theorem Sized.shiftBuffer_same {ctx : Context} (sized : Sized ctx) :
    ∃ more, (ctx.acked ctx.sendBase).shiftBuffer = some (ctx.buffer ++ more) := by
  have grows := sized.acked_swnd ctx.sendBase
  have small := sized.swnd_le
  have length := sized.buffer
  have ackSize : (ctx.acked ctx.sendBase).ackSize = 0 := sizeSub_self _
  have swndPrev : (ctx.acked ctx.sendBase).swndPrev = ctx.swnd := rfl
  have buffer : (ctx.acked ctx.sendBase).buffer = ctx.buffer := rfl
  have whole : load ctx.buffer 0 ctx.swnd = some ctx.buffer := by
    refine load_eq_some.mpr ⟨by omega, ?_⟩
    rw [List.drop_zero, List.take_of_length_le (Nat.le_of_eq length)]
  unfold Context.shiftBuffer
  rw [ackSize, swndPrev, buffer, sizeSub_eq (Nat.zero_le _) (by omega), Nat.sub_zero, whole,
    Option.bind_some]
  unfold store
  rw [if_pos (by simp; omega)]
  exact ⟨_, by rw [List.take_zero, List.nil_append]⟩

/-- An acknowledgement that repeats `SendBase` moves the window and nothing else: the window never
shrinks, so what was in flight fits it if it fitted before. -/
private theorem Sized.harmless_of_repeated {e after : Endpoint} (sized : Sized e.ctx)
    (room : e.ctx.rem = e.ctx.window)
    (outcome : (e.ctx.acked e.ctx.sendBase).shiftBuffer = none ∧ after.pc = .crashed ∨
      ∃ buffer, (e.ctx.acked e.ctx.sendBase).shiftBuffer = some buffer ∧ after.pc ≠ .crashed ∧
        after.ctx = { e.ctx.acked e.ctx.sendBase with buffer := buffer }) : Harmless e after := by
  obtain ⟨more, shifted⟩ := sized.shiftBuffer_same
  obtain ⟨failed, _⟩ | ⟨buffer, copied, alive, moved⟩ := outcome
  · rw [shifted] at failed
    cases failed
  rw [shifted] at copied
  cases copied
  have grows := sized.acked_swnd e.ctx.sendBase
  have small := sized.swnd_le
  have most : (e.ctx.acked e.ctx.sendBase).swnd ≤ 3072 := by
    simp only [Context.acked, sized.recvWin]
    exact Nat.min_le_right _ _
  have inFlight : e.ctx.bytesInFlight < 2 ^ 64 := sizeSub_lt _ _
  refine ⟨alive, ?_, ?_, ?_, ?_, ?_, ?_⟩ <;> rw [moved]
  · rfl
  · rfl
  · rfl
  · exact (List.take_prefix _ _).trans (List.prefix_append _ _)
  · intro within
    rw [room] at within
    have fits := (sizeSub_le_iff (Nat.lt_of_le_of_lt small (by decide)) inFlight).mp within
    exact (sizeSub_le_iff (Nat.lt_of_le_of_lt most (by decide)) inFlight).mpr (Nat.le_trans fits grows)
  · intro _
    exact Nat.le_trans (Nat.le_of_eq (sizeSub_self _)) (Nat.zero_le _)

/-! ### The segment is read -/

section Reading

variable {e : Endpoint} {event : Event} {packet : Segment} {overread : Bool}

/-- Where nothing but the state of the connection moves, nothing is harmed. -/
private theorem harmless_of_state {after : Endpoint} (alive : after.pc ≠ .crashed)
    (state : CState) (done : Bool)
    (moved : after.ctx = { e.ctx with connectionState := state, done := done }) :
    Harmless e after := by
  refine ⟨alive, ?_, ?_, ?_, ?_, ?_, ?_⟩ <;> rw [moved]
  · rfl
  · exact List.take_prefix _ _
  · exact id
  · exact id

private theorem loopEnd_alive (e : Endpoint) : e.loopEnd.pc ≠ .crashed := by
  rw [Endpoint.loopEnd_pc]
  split <;> exact nofun

/-- While the acknowledgement of the FIN is awaited, the block at `close` reads a header or does
nothing. -/
private theorem closeBlock_awaiting (awaits : e.ctx.AwaitsFinAck) :
    e.closeBlock overread = if e.ReadsFinAck then e.awaitFinAck overread else some (e, none) := by
  unfold Endpoint.closeBlock Endpoint.ReadsFinAck
  rcases awaits with state | state <;> by_cases client : e.ctx.isClient = true <;>
    simp [state, client]

private theorem processed_awaits (awaits : e.ctx.AwaitsFinAck) :
    e.processed event packet overread =
      ((if (e.reading event packet).ReadsFinAck then (e.reading event packet).awaitFinAck overread
        else some (e.reading event packet, none)).map Endpoint.finish).map Prod.fst := by
  have waiting : (e.reading event packet).ctx.AwaitsFinAck := awaits
  rw [← closeBlock_awaiting waiting]
  exact congrArg (Option.map Prod.fst) (if_pos awaits)

private theorem processed_whole (reads : ¬e.ctx.AwaitsFinAck) :
    e.processed event packet overread =
      (((e.reading event packet).networkDataBlock overread).map
        (Endpoint.goto (.close { event with networkData := true }))).map Prod.fst :=
  congrArg (Option.map Prod.fst) (if_neg reads)

private theorem recvLength_awaits (awaits : e.ctx.AwaitsFinAck) :
    (e.reading event packet).recvLength =
      if (e.reading event packet).ReadsFinAck then some tcphdrSize else none :=
  if_pos awaits

private theorem recvLength_whole (reads : ¬e.ctx.AwaitsFinAck) :
    (e.reading event packet).recvLength = some (tcphdrSize + MSS) :=
  if_neg reads

/-- What `stcp_network_recv` does with the segment. -/
private theorem recv_reading (length : Nat) :
    stcpNetworkRecv (e.reading event packet).sock length overread =
      if packet.size ≤ length ∨ overread = true then
        some (.received { packet with data := packet.data.take (length - tcphdrSize) }
          { e.sock with networkRecvQueue := e.sock.networkRecvQueue.tail })
      else some .checksumAssertion := rfl

/-- A segment that cannot be read ends the process. -/
private theorem processed_unreadable
    (unreadable : ¬(e.reading event packet).CanRead packet overread) :
    ∃ after, e.processed event packet overread = some after ∧ after.pc = .crashed := by
  unfold Endpoint.CanRead at unreadable
  simp only [not_or, not_forall] at unreadable
  obtain ⟨plain, length, reads, long⟩ := unreadable
  have assertion : stcpNetworkRecv (e.reading event packet).sock length overread =
      some .checksumAssertion := by
    rw [recv_reading, if_neg (not_or.mpr ⟨long, plain⟩)]
  by_cases awaits : e.ctx.AwaitsFinAck
  · rw [recvLength_awaits awaits, Option.mem_def, Option.ite_none_right_eq_some] at reads
    obtain ⟨readsFinAck, isLength⟩ := reads
    cases isLength
    refine ⟨(e.reading event packet).crash, ?_, rfl⟩
    rw [processed_awaits awaits, if_pos readsFinAck, Endpoint.awaitFinAck, assertion]
    rfl
  · rw [recvLength_whole awaits] at reads
    cases reads
    refine ⟨(e.reading event packet).crash, ?_, rfl⟩
    rw [processed_whole awaits, Endpoint.networkDataBlock, assertion]
    rfl

/-- In `FIN_WAIT_1` and `LAST_ACK` any acknowledgement moves the state of the connection only. -/
private theorem processed_header (awaits : e.ctx.AwaitsFinAck) (isAck : packet.IsAck)
    (canRead : (e.reading event packet).CanRead packet overread) :
    ∃ after, e.processed event packet overread = some after ∧ Harmless e after := by
  rw [processed_awaits awaits]
  by_cases readsFinAck : (e.reading event packet).ReadsFinAck
  · have fits : packet.size ≤ tcphdrSize ∨ overread = true := by
      refine canRead.symm.imp_left fun fits => fits _ ?_
      rw [recvLength_awaits awaits, if_pos readsFinAck]
      rfl
    have taken : (e.reading event packet).awaitFinAck overread =
        some ({ e.reading event packet with
          ctx := e.ctx.finAcked
          sock := { e.sock with networkRecvQueue := e.sock.networkRecvQueue.tail } }, none) := by
      rw [Endpoint.awaitFinAck, recv_reading, if_pos fits]
      exact congrArg (fun after => some (after, none)) (if_pos isAck)
    rw [if_pos readsFinAck, taken]
    refine ⟨_, rfl, ?_⟩
    cases client : e.ctx.isClient
    · refine harmless_of_state (loopEnd_alive _) .closed true ?_
      simp [Endpoint.finish, Endpoint.reading, Context.finAcked, client]
    · refine harmless_of_state (loopEnd_alive _) .finWait2 e.ctx.done ?_
      simp [Endpoint.finish, Endpoint.reading, Context.finAcked, client]
  · rw [if_neg readsFinAck]
    refine ⟨(e.reading event packet).loopEnd, rfl, ?_⟩
    exact harmless_of_state (loopEnd_alive _) _ _ (Endpoint.loopEnd_ctx _)

/-- Everywhere else the window moves to the number of the acknowledgement. -/
private theorem processed_ack (reads : ¬e.ctx.AwaitsFinAck) (isAck : packet.IsAck)
    (canRead : (e.reading event packet).CanRead packet overread) :
    ∃ after, e.processed event packet overread = some after ∧
      ((e.ctx.acked packet.thAck).shiftBuffer = none ∧ after.pc = .crashed ∨
        ∃ buffer, (e.ctx.acked packet.thAck).shiftBuffer = some buffer ∧ after.pc ≠ .crashed ∧
          after.ctx = { e.ctx.acked packet.thAck with buffer := buffer }) := by
  have fits : packet.size ≤ tcphdrSize + MSS ∨ overread = true :=
    canRead.symm.imp_left fun fits => fits _ (recvLength_whole reads)
  let left : Endpoint :=
    { e.reading event packet with
      sock := { e.sock with networkRecvQueue := e.sock.networkRecvQueue.tail } }
  have taken : (e.reading event packet).networkDataBlock overread =
      some (left.processAck { packet with data := packet.data.take (tcphdrSize + MSS - tcphdrSize) },
        none) := by
    rw [Endpoint.networkDataBlock, recv_reading, if_pos fits]
    exact congrArg some (if_pos isAck)
  rw [processed_whole reads, taken]
  refine ⟨_, rfl, ?_⟩
  unfold Endpoint.processAck
  dsimp only [left, Endpoint.reading]
  cases shifted : (e.ctx.acked packet.thAck).shiftBuffer with
  | none => exact .inl ⟨rfl, rfl⟩
  | some buffer => exact .inr ⟨buffer, rfl, nofun, rfl⟩

end Reading

/-- In every context that `control_loop` can reach, an acknowledgement that names nothing new and
can be read is harmless exactly when the endpoint waits for the acknowledgement of its FIN or the
number repeats `SendBase`. -/
theorem stale_ack_harmless {isReliable : Bool} {labels : List Action} {s : System} {side : Side}
    {packet : Segment} (run : Run (System.step isReliable) anyStep System.init labels s)
    (inLoop : (s.endpoint side).InLoop) (_ : (s.endpoint side).ctx.done = false)
    (isAck : packet.IsAck) (_ : Stale (s.endpoint side).ctx packet) (event : Event)
    (overread : Bool) :
    ∃ after, (s.endpoint side).processed event packet overread = some after ∧
      (Harmless (s.endpoint side) after ↔
        ((s.endpoint side).reading event packet).CanRead packet overread ∧
          ((s.endpoint side).ctx.AwaitsFinAck ∨
            packet.thAck = (s.endpoint side).ctx.sendBase)) := by
  have sized := sized_of_run run side inLoop
  have room := rem_of_run run side inLoop
  generalize s.endpoint side = e at *
  by_cases canRead : (e.reading event packet).CanRead packet overread
  · by_cases awaits : e.ctx.AwaitsFinAck
    · obtain ⟨after, processed, harmless⟩ := processed_header awaits isAck canRead
      exact ⟨after, processed, fun _ => ⟨canRead, .inl awaits⟩, fun _ => harmless⟩
    · obtain ⟨after, processed, outcome⟩ := processed_ack awaits isAck canRead
      refine ⟨after, processed, ?_, ?_⟩
      · intro harmless
        refine ⟨canRead, .inr ?_⟩
        rcases outcome with ⟨_, crashed⟩ | ⟨buffer, _, _, moved⟩
        · exact absurd crashed harmless.alive
        · have same := harmless.sendBase
          rwa [moved] at same
      · rintro ⟨_, waiting | same⟩
        · exact absurd waiting awaits
        · rw [same] at outcome
          exact sized.harmless_of_repeated room outcome
  · obtain ⟨after, processed, crashed⟩ := processed_unreadable canRead
    exact ⟨after, processed, fun harmless => absurd crashed harmless.alive,
      fun condition => absurd condition.1 canRead⟩

/-- An acknowledgement of the first byte number. -/
private def repeatedAck : Segment := ⟨1, 1, 0, TH_ACK, 0, []⟩

/-- The client has a byte in flight when the number of that byte is acknowledged again. -/
theorem stale_ack_harmless_repeated : ∃ s after,
    Run (System.step false) anyStep System.init
        (handshakeSchedule ++ [.write .client [7]] ++ iteration .client) s ∧
      (s.endpoint .client).ctx.bytesInFlight = 1 ∧
      (s.endpoint .client).processed ⟨false, true, false⟩ repeatedAck false = some after ∧
      Harmless (s.endpoint .client) after := by
  have reached : ∃ s, Run (System.step false) anyStep System.init
        (handshakeSchedule ++ [.write .client [7]] ++ iteration .client) s ∧
      (s.endpoint .client).InLoop ∧ (s.endpoint .client).ctx.done = false ∧
      (s.endpoint .client).ctx.bytesInFlight = 1 ∧ Stale (s.endpoint .client).ctx repeatedAck ∧
      repeatedAck.thAck = (s.endpoint .client).ctx.sendBase ∧
      ∀ length ∈ ((s.endpoint .client).reading ⟨false, true, false⟩ repeatedAck).recvLength,
        repeatedAck.size ≤ length :=
    exec_reaches _ (by decide +kernel)
  obtain ⟨s, run, inLoop, live, inFlight, stale, repeated, fits⟩ := reached
  have isAck : repeatedAck.IsAck := rfl
  obtain ⟨after, processed, harmless⟩ :=
    stale_ack_harmless run inLoop live isAck stale ⟨false, true, false⟩ false
  exact ⟨s, after, run, inFlight, processed, harmless.mpr ⟨.inr fits, .inr repeated⟩⟩

/-- The client sends three bytes one by one; the network holds the acknowledgement of the first back
until those of the others have passed. -/
private def lateAck : List Action :=
  handshakeSchedule ++ [Action.write .client [7]] ++ iteration .client ++ [Action.deliver .client] ++
    [Action.move .server, .move .server, .thread .server 2 false, .move .server] ++
    [Action.write .client [8]] ++ iteration .client ++ [Action.deliver .client] ++ iteration .server ++
    [Action.deliver .server] ++ iteration .client ++ [Action.write .client [9]] ++ iteration .client ++
    [Action.deliver .client] ++
    [Action.move .server, .move .server, .thread .server 3 false, .move .server] ++
    [Action.deliver .server, .move .client, .move .client]

/-- An old acknowledgement that the network delivers late moves `SendBase` back, and the copy of the
unacknowledged bytes starts before the buffer. -/
theorem old_ack_leaves_buffer : ∃ s,
    Run (System.step false) anyStep System.init lateAck s ∧
      ∃ packet ∈ (s.endpoint .client).nextAck, Stale (s.endpoint .client).ctx packet ∧
        (s.endpoint .client).ctx.sendBase = 3 ∧
        ((s.endpoint .client).ctx.acked packet.thAck).sendBase = 2 ∧
        ∃ result, (s.endpoint .client).threadStep false = some result ∧
          result.1.pc = .crashed ∧ ¬Harmless (s.endpoint .client) result.1 := by
  have reached : ∃ s, Run (System.step false) anyStep System.init lateAck s ∧
      (s.endpoint .client).ctx.sendBase = 3 ∧
      (s.endpoint .client).nextAck.any (fun packet => Stale (s.endpoint .client).ctx packet ∧
        packet.thAck = 2) = true ∧
      ((s.endpoint .client).threadStep false).any (fun result => result.1.pc = .crashed) = true :=
    exec_reaches _ (by decide +kernel)
  obtain ⟨s, run, sendBase, isStale, stepped⟩ := reached
  obtain ⟨packet, next, found⟩ := (Option.any_eq_true _ _).mp isStale
  obtain ⟨stale, thAck⟩ := of_decide_eq_true found
  obtain ⟨result, moved, crashed⟩ := (Option.any_eq_true _ _).mp stepped
  have crashed : result.1.pc = .crashed := of_decide_eq_true crashed
  exact ⟨s, run, packet, next, stale, sendBase, thAck, result, moved, crashed,
    fun harmless => harmless.alive crashed⟩

end EE323.Stcp

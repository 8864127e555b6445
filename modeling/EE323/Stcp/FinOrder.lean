/-
Module: EE323.Stcp.FinOrder
Purpose: The FIN of one endpoint among the segments it sends, from its first step, whatever its
  application writes and whatever arrives.  The close event is passed down once, with nothing left to
  send, so the FIN comes once and behind all the data; only a header that the handshake sends back
  can bring another.
Main exports: Talker, PlainHandshake, FinOrdered, fin_ordered, echoed_fin
-/
import Mathlib.Data.List.Basic
import EE323.Stcp.Stream

namespace EE323.Stcp

open EE323.Lib

/-- One endpoint and the segments it has sent. -/
structure Talker where
  endpoint : Endpoint
  sent : List Segment

/-- What the application and the network can do, and the move of the transport thread.  Any segment
may come first, also to a passive end: its receive thread runs before its SYN is queued. -/
inductive TalkerAction where
  | write (data : List Byte)
  | read (bufLen : Nat)
  | close
  | receive (packet : Segment)
  | move (overread : Bool)
deriving DecidableEq, Repr

namespace Talker

def init (isActive : Bool) : Talker := { endpoint := Endpoint.init isActive, sent := [] }

def step (t : Talker) : TalkerAction → Option Talker
  | .write data =>
      if t.endpoint.AppRunning then some { t with endpoint := t.endpoint.appWrite data } else none
  | .read bufLen =>
      if t.endpoint.AppRunning then
        (t.endpoint.appRead bufLen).map fun endpoint => { t with endpoint := endpoint }
      else none
  | .close =>
      if t.endpoint.AppRunning then some { t with endpoint := t.endpoint.appClose } else none
  | .receive packet => some { t with endpoint := t.endpoint.receive packet }
  | .move overread =>
      (t.endpoint.threadStep overread).map fun (endpoint, sent) =>
        { endpoint := endpoint, sent := t.sent ++ sent.toList }

end Talker

/-- The header that the next step of the handshake sends back. -/
def Endpoint.echoes (e : Endpoint) : Option Segment :=
  if e.pc = .handshake ∧
      (e.ctx.connectionState = .synSent ∨ e.ctx.connectionState = .listen) then
    e.sock.networkRecvQueue.head?
  else none

/-- No header that the handshake sends back is a FIN. -/
def PlainHandshake (t : Talker) : TalkerAction → Prop
  | .move _ => ∀ packet, t.endpoint.echoes = some packet → ¬packet.IsFin
  | _ => True

instance (t : Talker) (action : TalkerAction) : Decidable (PlainHandshake t action) :=
  match action with
  | .move _ =>
      match search : t.endpoint.echoes with
      | none => .isTrue (by simp [PlainHandshake, search])
      | some packet =>
          decidable_of_iff (¬packet.IsFin) (by simp [PlainHandshake, search])
  | .write _ | .read _ | .close | .receive _ => .isTrue trivial

/-- Every FIN among the segments is numbered behind the stream, all of which is in the data segments
before it, and neither data nor another FIN comes after it. -/
def FinOrdered (sent : List Segment) (stream : List Byte) : Prop :=
  ∀ before fin after, sent = before ++ fin :: after → fin.IsFin →
    fin.thSeq = (1 + stream.length) % 2 ^ 32 ∧ payloads before = stream ∧
      ∀ later ∈ after, ¬later.IsFin ∧ ¬later.IsData

/-! ### The invariant -/

/-- What holds of an endpoint and its segments in every run. -/
private structure Speaking (t : Talker) : Prop where
  payloads : payloads t.sent = t.endpoint.history.taken
  accounted : t.endpoint.Accounted
  initial : t.endpoint.ctx.initialSequenceNum = 1
  opening : t.endpoint.pc = .start ∨ t.endpoint.pc = .handshake → t.endpoint.history.taken = []
  requested : t.endpoint.sock.closeRequested = true → t.endpoint.appClosed = true
  closing : t.endpoint.pc.closing = true → t.endpoint.appClosed = true ∧
    t.endpoint.sock.closeRequested = false ∧ t.endpoint.sock.appRecvQueue = []

/-- No FIN has been sent, and `next_seqnum` counts the bytes sent. -/
private structure Unfinished (t : Talker) : Prop where
  noFin : ¬HasFin t.sent
  counted : t.endpoint.InLoop →
    t.endpoint.ctx.nextSeqnum = (1 + t.endpoint.history.taken.length) % 2 ^ 64

/-- The FIN has been sent, only acknowledgements after it, and no close event is left. -/
private structure Finished (t : Talker) : Prop where
  split : ∃ before fin after, t.sent = before ++ fin :: after ∧ fin.IsFin ∧ ¬HasFin before ∧
    (∀ later ∈ after, later.IsAck) ∧
    fin.thSeq = (1 + t.endpoint.history.wrote.length) % 2 ^ 32
  running : t.endpoint.pc ≠ .start ∧ t.endpoint.pc ≠ .handshake
  closed : t.endpoint.appClosed = true
  forgotten : t.endpoint.sock.closeRequested = false ∧ t.endpoint.pc.closing = false
  drained : t.endpoint.sock.appRecvQueue = []

theorem Endpoint.loopEnd_not_closing (e : Endpoint) : e.loopEnd.pc.closing = false := by
  rw [Endpoint.loopEnd_pc]
  split <;> rfl

theorem Endpoint.loopEnd_running (e : Endpoint) :
    e.loopEnd.pc ≠ .start ∧ e.loopEnd.pc ≠ .handshake := by
  rw [Endpoint.loopEnd_pc]
  split <;> exact ⟨nofun, nofun⟩

/-- Only the start of the connection leads to the handshake. -/
theorem ThreadStep.place {e e' : Endpoint} {taken sent : Option Segment}
    (moved : ThreadStep e taken sent e') (early : e'.pc = .start ∨ e'.pc = .handshake) :
    (e.pc = .start ∨ e.pc = .handshake) ∧ e'.history.taken = e.history.taken := by
  cases moved with
  | sendSyn pc => exact ⟨.inl pc, rfl⟩
  | accept pc => exact ⟨.inr pc, rfl⟩
  | stalled pc => exact ⟨.inr pc, rfl⟩
  | finAcked => exact absurd early (by simpa using Endpoint.loopEnd_running _)
  | ignored => exact absurd early (by simpa using Endpoint.loopEnd_running _)
  | sendFin => exact absurd early (by simpa using Endpoint.loopEnd_running _)
  | noClose => exact absurd early (by simpa using Endpoint.loopEnd_running _)
  | forget => exact absurd early (by simpa using Endpoint.loopEnd_running _)
  | _ => simp at early

/-- A close event in hand was there before, or has just been taken off the socket with nothing left
to send. -/
theorem ThreadStep.closing {e e' : Endpoint} {taken sent : Option Segment}
    (moved : ThreadStep e taken sent e') (closing : e'.pc.closing = true) :
    (e.pc.closing = true ∧ e'.sock.closeRequested = e.sock.closeRequested ∧
      (e.sock.appRecvQueue = [] → e'.sock.appRecvQueue = [])) ∨
    (e.sock.closeRequested = true ∧ e'.sock.closeRequested = false ∧
      e'.sock.appRecvQueue = []) := by
  cases moved with
  | dispatch pc woken =>
      obtain ⟨rfl, rfl⟩ := stcpWaitForEvent_cases woken
      right
      simp only [Pc.closing, Bool.and_eq_true, List.isEmpty_iff] at closing
      obtain ⟨asked, empty⟩ := closing
      simp [asked, empty]
  | appSkip pc idle =>
      left
      rw [pc]
      exact ⟨closing, rfl, id⟩
  | appSend pc ready room dequeued =>
      left
      rw [pc]
      refine ⟨closing, rfl, ?_⟩
      intro empty
      rw [empty] at dequeued
      cases dequeued
  | networkSkip pc =>
      left
      rw [pc]
      exact ⟨closing, rfl, id⟩
  | ack pc =>
      left
      rw [pc]
      exact ⟨closing, rfl, id⟩
  | fin pc =>
      left
      rw [pc]
      exact ⟨closing, rfl, id⟩
  | data pc =>
      left
      rw [pc]
      refine ⟨closing, ?_, ?_⟩
      · simp
      · simp
  | stalled pc =>
      rw [Endpoint.pop_pc, pc] at closing
      cases closing
  | accept pc =>
      change e.pc.closing = true at closing
      rw [pc] at closing
      cases closing
  | finAcked => rw [Endpoint.loopEnd_not_closing] at closing; cases closing
  | ignored => rw [Endpoint.loopEnd_not_closing] at closing; cases closing
  | sendFin => rw [Endpoint.loopEnd_not_closing] at closing; cases closing
  | noClose => rw [Endpoint.loopEnd_not_closing] at closing; cases closing
  | forget => rw [Endpoint.loopEnd_not_closing] at closing; cases closing
  | _ => cases closing

/-- A close request is only taken off the socket. -/
theorem ThreadStep.closeRequested {e e' : Endpoint} {taken sent : Option Segment}
    (moved : ThreadStep e taken sent e') (requested : e'.sock.closeRequested = true) :
    e.sock.closeRequested = true := by
  cases moved with
  | dispatch pc woken =>
      obtain ⟨rfl, rfl⟩ := stcpWaitForEvent_cases woken
      simp only [Bool.and_eq_true] at requested
      exact requested.1
  | _ => simpa [stcpFinReceived] using requested

/-- Without data to send, only the close block dequeues nothing more. -/
theorem ThreadStep.drained {e e' : Endpoint} {taken sent : Option Segment}
    (moved : ThreadStep e taken sent e') (empty : e.sock.appRecvQueue = []) :
    e'.sock.appRecvQueue = [] := by
  cases moved with
  | dispatch pc woken =>
      obtain ⟨rfl, rfl⟩ := stcpWaitForEvent_cases woken
      exact empty
  | appSend pc ready room dequeued =>
      rw [empty] at dequeued
      cases dequeued
  | _ => simpa [stcpFinReceived] using empty

theorem AppStep.requested {e e' : Endpoint} {side : Side} {action : Action}
    (called : AppStep e side action e') (requested : e'.sock.closeRequested = true) :
    e.sock.closeRequested = true ∨ e'.appClosed = true := by
  cases called with
  | write => exact .inl requested
  | read _ returned =>
      rcases appRead_cases returned with ⟨_, rfl⟩ | ⟨_, _, _, _, rfl⟩ <;> exact .inl requested
  | close => exact .inr rfl

theorem AppStep.running {e e' : Endpoint} {side : Side} {action : Action}
    (called : AppStep e side action e') : e.AppRunning := by
  cases called with
  | write running => exact running
  | read running => exact running
  | close running => exact running

/-- What a step of an endpoint and its environment can be. -/
theorem Talker.step_cases {t t' : Talker} {action : TalkerAction}
    (stepped : t.step action = some t') :
    (∃ called, AppStep t.endpoint .client called t'.endpoint ∧ t'.sent = t.sent) ∨
      (∃ packet, t' = { t with endpoint := t.endpoint.receive packet }) ∨
      ∃ overread taken sent e', action = .move overread ∧ ThreadStep t.endpoint taken sent e' ∧
        t' = { endpoint := e', sent := t.sent ++ sent.toList } := by
  cases action with
  | write data =>
      simp only [Talker.step, Option.ite_none_right_eq_some, Option.some.injEq] at stepped
      obtain ⟨running, rfl⟩ := stepped
      exact .inl ⟨_, .write running, rfl⟩
  | read bufLen =>
      simp only [Talker.step, Option.ite_none_right_eq_some, Option.map_eq_some_iff] at stepped
      obtain ⟨running, endpoint, returned, rfl⟩ := stepped
      exact .inl ⟨_, .read running returned, rfl⟩
  | close =>
      simp only [Talker.step, Option.ite_none_right_eq_some, Option.some.injEq] at stepped
      obtain ⟨running, rfl⟩ := stepped
      exact .inl ⟨_, .close running, rfl⟩
  | receive packet =>
      cases stepped
      exact .inr (.inl ⟨packet, rfl⟩)
  | move overread =>
      simp only [Talker.step, Option.map_eq_some_iff] at stepped
      obtain ⟨⟨endpoint, sent⟩, threadStepped, rfl⟩ := stepped
      obtain ⟨taken, moved⟩ := Endpoint.threadStep_sound threadStepped
      exact .inr (.inr ⟨overread, taken, sent, endpoint, rfl, moved, rfl⟩)

/-! ### What every step keeps -/

namespace Speaking

variable {t t' : Talker}

private theorem init (isActive : Bool) : Speaking (Talker.init isActive) where
  payloads := rfl
  accounted := rfl
  initial := rfl
  opening := fun _ => rfl
  requested := nofun
  closing := by
    intro closing
    cases isActive <;> cases closing

private theorem app {called : Action} (speaking : Speaking t)
    (moved : AppStep t.endpoint .client called t'.endpoint) (quiet : t'.sent = t.sent) :
    Speaking t' := by
  have unclosed : t.endpoint.appClosed ≠ true := by simp [moved.running.2.2.2]
  refine ⟨?_, speaking.accounted.step (.app moved), ?_, ?_, ?_, ?_⟩
  · rw [quiet, moved.history.1, speaking.payloads]
  · rw [moved.ctx, speaking.initial]
  · rw [moved.pc, moved.history.1]
    exact speaking.opening
  · intro requested
    rcases moved.requested requested with before | closed
    · exact absurd (speaking.requested before) unclosed
    · exact closed
  · rw [moved.pc]
    exact fun closing => absurd (speaking.closing closing).1 unclosed

private theorem receive (speaking : Speaking t) (packet : Segment) :
    Speaking { t with endpoint := t.endpoint.receive packet } :=
  ⟨speaking.payloads, speaking.accounted, speaking.initial, speaking.opening, speaking.requested,
    speaking.closing⟩

private theorem thread {e' : Endpoint} {taken sent : Option Segment} (speaking : Speaking t)
    (moved : ThreadStep t.endpoint taken sent e') :
    Speaking { endpoint := e', sent := t.sent ++ sent.toList } := by
  have step : EndpointStep .client t.endpoint (.move .client) e' := .thread moved
  refine ⟨?_, speaking.accounted.step step, ?_, ?_, ?_, ?_⟩
  · rw [payloads_append, speaking.payloads, moved.history_taken]
  · rw [moved.initialSequenceNum, speaking.initial]
  · intro early
    obtain ⟨earlyBefore, same⟩ := moved.place early
    rw [same, speaking.opening earlyBefore]
  · intro requested
    rw [moved.appClosed]
    exact speaking.requested (moved.closeRequested requested)
  · intro closing
    rw [moved.appClosed]
    rcases moved.closing closing with ⟨before, same, drained⟩ | ⟨asked, forgotten, empty⟩
    · obtain ⟨closed, forgotten, empty⟩ := speaking.closing before
      exact ⟨closed, same.trans forgotten, drained empty⟩
    · exact ⟨speaking.requested asked, forgotten, empty⟩

end Speaking

/-! ### Before the FIN -/

/-- The number sent next counts the bytes sent as long as no FIN is sent. -/
theorem ThreadStep.keepsCount {e e' : Endpoint} {taken sent : Option Segment}
    (moved : ThreadStep e taken sent e') (loop : e.InLoop)
    (notFin : ∀ segment, sent = some segment → ¬segment.IsFin)
    (counted : e.ctx.nextSeqnum = (1 + e.history.taken.length) % 2 ^ 64) :
    e'.ctx.nextSeqnum = (1 + e'.history.taken.length) % 2 ^ 64 := by
  cases moved with
  | sendSyn pc => exact absurd pc loop.1
  | connect pc => exact absurd pc loop.2.1
  | accepted pc => exact absurd pc loop.2.1
  | appSend =>
      simp only [Context.sent, List.length_append, counted, sizeAdd]
      omega
  | fin =>
      simp only [Context.receivedFin]
      split <;> exact counted
  | finAcked =>
      rw [Endpoint.loopEnd_ctx, Endpoint.loopEnd_history]
      simp only [Context.finAcked]
      split <;> exact counted
  | sendFin => exact absurd (Context.finSegment_isFin _) (notFin _ rfl)
  | ack => exact counted
  | _ => simpa using counted

/-- The header at the head of the queue is the one sent back. -/
theorem Endpoint.echoes_eq {e : Endpoint} {packet : Segment} {rest : List Segment}
    (pc : e.pc = .handshake) (queue : e.sock.networkRecvQueue = packet :: rest)
    (state : e.ctx.connectionState = .synSent ∨ e.ctx.connectionState = .listen) :
    e.echoes = some packet := by
  unfold echoes
  rw [if_pos ⟨pc, state⟩, queue]
  rfl

/-- A FIN is a header sent back, or the FIN of the close block. -/
theorem ThreadStep.sendsFin {e e' : Endpoint} {taken : Option Segment} {segment : Segment}
    (moved : ThreadStep e taken (some segment) e') (isFin : segment.IsFin) :
    (∃ packet, e.echoes = some packet ∧ packet.IsFin) ∨
      ∃ event next, e.pc = .close event ∧ event.appCloseRequested = true ∧
        segment = e.ctx.finSegment ∧ e' = { e with ctx := e.ctx.sentFin next }.loopEnd := by
  cases moved with
  | sendSyn => exact absurd isFin (Context.synSegment_isSyn _).not_isFin
  | connect pc queue state => exact .inl ⟨_, Endpoint.echoes_eq pc queue (.inl state), isFin⟩
  | accept pc queue state => exact .inl ⟨_, Endpoint.echoes_eq pc queue (.inr state), isFin⟩
  | appSend => exact absurd isFin (Context.dataSegment_isData _ _).not_isFin
  | fin => exact absurd isFin (Context.ackSegment_isAck _ _).not_isFin
  | data => exact absurd isFin (Context.ackSegment_isAck _ _).not_isFin
  | sendFin pc asked => exact .inr ⟨_, _, pc, asked, rfl, rfl⟩

namespace Unfinished

variable {t t' : Talker}

private theorem init (isActive : Bool) : Unfinished (Talker.init isActive) where
  noFin := hasFin_nil
  counted := by
    intro inLoop
    cases isActive
    · exact absurd rfl inLoop.2.1
    · exact absurd rfl inLoop.1

private theorem app {called : Action} (unfinished : Unfinished t)
    (moved : AppStep t.endpoint .client called t'.endpoint) (quiet : t'.sent = t.sent) :
    Unfinished t' where
  noFin := by
    rw [quiet]
    exact unfinished.noFin
  counted := by
    unfold Endpoint.InLoop
    rw [moved.pc, moved.ctx, moved.history.1]
    exact unfinished.counted

private theorem receive (unfinished : Unfinished t) (packet : Segment) :
    Unfinished { t with endpoint := t.endpoint.receive packet } :=
  ⟨unfinished.noFin, unfinished.counted⟩

/-- Nothing is sent but acknowledgements, data and SYNs, and the count is right afterwards. -/
private theorem keep {e' : Endpoint} {sent : Option Segment} (unfinished : Unfinished t)
    (notFin : ∀ segment, sent = some segment → ¬segment.IsFin)
    (counted : e'.InLoop → e'.ctx.nextSeqnum = (1 + e'.history.taken.length) % 2 ^ 64) :
    Unfinished { endpoint := e', sent := t.sent ++ sent.toList } := by
  refine ⟨?_, counted⟩
  rw [hasFin_append]
  rintro (before | ⟨segment, member, isFin⟩)
  · exact unfinished.noFin before
  · exact notFin segment (Option.mem_toList.mp member) isFin

/-- The step that sends the FIN: everything written has been sent. -/
private theorem finish {event : Event} (unfinished : Unfinished t) (speaking : Speaking t)
    (pc : t.endpoint.pc = .close event) (asked : event.appCloseRequested = true) (next : CState) :
    Finished
      { endpoint := { t.endpoint with ctx := t.endpoint.ctx.sentFin next }.loopEnd
        sent := t.sent ++ [t.endpoint.ctx.finSegment] } := by
  obtain ⟨closed, forgotten, empty⟩ := speaking.closing (by rw [pc]; exact asked)
  have inLoop : t.endpoint.InLoop := by
    unfold Endpoint.InLoop
    rw [pc]
    exact ⟨nofun, nofun, nofun⟩
  have counted := unfinished.counted inLoop
  have everything : t.endpoint.history.taken = t.endpoint.history.wrote := by
    have accounted := speaking.accounted
    unfold Endpoint.Accounted at accounted
    rw [← accounted, empty, List.flatten_nil, List.append_nil]
  refine ⟨⟨t.sent, t.endpoint.ctx.finSegment, [], rfl, Context.finSegment_isFin _,
    unfinished.noFin, by simp, ?_⟩, ?_, ?_, ?_, ?_⟩
  · rw [Endpoint.loopEnd_history, ← everything]
    simp only [Context.finSegment, counted, trunc32]
    omega
  · exact Endpoint.loopEnd_running _
  · rw [Endpoint.loopEnd_appClosed]
    exact closed
  · rw [Endpoint.loopEnd_closeRequested, Endpoint.loopEnd_not_closing]
    exact ⟨forgotten, rfl⟩
  · rw [Endpoint.loopEnd_appRecvQueue]
    exact empty

private theorem thread {e' : Endpoint} {taken sent : Option Segment} (unfinished : Unfinished t)
    (speaking : Speaking t) (moved : ThreadStep t.endpoint taken sent e')
    (plain : ∀ packet, t.endpoint.echoes = some packet → ¬packet.IsFin) :
    Unfinished { endpoint := e', sent := t.sent ++ sent.toList } ∨
      Finished { endpoint := e', sent := t.sent ++ sent.toList } := by
  by_cases sendsFin : ∃ segment, sent = some segment ∧ segment.IsFin
  · obtain ⟨segment, rfl, isFin⟩ := sendsFin
    rcases moved.sendsFin isFin with ⟨packet, echoed, echoIsFin⟩ |
      ⟨event, next, pc, asked, rfl, rfl⟩
    · exact absurd echoIsFin (plain packet echoed)
    · exact .inr (unfinished.finish speaking pc asked next)
  · have notFin : ∀ segment, sent = some segment → ¬segment.IsFin :=
      fun segment isSent isFin => sendsFin ⟨segment, isSent, isFin⟩
    refine .inl (unfinished.keep notFin fun inLoop => ?_)
    rcases moved.inLoop inLoop with loop | ⟨pc, established, same⟩
    · exact moved.keepsCount loop notFin (unfinished.counted loop)
    · rw [established, same, speaking.opening (.inr pc)]
      exact speaking.initial

end Unfinished

/-! ### After the FIN -/

namespace Finished

variable {t t' : Talker}

/-- No application call is possible any more. -/
private theorem app {called : Action} (finished : Finished t)
    (moved : AppStep t.endpoint .client called t'.endpoint) : False := by
  have unclosed := moved.running.2.2.2
  rw [finished.closed] at unclosed
  cases unclosed

private theorem receive (finished : Finished t) (packet : Segment) :
    Finished { t with endpoint := t.endpoint.receive packet } :=
  ⟨finished.split, finished.running, finished.closed, finished.forgotten, finished.drained⟩

/-- Neither data nor a FIN is left to send. -/
private theorem acks {e' : Endpoint} {taken : Option Segment} {segment : Segment}
    (finished : Finished t) (moved : ThreadStep t.endpoint taken (some segment) e') :
    segment.IsAck := by
  cases moved with
  | sendSyn pc => exact absurd pc finished.running.1
  | connect pc => exact absurd pc finished.running.2
  | accept pc => exact absurd pc finished.running.2
  | appSend pc ready room dequeued =>
      rw [finished.drained] at dequeued
      cases dequeued
  | fin => exact Context.ackSegment_isAck _ _
  | data => exact Context.ackSegment_isAck _ _
  | sendFin pc asked =>
      have quiet := finished.forgotten.2
      rw [pc] at quiet
      exact absurd asked (by simpa [Pc.closing] using quiet)

private theorem thread {e' : Endpoint} {taken sent : Option Segment} (finished : Finished t)
    (moved : ThreadStep t.endpoint taken sent e') :
    Finished { endpoint := e', sent := t.sent ++ sent.toList } := by
  obtain ⟨before, fin, after, split, isFin, first, acks, numbered⟩ := finished.split
  refine ⟨⟨before, fin, after ++ sent.toList, ?_, isFin, first, ?_, ?_⟩, ?_, ?_, ⟨?_, ?_⟩,
    moved.drained finished.drained⟩
  · rw [split, List.append_assoc, List.cons_append]
  · intro later member
    rcases List.mem_append.mp member with old | new
    · exact acks later old
    · obtain rfl := Option.mem_toList.mp new
      exact finished.acks moved
  · rw [numbered, moved.history_wrote]
  · refine ⟨fun pc => ?_, fun pc => ?_⟩
    · exact (moved.place (.inl pc)).1.elim finished.running.1 finished.running.2
    · exact (moved.place (.inr pc)).1.elim finished.running.1 finished.running.2
  · rw [moved.appClosed]
    exact finished.closed
  · rw [Bool.eq_false_iff]
    intro requested
    exact absurd (moved.closeRequested requested) (by simp [finished.forgotten.1])
  · rw [Bool.eq_false_iff]
    intro closing
    rcases moved.closing closing with ⟨before, _⟩ | ⟨asked, _⟩
    · exact absurd before (by simp [finished.forgotten.2])
    · exact absurd asked (by simp [finished.forgotten.1])

end Finished

/-! ### Runs -/

/-- The FIN that has been sent is the only one, so every split of the segments at a FIN is the
same. -/
private theorem Finished.ordered {t : Talker} (finished : Finished t) (speaking : Speaking t) :
    FinOrdered t.sent t.endpoint.history.wrote := by
  obtain ⟨first, fin, last, split, isFin, firstHasNone, acks, numbered⟩ := finished.split
  have everything : t.endpoint.history.taken = t.endpoint.history.wrote := by
    have accounted := speaking.accounted
    unfold Endpoint.Accounted at accounted
    rw [← accounted, finished.drained, List.flatten_nil, List.append_nil]
  intro before other after splitsToo otherIsFin
  have notFirst : other ∉ first := fun member => firstHasNone ⟨other, member, otherIsFin⟩
  have notLast : other ∉ last := fun member => (acks other member).not_isFin otherIsFin
  rw [split] at splitsToo
  obtain ⟨rfl, rfl, rfl⟩ := (List.append_cons_inj_of_notMem notFirst notLast).mp splitsToo
  refine ⟨numbered, ?_, ?_⟩
  · have sent := speaking.payloads
    have noPayload : payloads last = [] :=
      List.flatMap_eq_nil_iff.mpr fun later member => (acks later member).payload
    rw [split, payloads_append, payloads_cons, isFin.payload, noPayload, List.append_nil,
      List.append_nil] at sent
    rw [sent, everything]
  · exact fun later member => ⟨(acks later member).not_isFin, (acks later member).not_isData⟩

/-- FIN ordering: whatever the application writes and whatever arrives, an endpoint whose handshake
sends no FIN back sends one FIN at most, numbered behind the stream that its application wrote, with
the whole stream sent before it and neither data nor a FIN after it. -/
theorem fin_ordered {isActive : Bool} {labels : List TalkerAction} {t : Talker}
    (run : Run Talker.step PlainHandshake (Talker.init isActive) labels t) :
    FinOrdered t.sent t.endpoint.history.wrote := by
  let Holds : Talker → Prop := fun u => Speaking u ∧ (Unfinished u ∨ Finished u)
  have start : Holds (Talker.init isActive) := ⟨.init isActive, .inl (.init isActive)⟩
  have invariant : Holds t := by
    refine run.invariant start ?_
    rintro s action t ⟨speaking, phase⟩ plain stepped
    rcases Talker.step_cases stepped with ⟨called, moved, quiet⟩ | ⟨packet, rfl⟩ |
      ⟨overread, taken, sent, e', rfl, moved, rfl⟩
    · refine ⟨speaking.app moved quiet, .inl ?_⟩
      rcases phase with unfinished | finished
      · exact unfinished.app moved quiet
      · exact (finished.app moved).elim
    · exact ⟨speaking.receive packet, phase.imp (·.receive packet) (·.receive packet)⟩
    · refine ⟨speaking.thread moved, ?_⟩
      rcases phase with unfinished | finished
      · exact unfinished.thread speaking moved plain
      · exact .inr (finished.thread moved)
  obtain ⟨speaking, unfinished | finished⟩ := invariant
  · intro before fin after split isFin
    have hasFin : HasFin t.sent := ⟨fin, by simp [split], isFin⟩
    exact absurd hasFin unfinished.noFin
  · exact finished.ordered speaking

/-- The FIN of an active end that has written one byte. -/
theorem fin_ordered_one_byte : ∃ t : Talker,
    FinOrdered t.sent t.endpoint.history.wrote ∧ t.endpoint.history.wrote = [7] ∧
      HasFin t.sent := by
  let answer : Segment :=
    { thSeq := 1, thAck := 2, thOff := 5, thFlags := TH_SYN, thWin := 3072, data := [] }
  let schedule : List TalkerAction :=
    [.move false, .receive answer, .move false, .write [7], .close] ++
      List.replicate 8 (.move false)
  have reached : ∃ t, Run Talker.step PlainHandshake (Talker.init true) schedule t ∧
      t.endpoint.history.wrote = [7] ∧ t.sent.any (fun segment => segment.thFlags = TH_FIN) = true :=
    exec_reaches _ (by decide +kernel)
  obtain ⟨t, run, written, finished⟩ := reached
  refine ⟨t, fin_ordered run, written, ?_⟩
  obtain ⟨segment, member, isFin⟩ := List.any_eq_true.mp finished
  exact ⟨segment, member, of_decide_eq_true isFin⟩

/-- The acknowledgement number of every segment that arrives lies in the send window. -/
def AcksArriveInside (t : Talker) : TalkerAction → Prop
  | .receive packet =>
      t.endpoint.ctx.sendBase ≤ packet.thAck ∧ packet.thAck ≤ t.endpoint.ctx.nextSeqnum
  | _ => True

instance (t : Talker) (action : TalkerAction) : Decidable (AcksArriveInside t action) :=
  match action with
  | .receive _ => inferInstanceAs (Decidable (_ ∧ _))
  | .write _ | .read _ | .close | .move _ => .isTrue trivial

/-- An active end in `SYN_SENT` sends the header that answers its SYN back with the flags it came
with, so a FIN there is answered with a FIN, and the data of the application comes after it. -/
theorem echoed_fin : ∃ (labels : List TalkerAction) (t : Talker),
    Run Talker.step AcksArriveInside (Talker.init true) labels t ∧
      ¬FinOrdered t.sent t.endpoint.history.wrote := by
  let refusal : Segment :=
    { thSeq := 1, thAck := 0, thOff := 5, thFlags := TH_FIN, thWin := 3072, data := [] }
  let schedule : List TalkerAction :=
    [.move false, .receive refusal, .move false, .write [7], .close] ++
      List.replicate 8 (.move false)
  have reached : ∃ t, Run Talker.step AcksArriveInside (Talker.init true) schedule t ∧
      t.sent.map Segment.thFlags = [TH_SYN, TH_FIN, 0x00, TH_FIN] :=
    exec_reaches _ (by decide +kernel)
  obtain ⟨t, run, flags⟩ := reached
  refine ⟨schedule, t, run, fun ordered => ?_⟩
  obtain ⟨syn, echoed, split, _, flags⟩ := List.map_eq_cons_iff.mp flags
  obtain ⟨fin, rest, rfl, isFin, flags⟩ := List.map_eq_cons_iff.mp flags
  obtain ⟨data, last, rfl, isData, _⟩ := List.map_eq_cons_iff.mp flags
  exact ((ordered [syn] fin (data :: last) split isFin).2.2 data (by simp)).2 isData

end EE323.Stcp

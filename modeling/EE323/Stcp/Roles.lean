/-
Module: EE323.Stcp.Roles
Purpose: What holds of a single endpoint in every run: which connection states its role admits, how
  the state goes with the place where the transport thread stands, and the logic of the close event,
  which is passed down only when the application has nothing left to send.
Main exports: Context.Opening, Context.FinSent, Context.FinReceived, Coherent, Coherent.threadStep
-/
import EE323.Stcp.Link

namespace EE323.Stcp

open EE323.Lib

namespace Context

/-- The handshake of this end is not over. -/
def Opening (ctx : Context) : Prop :=
  match ctx.connectionState with
  | .listen | .synSent | .synRcvd => True
  | .closed => ctx.done = false
  | _ => False

/-- The states entered by sending a FIN. -/
def FinSent (ctx : Context) : Prop :=
  match ctx.connectionState with
  | .finWait1 | .finWait2 | .lastAck => True
  | .closed => ctx.done = true
  | _ => False

/-- The states entered by receiving a FIN. -/
def FinReceived (ctx : Context) : Prop :=
  match ctx.connectionState with
  | .closeWait | .lastAck => True
  | .closed => ctx.done = true
  | _ => False

/-- The states in which the thread reads bare headers and waits for an acknowledgement. -/
def AwaitsFinAck (ctx : Context) : Prop :=
  ctx.connectionState = .finWait1 ∨ ctx.connectionState = .lastAck

/-- The states an active or a passive end can be in. -/
def InRole (ctx : Context) (isActive : Bool) : Prop :=
  match ctx.connectionState with
  | .established => ctx.done = false
  | .synSent | .finWait1 | .finWait2 => isActive = true ∧ ctx.done = false
  | .listen | .synRcvd | .closeWait | .lastAck => isActive = false ∧ ctx.done = false
  | .closed => isActive = true ∨ ctx.done = true
  | .closing => False

/-- The fields that the phase of a connection is read off from. -/
structure SamePhase (ctx ctx' : Context) : Prop where
  connectionState : ctx'.connectionState = ctx.connectionState
  done : ctx'.done = ctx.done
  isClient : ctx'.isClient = ctx.isClient

namespace SamePhase

variable {ctx ctx' : Context} (same : SamePhase ctx ctx')
include same

theorem opening : ctx'.Opening ↔ ctx.Opening := by
  unfold Opening
  rw [same.connectionState, same.done]

theorem finSent : ctx'.FinSent ↔ ctx.FinSent := by
  unfold FinSent
  rw [same.connectionState, same.done]

theorem finReceived : ctx'.FinReceived ↔ ctx.FinReceived := by
  unfold FinReceived
  rw [same.connectionState, same.done]

theorem awaitsFinAck : ctx'.AwaitsFinAck ↔ ctx.AwaitsFinAck := by
  unfold AwaitsFinAck
  rw [same.connectionState]

theorem inRole (isActive : Bool) : ctx'.InRole isActive ↔ ctx.InRole isActive := by
  unfold InRole
  rw [same.connectionState, same.done]

end SamePhase

theorem samePhase_refl (ctx : Context) : SamePhase ctx ctx := ⟨rfl, rfl, rfl⟩

theorem samePhase_sent (ctx : Context) (buffer : List Byte) (size : Nat) :
    SamePhase ctx (ctx.sent buffer size) := ⟨rfl, rfl, rfl⟩

theorem samePhase_acked (ctx : Context) (thAck : Nat) (buffer : List Byte) :
    SamePhase ctx { ctx.acked thAck with buffer := buffer } := ⟨rfl, rfl, rfl⟩

theorem samePhase_recvBase (ctx : Context) (recvBase : Nat) :
    SamePhase ctx { ctx with recvBase := recvBase } := ⟨rfl, rfl, rfl⟩

theorem AwaitsFinAck.finSent {ctx : Context} (awaits : ctx.AwaitsFinAck) : ctx.FinSent := by
  unfold FinSent
  rcases awaits with state | state <;> rw [state] <;> trivial

theorem awaitsFinAck_of_header {ctx : Context}
    (header : ctx.connectionState = if ctx.isClient then .finWait1 else .lastAck) :
    ctx.AwaitsFinAck := by
  unfold AwaitsFinAck
  rw [header]
  cases ctx.isClient <;> simp

/-- An end that may send its FIN has not sent one. -/
theorem not_finSent_of_unsent {ctx : Context}
    (state : ctx.connectionState = if ctx.isClient then .established else .closeWait) :
    ¬ctx.FinSent := by
  unfold FinSent
  rw [state]
  cases ctx.isClient <;> simp

theorem FinSent.not_opening {ctx : Context} (finSent : ctx.FinSent) : ¬ctx.Opening := by
  unfold FinSent at finSent
  unfold Opening
  split at finSent <;> simp_all

theorem FinReceived.not_opening {ctx : Context} (received : ctx.FinReceived) : ¬ctx.Opening := by
  unfold FinReceived at received
  unfold Opening
  split at received <;> simp_all

/-! ### The transitions -/

theorem establish_not_opening (ctx : Context) (isActive : Bool) :
    ¬(ctx.establish isActive).Opening := by
  simp [Opening, establish]

theorem establish_not_finSent (ctx : Context) (isActive : Bool) :
    ¬(ctx.establish isActive).FinSent := by
  simp [FinSent, establish]

theorem establish_not_finReceived (ctx : Context) (isActive : Bool) :
    ¬(ctx.establish isActive).FinReceived := by
  simp [FinReceived, establish]

end Context

/-- The event in the hand of the transport thread includes the close event. -/
def Pc.closing : Pc → Bool
  | .appData event => event.appCloseRequested
  | .networkData event => event.appCloseRequested
  | .close event => event.appCloseRequested
  | _ => false

/-- The places of the transport thread after `done` can have been set. -/
def Pc.ending : Pc → Bool
  | .close _ | .exited | .crashed => true
  | _ => false

/-- What holds of an endpoint in every run. -/
structure Coherent (e : Endpoint) : Prop where
  role : e.ctx.InRole e.isActive
  client : ¬e.ctx.Opening → e.ctx.isClient = e.isActive
  fresh : e.ctx.Opening → e.ctx = Context.init e.ctx.connectionState
  start : e.pc = .start → e.ctx.connectionState = .closed ∧ e.ctx.done = false
  handshake : e.pc = .handshake → e.ctx.Opening ∧ e.ctx.connectionState ≠ .closed
  opening : e.ctx.Opening → e.pc = .start ∨ e.pc = .handshake ∨ e.pc = .crashed
  ended : e.ctx.done = true → e.pc.ending = true
  requested : e.sock.closeRequested = true → e.appClosed = true
  event : e.pc.closing = true → e.appClosed = true ∧ e.sock.appRecvQueue = []
  finished : e.ctx.FinSent → e.appClosed = true ∧ e.sock.appRecvQueue = []

namespace Coherent

theorem init (isActive : Bool) : Coherent (Endpoint.init isActive) := by
  cases isActive <;>
    constructor <;>
      simp [Endpoint.init, Context.init, Context.InRole, Context.Opening, Context.FinSent,
        MysockContext.init, Pc.closing]

/-- The thread stands in `control_loop`. -/
theorem not_opening {e : Endpoint} (coherent : Coherent e) (inLoop : e.InLoop) :
    ¬e.ctx.Opening := by
  intro opening
  rcases coherent.opening opening with pc | pc | pc
  · exact inLoop.1 pc
  · exact inLoop.2.1 pc
  · exact inLoop.2.2 pc

theorem opening_of_start {e : Endpoint} (coherent : Coherent e) (pc : e.pc = .start) :
    e.ctx.Opening := by
  obtain ⟨closed, notDone⟩ := coherent.start pc
  simp [Context.Opening, closed, notDone]

/-- Only an end that has not sent its FIN takes bytes from its application. -/
theorem not_finSent_of_dequeued {e : Endpoint} {maxLen : Nat} {data : List Byte}
    {left : PacketQueue} (coherent : Coherent e)
    (dequeued : mysockDequeueBuffer e.sock.appRecvQueue maxLen = some (data, left)) :
    ¬e.ctx.FinSent := by
  intro finSent
  rw [(coherent.finished finSent).2] at dequeued
  cases dequeued

theorem receive {e : Endpoint} (coherent : Coherent e) (packet : Segment) :
    Coherent (e.receive packet) :=
  ⟨coherent.role, coherent.client, coherent.fresh, coherent.start, coherent.handshake,
    coherent.opening, coherent.ended, coherent.requested, coherent.event, coherent.finished⟩

theorem crash {e : Endpoint} (coherent : Coherent e) : Coherent e.crash where
  role := coherent.role
  client := coherent.client
  fresh := coherent.fresh
  start := by simp [Endpoint.crash]
  handshake := by simp [Endpoint.crash]
  opening := fun _ => .inr (.inr rfl)
  ended := fun _ => rfl
  requested := coherent.requested
  event := by simp [Endpoint.crash, Pc.closing]
  finished := coherent.finished

theorem pop {e : Endpoint} (coherent : Coherent e) : Coherent e.pop :=
  ⟨coherent.role, coherent.client, coherent.fresh, coherent.start, coherent.handshake,
    coherent.opening, coherent.ended, coherent.requested, coherent.event, coherent.finished⟩

/-- An application call keeps an endpoint coherent: it writes only before `myclose`. -/
theorem appStep {e e' : Endpoint} {side : Side} {action : Action} (coherent : Coherent e)
    (called : AppStep e side action e') : Coherent e' := by
  cases called with
  | write running =>
      have unclosed : e.appClosed ≠ true := by simp [running.2.2.2]
      refine ⟨coherent.role, coherent.client, coherent.fresh, coherent.start, coherent.handshake,
        coherent.opening, coherent.ended, coherent.requested, ?_, ?_⟩
      · intro closing
        exact absurd (coherent.event closing).1 unclosed
      · intro finSent
        exact absurd (coherent.finished finSent).1 unclosed
  | read running returned =>
      rcases appRead_cases returned with ⟨_, rfl⟩ | ⟨_, _, _, _, rfl⟩
      · exact coherent
      · exact ⟨coherent.role, coherent.client, coherent.fresh, coherent.start,
          coherent.handshake, coherent.opening, coherent.ended, coherent.requested, coherent.event,
          coherent.finished⟩
  | close running =>
      refine ⟨coherent.role, coherent.client, coherent.fresh, coherent.start, coherent.handshake,
        coherent.opening, coherent.ended, fun _ => rfl, ?_, ?_⟩
      · intro closing
        exact ⟨rfl, (coherent.event closing).2⟩
      · intro finSent
        exact ⟨rfl, (coherent.finished finSent).2⟩

/-! ### Steps of the transport thread -/

/-- What a step of `control_loop` that leaves the phase alone has to meet. -/
private theorem resume {e e' : Endpoint} (coherent : Coherent e) (running : ¬e.ctx.Opening)
    (same : Context.SamePhase e.ctx e'.ctx) (isActive : e'.isActive = e.isActive)
    (appClosed : e'.appClosed = e.appClosed)
    (place : e'.pc ≠ .start ∧ e'.pc ≠ .handshake)
    (ended : e.ctx.done = true → e'.pc.ending = true)
    (requested : e'.sock.closeRequested = true → e.sock.closeRequested = true)
    (queue : e.sock.appRecvQueue = [] → e'.sock.appRecvQueue = [])
    (event : e'.pc.closing = true → e.appClosed = true ∧ e.sock.appRecvQueue = []) :
    Coherent e' where
  role := by
    rw [isActive]
    exact (same.inRole _).mpr coherent.role
  client := by
    intro _
    rw [isActive, same.isClient]
    exact coherent.client running
  fresh := fun opening => absurd (same.opening.mp opening) running
  start := fun pc => absurd pc place.1
  handshake := fun pc => absurd pc place.2
  opening := fun opening => absurd (same.opening.mp opening) running
  ended := by
    rw [same.done]
    exact ended
  requested := by
    intro asked
    rw [appClosed]
    exact coherent.requested (requested asked)
  event := by
    intro closing
    rw [appClosed]
    exact ⟨(event closing).1, queue (event closing).2⟩
  finished := by
    intro finSent
    have before := coherent.finished (same.finSent.mp finSent)
    rw [appClosed]
    exact ⟨before.1, queue before.2⟩

/-- What a step that moves the connection to a new phase has to meet. -/
private theorem advance {e e' : Endpoint} (coherent : Coherent e) (running : ¬e'.ctx.Opening)
    (role : e'.ctx.InRole e.isActive) (isClient : e'.ctx.isClient = e.isActive)
    (isActive : e'.isActive = e.isActive)
    (place : e'.pc ≠ .start ∧ e'.pc ≠ .handshake)
    (ended : e'.ctx.done = true → e'.pc.ending = true)
    (appClosed : e'.appClosed = e.appClosed)
    (closeRequested : e'.sock.closeRequested = e.sock.closeRequested)
    (queue : e'.sock.appRecvQueue = e.sock.appRecvQueue)
    (event : e'.pc.closing = true → e.pc.closing = true)
    (finished : e'.ctx.FinSent → e.appClosed = true ∧ e.sock.appRecvQueue = []) :
    Coherent e' where
  role := by
    rw [isActive]
    exact role
  client := by
    intro _
    rw [isActive, isClient]
  fresh := fun opening => absurd opening running
  start := fun pc => absurd pc place.1
  handshake := fun pc => absurd pc place.2
  opening := fun opening => absurd opening running
  ended := ended
  requested := by
    rw [appClosed, closeRequested]
    exact coherent.requested
  event := by
    rw [appClosed, queue]
    exact fun closing => coherent.event (event closing)
  finished := by
    rw [appClosed, queue]
    exact finished

private theorem loopEnd_place (e : Endpoint) :
    e.loopEnd.pc ≠ .start ∧ e.loopEnd.pc ≠ .handshake ∧ e.loopEnd.pc.closing = false ∧
      (e.ctx.done = true → e.loopEnd.pc.ending = true) := by
  rw [Endpoint.loopEnd_pc]
  split <;> simp_all [Pc.closing, Pc.ending]

private theorem resume_loopEnd {e : Endpoint} (coherent : Coherent e) (running : ¬e.ctx.Opening) :
    Coherent e.loopEnd := by
  obtain ⟨notStart, notHandshake, notClosing, ended⟩ := loopEnd_place e
  refine resume coherent running ?_ (by simp) (by simp) ⟨notStart, notHandshake⟩ ended (by simp)
    (by simp) ?_
  · rw [Endpoint.loopEnd_ctx]
    exact Context.samePhase_refl _
  · rw [notClosing]
    simp

private theorem advance_loopEnd {e : Endpoint} {ctx : Context} (coherent : Coherent e)
    (running : ¬ctx.Opening) (role : ctx.InRole e.isActive) (isClient : ctx.isClient = e.isActive)
    (finished : e.appClosed = true ∧ e.sock.appRecvQueue = []) :
    Coherent { e with ctx := ctx }.loopEnd := by
  obtain ⟨notStart, notHandshake, notClosing, ended⟩ := loopEnd_place { e with ctx := ctx }
  refine advance coherent ?_ ?_ ?_ (by simp) ⟨notStart, notHandshake⟩ ?_ (by simp) (by simp)
    (by simp) ?_ (fun _ => finished)
  · rwa [Endpoint.loopEnd_ctx]
  · rwa [Endpoint.loopEnd_ctx]
  · rwa [Endpoint.loopEnd_ctx]
  · rw [Endpoint.loopEnd_ctx]
    exact ended
  · rw [notClosing]
    simp

/-- An endpoint that runs `control_loop` and is not past its last iteration has `done` unset. -/
theorem not_done {e : Endpoint} (coherent : Coherent e) (place : e.pc.ending = false) :
    e.ctx.done = false := by
  cases done : e.ctx.done with
  | false => rfl
  | true =>
      have ended := coherent.ended done
      rw [place] at ended
      cases ended

/-- Every step of the transport thread keeps an endpoint coherent, provided that an active end
receives a FIN only after it has sent its own. -/
theorem threadStep {e e' : Endpoint} {taken sent : Option Segment} (coherent : Coherent e)
    (moved : ThreadStep e taken sent e')
    (answered : ∀ packet, taken = some packet → packet.IsFin → e.isActive = true →
      ¬e.ctx.Opening → e.ctx.FinSent) :
    Coherent e' := by
  have inLoop : ∀ {event : Event}, e.pc = .appData event ∨ e.pc = .networkData event ∨
      e.pc = .close event → ¬e.ctx.Opening := by
    intro event place
    refine coherent.not_opening ?_
    rcases place with pc | pc | pc <;> simp [Endpoint.InLoop, pc]
  have holding : ∀ {pc : Pc}, e.pc = pc → pc.closing = true →
      e.appClosed = true ∧ e.sock.appRecvQueue = [] := by
    intro pc place closing
    rw [← place] at closing
    exact coherent.event closing
  have isClient : ∀ {event : Event}, e.pc = .appData event ∨ e.pc = .networkData event ∨
      e.pc = .close event → e.ctx.isClient = e.isActive :=
    fun place => coherent.client (inLoop place)
  cases moved with
  | sendSyn pc =>
      obtain ⟨closed, notDone⟩ := coherent.start pc
      have opening : e.ctx.Opening := by simp [Context.Opening, closed, notDone]
      have active : e.isActive = true := by
        have role := coherent.role
        simpa [Context.InRole, closed, notDone] using role
      have fresh := coherent.fresh opening
      refine ⟨?_, ?_, ?_, ?_, ?_, ?_, ?_, coherent.requested, ?_, ?_⟩
      · simp [Context.InRole, active, notDone]
      · simp [Context.Opening]
      · intro _
        rw [fresh]
        rfl
      · simp
      · simp [Context.Opening]
      · simp
      · simp [notDone]
      · simp [Pc.closing]
      · simp [Context.FinSent]
  | connect pc queue state =>
      have fresh := coherent.fresh (coherent.handshake pc).1
      have notDone : e.ctx.done = false := by
        rw [fresh]
        rfl
      refine advance coherent (Context.establish_not_opening _ _) ?_ rfl rfl (by simp)
        (by simp [Context.establish, notDone]) rfl rfl rfl (by simp [Pc.closing])
        (fun finSent => absurd finSent (Context.establish_not_finSent _ _))
      simp [Context.InRole, Context.establish, notDone]
  | accept pc queue state =>
      have fresh := coherent.fresh (coherent.handshake pc).1
      have role := coherent.role
      simp only [Context.InRole, state] at role
      refine ⟨?_, ?_, ?_, ?_, ?_, ?_, ?_, coherent.requested, ?_, ?_⟩
      · simpa [Context.InRole, Endpoint.pop] using role
      · simp [Context.Opening]
      · intro _
        rw [fresh]
        rfl
      · simp [Endpoint.pop, pc]
      · simp [Context.Opening]
      · simp [Endpoint.pop, pc]
      · simp [role.2]
      · simp [Endpoint.pop, pc, Pc.closing]
      · simp [Context.FinSent]
  | accepted pc queue state =>
      have fresh := coherent.fresh (coherent.handshake pc).1
      have notDone : e.ctx.done = false := by
        rw [fresh]
        rfl
      refine advance coherent (Context.establish_not_opening _ _) ?_ rfl rfl (by simp)
        (by simp [Context.establish, notDone]) rfl rfl rfl (by simp [Pc.closing])
        (fun finSent => absurd finSent (Context.establish_not_finSent _ _))
      simp [Context.InRole, Context.establish, notDone]
  | stalled => exact coherent.pop
  | overread => exact coherent.crash
  | oversized => exact coherent.crash
  | dispatch pc woken =>
      obtain ⟨rfl, rfl⟩ := stcpWaitForEvent_cases woken
      refine resume coherent (coherent.not_opening ?_) (Context.samePhase_refl _) rfl rfl
        (by simp) ?_ ?_ (fun empty => empty) ?_
      · simp [Endpoint.InLoop, pc]
      · simp [coherent.not_done, pc, Pc.ending]
      · simp only [Bool.and_eq_true]
        exact fun asked => asked.1
      · intro closing
        simp only [Pc.closing, Bool.and_eq_true, List.isEmpty_iff] at closing
        exact ⟨coherent.requested closing.1, closing.2⟩
  | appSkip pc =>
      exact resume coherent (inLoop (.inl pc)) (Context.samePhase_refl _) rfl rfl (by simp)
        (by simp [coherent.not_done, pc, Pc.ending]) (fun asked => asked) (fun empty => empty)
        (fun closing => holding pc closing)
  | appSend pc ready room dequeued stored =>
      refine resume coherent (inLoop (.inl pc)) (Context.samePhase_sent _ _ _) rfl rfl (by simp)
        (by simp [coherent.not_done, pc, Pc.ending]) (fun asked => asked) ?_
        (fun closing => holding pc closing)
      intro empty
      rw [empty] at dequeued
      cases dequeued
  | appOverflow => exact coherent.crash
  | networkSkip pc =>
      exact resume coherent (inLoop (.inr (.inl pc))) (Context.samePhase_refl _) rfl rfl (by simp)
        (fun _ => rfl) (fun asked => asked) (fun empty => empty)
        (fun closing => holding pc closing)
  | ack pc =>
      exact resume coherent (inLoop (.inr (.inl pc))) (Context.samePhase_acked _ _ _) rfl rfl
        (by simp) (fun _ => rfl) (fun asked => asked) (fun empty => empty)
        (fun closing => holding pc closing)
  | ackOverflow => exact coherent.pop.crash
  | fin pc ready reads queue isFin =>
      have running := inLoop (.inr (.inl pc))
      have client := isClient (.inr (.inl pc))
      have notDone : e.ctx.done = false := coherent.not_done (by rw [pc]; rfl)
      by_cases active : e.isActive = true
      · have finSent := answered _ rfl isFin active running
        refine advance coherent ?_ ?_ ?_ rfl (by simp) (fun _ => rfl) rfl rfl rfl
          (by rw [pc]; exact id) (fun _ => coherent.finished finSent) <;>
          simp [Context.receivedFin, Context.Opening, Context.InRole, client, active]
      · refine advance coherent ?_ ?_ ?_ rfl (by simp) (fun _ => rfl) rfl rfl rfl
          (by rw [pc]; exact id) ?_ <;>
          simp [Context.receivedFin, Context.Opening, Context.InRole, Context.FinSent, client,
            active, notDone]
  | data pc =>
      refine resume coherent (inLoop (.inr (.inl pc))) (Context.samePhase_recvBase _ _) rfl rfl
        (by simp) (fun _ => rfl) ?_ ?_ (fun closing => holding pc closing)
      · rw [stcpAppSend_closeRequested]
        exact fun asked => asked
      · rw [stcpAppSend_appRecvQueue]
        exact fun empty => empty
  | finAcked enters header queue isAck =>
      have client := isClient (.inr enters.place)
      have role := coherent.role
      have finSent := (Context.awaitsFinAck_of_header header).finSent
      refine advance_loopEnd coherent.pop ?_ ?_ ?_ (coherent.finished finSent) <;>
        cases active : e.isActive <;>
        simp_all [Endpoint.pop, Context.finAcked, Context.Opening, Context.InRole]
  | ignored enters header queue notAck =>
      exact resume_loopEnd coherent.pop (inLoop (.inr enters.place))
  | sendFin pc asked state =>
      have client := isClient (.inr (.inr pc))
      have role := coherent.role
      refine advance_loopEnd coherent ?_ ?_ client (holding pc asked) <;>
        cases active : e.isActive <;>
        simp_all [Context.sentFin, Context.Opening, Context.InRole]
  | noClose pc quiet => exact resume_loopEnd coherent (inLoop (.inr (.inr pc)))
  | forget enters => exact resume_loopEnd coherent (inLoop (.inr enters.place))

end Coherent

/-! ### FINs -/

/-- A FIN once sent stays sent. -/
theorem Coherent.finSent_mono {e e' : Endpoint} {taken sent : Option Segment}
    (near : Coherent e) (moved : ThreadStep e taken sent e') (finSent : e.ctx.FinSent) :
    e'.ctx.FinSent := by
  have running := finSent.not_opening
  cases moved with
  | sendSyn pc =>
      exact absurd (near.opening_of_start pc) running
  | connect pc => exact absurd (near.handshake pc).1 running
  | accept pc => exact absurd (near.handshake pc).1 running
  | accepted pc => exact absurd (near.handshake pc).1 running
  | appSend => exact (Context.samePhase_sent _ _ _).finSent.mpr finSent
  | ack => exact (Context.samePhase_acked _ _ _).finSent.mpr finSent
  | data => exact (Context.samePhase_recvBase _ _).finSent.mpr finSent
  | fin pc ready reads =>
      -- only FIN_WAIT_2 is left
      have notAwaiting : ¬e.ctx.AwaitsFinAck := Endpoint.not_awaiting pc ready reads
      have notDone : e.ctx.done = false := near.not_done (by rw [pc]; rfl)
      have role := near.role
      have isClient := near.client running
      unfold Context.FinSent at finSent
      unfold Context.InRole at role
      unfold Context.AwaitsFinAck at notAwaiting
      simp only [Context.receivedFin]
      cases state : e.ctx.connectionState <;> simp_all [Context.FinSent]
  | finAcked =>
      rw [Endpoint.loopEnd_ctx]
      simp only [Context.finAcked]
      split <;> simp [Context.FinSent]
  | sendFin =>
      rw [Endpoint.loopEnd_ctx]
      cases e.ctx.isClient <;> simp [Context.FinSent, Context.sentFin]
  | _ => simpa using finSent

/-- A FIN is sent by the step that enters a state after it, or is the echo of a FIN in the
handshake. -/
theorem ThreadStep.sent_fin {e e' : Endpoint} {taken sent : Option Segment} {segment : Segment}
    (moved : ThreadStep e taken sent e') (isSent : sent = some segment) (isFin : segment.IsFin) :
    e'.ctx.FinSent ∨ ∃ packet, taken = some packet ∧ packet.IsFin ∧
      (e.ctx.connectionState = .listen ∨ e.ctx.connectionState = .synSent) := by
  cases moved with
  | sendSyn =>
      cases isSent
      exact absurd isFin e.ctx.synSegment_isSyn.not_isFin
  | connect _ _ state =>
      cases isSent
      exact .inr ⟨_, rfl, isFin, .inr state⟩
  | accept _ _ state =>
      cases isSent
      exact .inr ⟨_, rfl, isFin, .inl state⟩
  | appSend =>
      cases isSent
      exact absurd isFin (e.ctx.dataSegment_isData _).not_isFin
  | fin =>
      cases isSent
      exact absurd isFin (Context.ackSegment_isAck _ _).not_isFin
  | data =>
      cases isSent
      exact absurd isFin (Context.ackSegment_isAck _ _).not_isFin
  | sendFin =>
      rw [Endpoint.loopEnd_ctx]
      left
      cases e.ctx.isClient <;> simp [Context.FinSent, Context.sentFin]
  | _ => cases isSent

/-- A FIN received has been taken off the queue. -/
theorem ThreadStep.finReceived {e e' : Endpoint} {taken sent : Option Segment}
    (moved : ThreadStep e taken sent e') (received : e'.ctx.FinReceived) :
    e.ctx.FinReceived ∨ ∃ packet, taken = some packet ∧ packet.IsFin := by
  cases moved with
  | sendSyn => simp [Context.FinReceived] at received
  | connect => exact absurd received (Context.establish_not_finReceived _ _)
  | accept => simp [Context.FinReceived] at received
  | accepted => exact absurd received (Context.establish_not_finReceived _ _)
  | appSend => exact .inl ((Context.samePhase_sent _ _ _).finReceived.mp received)
  | ack => exact .inl ((Context.samePhase_acked _ _ _).finReceived.mp received)
  | data => exact .inl ((Context.samePhase_recvBase _ _).finReceived.mp received)
  | fin _ _ _ _ isFin => exact .inr ⟨_, rfl, isFin⟩
  | finAcked enters state =>
      left
      rw [Endpoint.loopEnd_ctx] at received
      unfold Context.FinReceived
      cases client : e.ctx.isClient <;>
        simp_all [Context.finAcked, Context.FinReceived]
  | sendFin pc asked state =>
      left
      rw [Endpoint.loopEnd_ctx] at received
      unfold Context.FinReceived
      cases client : e.ctx.isClient <;>
        simp_all [Context.sentFin, Context.FinReceived]
  | _ => exact .inl (by simpa using received)

end EE323.Stcp

/-
Module: EE323.Stcp.Window
Purpose: The window arithmetic over whole runs, the teardown included, and the counters of the data
  phase.  A FIN sent while the window is full, and an acknowledgement that has wrapped past 2^32, are
  the two ways out of the window.
Main exports: Endpoint.SendsFin, WindowKept, teardown_arithmetic, data_phase
-/
import EE323.Stcp.Numbers

namespace EE323.Stcp

open EE323.Lib

/-- The next step of the transport thread sends its FIN. -/
def Endpoint.SendsFin (e : Endpoint) : Prop :=
  match e.pc with
  | .close event =>
      event.appCloseRequested = true ∧
        e.ctx.connectionState = if e.ctx.isClient then .established else .closeWait
  | _ => False

instance (e : Endpoint) : Decidable e.SendsFin := by
  unfold Endpoint.SendsFin
  cases e.pc <;> infer_instance

/-- No acknowledgement behind `SendBase` is processed, and a FIN is sent only while there is room in
the window. -/
def WindowKept (s : System) : Action → Prop
  | .thread side _ _ =>
      (s.endpoint side).AckInOrder ∧
        ((s.endpoint side).SendsFin → (s.endpoint side).ctx.rem ≠ 0)
  | _ => True

instance (s : System) (action : Action) : Decidable (WindowKept s action) :=
  match action with
  | .thread _ _ _ => inferInstanceAs (Decidable (_ ∧ _))
  | .deliver _ | .write _ _ | .read _ _ | .close _ => .isTrue trivial

theorem WindowKept.acksInOrder {s : System} {action : Action} (kept : WindowKept s action) :
    AcksInOrder s action := by
  cases action with
  | thread => exact kept.1
  | _ => trivial

theorem InWindow.init (state : CState) : InWindow (Context.init state) :=
  ⟨Nat.le_refl _, Nat.le_refl _, rfl⟩

/-- Only the step that sends the FIN makes it sent. -/
private theorem sendsFin_of_finSent {link : Link} {e' : Endpoint} {taken sent : Option Segment}
    {inc : List Segment} (view : View link) (incoming : link.inc = taken.toList ++ inc)
    (moved : ThreadStep link.self taken sent e') (before : ¬link.self.ctx.FinSent)
    (after : e'.ctx.FinSent) :
    link.self.SendsFin ∧ ∃ next, e'.ctx = link.self.ctx.sentFin next := by
  cases moved with
  | sendSyn => simp [Context.FinSent] at after
  | connect => exact absurd after (Context.establish_not_finSent _ _)
  | accept => simp [Context.FinSent] at after
  | accepted => exact absurd after (Context.establish_not_finSent _ _)
  | appSend => exact absurd ((Context.samePhase_sent _ _ _).finSent.mp after) before
  | ack => exact absurd ((Context.samePhase_acked _ _ _).finSent.mp after) before
  | data => exact absurd ((Context.samePhase_recvBase _ _).finSent.mp after) before
  | fin pc ready reads queue isFin =>
      have running : ¬link.self.ctx.Opening :=
        view.near.not_opening (by simp [Endpoint.InLoop, pc])
      obtain ⟨out, connected⟩ := view.opened running
      rw [incoming] at connected
      exact absurd ((connected.receivedFin_finSent view.near view.far view.roles running
        isFin).mp after) before
  | finAcked enters header =>
      exact absurd (Context.awaitsFinAck_of_header header).finSent before
  | sendFin pc asked state =>
      rw [Endpoint.loopEnd_ctx]
      exact ⟨by simp [Endpoint.SendsFin, pc, asked, state], _, rfl⟩
  | _ => exact absurd (by simpa using after) before

/-- The window after a step of an end that has sent its FIN. -/
private theorem finSent_window {link : Link} {e' : Endpoint} {taken sent : Option Segment}
    {inc : List Segment} (view : View link) (numbered : Numbered link)
    (inOrder : link.self.AckInOrder) (incoming : link.inc = taken.toList ++ inc)
    (moved : ThreadStep link.self taken sent e') (finSent : link.self.ctx.FinSent)
    (window : InWindow link.self.ctx) : InWindow e'.ctx := by
  have running := finSent.not_opening
  obtain ⟨sized, base, numbers⟩ := numbered.opened running
  cases moved with
  | sendSyn pc =>
      exact absurd (view.near.opening_of_start pc) running
  | connect => exact InWindow.establish _ _
  | accepted => exact InWindow.establish _ _
  | appSend pc ready room dequeued =>
      exact absurd finSent (view.near.not_finSent_of_dequeued dequeued)
  | ack pc ready reads queue isAck shifted =>
      rw [incoming] at numbers
      have above := inOrder _ (nextAck_of_ack pc ready reads queue isAck)
      obtain ⟨below, _⟩ := numbers.ack_true isAck above
      exact window.acked sized numbers.small above (Nat.le_trans below numbers.base_le) _
  | fin =>
      simp only [Context.receivedFin]
      split <;> exact ⟨window.ordered, window.fits, window.rem⟩
  | finAcked =>
      rw [Endpoint.loopEnd_ctx]
      simp only [Context.finAcked]
      split <;> exact ⟨window.ordered, window.fits, window.rem⟩
  | sendFin pc asked state =>
      exact absurd finSent (Context.not_finSent_of_unsent state)
  | _ =>
      first
        | exact ⟨window.ordered, window.fits, window.rem⟩
        | simpa using window

/-- The window when a FIN is sent with room left. -/
private theorem sentFin_window {ctx : Context} (window : InWindow ctx)
    (small : ctx.nextSeqnum < 2 ^ 33) (swnd : ctx.swnd ≤ 3072) (room : ctx.rem ≠ 0)
    (next : CState) : InWindow (ctx.sentFin next) := by
  obtain ⟨ordered, fits, rem⟩ := window
  have counted : sizeAdd ctx.nextSeqnum 1 = ctx.nextSeqnum + 1 := sizeAdd_eq (by omega)
  have inFlight : sizeSub (ctx.nextSeqnum + 1) ctx.sendBase = ctx.nextSeqnum + 1 - ctx.sendBase :=
    sizeSub_eq (by omega) (by omega)
  refine ⟨?_, ?_, ?_⟩
  · simp only [Context.sentFin, counted]
    omega
  · simp only [Context.sentFin, counted]
    omega
  · simp only [Context.sentFin, Context.window, counted, inFlight]
    exact sizeSub_eq (by omega) (by omega)

theorem inWindow_of_run {labels : List Action} {s : System} (run : ReliableRun WindowKept labels s)
    (side : Side) : InWindow (s.endpoint side).ctx := by
  induction run generalizing side with
  | refl => exact InWindow.init _
  | @snoc s t labels action before admitted stepped inductionHypothesis =>
      have numberedAfter :=
        numbered_of_run WindowKept.acksInOrder (.snoc before admitted stepped) side
      have viewAfter := Protocol.view_of_run (.snoc before admitted stepped) side
      -- before its FIN an end is inside the window because of the numbers in flight
      by_cases opening : (t.endpoint side).ctx.Opening
      · have fresh : (t.endpoint side).ctx = _ := viewAfter.near.fresh opening
        rw [fresh]
        exact InWindow.init _
      by_cases finSent : (t.endpoint side).ctx.FinSent
      · obtain ⟨actor, moved⟩ := step_link stepped
        rcases Side.eq_or_eq_peer actor side with rfl | rfl
        · have window : InWindow (s.link side).self.ctx := inductionHypothesis side
          have view := Protocol.view_of_run before side
          have numbered := numbered_of_run WindowKept.acksInOrder before side
          have finSent : (t.link side).self.ctx.FinSent := finSent
          show InWindow (t.link side).self.ctx
          generalize t.link side = after at moved finSent
          cases moved with
          | thread moved incoming =>
              by_cases already : (s.link side).self.ctx.FinSent
              · exact finSent_window view numbered admitted.1 incoming moved already window
              · obtain ⟨sends, next, same⟩ :=
                  sendsFin_of_finSent view incoming moved already finSent
                have running : ¬(s.link side).self.ctx.Opening := by
                  intro wasOpening
                  have open_ := view.near.opening wasOpening
                  unfold Endpoint.SendsFin at sends
                  split at sends
                  · rename_i pc
                    simp [pc] at open_
                  · exact sends
                obtain ⟨sized, base, numbers⟩ := numbered.opened running
                rw [same]
                exact sentFin_window window numbers.small sized.swnd_le (admitted.2 sends) _
          | receive packet => exact window
          | app called =>
              rw [called.ctx]
              exact window
        · have same : t.endpoint actor.peer = s.endpoint actor.peer := moved.peer_eq
          rw [same]
          exact inductionHypothesis _
      · obtain ⟨_, base, numbers⟩ := numberedAfter.opened opening
        exact numbers.window finSent

/-- The acknowledgement processed next names a number between `SendBase` and `next_seqnum`. -/
theorem nextAck_bounds {guard : System → Action → Prop} {labels : List Action} {s : System}
    (inOrder : ∀ {s action}, guard s action → AcksInOrder s action)
    (run : ReliableRun guard labels s) {side : Side} {packet : Segment}
    (next : packet ∈ (s.endpoint side).nextAck)
    (above : (s.endpoint side).ctx.sendBase ≤ packet.thAck) :
    packet.thAck ≤ (s.endpoint side).ctx.nextSeqnum := by
  obtain ⟨⟨event, pc⟩, ⟨rest, queue⟩, isAck⟩ := ack_of_nextAck next
  have coherent : Coherent (s.endpoint side) := (Protocol.view_of_run run side).near
  have running : ¬(s.endpoint side).ctx.Opening :=
    coherent.not_opening (by simp [Endpoint.InLoop, pc])
  obtain ⟨_, base, numbers⟩ := (numbered_of_run inOrder run side).opened running
  have head : (s.link side).inc = packet :: (rest ++ s.wire side.peer) := by
    simp [System.link, System.inFlight, queue]
  rw [head] at numbers
  exact Nat.le_trans (numbers.ack_true isAck above).1 numbers.base_le

/-- Teardown arithmetic: in every run that sends a FIN only with room in the window and processes no
acknowledgement behind `SendBase`, `rem` is the room left and never wraps, and neither does the
length of the copy that an acknowledgement causes. -/
theorem teardown_arithmetic {labels : List Action} {s : System}
    (run : ReliableRun WindowKept labels s) (side : Side) :
    InWindow (s.endpoint side).ctx ∧
      ∀ rand overread, WindowKept s (.thread side rand overread) →
        ∀ packet ∈ (s.endpoint side).nextAck,
          ((s.endpoint side).ctx.acked packet.thAck).ackSize ≤
            ((s.endpoint side).ctx.acked packet.thAck).swndPrev := by
  have window := inWindow_of_run run side
  refine ⟨window, ?_⟩
  intro rand overread kept packet next
  have above := kept.1 packet next
  have below := nextAck_bounds WindowKept.acksInOrder run next above
  have coherent : Coherent (s.endpoint side) := (Protocol.view_of_run run side).near
  obtain ⟨⟨event, pc⟩, _⟩ := ack_of_nextAck next
  have running : ¬(s.endpoint side).ctx.Opening :=
    coherent.not_opening (by simp [Endpoint.InLoop, pc])
  obtain ⟨_, base, numbers⟩ :=
    (numbered_of_run WindowKept.acksInOrder run side).opened running
  have small : (s.endpoint side).ctx.nextSeqnum < 2 ^ 33 := numbers.small
  have fits := window.fits
  show sizeSub packet.thAck (s.endpoint side).ctx.sendBase ≤ (s.endpoint side).ctx.swnd
  rw [sizeSub_eq above (by omega)]
  omega

/-- A client that closes with one byte unacknowledged. -/
theorem teardown_arithmetic_one_byte : ∃ s : System,
    (s.endpoint .client).ctx.connectionState = .finWait1 ∧
      (s.endpoint .client).ctx.rem = MSS - 2 ∧ InWindow (s.endpoint .client).ctx := by
  let schedule := handshakeSchedule ++ [Action.write .client [7], .close .client] ++
    iteration .client ++ iteration .client
  have reached : ∃ s, ReliableRun WindowKept schedule s ∧
      (s.endpoint .client).ctx.connectionState = .finWait1 ∧
        (s.endpoint .client).ctx.rem = MSS - 2 :=
    exec_reaches _ (by decide +kernel)
  obtain ⟨s, run, state, rem⟩ := reached
  exact ⟨s, state, rem, (teardown_arithmetic run .client).1⟩

/-- A FIN sent behind a full window: `rem` wraps to 2^64 - 1. -/
theorem full_window_fin_wraps : ∃ (labels : List Action) (s : System),
    ReliableRun anyStep labels s ∧ (s.endpoint .client).ctx.connectionState = .finWait1 ∧
      (s.endpoint .client).ctx.rem = 2 ^ 64 - 1 ∧ ¬InWindow (s.endpoint .client).ctx := by
  let schedule := handshakeSchedule ++ [Action.write .client (List.replicate 536 7), .close .client] ++
    iteration .client ++ iteration .client
  have reached : ∃ s, ReliableRun anyStep schedule s ∧
      (s.endpoint .client).ctx.connectionState = .finWait1 ∧
        (s.endpoint .client).ctx.rem = 2 ^ 64 - 1 ∧ (s.endpoint .client).ctx.swnd = 536 :=
    exec_reaches _ (by decide +kernel)
  obtain ⟨s, run, state, rem, swnd⟩ := reached
  refine ⟨_, s, run, state, rem, ?_⟩
  intro window
  have room := window.rem
  rw [rem, swnd] at room
  omega

/-! ### The data phase -/

/-- No application asks for close. -/
def NoClose (_ : System) : Action → Prop
  | .close _ => False
  | _ => True

instance (s : System) (action : Action) : Decidable (NoClose s action) :=
  match action with
  | .close _ => .isFalse id
  | .thread _ _ _ | .deliver _ | .write _ _ | .read _ _ => .isTrue trivial

/-- The number of bytes each application has written stays below the range of the 32-bit numbers. -/
def Bounded (s : System) : Prop :=
  ∀ side, (s.endpoint side).history.wrote.length < 2 ^ 32 - 2

private theorem never_closed {labels : List Action} {s : System}
    (run : ReliableRun NoClose labels s) (side : Side) : (s.endpoint side).appClosed = false := by
  let Open : Endpoint → Prop := fun e => e.appClosed = false
  have start : Open (Endpoint.init (side = .client)) := rfl
  refine endpoint_invariant run start ?_
  intro s action e' before admitted moved
  cases moved with
  | thread moved => exact moved.appClosed.trans before
  | receive => exact before
  | app called =>
      cases called with
      | write => exact before
      | read _ returned =>
          rcases appRead_cases returned with ⟨_, rfl⟩ | ⟨_, _, _, _, rfl⟩ <;> exact before
      | close => exact absurd admitted id

private theorem wrote_mono {s t : System} {action : Action}
    (stepped : System.step true s action = some t) (side : Side) :
    (s.endpoint side).history.wrote.length ≤ (t.endpoint side).history.wrote.length := by
  rcases step_endpoint stepped side with same | moved
  · exact Nat.le_of_eq (by rw [same])
  · generalize t.endpoint side = e' at moved
    cases moved with
    | thread moved => exact Nat.le_of_eq (by rw [moved.history_wrote])
    | receive => exact Nat.le_refl _
    | app called =>
        cases called with
        | write => simp [Endpoint.appWrite]
        | read _ returned =>
            rcases appRead_cases returned with ⟨_, rfl⟩ | ⟨_, _, _, _, rfl⟩ <;> exact Nat.le_refl _
        | close => exact Nat.le_refl _

private theorem Bounded.before {s t : System} {action : Action} (bounded : Bounded t)
    (stepped : System.step true s action = some t) : Bounded s :=
  fun side => Nat.lt_of_le_of_lt (wrote_mono stepped side) (bounded side)

/-- The two counters of an end that has neither sent nor received a FIN. -/
structure Counted (e : Endpoint) : Prop where
  opening : e.ctx.Opening → e.history.taken = [] ∧ e.history.delivered = []
  opened : ¬e.ctx.Opening →
    e.ctx.nextSeqnum = 1 + e.history.taken.length ∧
      e.ctx.recvBase = 1 + e.history.delivered.length

theorem Counted.keep {e e' : Endpoint} (counted : Counted e) (running : ¬e.ctx.Opening)
    (after : ¬e'.ctx.Opening) (next : e'.ctx.nextSeqnum = e.ctx.nextSeqnum)
    (recvBase : e'.ctx.recvBase = e.ctx.recvBase)
    (taken : e'.history.taken = e.history.taken)
    (delivered : e'.history.delivered = e.history.delivered) : Counted e' := by
  refine ⟨fun opening => absurd opening after, fun _ => ?_⟩
  rw [next, recvBase, taken, delivered]
  exact counted.opened running

/-- A step of a thread in the data phase, with the bytes taken and delivered below 2^32. -/
private theorem Counted.threadStep {link : Link} {e' : Endpoint} {taken sent : Option Segment}
    {inc : List Segment} (counted : Counted link.self) (view : View link) (after : Coherent e')
    (selfOpen : link.self.appClosed = false) (peerOpen : link.peer.appClosed = false)
    (incoming : link.inc = taken.toList ++ inc) (moved : ThreadStep link.self taken sent e')
    (takenSmall : e'.history.taken.length < 2 ^ 32)
    (deliveredSmall : e'.history.delivered.length < 2 ^ 32) : Counted e' := by
  have unsent : ¬link.self.ctx.FinSent := by
    intro finSent
    rw [(view.near.finished finSent).1] at selfOpen
    cases selfOpen
  by_cases opening : link.self.ctx.Opening
  · obtain ⟨nothingTaken, nothingDelivered⟩ := counted.opening opening
    have fresh := view.near.fresh opening
    have step := view.near.opening_step opening moved
    have history : e'.history.taken = [] ∧ e'.history.delivered = [] := by
      rw [moved.history_taken, view.history_delivered incoming moved ?_, nothingTaken,
        nothingDelivered]
      · clear moved takenSmall deliveredSmall after
        generalize e'.ctx = ctx' at step
        cases step with
        | sendSyn => simp [link.self.ctx.synSegment_isSyn.payload]
        | connect =>
            simp [Segment.echo_payload, ((view.opening opening).1 _ _ incoming).1.payload]
        | accept =>
            simp [Segment.echo_payload, ((view.opening opening).1 _ _ incoming).1.payload]
        | accepted => simp [((view.opening opening).1 _ _ incoming).1.payload]
        | overread => simp
      · rintro _ packet rfl isData
        exact absurd isData ((view.opening opening).1 _ _ incoming).1.not_isData
    refine ⟨fun _ => history, fun running => ?_⟩
    rw [history.1, history.2]
    generalize e'.ctx = ctx' at step running
    have established : (link.self.ctx.establish link.self.isActive).nextSeqnum = 1 ∧
        (link.self.ctx.establish link.self.isActive).recvBase = 1 := by
      rw [fresh]
      exact ⟨rfl, rfl⟩
    cases step with
    | sendSyn => exact absurd (by simp [Context.Opening]) running
    | connect => exact established
    | accept => exact absurd (by simp [Context.Opening]) running
    | accepted => exact established
    | overread => exact absurd opening running
  · have stays := view.near.stays_open opening moved
    obtain ⟨next, recvBase⟩ := counted.opened opening
    obtain ⟨out, connected⟩ := view.opened opening
    rw [incoming] at connected
    cases moved with
    | connect pc => exact absurd (view.near.handshake pc).1 opening
    | accept pc => exact absurd (view.near.handshake pc).1 opening
    | accepted pc => exact absurd (view.near.handshake pc).1 opening
    | stalled pc => exact absurd (view.near.handshake pc).1 opening
    | sendSyn => exact absurd (by simp [Context.Opening]) stays
    | appSend pc ready room dequeued stored =>
        refine ⟨fun wasOpening => absurd wasOpening stays, fun _ => ⟨?_, recvBase⟩⟩
        simp only [List.length_append] at takenSmall ⊢
        simp only [Context.sent]
        rw [sizeAdd_eq (by omega)]
        omega
    | data pc ready reads queue notAck notFin copied =>
        refine ⟨fun wasOpening => absurd wasOpening stays, fun _ => ⟨next, ?_⟩⟩
        simp only [List.length_append] at deliveredSmall ⊢
        rw [sizeAdd_eq (by omega)]
        omega
    | fin pc ready reads queue isFin =>
        have otherSent : link.peer.ctx.FinSent :=
          connected.incoming.finSent.mpr (.inr (hasFin_cons.mpr (.inl isFin)))
        rw [(view.far.finished otherSent).1] at peerOpen
        cases peerOpen
    | finAcked enters header =>
        exact absurd (Context.awaitsFinAck_of_header header).finSent unsent
    | sendFin pc asked =>
        have closing := view.near.event (by rw [pc]; exact asked)
        rw [closing.1] at selfOpen
        cases selfOpen
    | ack => exact counted.keep opening stays rfl rfl rfl rfl
    | _ => exact counted.keep opening (by simpa using stays) (by simp) (by simp) (by simp) (by simp)

private theorem never_finSent {labels : List Action} {s : System}
    (run : ReliableRun NoClose labels s) (side : Side) : ¬(s.endpoint side).ctx.FinSent := by
  intro finSent
  have coherent : Coherent (s.endpoint side) := (Protocol.view_of_run run side).near
  have closed := (coherent.finished finSent).1
  rw [never_closed run side] at closed
  cases closed

/-- Before any close both directions are streams. -/
theorem stream_without_close {labels : List Action} {s : System}
    (run : ReliableRun NoClose labels s) (sender : Side) : Stream (s.link sender) := by
  refine stream_of_run sender run ?_
  intro labels s rand overread packet sent e' before _ _ _ _ awaits
  exact never_finSent before sender.peer awaits.finSent

private theorem taken_le {labels : List Action} {s : System} (run : ReliableRun NoClose labels s)
    (side : Side) :
    (s.endpoint side).history.taken.length ≤ (s.endpoint side).history.wrote.length := by
  rw [← accounted_of_run run side, List.length_append]
  exact Nat.le_add_right _ _

private theorem delivered_le {labels : List Action} {s : System}
    (run : ReliableRun NoClose labels s) (sender : Side) :
    (s.endpoint sender.peer).history.delivered.length ≤
      (s.endpoint sender).history.wrote.length := by
  have stream : (s.endpoint sender.peer).history.delivered ++ payloads (s.inFlight sender) =
      (s.endpoint sender).history.taken := stream_without_close run sender
  refine Nat.le_trans ?_ (taken_le run sender)
  rw [← stream, List.length_append]
  exact Nat.le_add_right _ _

theorem counted_of_run {labels : List Action} {s : System} (run : ReliableRun NoClose labels s)
    (bounded : Bounded s) (side : Side) : Counted (s.endpoint side) := by
  induction run generalizing side with
  | refl =>
      refine ⟨fun _ => ⟨rfl, rfl⟩, fun running => absurd ?_ running⟩
      cases side <;> simp [System.init, Endpoint.init, Context.init, Context.Opening]
  | @snoc s t labels action before admitted stepped inductionHypothesis =>
      have after : ReliableRun NoClose (labels ++ [action]) t := .snoc before admitted stepped
      have earlier := inductionHypothesis (bounded.before stepped)
      obtain ⟨actor, moved⟩ := step_link stepped
      rcases Side.eq_or_eq_peer actor side with rfl | rfl
      · have takenSmall : (t.link side).self.history.taken.length < 2 ^ 32 := by
          have written := bounded side
          have below := taken_le after side
          show (t.endpoint side).history.taken.length < 2 ^ 32
          omega
        have deliveredSmall : (t.link side).self.history.delivered.length < 2 ^ 32 := by
          have written := bounded side.peer
          have below := delivered_le after side.peer
          rw [Side.peer_peer] at below
          show (t.endpoint side).history.delivered.length < 2 ^ 32
          omega
        have coherent : Coherent (t.link side).self := (Protocol.view_of_run after side).near
        have counted : Counted (s.link side).self := earlier side
        have view := Protocol.view_of_run before side
        have selfOpen : (s.link side).self.appClosed = false := never_closed before side
        have peerOpen : (s.link side).peer.appClosed = false := never_closed before side.peer
        show Counted (t.link side).self
        generalize t.link side = link' at moved takenSmall deliveredSmall coherent
        cases moved with
        | thread moved incoming =>
            exact counted.threadStep view coherent selfOpen peerOpen incoming moved takenSmall
              deliveredSmall
        | receive packet => exact ⟨counted.opening, counted.opened⟩
        | app called =>
            refine ⟨?_, ?_⟩
            · rw [called.ctx, called.history.1, called.history.2]
              exact counted.opening
            · rw [called.ctx, called.history.1, called.history.2]
              exact counted.opened
      · have same : t.endpoint actor.peer = s.endpoint actor.peer := moved.peer_eq
        rw [same]
        exact earlier _

/-- With fewer than 2^32 - 2 bytes written, no acknowledgement wraps. -/
private theorem acksInOrder_of_bounded {side : Side} {s : System} (numbered : Numbered (s.link side))
    (counted : Counted (s.endpoint side)) (coherent : Coherent (s.endpoint side))
    (small : (s.endpoint side).history.taken.length < 2 ^ 32 - 2) :
    (s.endpoint side).AckInOrder := by
  intro packet next
  obtain ⟨⟨event, pc⟩, ⟨rest, queue⟩, isAck⟩ := ack_of_nextAck next
  have running : ¬(s.endpoint side).ctx.Opening :=
    coherent.not_opening (by simp [Endpoint.InLoop, pc])
  obtain ⟨_, base, numbers⟩ := numbered.opened running
  have head : (s.link side).inc = packet :: (rest ++ s.wire side.peer) := by
    simp [System.link, System.inFlight, queue]
  rw [head] at numbers
  have reached : base ≤ (s.endpoint side).ctx.nextSeqnum := numbers.base_le
  obtain ⟨number, above, carries, later⟩ := (AckRun.cons_ack isAck).mp numbers.acks
  have below := later.le
  have counter := (counted.opened running).1
  rw [carries, trunc32_eq (by omega)]
  exact above

private theorem run_in_order {labels : List Action} {s : System}
    (run : ReliableRun NoClose labels s) (bounded : Bounded s) :
    ReliableRun (fun s action => NoClose s action ∧ AcksInOrder s action) labels s := by
  induction run with
  | refl => exact .refl _
  | @snoc s t labels action before admitted stepped inductionHypothesis =>
      have boundedBefore := bounded.before stepped
      have runBefore := inductionHypothesis boundedBefore
      refine .snoc runBefore ⟨admitted, ?_⟩ stepped
      cases action with
      | thread side rand overread =>
          have written := boundedBefore side
          have below := taken_le before side
          refine acksInOrder_of_bounded (numbered_of_run (fun both => both.2) runBefore side)
            (counted_of_run before boundedBefore side)
            (Protocol.view_of_run before side).near (by omega)
      | _ => trivial

/-- Without a FIN the numbers in flight count the payloads in flight. -/
theorem span_eq_payloads {segments : List Segment} (noFin : ¬HasFin segments) :
    span segments = (payloads segments).length := by
  induction segments with
  | nil => rfl
  | cons segment rest inductionHypothesis =>
      rw [hasFin_cons, not_or] at noFin
      rw [span_cons, payloads_cons, List.length_append, inductionHypothesis noFin.2]
      unfold Segment.span Segment.payload
      split <;> simp [noFin.1]

/-- Below 2^32 the numbers carried are the true ones. -/
private theorem AckRun.carried {low high : Nat} {segments : List Segment}
    (run : AckRun low segments high) (small : high < 2 ^ 32) :
    (∀ segment ∈ segments, segment.IsAck → low ≤ segment.thAck ∧ segment.thAck ≤ high) ∧
      ((segments.filter fun segment => segment.IsAck).map Segment.thAck).Pairwise (· ≤ ·) := by
  induction segments generalizing low with
  | nil => simp
  | cons segment rest inductionHypothesis =>
      by_cases isAck : segment.IsAck
      · obtain ⟨number, above, carries, later⟩ := (AckRun.cons_ack isAck).mp run
        have below := later.le
        rw [trunc32_eq (by omega)] at carries
        obtain ⟨bounds, sorted⟩ := inductionHypothesis later
        refine ⟨?_, ?_⟩
        · intro other member otherAck
          rcases List.mem_cons.mp member with rfl | tail
          · omega
          · have inside := bounds other tail otherAck
            omega
        · simp only [isAck, decide_true, List.filter_cons_of_pos, List.map_cons,
            List.pairwise_cons]
          refine ⟨?_, sorted⟩
          intro thAck member
          obtain ⟨other, kept, rfl⟩ := List.mem_map.mp member
          obtain ⟨tail, otherAck⟩ := List.mem_filter.mp kept
          have inside := bounds other tail (of_decide_eq_true otherAck)
          omega
      · obtain ⟨bounds, sorted⟩ := inductionHypothesis ((AckRun.cons_other isAck).mp run)
        refine ⟨?_, ?_⟩
        · intro other member otherAck
          rcases List.mem_cons.mp member with rfl | tail
          · exact absurd otherAck isAck
          · exact bounds other tail otherAck
        · simpa [isAck] using sorted

/-- The data phase: in every run in which no application asks for close and each writes fewer than
2^32 - 2 bytes, both directions are streams, and once both ends are established the receiver's
counter, the sender's window and the acknowledgements in flight agree. -/
theorem data_phase {labels : List Action} {s : System} (run : ReliableRun NoClose labels s)
    (bounded : Bounded s) (sender : Side) :
    (s.endpoint sender.peer).history.delivered ++ payloads (s.inFlight sender) =
        (s.endpoint sender).history.taken ∧
      ((∀ side, (s.endpoint side).ctx.connectionState = .established) →
        (s.endpoint sender.peer).ctx.recvBase =
            1 + (s.endpoint sender.peer).history.delivered.length ∧
          (s.endpoint sender).ctx.sendBase ≤ (s.endpoint sender.peer).ctx.recvBase ∧
          (∀ segment ∈ s.inFlight sender.peer, segment.IsAck →
            (s.endpoint sender).ctx.sendBase ≤ segment.thAck ∧
              segment.thAck ≤ (s.endpoint sender.peer).ctx.recvBase) ∧
          (s.endpoint sender.peer).ctx.recvBase ≤ (s.endpoint sender).ctx.nextSeqnum ∧
          (((s.inFlight sender.peer).filter fun segment => segment.IsAck).map
            Segment.thAck).Pairwise (· ≤ ·)) := by
  have stream : (s.endpoint sender.peer).history.delivered ++ payloads (s.inFlight sender) =
      (s.endpoint sender).history.taken := stream_without_close run sender
  refine ⟨stream, ?_⟩
  intro established
  have running : ∀ side, ¬(s.endpoint side).ctx.Opening := by
    intro side
    simp [Context.Opening, established side]
  have view := Protocol.view_of_run run sender
  obtain ⟨out, connected⟩ := (Protocol.view_of_run run sender.peer).opened (running sender.peer)
  have incoming : (s.link sender.peer).inc = s.inFlight sender := by simp [System.link]
  have peer : (s.link sender.peer).peer = s.endpoint sender := by simp [System.link]
  have noFin : ¬HasFin (s.inFlight sender) := by
    intro inFlight
    refine never_finSent run sender ?_
    rw [← peer]
    refine connected.incoming.finSent.mpr (.inr ?_)
    rw [incoming]
    exact inFlight
  obtain ⟨_, base, numbers⟩ :=
    (numbered_of_run (fun both => both.2) (run_in_order run bounded) sender).opened
      (running sender)
  have top : base + span (s.inFlight sender) = (s.endpoint sender).ctx.nextSeqnum := numbers.top
  have acks : AckRun (s.endpoint sender).ctx.sendBase (s.inFlight sender.peer) base := numbers.acks
  have next := ((counted_of_run run bounded sender).opened (running sender)).1
  have recvBase := ((counted_of_run run bounded sender.peer).opened (running sender.peer)).2
  have lengths := congrArg List.length stream
  rw [List.length_append] at lengths
  rw [span_eq_payloads noFin] at top
  have sameBase : base = (s.endpoint sender.peer).ctx.recvBase := by omega
  have written := bounded sender
  have taken := taken_le run sender
  rw [sameBase] at acks
  obtain ⟨bounds, sorted⟩ := acks.carried (by omega)
  exact ⟨recvBase, acks.le, bounds, by omega, sorted⟩

/-- Two bytes each way, one of them acknowledged. -/
theorem data_phase_two_bytes : ∃ s : System,
    (s.endpoint .client).history.taken = [1, 2] ∧ (s.endpoint .server).history.delivered = [1] ∧
      (s.endpoint .server).ctx.recvBase =
        1 + (s.endpoint .server).history.delivered.length := by
  let schedule := handshakeSchedule ++ [Action.write .client [1]] ++ iteration .client ++
    [Action.write .client [2]] ++ iteration .client ++ [Action.deliver .client] ++ iteration .server
  have reached : ∃ s, ReliableRun NoClose schedule s ∧
      (s.endpoint .client).history.taken = [1, 2] ∧
      (s.endpoint .server).history.delivered = [1] ∧
      (s.endpoint .client).history.wrote.length < 2 ^ 32 - 2 ∧
      (s.endpoint .server).history.wrote.length < 2 ^ 32 - 2 ∧
      (s.endpoint .client).ctx.connectionState = .established ∧
      (s.endpoint .server).ctx.connectionState = .established :=
    exec_reaches _ (by decide +kernel)
  obtain ⟨s, run, taken, delivered, clientBound, serverBound, client, server⟩ := reached
  have bounded : Bounded s := by
    intro side
    cases side
    · exact clientBound
    · exact serverBound
  refine ⟨s, taken, delivered, ((data_phase run bounded .client).2 ?_).1⟩
  intro side
  cases side
  · exact client
  · exact server

end EE323.Stcp

/-
Module: EE323.Stcp.Congestion
Purpose: The arithmetic of the congestion window.  `CWND` after any number of ACKs is an iterate of
  one update, and every run of either network only ever moves it along that sequence.
Main exports: windowAfter, windowAfter_mono, Growth, WindowArithmetic, congestion_window_arithmetic
-/
import EE323.Stcp.Stale
import Mathlib.Order.Monotone.Basic
import Mathlib.Logic.Function.Iterate

namespace EE323.Stcp

open EE323.Lib

/-! ### The sequence of windows -/

/-- `CWND` after a number of ACKs. -/
def windowAfter (acks : Nat) : Nat := nextCwnd^[acks] MSS

theorem windowAfter_succ (acks : Nat) : windowAfter (acks + 1) = nextCwnd (windowAfter acks) :=
  Function.iterate_succ_apply' _ _ _

/-- The fixed point of congestion avoidance bounds the whole sequence. -/
theorem windowAfter_bounds (acks : Nat) :
    MSS ≤ windowAfter acks ∧ windowAfter acks ≤ MSS * MSS + 1 := by
  induction acks with
  | zero => exact ⟨Nat.le_refl _, by decide⟩
  | succ acks inductionHypothesis =>
      obtain ⟨least, most⟩ := inductionHypothesis
      have bounds := nextCwnd_bounds least most
      rw [windowAfter_succ]
      exact ⟨Nat.le_trans least bounds.1, bounds.2⟩

theorem windowAfter_mono : Monotone windowAfter := by
  refine monotone_nat_of_le_succ fun acks => ?_
  have bounds := windowAfter_bounds acks
  rw [windowAfter_succ]
  exact (nextCwnd_bounds bounds.1 bounds.2).1

/-- The addition of an update never wraps around. -/
theorem nextCwnd_exact {cwnd : Nat} (least : MSS ≤ cwnd) (most : cwnd ≤ MSS * MSS + 1) :
    nextCwnd cwnd = cwnd + if cwnd < 4 * MSS then MSS else MSS * MSS / cwnd := by
  have mss : MSS = 536 := rfl
  have square : MSS * MSS = 287296 := rfl
  have quotient_le : MSS * MSS / cwnd ≤ MSS * MSS := Nat.div_le_self _ _
  unfold nextCwnd
  split
  · exact sizeAdd_eq (by omega)
  · exact sizeAdd_eq (by omega)

/-! ### The window along a run -/

/-- The window variables stand where so many ACKs put them. -/
structure WindowOf (acks : Nat) (ctx : Context) : Prop where
  recvWin : ctx.recvWin = RECV_WINDOW_SIZE
  cwnd : ctx.cwnd = windowAfter acks
  swnd : ctx.swnd = min (windowAfter acks) RECV_WINDOW_SIZE

theorem WindowOf.establish (ctx : Context) (isActive : Bool) : WindowOf 0 (ctx.establish isActive) :=
  ⟨rfl, rfl, rfl⟩

theorem WindowOf.congr {acks : Nat} {ctx after : Context} (window : WindowOf acks ctx)
    (recvWin : after.recvWin = ctx.recvWin) (cwnd : after.cwnd = ctx.cwnd)
    (swnd : after.swnd = ctx.swnd) : WindowOf acks after :=
  ⟨recvWin.trans window.recvWin, cwnd.trans window.cwnd, swnd.trans window.swnd⟩

theorem WindowOf.acked {acks : Nat} {ctx : Context} (window : WindowOf acks ctx) (thAck : Nat) :
    WindowOf (acks + 1) (ctx.acked thAck) := by
  have next : nextCwnd ctx.cwnd = windowAfter (acks + 1) := by
    rw [window.cwnd, windowAfter_succ]
  refine ⟨window.recvWin, next, ?_⟩
  show min (nextCwnd ctx.cwnd) ctx.recvWin = _
  rw [next, window.recvWin]

/-- `transport_init` has established the connection. -/
def Endpoint.Started (e : Endpoint) : Prop := e.pc ≠ .start ∧ e.pc ≠ .handshake

theorem Endpoint.InLoop.started {e : Endpoint} (inLoop : e.InLoop) : e.Started :=
  ⟨inLoop.1, inLoop.2.1⟩

theorem Endpoint.loopEnd_started (e : Endpoint) : e.loopEnd.Started := by
  unfold Started
  rw [loopEnd_pc]
  split <;> simp

/-- A step of a started transport thread leaves the window alone or processes one ACK. -/
theorem ThreadStep.window {e e' : Endpoint} {taken sent : Option Segment} {acks : Nat}
    (moved : ThreadStep e taken sent e') (started : e.Started) (before : WindowOf acks e.ctx) :
    e'.Started ∧ ∃ more, WindowOf (acks + more) e'.ctx := by
  have same {after : Context} (recvWin : after.recvWin = e.ctx.recvWin)
      (cwnd : after.cwnd = e.ctx.cwnd) (swnd : after.swnd = e.ctx.swnd) :
      ∃ more, WindowOf (acks + more) after := ⟨0, before.congr recvWin cwnd swnd⟩
  cases moved with
  | sendSyn pc => exact absurd pc started.1
  | connect pc => exact absurd pc started.2
  | accept pc => exact absurd pc started.2
  | accepted pc => exact absurd pc started.2
  | stalled pc => exact absurd pc started.2
  | ack pc ready reads queue isAck shifted =>
      refine ⟨⟨by simp, by simp⟩, 1, ?_⟩
      exact ⟨before.recvWin, (before.acked 0).cwnd, (before.acked 0).swnd⟩
  | fin =>
      refine ⟨⟨by simp, by simp⟩, ?_⟩
      show ∃ more, WindowOf (acks + more) e.ctx.receivedFin
      unfold Context.receivedFin
      split <;> exact same rfl rfl rfl
  | finAcked =>
      refine ⟨Endpoint.loopEnd_started _, ?_⟩
      rw [Endpoint.loopEnd_ctx]
      show ∃ more, WindowOf (acks + more) e.ctx.finAcked
      unfold Context.finAcked
      split <;> exact same rfl rfl rfl
  | sendFin =>
      refine ⟨Endpoint.loopEnd_started _, ?_⟩
      rw [Endpoint.loopEnd_ctx]
      exact same rfl rfl rfl
  | ignored =>
      refine ⟨Endpoint.loopEnd_started _, ?_⟩
      rw [Endpoint.loopEnd_ctx]
      exact same rfl rfl rfl
  | noClose =>
      refine ⟨Endpoint.loopEnd_started _, ?_⟩
      rw [Endpoint.loopEnd_ctx]
      exact same rfl rfl rfl
  | forget =>
      refine ⟨Endpoint.loopEnd_started _, ?_⟩
      rw [Endpoint.loopEnd_ctx]
      exact same rfl rfl rfl
  | _ => exact ⟨⟨by simp, by simp⟩, same rfl rfl rfl⟩

/-- A step of one side keeps a started endpoint on the sequence of windows. -/
theorem EndpointStep.window {side : Side} {e e' : Endpoint} {action : Action} {acks : Nat}
    (stepped : EndpointStep side e action e') (started : e.Started)
    (before : WindowOf acks e.ctx) : e'.Started ∧ ∃ more, WindowOf (acks + more) e'.ctx := by
  cases stepped with
  | thread moved => exact moved.window started before
  | receive packet => exact ⟨started, 0, before⟩
  | app called =>
      unfold Endpoint.Started
      rw [called.pc, called.ctx]
      exact ⟨started, 0, before⟩

/-- The loop is entered by establishing the connection. -/
theorem EndpointStep.inLoop {side : Side} {e e' : Endpoint} {action : Action}
    (stepped : EndpointStep side e action e') (inLoop : e'.InLoop) :
    e.InLoop ∨ e'.ctx = e.ctx.establish e.isActive := by
  cases stepped with
  | thread moved => exact (moved.inLoop inLoop).imp_right fun entered => entered.2.1
  | receive packet => exact .inl inLoop
  | app called =>
      unfold Endpoint.InLoop at inLoop
      rw [called.pc] at inLoop
      exact .inl inLoop

/-- In every run, an endpoint in the loop stands on the sequence of windows. -/
theorem window_of_run {isReliable : Bool} {labels : List Action} {s : System} {side : Side}
    (run : Run (System.step isReliable) anyStep System.init labels s)
    (inLoop : (s.endpoint side).InLoop) : ∃ acks, WindowOf acks (s.endpoint side).ctx := by
  let OnSequence : Endpoint → Prop := fun e => e.InLoop → ∃ acks, WindowOf acks e.ctx
  have initially : OnSequence (Endpoint.init (side = .client)) := by
    intro inLoop
    cases side with
    | client => exact absurd rfl inLoop.1
    | server => exact absurd rfl inLoop.2.1
  refine endpoint_invariant run initially ?_ inLoop
  intro s action e' before _ stepped inLoop'
  rcases stepped.inLoop inLoop' with inLoop | established
  · obtain ⟨acks, window⟩ := before inLoop
    obtain ⟨_, more, window'⟩ := stepped.window inLoop.started window
    exact ⟨_, window'⟩
  · rw [established]
    exact ⟨0, .establish _ _⟩

/-- From a started endpoint on, the window only moves along the sequence. -/
theorem window_along {isReliable : Bool} {more : List Action} {s s' : System} {side : Side}
    {acks : Nat} (later : Run (System.step isReliable) anyStep s more s')
    (started : (s.endpoint side).Started) (window : WindowOf acks (s.endpoint side).ctx) :
    (s'.endpoint side).Started ∧
      ∃ since, WindowOf (acks + since) (s'.endpoint side).ctx := by
  let Along : System → Prop := fun t =>
    (t.endpoint side).Started ∧ ∃ since, WindowOf (acks + since) (t.endpoint side).ctx
  have start : Along s := ⟨started, 0, window⟩
  refine later.invariant start ?_
  intro t action t' along _ stepped
  obtain ⟨started, since, window⟩ := along
  rcases step_endpoint stepped side with same | moved
  · simpa only [Along, same] using And.intro started ⟨since, window⟩
  · obtain ⟨started', further, window'⟩ := moved.window started window
    exact ⟨started', since + further, by rw [← Nat.add_assoc]; exact window'⟩

/-! ### What every ACK does -/

/-- The arithmetic of one context in the loop, and of the ACK that it may process next. -/
structure WindowArithmetic (ctx : Context) : Prop where
  cwnd_ne_zero : ctx.cwnd ≠ 0
  cwnd_le : ctx.cwnd ≤ 287297
  swnd : ctx.swnd = min ctx.cwnd 3072
  exact_update (thAck : Nat) : (ctx.acked thAck).cwnd =
    ctx.cwnd + if ctx.cwnd < 4 * MSS then MSS else MSS * MSS / ctx.cwnd
  acked_swnd (thAck : Nat) : (ctx.acked thAck).swnd = min (ctx.acked thAck).cwnd 3072
  swndPrev_le (thAck : Nat) : (ctx.acked thAck).swndPrev ≤ (ctx.acked thAck).swnd
  copy_fits (thAck : Nat) : (ctx.acked thAck).ackSize ≤ (ctx.acked thAck).swndPrev →
    ∃ buffer, (ctx.acked thAck).shiftBuffer = some buffer ∧
      buffer.length = (ctx.acked thAck).swnd

theorem windowArithmetic {ctx : Context} (sized : Sized ctx) : WindowArithmetic ctx where
  cwnd_ne_zero := by
    have least := sized.cwndLeast
    have mss : MSS = 536 := rfl
    omega
  cwnd_le := sized.cwndMost
  swnd := sized.swnd
  exact_update _ := nextCwnd_exact sized.cwndLeast sized.cwndMost
  acked_swnd thAck := by
    have recvWin : ctx.recvWin = 3072 := sized.recvWin
    simp [Context.acked, recvWin]
  swndPrev_le thAck := sized.acked_swnd thAck
  copy_fits _ within := sized.shiftBuffer_of_ackSize within

/-- From the established connection on, over either network and for every number of ACKs: `CWND` is
a term of the sequence that starts at 536, neither it nor `SWND` ever decreases, and the arithmetic
of the next ACK is exact and inside its buffers. -/
theorem congestion_window_arithmetic {isReliable : Bool} {labels more : List Action}
    {s s' : System} {side : Side}
    (run : Run (System.step isReliable) anyStep System.init labels s)
    (inLoop : (s.endpoint side).InLoop)
    (later : Run (System.step isReliable) anyStep s more s')
    (inLoop' : (s'.endpoint side).InLoop) :
    (∃ acks since, (s.endpoint side).ctx.cwnd = windowAfter acks ∧
        (s'.endpoint side).ctx.cwnd = windowAfter (acks + since)) ∧
      (s.endpoint side).ctx.cwnd ≤ (s'.endpoint side).ctx.cwnd ∧
      (s.endpoint side).ctx.swnd ≤ (s'.endpoint side).ctx.swnd ∧
      WindowArithmetic (s'.endpoint side).ctx := by
  obtain ⟨acks, window⟩ := window_of_run run inLoop
  obtain ⟨_, since, window'⟩ := window_along later inLoop.started window
  have grows : windowAfter acks ≤ windowAfter (acks + since) :=
    windowAfter_mono (Nat.le_add_right _ _)
  refine ⟨⟨acks, since, window.cwnd, window'.cwnd⟩, ?_, ?_, ?_⟩
  · rw [window.cwnd, window'.cwnd]
    exact grows
  · rw [window.swnd, window'.swnd]
    exact Nat.le_min.mpr ⟨Nat.le_trans (Nat.min_le_left _ _) grows, Nat.min_le_right _ _⟩
  · exact windowArithmetic (sized_of_run (run.trans later) side inLoop')

/-- The client sends a byte and processes its acknowledgement. -/
theorem congestion_window_arithmetic_first_ack : ∃ s s' : System,
    Run (System.step true) anyStep System.init handshakeSchedule s ∧
      (s.endpoint .client).ctx.cwnd = 536 ∧ (s'.endpoint .client).ctx.cwnd = 1072 ∧
      (s.endpoint .client).ctx.swnd ≤ (s'.endpoint .client).ctx.swnd ∧
      WindowArithmetic (s'.endpoint .client).ctx := by
  let schedule := [Action.write .client [7]] ++ iteration .client ++ [Action.deliver .client] ++
    iteration .server ++ [Action.deliver .server] ++ iteration .client
  have reached : ∃ s, Run (System.step true) anyStep System.init handshakeSchedule s ∧
      (s.endpoint .client).InLoop ∧ (s.endpoint .client).ctx.cwnd = 536 ∧
      (exec (System.step true) anyStep s schedule).any (fun (t : System) =>
        decide ((t.endpoint .client).InLoop ∧ (t.endpoint .client).ctx.cwnd = 1072)) = true :=
    exec_reaches _ (by decide +kernel)
  obtain ⟨s, run, inLoop, cwnd, continued⟩ := reached
  have onward : ∃ t, Run (System.step true) anyStep s schedule t ∧
      (t.endpoint .client).InLoop ∧ (t.endpoint .client).ctx.cwnd = 1072 :=
    exec_reaches _ continued
  obtain ⟨s', later, inLoop', cwnd'⟩ := onward
  obtain ⟨_, _, swnd, arithmetic⟩ := congestion_window_arithmetic run inLoop later inLoop'
  exact ⟨s, s', run, cwnd, cwnd', swnd, arithmetic⟩

end EE323.Stcp

/-
Module: EE323.Stcp.Unreliable
Purpose: Runs over the network that drops, duplicates and holds back segments.  No order of the
  segments survives, so the invariants speak about every copy that is still around: in a receive
  queue, on the wire or in the copy buffer of `_network_send`.
Main exports: System.around, around_step, step_cases, Sound, sound_of_run
-/
import EE323.Stcp.Roles
import EE323.Stcp.Protocol

namespace EE323.Stcp

open EE323.Lib

namespace System

/-- Every copy of a segment of a side that its peer may still take. -/
def around (s : System) (side : Side) : List Segment :=
  (s.endpoint side.peer).sock.networkRecvQueue ++ s.wire side ++ (s.copyBuffer side).toList

theorem mem_around {s : System} {side : Side} {segment : Segment} :
    segment ∈ s.around side ↔
      segment ∈ (s.endpoint side.peer).sock.networkRecvQueue ∨ segment ∈ s.wire side ∨
        s.copyBuffer side = some segment := by
  simp [around, eq_comm]

end System

/-- An endpoint whose transport thread does not move. -/
inductive IdleStep (side : Side) (e : Endpoint) (action : Action) : Endpoint → Prop where
  | same : IdleStep side e action e
  | receive (packet : Segment) : IdleStep side e action (e.receive packet)
  | app {e' : Endpoint} (called : AppStep e side action e') : IdleStep side e action e'

namespace IdleStep

variable {side : Side} {e e' : Endpoint} {action : Action}

theorem ctx (idle : IdleStep side e action e') : e'.ctx = e.ctx := by
  cases idle with
  | same => rfl
  | receive => rfl
  | app called => exact called.ctx

theorem isActive (idle : IdleStep side e action e') : e'.isActive = e.isActive := by
  cases idle with
  | same => rfl
  | receive => rfl
  | app called => exact called.isActive

theorem coherent (idle : IdleStep side e action e') (coherent : Coherent e) : Coherent e' := by
  cases idle with
  | same => exact coherent
  | receive packet => exact coherent.receive packet
  | app called => exact coherent.appStep called

end IdleStep

/-- What happens in one action over either network: a transport thread moves, or neither transport
thread does. -/
theorem step_cases {isReliable : Bool} {s t : System} {action : Action}
    (stepped : System.step isReliable s action = some t) :
    (∃ side rand overread taken, action = .thread side rand overread ∧
        ThreadStep (s.endpoint side) taken (s.sends side action) (t.endpoint side) ∧
        (∀ packet, taken = some packet → packet ∈ s.around side.peer) ∧
        t.endpoint side.peer = s.endpoint side.peer ∧ s.sends side.peer action = none) ∨
      ∀ side, s.sends side action = none ∧ IdleStep side (s.endpoint side) action (t.endpoint side) := by
  cases action with
  | thread actor rand overread =>
      refine .inl ⟨actor, rand, overread, ?_⟩
      simp only [System.step, Option.map_eq_some_iff] at stepped
      obtain ⟨⟨self, sent⟩, threadStepped, rfl⟩ := stepped
      obtain ⟨taken, moved⟩ := Endpoint.threadStep_sound threadStepped
      refine ⟨taken, rfl, ?_, ?_, ?_, ?_⟩
      · simpa [System.sends, threadStepped, transmit_endpoint] using moved
      · rintro packet rfl
        simp [System.mem_around, moved.queue]
      · simp [transmit_endpoint]
      · simp [System.sends]
  | _ =>
      refine .inr fun side => ⟨rfl, ?_⟩
      rcases step_endpoint stepped side with same | moved
      · rw [same]
        exact .same
      · generalize t.endpoint side = after at moved ⊢
        cases moved with
        | app called => exact .app called
        | _ => exact .receive _

private theorem around_update (s : System) (actor side : Side) (e : Endpoint)
    (sameQueue : e.sock.networkRecvQueue = (s.endpoint actor).sock.networkRecvQueue) :
    (s.update actor e).around side = s.around side := by
  unfold System.around
  rw [update_endpoint]
  split
  · rename_i same
    rw [sameQueue, same]
    rfl
  · rfl

private theorem around_transmit {isReliable : Bool} {s : System} {actor side : Side} {rand : Nat}
    {e : Endpoint} {taken sent : Option Segment} (moved : ThreadStep (s.endpoint actor) taken sent e)
    {segment : Segment} (member : segment ∈ (s.transmit isReliable rand actor (e, sent)).around side) :
    segment ∈ s.around side ∨ side = actor ∧ sent = some segment := by
  have queue : ∀ other ∈ ((s.transmit isReliable rand actor (e, sent)).endpoint
      side.peer).sock.networkRecvQueue, other ∈ (s.endpoint side.peer).sock.networkRecvQueue := by
    intro other inQueue
    rw [transmit_endpoint] at inQueue
    split at inQueue
    · rename_i same
      rw [same, moved.queue]
      exact List.mem_append_right _ inQueue
    · exact inQueue
  rw [System.mem_around] at member ⊢
  cases sent with
  | none =>
      exact .inl (member.imp_left (queue segment))
  | some packet =>
      rcases member with inQueue | onWire | kept
      · exact .inl (.inl (queue segment inQueue))
      · simp only [System.transmit, Function.update_apply] at onWire
        split at onWire
        · rename_i same
          subst same
          rcases List.mem_append.mp onWire with earlier | now
          · exact .inl (.inr (.inl earlier))
          · rcases mem_networkSend (.inl now) with rfl | kept
            · exact .inr ⟨rfl, rfl⟩
            · exact .inl (.inr (.inr kept))
        · exact .inl (.inr (.inl onWire))
      · simp only [System.transmit, Function.update_apply] at kept
        split at kept
        · rename_i same
          subst same
          rcases mem_networkSend (.inr kept) with rfl | kept
          · exact .inr ⟨rfl, rfl⟩
          · exact .inl (.inr (.inr kept))
        · exact .inl (.inr (.inr kept))

/-- A segment that is around has been around before or is sent now. -/
theorem around_step {isReliable : Bool} {s t : System} {action : Action} {side : Side}
    (stepped : System.step isReliable s action = some t) :
    ∀ segment ∈ t.around side,
      segment ∈ s.around side ∨ s.sends side action = some segment := by
  intro segment member
  cases systemStep_of_step stepped with
  | thread threadStepped moved =>
      refine (around_transmit moved member).imp_right ?_
      rintro ⟨rfl, rfl⟩
      simp [System.sends, threadStepped]
  | @deliver sender packet rest waiting =>
      refine .inl ?_
      rw [System.mem_around] at member ⊢
      rcases Side.eq_or_eq_peer sender side with rfl | rfl
      · simp only [System.update, Function.update_self, Endpoint.receive, List.mem_append,
          List.mem_singleton] at member
        rw [waiting, List.mem_cons]
        grind
      · simpa [System.update] using member
  | @app actor action self called =>
      rw [around_update s actor side self called.networkRecvQueue] at member
      exact .inl member

/-! ### What holds of every run -/

/-- The facts that no loss, duplicate or delay disturbs. -/
structure Sound (s : System) : Prop where
  coherent : ∀ side, Coherent (s.endpoint side)
  roles : ∀ side, (s.endpoint side).isActive = decide (side = .client)
  fin : ∀ side, ∀ segment ∈ s.around side, segment.IsFin → (s.endpoint side).ctx.FinSent
  received : ∀ side, (s.endpoint side).ctx.FinReceived → (s.endpoint side.peer).ctx.FinSent
  listening : (s.endpoint .server).ctx.connectionState = .listen →
    s.around .server = [] ∧ (s.endpoint .client).ctx.Opening

namespace Sound

variable {isReliable : Bool}

/-- A passive end sends its FIN only after it has received one. -/
theorem finReceived_of_passive {e : Endpoint} (coherent : Coherent e) (passive : e.isActive = false)
    (finSent : e.ctx.FinSent) : e.ctx.FinReceived := by
  have role := coherent.role
  rw [passive] at role
  unfold Context.FinSent at finSent
  unfold Context.InRole at role
  unfold Context.FinReceived
  cases state : e.ctx.connectionState <;> simp_all

theorem init : Sound System.init where
  coherent := fun side => Coherent.init _
  roles := fun side => rfl
  fin := by
    intro side segment member
    simp [System.around, System.init, Endpoint.init, MysockContext.init] at member
  received := by
    intro side received
    cases side <;> simp [System.init, Endpoint.init, Context.init, Context.FinReceived] at received
  listening := fun _ => ⟨rfl, by simp [System.init, Endpoint.init, Context.init, Context.Opening]⟩

variable {s t : System} {action : Action} {side : Side} {taken : Option Segment}

theorem passive (sound : Sound s) : (s.endpoint .server).isActive = false := sound.roles .server

/-- The peer of an end that receives a FIN has sent it after its own handshake. -/
private theorem finSent_of_taken (sound : Sound s)
    (known : ∀ packet, taken = some packet → packet ∈ s.around side.peer) {packet : Segment}
    (isTaken : taken = some packet) (isFin : packet.IsFin) :
    (s.endpoint side.peer).ctx.FinSent :=
  sound.fin side.peer packet (known packet isTaken) isFin

/-- The server has sent a FIN only if the client has. -/
private theorem client_finSent (sound : Sound s) (sent : (s.endpoint .server).ctx.FinSent) :
    (s.endpoint .client).ctx.FinSent :=
  sound.received .server (finReceived_of_passive (sound.coherent .server) sound.passive sent)

private theorem coherent_thread (sound : Sound s)
    (moved : ThreadStep (s.endpoint side) taken (s.sends side action) (t.endpoint side))
    (known : ∀ packet, taken = some packet → packet ∈ s.around side.peer) :
    Coherent (t.endpoint side) := by
  refine (sound.coherent side).threadStep moved ?_
  intro packet isTaken isFin isActive running
  cases side with
  | client => exact sound.client_finSent (sound.finSent_of_taken known isTaken isFin)
  | server =>
      rw [sound.passive] at isActive
      cases isActive

/-- No FIN is echoed in the handshake. -/
private theorem fin_thread (sound : Sound s)
    (moved : ThreadStep (s.endpoint side) taken (s.sends side action) (t.endpoint side))
    (known : ∀ packet, taken = some packet → packet ∈ s.around side.peer) {segment : Segment}
    (isSent : s.sends side action = some segment) (isFin : segment.IsFin) :
    (t.endpoint side).ctx.FinSent := by
  rcases moved.sent_fin isSent isFin with sent | ⟨packet, isTaken, packetFin, state⟩
  · exact sent
  · exfalso
    have peerSent := sound.finSent_of_taken known isTaken packetFin
    cases side with
    | client =>
        have sent := sound.client_finSent peerSent
        refine sent.not_opening ?_
        rcases state with state | state <;> simp [Context.Opening, state]
    | server =>
        rcases state with state | state
        · exact peerSent.not_opening (sound.listening state).2
        · have role := (sound.coherent .server).role
          simp [sound.passive, state, Context.InRole] at role

private theorem listening_thread (sound : Sound s)
    (stepped : System.step isReliable s action = some t)
    (moved : ThreadStep (s.endpoint side) taken (s.sends side action) (t.endpoint side))
    (known : ∀ packet, taken = some packet → packet ∈ s.around side.peer)
    (watches : t.endpoint side.peer = s.endpoint side.peer) (silent : s.sends side.peer action = none)
    (state : (t.endpoint .server).ctx.connectionState = .listen) :
    t.around .server = [] ∧ (t.endpoint .client).ctx.Opening := by
  have silence : s.around .server = [] → s.sends .server action = none → t.around .server = [] := by
    intro empty idle
    refine List.eq_nil_iff_forall_not_mem.mpr fun segment member => ?_
    rcases around_step stepped segment member with earlier | now
    · rw [empty] at earlier
      cases earlier
    · rw [idle] at now
      cases now
  cases side with
  | server =>
      have watches : t.endpoint .client = s.endpoint .client := watches
      rw [watches]
      have opening : (s.endpoint .server).ctx.Opening := by
        by_contra running
        exact (sound.coherent .server).stays_open running moved (Context.opening_of_listen state)
      have step := (sound.coherent .server).opening_step opening moved
      generalize s.sends .server action = sent at step silence
      generalize (t.endpoint .server).ctx = ctx' at step state
      cases step with
      | sendSyn => cases state
      | connect => cases state
      | accept => cases state
      | accepted => cases state
      | overread =>
          obtain ⟨empty, clientOpening⟩ := sound.listening state
          exact ⟨silence empty rfl, clientOpening⟩
  | client =>
      have watches : t.endpoint .server = s.endpoint .server := watches
      rw [watches] at state
      obtain ⟨empty, clientOpening⟩ := sound.listening state
      have nothing : ∀ packet, taken ≠ some packet := by
        intro packet isTaken
        have member := known packet isTaken
        rw [show s.around Side.client.peer = [] from empty] at member
        cases member
      refine ⟨silence empty silent, ?_⟩
      have step := (sound.coherent .client).opening_step clientOpening moved
      generalize s.sends .client action = sent at step
      generalize (t.endpoint .client).ctx = ctx' at step
      cases step with
      | sendSyn => exact Context.opening_of_synSent rfl
      | connect => exact absurd rfl (nothing _)
      | accept => exact absurd rfl (nothing _)
      | accepted => exact absurd rfl (nothing _)
      | overread => exact clientOpening

theorem step (sound : Sound s) (stepped : System.step isReliable s action = some t) : Sound t := by
  have around : ∀ side, ∀ segment ∈ t.around side, segment ∈ s.around side ∨
    s.sends side action = some segment := fun side => around_step stepped
  rcases step_cases stepped with
    ⟨actor, rand, overread, taken, acts, moved, known, watches, silent⟩ | idle
  · have finSent : ∀ side, (s.endpoint side).ctx.FinSent → (t.endpoint side).ctx.FinSent := by
      intro side sent
      rcases Side.eq_or_eq_peer actor side with rfl | rfl
      · exact (sound.coherent side).finSent_mono moved sent
      · rwa [watches]
    refine ⟨fun side => ?_, fun side => ?_, fun side segment member isFin => ?_,
      fun side received => ?_, sound.listening_thread stepped moved known watches silent⟩
    · rcases Side.eq_or_eq_peer actor side with rfl | rfl
      · exact sound.coherent_thread moved known
      · rw [watches]
        exact sound.coherent _
    · rcases Side.eq_or_eq_peer actor side with rfl | rfl
      · exact moved.isActive.trans (sound.roles side)
      · rw [watches]
        exact sound.roles _
    · rcases around side segment member with earlier | now
      · exact finSent side (sound.fin side segment earlier isFin)
      · rcases Side.eq_or_eq_peer actor side with rfl | rfl
        · exact sound.fin_thread moved known now isFin
        · rw [silent] at now
          cases now
    · refine finSent _ ?_
      rcases Side.eq_or_eq_peer actor side with rfl | rfl
      · rcases moved.finReceived received with before | ⟨packet, isTaken, isFin⟩
        · exact sound.received side before
        · exact sound.finSent_of_taken known isTaken isFin
      · rw [watches] at received
        exact sound.received _ received
  · have earlier : ∀ side, ∀ segment ∈ t.around side, segment ∈ s.around side := by
      intro side segment member
      rcases around side segment member with earlier | now
      · exact earlier
      · rw [(idle side).1] at now
        cases now
    have same := fun side => (idle side).2.ctx
    refine ⟨fun side => (idle side).2.coherent (sound.coherent side),
      fun side => (idle side).2.isActive.trans (sound.roles side),
      fun side segment member isFin => ?_, fun side received => ?_, fun state => ?_⟩
    · rw [same side]
      exact sound.fin side segment (earlier side segment member) isFin
    · rw [same side] at received
      rw [same side.peer]
      exact sound.received side received
    · rw [same .server] at state
      rw [same .client]
      obtain ⟨empty, opening⟩ := sound.listening state
      refine ⟨List.eq_nil_iff_forall_not_mem.mpr fun segment member => ?_, opening⟩
      have member := earlier .server segment member
      rw [empty] at member
      cases member

theorem of_run {guard : System → Action → Prop} {labels : List Action}
    (run : Run (System.step isReliable) guard System.init labels s) : Sound s :=
  run.invariant init fun sound _ stepped => sound.step stepped

end Sound

end EE323.Stcp

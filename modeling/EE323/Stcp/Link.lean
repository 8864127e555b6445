/-
Module: EE323.Stcp.Link
Purpose: A reliable connection seen from one of its ends: the two endpoints and the segments in
  flight each way.  Every action of the system is a step of one link, so an invariant of a link is
  shown for the end that moves and for the end that watches.
Main exports: AppStep, EndpointStep, SystemStep, endpoint_invariant, Link, LinkStep, step_link,
  links_preserved
-/
import EE323.Stcp.System
import EE323.Stcp.ThreadStep

namespace EE323.Stcp

open EE323.Lib

/-! ### One endpoint, over either network -/

/-- One call of the application of a side. -/
inductive AppStep (e : Endpoint) (side : Side) : Action → Endpoint → Prop where
  | write {data : List Byte} (running : e.AppRunning) :
      AppStep e side (.write side data) (e.appWrite data)
  | read {bufLen : Nat} {e' : Endpoint} (running : e.AppRunning)
      (returned : e.appRead bufLen = some e') :
      AppStep e side (.read side bufLen) e'
  | close (running : e.AppRunning) : AppStep e side (.close side) e.appClose

/-- What `myread` does: nothing after the end of the stream, else it takes from the queue of data
passed up. -/
theorem appRead_cases {e e' : Endpoint} {bufLen : Nat} (returned : e.appRead bufLen = some e') :
    e.sock.eof = true ∧ e' = e ∨
      e.sock.eof = false ∧ ∃ data left,
        mysockDequeueBuffer e.sock.appSendQueue bufLen = some (data, left) ∧
        e' =
          { e with
            sock := { e.sock with appSendQueue := left, eof := data.isEmpty }
            history := { e.history with returned := e.history.returned ++ data } } := by
  simp only [Endpoint.appRead, myread, Option.map_eq_some_iff] at returned
  obtain ⟨⟨data, sock⟩, read, rfl⟩ := returned
  split at read
  · rename_i ended
    cases read
    exact .inl ⟨ended, by simp⟩
  · rename_i unended
    cases dequeued : mysockDequeueBuffer e.sock.appSendQueue bufLen with
    | none => simp [dequeued] at read
    | some result =>
        rw [dequeued] at read
        cases read
        exact .inr ⟨by simpa using unended, _, _, rfl, rfl⟩

theorem AppStep.ctx {e e' : Endpoint} {side : Side} {action : Action}
    (called : AppStep e side action e') : e'.ctx = e.ctx := by
  cases called with
  | write => rfl
  | read _ returned => rcases appRead_cases returned with ⟨_, rfl⟩ | ⟨_, _, _, _, rfl⟩ <;> rfl
  | close => rfl

theorem AppStep.isActive {e e' : Endpoint} {side : Side} {action : Action}
    (called : AppStep e side action e') : e'.isActive = e.isActive := by
  cases called with
  | write => rfl
  | read _ returned => rcases appRead_cases returned with ⟨_, rfl⟩ | ⟨_, _, _, _, rfl⟩ <;> rfl
  | close => rfl

theorem AppStep.pc {e e' : Endpoint} {side : Side} {action : Action}
    (called : AppStep e side action e') : e'.pc = e.pc := by
  cases called with
  | write => rfl
  | read _ returned => rcases appRead_cases returned with ⟨_, rfl⟩ | ⟨_, _, _, _, rfl⟩ <;> rfl
  | close => rfl

theorem AppStep.networkRecvQueue {e e' : Endpoint} {side : Side} {action : Action}
    (called : AppStep e side action e') :
    e'.sock.networkRecvQueue = e.sock.networkRecvQueue := by
  cases called with
  | write => rfl
  | read _ returned => rcases appRead_cases returned with ⟨_, rfl⟩ | ⟨_, _, _, _, rfl⟩ <;> rfl
  | close => rfl

/-- What an action can do to the endpoint of a side. -/
inductive EndpointStep (side : Side) (e : Endpoint) : Action → Endpoint → Prop where
  | thread {rand : Nat} {overread : Bool} {taken sent : Option Segment} {e' : Endpoint}
      (moved : ThreadStep e taken sent e') : EndpointStep side e (.thread side rand overread) e'
  | receive (packet : Segment) : EndpointStep side e (.deliver side.peer) (e.receive packet)
  | app {action : Action} {e' : Endpoint} (called : AppStep e side action e') :
      EndpointStep side e action e'

theorem update_endpoint (s : System) (side other : Side) (e : Endpoint) :
    (s.update side e).endpoint other = if other = side then e else s.endpoint other := by
  simp [System.update, Function.update_apply]

theorem transmit_endpoint (isReliable : Bool) (rand : Nat) (s : System) (side other : Side)
    (result : Endpoint × Option Segment) :
    (s.transmit isReliable rand side result).endpoint other =
      if other = side then result.1 else s.endpoint other := by
  obtain ⟨e, sent⟩ := result
  cases sent <;> simp [System.transmit, System.update, Function.update_apply]

/-- What an action can do to the system. -/
inductive SystemStep (isReliable : Bool) (s : System) : Action → System → Prop where
  | thread {side : Side} {rand : Nat} {overread : Bool} {taken sent : Option Segment}
      {self : Endpoint} (stepped : (s.endpoint side).threadStep overread = some (self, sent))
      (moved : ThreadStep (s.endpoint side) taken sent self) :
      SystemStep isReliable s (.thread side rand overread)
        (s.transmit isReliable rand side (self, sent))
  | deliver {sender : Side} {packet : Segment} {rest : List Segment}
      (waiting : s.wire sender = packet :: rest) :
      SystemStep isReliable s (.deliver sender)
        { s.update sender.peer ((s.endpoint sender.peer).receive packet) with
          wire := Function.update s.wire sender rest }
  | app {side : Side} {action : Action} {self : Endpoint}
      (called : AppStep (s.endpoint side) side action self) :
      SystemStep isReliable s action (s.update side self)

theorem systemStep_of_step {isReliable : Bool} {s t : System} {action : Action}
    (stepped : System.step isReliable s action = some t) : SystemStep isReliable s action t := by
  cases action with
  | thread side rand overread =>
      simp only [System.step, Option.map_eq_some_iff] at stepped
      obtain ⟨⟨self, sent⟩, threadStepped, rfl⟩ := stepped
      obtain ⟨taken, moved⟩ := Endpoint.threadStep_sound threadStepped
      exact .thread threadStepped moved
  | deliver sender =>
      unfold System.step at stepped
      cases waiting : s.wire sender with
      | nil => simp [waiting] at stepped
      | cons packet rest =>
          simp only [waiting, Option.some.injEq] at stepped
          subst stepped
          exact .deliver waiting
  | write side data =>
      simp only [System.step, Option.ite_none_right_eq_some, Option.some.injEq] at stepped
      obtain ⟨running, rfl⟩ := stepped
      exact .app (.write running)
  | read side bufLen =>
      simp only [System.step, Option.ite_none_right_eq_some, Option.map_eq_some_iff] at stepped
      obtain ⟨running, self, returned, rfl⟩ := stepped
      exact .app (.read running returned)
  | close side =>
      simp only [System.step, Option.ite_none_right_eq_some, Option.some.injEq] at stepped
      obtain ⟨running, rfl⟩ := stepped
      exact .app (.close running)

/-- An action leaves an endpoint alone or moves it as its side acts. -/
theorem step_endpoint {isReliable : Bool} {s t : System} {action : Action}
    (stepped : System.step isReliable s action = some t) (side : Side) :
    t.endpoint side = s.endpoint side ∨
      EndpointStep side (s.endpoint side) action (t.endpoint side) := by
  cases systemStep_of_step stepped with
  | thread _ moved =>
      rw [transmit_endpoint]
      split
      · rename_i same
        subst same
        exact .inr (.thread moved)
      · exact .inl rfl
  | @deliver sender packet rest waiting =>
      rw [update_endpoint]
      split
      · rename_i same
        subst same
        refine .inr ?_
        have received : EndpointStep sender.peer (s.endpoint sender.peer) _ _ := .receive packet
        rwa [Side.peer_peer] at received
      · exact .inl rfl
  | app called =>
      rw [update_endpoint]
      split
      · rename_i same
        subst same
        exact .inr (.app called)
      · exact .inl rfl

/-- The invariant rule for a property of one endpoint, over either network. -/
theorem endpoint_invariant {isReliable : Bool} {guard : System → Action → Prop}
    {Inv : Endpoint → Prop} {side : Side} {labels : List Action} {s : System}
    (run : Run (System.step isReliable) guard System.init labels s)
    (initially : Inv (Endpoint.init (side = .client)))
    (preserved : ∀ {s action e'}, Inv (s.endpoint side) → guard s action →
      EndpointStep side (s.endpoint side) action e' → Inv e') :
    Inv (s.endpoint side) := by
  let Holds : System → Prop := fun u => Inv (u.endpoint side)
  have start : Holds System.init := initially
  refine run.invariant start ?_
  intro s action t before admitted stepped
  rcases step_endpoint stepped side with same | moved
  · simpa only [Holds, same] using before
  · exact preserved before admitted moved

/-! ### Both ends, over the reliable network -/

/-- A connection seen from one end, with the segments this end has sent and the segments it has not
taken yet. -/
structure Link where
  self : Endpoint
  peer : Endpoint
  out : List Segment
  inc : List Segment

namespace Link

/-- The same connection seen from the other end. -/
def swap (link : Link) : Link :=
  { self := link.peer
    peer := link.self
    out := link.inc
    inc := link.out }

@[simp] theorem swap_swap (link : Link) : link.swap.swap = link := rfl

end Link

namespace System

/-- The connection as one side sees it. -/
def link (s : System) (side : Side) : Link :=
  { self := s.endpoint side
    peer := s.endpoint side.peer
    out := s.inFlight side
    inc := s.inFlight side.peer }

theorem link_peer (s : System) (side : Side) : s.link side.peer = (s.link side).swap := by
  simp [link, Link.swap]

end System

/-- What an action of a side does to the connection as that side sees it. -/
inductive LinkStep (side : Side) (link : Link) : Action → Link → Prop where
  | thread {rand : Nat} {overread : Bool} {taken sent : Option Segment} {self : Endpoint}
      {inc : List Segment} (moved : ThreadStep link.self taken sent self)
      (incoming : link.inc = taken.toList ++ inc) :
      LinkStep side link (.thread side rand overread)
        { self := self, peer := link.peer, out := link.out ++ sent.toList, inc := inc }
  | receive (packet : Segment) :
      LinkStep side link (.deliver side.peer) { link with self := link.self.receive packet }
  | app {action : Action} {self : Endpoint} (called : AppStep link.self side action self) :
      LinkStep side link action { link with self := self }

/-- The other end only watches. -/
theorem LinkStep.peer_eq {side : Side} {link link' : Link} {action : Action}
    (moved : LinkStep side link action link') : link'.peer = link.peer := by
  cases moved <;> rfl

/-- The step of a link that a step of the transport thread makes. -/
theorem LinkStep.of_thread {side : Side} {link link' : Link} {rand : Nat} {overread : Bool}
    (moved : LinkStep side link (.thread side rand overread) link') :
    ∃ taken sent, ThreadStep link.self taken sent link'.self ∧
      link.inc = taken.toList ++ link'.inc ∧ link'.out = link.out ++ sent.toList := by
  cases moved with
  | thread moved incoming => exact ⟨_, _, moved, incoming, rfl⟩
  | app called => cases called

private theorem link_update (s : System) (side : Side) (e : Endpoint)
    (sameQueue : e.sock.networkRecvQueue = (s.endpoint side).sock.networkRecvQueue) :
    (s.update side e).link side = { s.link side with self := e } := by
  simp [System.link, System.update, System.inFlight, sameQueue]

/-- The connection after a step of a transport thread over the reliable network. -/
theorem transmit_link (s : System) (side : Side) (rand : Nat) (self : Endpoint)
    (sent : Option Segment) :
    (s.transmit true rand side (self, sent)).link side =
      { self := self
        peer := s.endpoint side.peer
        out := s.inFlight side ++ sent.toList
        inc := self.sock.networkRecvQueue ++ s.wire side.peer } := by
  cases sent with
  | none => simp [System.link, System.transmit, System.update, System.inFlight]
  | some packet => simp [System.link, System.transmit, System.inFlight, List.append_assoc]

/-- The segments that an end has not taken yet, before and after its thread takes one. -/
theorem ThreadStep.incoming {s : System} {side : Side} {self : Endpoint}
    {taken sent : Option Segment} (moved : ThreadStep (s.endpoint side) taken sent self) :
    (s.link side).inc = taken.toList ++ (self.sock.networkRecvQueue ++ s.wire side.peer) := by
  show s.inFlight side.peer = _
  rw [System.inFlight, Side.peer_peer, moved.queue, List.append_assoc]

theorem step_link_thread {s t : System} {side : Side} {rand : Nat} {overread : Bool}
    (stepped : System.step true s (.thread side rand overread) = some t) :
    LinkStep side (s.link side) (.thread side rand overread) (t.link side) := by
  simp only [System.step, Option.map_eq_some_iff] at stepped
  obtain ⟨⟨self, sent⟩, threadStepped, rfl⟩ := stepped
  obtain ⟨taken, moved⟩ := Endpoint.threadStep_sound threadStepped
  rw [transmit_link]
  exact .thread moved moved.incoming

/-- Every action over the reliable network is a step of the link of the side that acts. -/
theorem step_link {s t : System} {action : Action}
    (stepped : System.step true s action = some t) :
    ∃ side, LinkStep side (s.link side) action (t.link side) := by
  cases systemStep_of_step stepped with
  | thread => exact ⟨_, step_link_thread stepped⟩
  | @deliver sender packet rest waiting =>
      refine ⟨sender.peer, ?_⟩
      have step : LinkStep sender.peer (s.link sender.peer) _ _ := .receive packet
      simpa [System.link, System.update, System.inFlight, Endpoint.receive, waiting] using step
  | @app side action self called =>
      refine ⟨side, ?_⟩
      rw [link_update s side self called.networkRecvQueue]
      exact .app called

/-- An invariant of links survives an action when it survives for the end that moves and for the
end that watches. -/
theorem links_preserved {Inv : Link → Prop} {s t : System} {action : Action}
    (before : ∀ side, Inv (s.link side)) (stepped : System.step true s action = some t)
    (preserved : ∀ {side link}, Inv (s.link side) → Inv (s.link side).swap →
      LinkStep side (s.link side) action link → Inv link ∧ Inv link.swap) (side : Side) :
    Inv (t.link side) := by
  obtain ⟨actor, moved⟩ := step_link stepped
  have watching : Inv (s.link actor).swap := by
    rw [← System.link_peer]
    exact before actor.peer
  have after := preserved (before actor) watching moved
  rcases Side.eq_or_eq_peer actor side with same | other
  · rw [same]
    exact after.1
  · rw [other, System.link_peer]
    exact after.2

end EE323.Stcp

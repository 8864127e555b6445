/-
Module: EE323.Stcp.DemuxEffect
Purpose: What each call on the descriptor table and the queues of connection requests does where it
  returns, and when it has to wait or fails an assertion.  Every effect keeps contexts and queues
  sound, and those that wait with what they wait for.
Main exports: Waits, Breaks, View, Effect, Effect.sound, Parked, Effect.parked, Effect.unwaited,
  Effect.unbroken
-/
import EE323.Stcp.DemuxSound

namespace EE323.Stcp.Demux

open EE323.Lib
open Framing (MAX_IP_PAYLOAD_LEN)

/-! ### Calls that do not return -/

/-- A thread of the mysocket that `myclose` waits for: the transport thread until it returns, and
the receive thread while it reads a packet. -/
def Context.Busy (ctx : Context) : Prop :=
  (ctx.transportThreadStarted = true ∧ ctx.transportReturned = false) ∨ ctx.receiver = .reading

instance (ctx : Context) : Decidable ctx.Busy := inferInstanceAs (Decidable (_ ∨ _))

/-- `listen_lock` can be had for writing. -/
def State.Unlocked (s : State) : Prop := s.accepting = [] ∧ s.closing = none

/-- A transport thread releases its application. -/
inductive Releases (sd : Int) : Action → Prop where
  | unblock (errno : Nat) : Releases sd (.unblock sd errno)
  | finish (errno : Nat) : Releases sd (.finish sd errno)

/-- The calls that have to wait before they begin.  A `myaccept` that waits holds the lock that
`mylisten` needs, and `myclose` of a listening mysocket; a `myclose` that waits for a queued
connection holds it against every call that looks at a queue.  And a `myclose` waits for the threads
of its mysocket. -/
inductive Waits (s : State) : Action → Prop where
  | listen {sd : Int} {backlog localPort : Nat} {listens : Bool} (held : ¬s.Unlocked) :
      Waits s (.mylisten sd backlog localPort listens)
  | dispatch {sd : Int} {packet : List Byte} {socket : Int} {ctx : Context}
      (found : s.globalCtx sd = some ctx) (listens : ctx.listening = true) (isPacket : packet ≠ [])
      (fits : packet.length ≤ MAX_IP_PAYLOAD_LEN) (held : s.closing ≠ none) :
      Waits s (.receive sd (some packet) socket)
  | release {sd : Int} {action : Action} {ctx : Context} (releases : Releases sd action)
      (found : s.globalCtx sd = some ctx) (blocking : ctx.blocking = true)
      (held : s.closing ≠ none) : Waits s action
  | accept {sd : Int} {ctx : Context} (found : s.globalCtx sd = some ctx)
      (listens : ctx.listening = true) (held : s.closing ≠ none) : Waits s (.myaccept sd)
  | close {sd : Int} {ctx : Context} (found : s.globalCtx sd = some ctx) (busy : ctx.Busy) :
      Waits s (.myclose sd)
  | closeListening {sd : Int} {ctx : Context} (found : s.globalCtx sd = some ctx)
      (listens : ctx.listening = true) (held : ¬s.Unlocked) : Waits s (.myclose sd)

/-- The calls that fail an assertion: a receive thread accepts a connection while it still holds one
that no context took, or gets a packet that is longer than its buffer. -/
inductive Breaks (s : State) : Action → Prop where
  | arrival {sd connection : Int} {peer : SockAddr} {ctx : Context}
      (found : s.globalCtx sd = some ctx) (listens : ctx.listening = true)
      (isConnection : 0 ≤ connection) (held : ctx.newSocket ≠ -1) :
      Breaks s (.poll sd connection peer)
  | packet {sd : Int} {packet : List Byte} {socket : Int}
      (tooLong : MAX_IP_PAYLOAD_LEN < packet.length) :
      Breaks s (.receive sd (some packet) socket)

/-- How a call fails. -/
inductive Stops (s : State) (action : Action) : Fault → Prop where
  | waits (waits : Waits s action) : Stops s action .blocks
  | breaks (breaks : Breaks s action) : Stops s action .assertion

/-! ### Calls that return -/

/-- What a call acts on.  The queue of a mysocket that is being closed has the requests that are
left to close. -/
structure View where
  contexts : Contexts
  queues : Queues
  accepting : List Int
  closing : Option Closing

def State.view (s : State) (queues : Queues) : View :=
  ⟨s.globalCtx, queues, s.accepting, s.closing⟩

/-- A `myaccept` looks at the completed queue, for the first time or after a wait. -/
inductive Enters (v : View) (sd : Int) : Action → List Int → Prop where
  | call (free : v.closing = none) : Enters v sd (.myaccept sd) v.accepting
  | again (waits : sd ∈ v.accepting) : Enters v sd (.resume sd) (v.accepting.erase sd)

/-- The `myclose` of a listening mysocket comes to its loop, for the first time or after a wait:
with its context, its queue, and what it has to close. -/
inductive Closes (v : View) : Action → Context → ListenQueue → Closing → Prop where
  | call {sd : Int} {ctx : Context} {q : ListenQueue} (free : v.accepting = [] ∧ v.closing = none)
      (found : v.contexts sd = some ctx) (idle : ¬ctx.Busy) (hasQueue : v.queues sd = some q) :
      Closes v (.myclose sd) ctx q ⟨sd, q, List.range q.maxLen⟩
  | again {ctx : Context} {c : Closing} (closing : v.closing = some c)
      (found : v.contexts c.listener = some ctx) :
      Closes v .goOn ctx (remaining c.queue c.entries) c

/-- What a call does, next to what it returns: the connection that `myaccept` took, and whether a
connection request was queued. -/
inductive Effect (v : View) : Action → Option Context → Bool → View → Prop where
  | tableFull (isReliable : Bool) (socket : Int) :
      Effect v (.mysocket isReliable socket) none false v
  | allocated (isReliable : Bool) (socket : Int) {sd : Int} {ctx : Context} (nonnegative : 0 ≤ sd)
      (below : sd < MAX_NUM_CONNECTIONS) (free : v.contexts sd = none) (mine : ctx.mySd = sd)
      (idle : ctx.listening = false ∧ ctx.transportThreadStarted = false)
      (received : ReceiverSound ctx) (noConnection : ctx.newSocket = -1) :
      Effect v (.mysocket isReliable socket) none false
        { v with contexts := Function.update v.contexts sd (some ctx) }
  | bound {sd : Int} {ctx : Context} (found : v.contexts sd = some ctx) :
      Effect v (.mybind sd) none false
        { v with contexts := Function.update v.contexts sd (some { ctx with bound := true }) }
  | listening {sd : Int} {ctx : Context} {q : ListenQueue} {receiver : Receiver}
      (backlog localPort : Nat) (listens : Bool) (free : v.accepting = [] ∧ v.closing = none)
      (found : v.contexts sd = some ctx) (isBound : ctx.bound = true)
      (silent : ctx.listening = false) (unstarted : ctx.transportThreadStarted = false)
      (notReading : receiver ≠ .reading)
      (empty : ∀ k < q.maxLen, q.connectionQueue k = ConnectRequest.invalid)
      (noneYet : q.curLen = 0) (noneCompleted : q.completedQueue = []) :
      Effect v (.mylisten sd backlog localPort listens) none false
        { v with
          contexts := Function.update v.contexts sd
            (some { ctx with listening := true, receiver := receiver })
          queues := Function.update v.queues sd (some q) }
  | acceptFailed {sd connection : Int} {ctx : Context} (peer : SockAddr)
      (found : v.contexts sd = some ctx) (listens : ctx.listening = true)
      (polls : ctx.receiver = .polling) (failed : connection < 0) :
      Effect v (.poll sd connection peer) none false
        { v with
          contexts := Function.update v.contexts sd
            (some { ctx with peerAddrLen := sockaddrSize, receiver := .ended }) }
  | arrived {sd connection : Int} {peer : SockAddr} {ctx : Context}
      (found : v.contexts sd = some ctx) (listens : ctx.listening = true)
      (polls : ctx.receiver = .polling) (isConnection : 0 ≤ connection)
      (cleared : ctx.newSocket = -1) (isPeer : IsPeer peer) :
      Effect v (.poll sd connection peer) none false
        { v with
          contexts := Function.update v.contexts sd (some { ctx with
            newSocket := connection
            peerAddr := peer
            peerAddrLen := sockaddrSize
            receiver := .reading }) }
  | readable {sd : Int} {ctx : Context} (connection : Int) (peer : SockAddr)
      (found : v.contexts sd = some ctx) (silent : ctx.listening = false)
      (polls : ctx.receiver = .polling) :
      Effect v (.poll sd connection peer) none false
        { v with
          contexts := Function.update v.contexts sd (some { ctx with receiver := .reading }) }
  | ended {sd : Int} {ctx : Context} {packet : Option (List Byte)} (socket : Int)
      (found : v.contexts sd = some ctx) (reads : ctx.receiver = .reading)
      (noPacket : packet.getD [] = []) :
      Effect v (.receive sd packet socket) none false
        { v with contexts := Function.update v.contexts sd (some { ctx with receiver := .ended }) }
  | dropped {sd : Int} {ctx : Context} {packet : Option (List Byte)} (socket : Int)
      (free : v.closing = none) (found : v.contexts sd = some ctx) (listens : ctx.listening = true)
      (reads : ctx.receiver = .reading) (fits : (packet.getD []).length ≤ MAX_IP_PAYLOAD_LEN) :
      Effect v (.receive sd packet socket) none false
        { v with
          contexts := Function.update v.contexts sd (some { ctx with receiver := .polling }) }
  | queued {listener sd : Int} {ctx child : Context} {q : ListenQueue} {k : Nat}
      {packet : Option (List Byte)} (socket : Int) (free : v.closing = none)
      (found : v.contexts listener = some ctx) (listens : ctx.listening = true)
      (reads : ctx.receiver = .reading) (fits : (packet.getD []).length ≤ MAX_IP_PAYLOAD_LEN)
      (hasQueue : v.queues listener = some q) (inside : k < q.maxLen) (empty : k ∉ q.used)
      (nonnegative : 0 ≤ sd) (below : sd < MAX_NUM_CONNECTIONS) (absent : v.contexts sd = none)
      (freshPeer : ∀ i ∈ q.used, (q.connectionQueue i).peerAddr ≠ ctx.peerAddr)
      (mine : child.mySd = sd) (blocking : child.blocking = true)
      (serves : Serves listener ⟨ctx.peerAddr, sockaddrSize, sd⟩ child)
      (received : ReceiverSound child) (carries : child.socket = ctx.newSocket)
      (noConnection : child.newSocket = -1) (holds : child.networkRecvQueue = [packet.getD []]) :
      Effect v (.receive listener packet socket) none true
        { v with
          contexts := Function.update (Function.update v.contexts listener
            (some { ctx with newSocket := -1, receiver := .polling })) sd (some child)
          queues := Function.update v.queues listener
            (some (addRequest q k ⟨ctx.peerAddr, sockaddrSize, sd⟩)) }
  | enqueued {sd : Int} {ctx : Context} {packet : Option (List Byte)} (socket : Int)
      (found : v.contexts sd = some ctx) (silent : ctx.listening = false)
      (reads : ctx.receiver = .reading) (fits : (packet.getD []).length ≤ MAX_IP_PAYLOAD_LEN) :
      Effect v (.receive sd packet socket) none false
        { v with
          contexts := Function.update v.contexts sd (some { ctx with
            receiver := .polling
            networkRecvQueue := mysockEnqueueBuffer ctx.networkRecvQueue (packet.getD []) }) }
  | completed {sd : Int} {ctx : Context} {q : ListenQueue} {k errno : Nat} {returned : Bool}
      {action : Action} (free : v.closing = none) (releases : Releases sd action)
      (found : v.contexts sd = some ctx) (blocking : ctx.blocking = true)
      (hasQueue : v.queues ctx.listenSd = some q) (isUsed : k ∈ q.used)
      (mine : (q.connectionQueue k).sd = sd) :
      Effect v action none false
        { v with
          contexts := Function.update v.contexts sd (some (ctx.released errno returned))
          queues := Function.update v.queues ctx.listenSd (some (addCompleted q k)) }
  | finished {sd : Int} {ctx : Context} (errno : Nat) (found : v.contexts sd = some ctx)
      (isReleased : ctx.blocking = false) :
      Effect v (.finish sd errno) none false
        { v with
          contexts := Function.update v.contexts sd (some { ctx with transportReturned := true }) }
  | notListening {sd : Int} {ctx : Context} (found : v.contexts sd = some ctx)
      (silent : ctx.listening = false) : Effect v (.myaccept sd) none false v
  | waiting {sd : Int} {q : ListenQueue} {action : Action} {before : List Int}
      (enters : Enters v sd action before) (hasQueue : v.queues sd = some q)
      (noneCompleted : q.completedQueue = []) :
      Effect v action none false { v with accepting := sd :: before }
  | accepted {sd : Int} {ctx : Context} {q : ListenQueue} {pointer : Pointer} {rest : List Pointer}
      {action : Action} {before : List Int} (enters : Enters v sd action before)
      (hasQueue : v.queues sd = some q) (first : q.completedQueue = pointer :: rest)
      (found : v.contexts (q.connectionQueue pointer.index).sd = some ctx) :
      Effect v action (some ctx) false
        { v with
          queues := Function.update v.queues sd (some (takeRequest q pointer rest))
          accepting := before }
  | closed {sd : Int} {ctx : Context} (found : v.contexts sd = some ctx)
      (silent : ctx.listening = false) (idle : ¬ctx.Busy) (noQueue : v.queues sd = none)
      (unqueued : Unqueued v.queues sd) :
      Effect v (.myclose sd) none false { v with contexts := Function.update v.contexts sd none }
  | closeWaits {ctx child : Context} {q : ListenQueue} {c : Closing} {action : Action} {k : Nat}
      {closed rest : List Nat} (closes : Closes v action ctx q c)
      (split : c.entries = closed ++ k :: rest) (isUsed : k ∈ q.used)
      (found : v.contexts (q.connectionQueue k).sd = some child) (busy : child.Busy)
      (idle : ∀ i ∈ closed, i ∈ q.used → ∀ child,
        v.contexts (q.connectionQueue i).sd = some child → ¬child.Busy) :
      Effect v action none false
        { v with
          contexts := withoutEntries
            (Function.update v.contexts c.listener (some { ctx with receiver := .ended })) q closed
          queues := Function.update v.queues c.listener (some (remaining q (k :: rest)))
          closing := some { c with entries := k :: rest } }
  | closedPassive {ctx : Context} {q : ListenQueue} {c : Closing} {action : Action}
      (closes : Closes v action ctx q c)
      (idle : ∀ k ∈ c.entries, k ∈ q.used → ∀ child,
        v.contexts (q.connectionQueue k).sd = some child → ¬child.Busy) :
      Effect v action none false
        { v with
          contexts := Function.update (withoutEntries
            (Function.update v.contexts c.listener (some { ctx with receiver := .ended })) q
            c.entries) c.listener none
          queues := Function.update v.queues c.listener none
          closing := none }

section Effects

variable {v v' : View} {action : Action} {taken : Option Context} {isQueued : Bool}

/-! ### Those that wait -/

/-- A `myclose` waits alone, its listening mysocket has no receive thread any more, and what is left
of its queue are the requests that it has to close. -/
structure ClosingSound (v : View) (c : Closing) : Prop where
  alone : v.accepting = []
  ended : ∃ ctx, v.contexts c.listener = some ctx ∧ ctx.receiver = .ended
  hasQueue : v.queues c.listener = some (remaining c.queue c.entries)
  nodup : c.entries.Nodup
  inside : ∀ k ∈ c.entries, k < c.queue.maxLen

/-- Every call that waits has what it waits at. -/
structure Parked (v : View) : Prop where
  accepts : ∀ sd ∈ v.accepting, (v.queues sd).isSome
  closes : ∀ c, v.closing = some c → ClosingSound v c

/-- While a `myaccept` waits, no `myclose` does. -/
theorem Parked.unlocked (parked : Parked v) {sd : Int} (waits : sd ∈ v.accepting) :
    v.closing = none := by
  cases holds : v.closing with
  | none => rfl
  | some c =>
      rw [(parked.closes c holds).alone] at waits
      exact absurd waits List.not_mem_nil

theorem Enters.unlocked (parked : Parked v) {sd : Int} {before : List Int}
    (enters : Enters v sd action before) : v.closing = none := by
  cases enters with
  | call free => exact free
  | again waits => exact parked.unlocked waits

/-- What waits after a `myaccept` looked waited before. -/
theorem Enters.waited {sd other : Int} {before : List Int} (enters : Enters v sd action before)
    (waits : other ∈ before) : other ∈ v.accepting := by
  cases enters with
  | call => exact waits
  | again => exact List.mem_of_mem_erase waits

section Closes

variable {ctx : Context} {q : ListenQueue} {c : Closing}

theorem Closes.alone (closes : Closes v action ctx q c) (parked : Parked v) :
    v.accepting = [] := by
  cases closes with
  | call free => exact free.1
  | again closing => exact (parked.closes c closing).alone

theorem Closes.found (closes : Closes v action ctx q c) : v.contexts c.listener = some ctx := by
  cases closes with
  | call _ found => exact found
  | again _ found => exact found

theorem Closes.notReading (closes : Closes v action ctx q c) (parked : Parked v) :
    ctx.receiver ≠ .reading := by
  cases closes with
  | call _ _ idle => exact fun reads => idle (.inr reads)
  | again closing found =>
      obtain ⟨ctx', found', ended⟩ := (parked.closes c closing).ended
      cases found.symm.trans found'
      rw [ended]
      decide

theorem Closes.hasQueue (closes : Closes v action ctx q c) (parked : Parked v) :
    v.queues c.listener = some q := by
  cases closes with
  | call _ _ _ hasQueue => exact hasQueue
  | again closing => exact (parked.closes c closing).hasQueue

theorem Closes.covers (closes : Closes v action ctx q c) : ∀ k ∈ q.used, k ∈ c.entries := by
  intro k isUsed
  cases closes with
  | call => exact List.mem_range.mpr (ListenQueue.mem_used.mp isUsed).1
  | again =>
      rw [used_remaining, Finset.mem_filter] at isUsed
      exact isUsed.2

theorem Closes.nodup (closes : Closes v action ctx q c) (parked : Parked v) : c.entries.Nodup := by
  cases closes with
  | call => exact List.nodup_range
  | again closing => exact (parked.closes c closing).nodup

theorem Closes.inside (closes : Closes v action ctx q c) (parked : Parked v) :
    ∀ k ∈ c.entries, k < c.queue.maxLen := by
  cases closes with
  | call => exact fun k inRange => List.mem_range.mp inRange
  | again closing => exact (parked.closes c closing).inside

theorem Closes.maxLen (closes : Closes v action ctx q c) : q.maxLen = c.queue.maxLen := by
  cases closes <;> rfl

/-- What is left of the queue is what is left of that which `myclose` found. -/
theorem Closes.rest (closes : Closes v action ctx q c) {left : List Nat}
    (fewer : left ⊆ c.entries) : remaining q left = remaining c.queue left := by
  cases closes with
  | call => rfl
  | again => exact remaining_remaining c.queue fewer

/-- The entries that are left hold what they held. -/
theorem Closes.entry (closes : Closes v action ctx q c) {k : Nat} (inEntries : k ∈ c.entries) :
    q.connectionQueue k = c.queue.connectionQueue k := by
  cases closes with
  | call => rfl
  | again => exact connectionQueue_remaining c.queue inEntries

end Closes

/-! ### Contexts and queues stay sound -/

/-- A listening context whose receive thread goes on keeps its part. -/
theorem sameRole_receiver {ctx : Context} (newSocket : Int) (peerAddr : SockAddr)
    (peerAddrLen : Nat)
    (receiver : Receiver) (networkRecvQueue : List (List Byte))
    (samePeer : ctx.listening = false → peerAddr = ctx.peerAddr ∧ peerAddrLen = ctx.peerAddrLen) :
    SameRole ctx { ctx with
      newSocket := newSocket
      peerAddr := peerAddr
      peerAddrLen := peerAddrLen
      receiver := receiver
      networkRecvQueue := networkRecvQueue } :=
  ⟨rfl, rfl, id, rfl, rfl, rfl, rfl, samePeer⟩

/-- A receive thread that is in its loop runs for a listening or a connected mysocket. -/
theorem Sound.runs {contexts : Contexts} {queues : Queues} (sound : Sound contexts queues)
    {sd : Int} {ctx : Context} (found : contexts sd = some ctx) (running : ctx.receiver ≠ .ended) :
    ctx.listening = true ∨ ctx.transportThreadStarted = true :=
  (sound.receiver sd ctx found).running running

/-- A receive thread ends. -/
theorem Sound.endReceiver {contexts : Contexts} {queues : Queues} (sound : Sound contexts queues)
    {sd : Int} {ctx : Context} (found : contexts sd = some ctx) :
    Sound (Function.update contexts sd (some { ctx with receiver := .ended })) queues := by
  refine sound.touch found (sameRole_receiver ctx.newSocket ctx.peerAddr ctx.peerAddrLen .ended
    ctx.networkRecvQueue fun _ => ⟨rfl, rfl⟩) ⟨fun running => absurd rfl running, ?_⟩
  exact fun _ reads => by cases reads

/-- The loop of `_mysock_close_passive_socket`, as far as it comes. -/
theorem Closes.sound {ctx : Context} {q : ListenQueue} {c : Closing} {closed left : List Nat}
    (closes : Closes v action ctx q c) (parked : Parked v) (sound : Sound v.contexts v.queues)
    (split : c.entries = closed ++ left) :
    Sound (withoutEntries
        (Function.update v.contexts c.listener (some { ctx with receiver := .ended })) q closed)
      (Function.update v.queues c.listener (some (remaining q left))) := by
  have nodup := closes.nodup parked
  rw [split] at nodup
  refine (sound.endReceiver closes.found).closeRequests (closes.hasQueue parked) ?_ ?_ ?_
  · intro k isUsed
    have inEntries := closes.covers k isUsed
    rwa [split, List.mem_append] at inEntries
  · exact fun k inClosed inLeft => List.disjoint_of_nodup_append nodup inClosed inLeft
  · intro k inClosed
    rw [closes.maxLen]
    exact closes.inside parked k (split ▸ List.mem_append_left _ inClosed)

/-- Every effect keeps contexts and queues sound. -/
theorem Effect.sound (effect : Effect v action taken isQueued v') (parked : Parked v)
    (sound : Sound v.contexts v.queues) : Sound v'.contexts v'.queues := by
  have silentPeer : ∀ {ctx : Context} {peer : SockAddr} {len : Nat}, ctx.listening = true →
      ctx.listening = false → peer = ctx.peerAddr ∧ len = ctx.peerAddrLen := by
    intro ctx peer len listens silent
    rw [listens] at silent
    cases silent
  cases effect with
  | tableFull => exact sound
  | allocated _ _ nonnegative below free mine idle received _ =>
      exact sound.allocate nonnegative below free mine idle received
  | bound found =>
      have before := sound.receiver _ _ found
      exact sound.touch found ⟨rfl, rfl, fun _ => rfl, rfl, rfl, rfl, rfl, fun _ => ⟨rfl, rfl⟩⟩
        ⟨before.running, before.accepted⟩
  | listening _ _ _ _ found isBound silent unstarted notReading empty noneYet noneCompleted =>
      exact sound.listen found isBound silent unstarted notReading empty noneYet noneCompleted
  | @acceptFailed _ _ ctx _ found listens _ _ =>
      refine sound.touch found (sameRole_receiver ctx.newSocket ctx.peerAddr sockaddrSize .ended
        ctx.networkRecvQueue (silentPeer listens)) ⟨fun running => absurd rfl running, ?_⟩
      exact fun _ reads => by cases reads
  | @arrived _ connection peer ctx found listens _ isConnection _ isPeer =>
      refine sound.touch found (sameRole_receiver connection peer sockaddrSize .reading
        ctx.networkRecvQueue (silentPeer listens)) ⟨fun _ => .inl listens, fun _ _ => ?_⟩
      exact ⟨isPeer, rfl, isConnection⟩
  | @readable _ ctx _ _ found silent polls =>
      have runs := sound.runs found (by rw [polls]; decide)
      refine sound.touch found
        (sameRole_receiver ctx.newSocket ctx.peerAddr ctx.peerAddrLen .reading
        ctx.networkRecvQueue fun _ => ⟨rfl, rfl⟩) ⟨fun _ => runs, fun listens => ?_⟩
      rw [silent] at listens
      cases listens
  | ended _ found _ _ => exact sound.endReceiver found
  | @dropped _ ctx _ _ _ found listens _ _ =>
      refine sound.touch found
        (sameRole_receiver ctx.newSocket ctx.peerAddr ctx.peerAddrLen .polling
        ctx.networkRecvQueue fun _ => ⟨rfl, rfl⟩) ⟨fun _ => .inl listens, ?_⟩
      exact fun _ reads => by cases reads
  | @queued _ _ ctx _ _ _ _ _ _ found listens reads _ hasQueue inside empty nonnegative below absent
      freshPeer mine blocking serves received _ _ _ =>
      have isPeer := ((sound.receiver _ _ found).accepted listens reads).1
      refine (sound.touch found (sameRole_receiver (-1) ctx.peerAddr ctx.peerAddrLen .polling
        ctx.networkRecvQueue fun _ => ⟨rfl, rfl⟩) ⟨fun _ => .inl listens, ?_⟩).enqueue hasQueue
          inside empty nonnegative below ?_ isPeer freshPeer mine blocking serves received
      · exact fun _ reads => by cases reads
      · rw [Function.update_of_ne, absent]
        rintro rfl
        rw [found] at absent
        cases absent
  | @enqueued _ ctx packet _ found silent reads _ =>
      have runs := sound.runs found (by rw [reads]; decide)
      refine sound.touch found
        (sameRole_receiver ctx.newSocket ctx.peerAddr ctx.peerAddrLen .polling
        (mysockEnqueueBuffer ctx.networkRecvQueue (packet.getD [])) fun _ => ⟨rfl, rfl⟩)
        ⟨fun _ => runs, ?_⟩
      exact fun _ reads => by cases reads
  | completed _ _ found blocking hasQueue isUsed mine =>
      exact sound.complete found blocking hasQueue isUsed mine
  | finished _ found _ =>
      have before := sound.receiver _ _ found
      exact sound.touch found ⟨rfl, rfl, id, rfl, rfl, rfl, rfl, fun _ => ⟨rfl, rfl⟩⟩
        ⟨before.running, before.accepted⟩
  | notListening => exact sound
  | waiting => exact sound
  | accepted _ hasQueue first _ => exact sound.dequeue hasQueue first
  | closed _ _ _ noQueue unqueued => exact sound.remove noQueue unqueued
  | closeWaits closes split => exact closes.sound parked sound split
  | @closedPassive _ q c _ closes _ =>
      have emptied := closes.sound parked sound (List.append_nil c.entries).symm
      have removed := emptied.removeListener (Function.update_self ..) (by simp [used_remaining])
      rwa [Function.update_idem] at removed

/-! ### Those that wait stay sound -/

/-- A context changes, but a receive thread that has ended does not come back. -/
theorem Parked.touch (parked : Parked v) {sd : Int} {ctx' : Context}
    (stays : ∀ ctx, v.contexts sd = some ctx → ctx.receiver = .ended → ctx'.receiver = .ended) :
    Parked { v with contexts := Function.update v.contexts sd (some ctx') } := by
  refine ⟨parked.accepts, fun c closing => ?_⟩
  have before := parked.closes c closing
  refine { before with ended := ?_ }
  obtain ⟨ctx, found, ended⟩ := before.ended
  by_cases here : c.listener = sd
  · rw [here] at found ⊢
    exact ⟨ctx', Function.update_self .., stays ctx found ended⟩
  · exact ⟨ctx, (Function.update_of_ne here ..).trans found, ended⟩

theorem Parked.set (parked : Parked v) {sd : Int} {ctx ctx' : Context}
    (found : v.contexts sd = some ctx)
    (stays : ctx.receiver = .ended → ctx'.receiver = .ended) :
    Parked { v with contexts := Function.update v.contexts sd (some ctx') } := by
  refine parked.touch fun other found' ended => ?_
  cases found.symm.trans found'
  exact stays ended

/-- With nothing being closed, a call may write one of the queues. -/
theorem Parked.write (parked : Parked v) (free : v.closing = none) (contexts : Contexts) (sd : Int)
    (q : ListenQueue) {before : List Int} (waited : ∀ other ∈ before, other ∈ v.accepting) :
    Parked ⟨contexts, Function.update v.queues sd (some q), before, v.closing⟩ := by
  refine ⟨fun other waits => ?_, fun c closing => ?_⟩
  · by_cases here : other = sd
    · simp [here]
    · show (Function.update v.queues sd (some q) other).isSome
      rw [Function.update_of_ne here]
      exact parked.accepts other (waited other waits)
  · cases free.symm.trans closing

/-- Every effect leaves those that wait at what they wait for. -/
theorem Effect.parked (effect : Effect v action taken isQueued v') (parked : Parked v)
    (sound : Sound v.contexts v.queues) : Parked v' := by
  cases effect with
  | tableFull => exact parked
  | allocated _ _ _ _ free _ _ _ _ =>
      exact parked.touch fun ctx found => by rw [free] at found; cases found
  | bound found => exact parked.set found id
  | listening _ _ _ free => exact parked.write free.2 _ _ _ fun _ waits => waits
  | acceptFailed _ found => exact parked.set found fun _ => rfl
  | arrived found _ polls =>
      exact parked.set found fun ended => absurd (polls.symm.trans ended) (by decide)
  | readable _ _ found _ polls =>
      exact parked.set found fun ended => absurd (polls.symm.trans ended) (by decide)
  | ended _ found => exact parked.set found fun _ => rfl
  | dropped _ _ found _ reads =>
      exact parked.set found fun ended => absurd (reads.symm.trans ended) (by decide)
  | queued _ free => exact parked.write free _ _ _ fun _ waits => waits
  | enqueued _ found _ reads =>
      exact parked.set found fun ended => absurd (reads.symm.trans ended) (by decide)
  | completed free => exact parked.write free _ _ _ fun _ waits => waits
  | finished _ found => exact parked.set found id
  | notListening => exact parked
  | waiting enters hasQueue _ =>
      refine ⟨fun other waits => ?_, fun c closing => ?_⟩
      · rcases List.mem_cons.mp waits with rfl | waited
        · show (v.queues other).isSome
          rw [hasQueue]
          rfl
        · exact parked.accepts other (enters.waited waited)
      · cases (enters.unlocked parked).symm.trans closing
  | accepted enters => exact parked.write (enters.unlocked parked) _ _ _ fun _ => enters.waited
  | @closed sd _ _ _ _ noQueue _ =>
      refine ⟨parked.accepts, fun c closing => ?_⟩
      have before := parked.closes c closing
      refine { before with ended := ?_ }
      obtain ⟨ctx, found, ended⟩ := before.ended
      refine ⟨ctx, (Function.update_of_ne ?_ ..).trans found, ended⟩
      intro here
      rw [← here, before.hasQueue] at noQueue
      cases noQueue
  | @closeWaits ctx _ _ c _ k closed rest closes split =>
      have fewer : k :: rest ⊆ c.entries := split ▸ List.subset_append_right closed (k :: rest)
      refine ⟨fun other waits => ?_, fun c' closing => ?_⟩
      · have alone := closes.alone parked
        rw [show v.accepting = [] from alone] at waits
        exact absurd waits List.not_mem_nil
      · cases closing
        refine ⟨closes.alone parked, ⟨{ ctx with receiver := .ended }, ?_, rfl⟩, ?_, ?_, ?_⟩
        · refine (withoutEntries_of_ne fun k inClosed holds => ?_).trans (Function.update_self ..)
          obtain ⟨lctx, lfound, listens⟩ := sound.listener _ _ (closes.hasQueue parked)
          refine sound.notRequest (closes.hasQueue parked) lfound listens k ?_
          refine ListenQueue.mem_used.mpr ⟨?_, holds⟩
          rw [closes.maxLen]
          exact closes.inside parked k (split ▸ List.mem_append_left _ inClosed)
        · rw [closes.rest fewer]
          exact Function.update_self ..
        · exact (closes.nodup parked).sublist (split ▸ List.sublist_append_right closed (k :: rest))
        · exact fun k inLeft => closes.inside parked k (fewer inLeft)
  | closedPassive closes _ =>
      refine ⟨fun other waits => ?_, fun c' closing => by cases closing⟩
      have alone := closes.alone parked
      rw [show v.accepting = [] from alone] at waits
      exact absurd waits List.not_mem_nil

/-! ### What a call that returned says -/

section Returned

variable {s : State} {queues : Queues}

/-- A transport thread that has to wait to release its application waits for a `myclose`. -/
theorem Waits.closing_of_releases {sd : Int} (waits : Waits s action)
    (releases : Releases sd action) : s.closing ≠ none := by
  cases releases <;> cases waits with | release _ _ _ held => exact held

theorem Enters.unwaited {sd : Int} {before : List Int}
    (enters : Enters (s.view queues) sd action before) : ¬Waits s action := by
  intro waits
  cases enters with
  | call free =>
      cases waits with
      | accept _ _ held => exact held free
      | release releases => cases releases
  | again => cases waits with | release releases => cases releases

theorem Closes.unwaited {ctx : Context} {q : ListenQueue} {c : Closing}
    (closes : Closes (s.view queues) action ctx q c) : ¬Waits s action := by
  intro waits
  cases closes with
  | call free found idle _ =>
      cases waits with
      | close found' busy =>
          cases found.symm.trans found'
          exact idle busy
      | closeListening _ _ held => exact held free
      | release releases => cases releases
  | again => cases waits with | release releases => cases releases

/-- A call that returned had nothing to wait for. -/
theorem Effect.unwaited (effect : Effect (s.view queues) action taken isQueued v') :
    ¬Waits s action := by
  intro waits
  cases effect with
  | tableFull | allocated | bound | acceptFailed | arrived | readable =>
      cases waits with | release releases => cases releases
  | listening _ _ _ free =>
      cases waits with
      | listen held => exact held free
      | release releases => cases releases
  | ended _ _ _ noPacket =>
      cases waits with
      | dispatch _ _ isPacket => exact isPacket noPacket
      | release releases => cases releases
  | dropped _ free =>
      cases waits with
      | dispatch _ _ _ _ held => exact held free
      | release releases => cases releases
  | queued _ free =>
      cases waits with
      | dispatch _ _ _ _ held => exact held free
      | release releases => cases releases
  | enqueued _ found silent =>
      cases waits with
      | dispatch found' listens =>
          cases found.symm.trans found'
          exact absurd (silent.symm.trans listens) (by decide)
      | release releases => cases releases
  | completed free releases => exact waits.closing_of_releases releases free
  | finished _ found isReleased =>
      cases waits with
      | release releases found' blocking =>
          cases releases
          cases found.symm.trans found'
          exact absurd (isReleased.symm.trans blocking) (by decide)
  | notListening found silent =>
      cases waits with
      | accept found' listens =>
          cases found.symm.trans found'
          exact absurd (silent.symm.trans listens) (by decide)
      | release releases => cases releases
  | waiting enters => exact enters.unwaited waits
  | accepted enters => exact enters.unwaited waits
  | closed found silent idle =>
      cases waits with
      | close found' busy =>
          cases found.symm.trans found'
          exact idle busy
      | closeListening found' listens =>
          cases found.symm.trans found'
          exact absurd (silent.symm.trans listens) (by decide)
      | release releases => cases releases
  | closeWaits closes => exact closes.unwaited waits
  | closedPassive closes => exact closes.unwaited waits

/-- A call that returned met every assertion. -/
theorem Effect.unbroken (effect : Effect (s.view queues) action taken isQueued v') :
    ¬Breaks s action := by
  intro breaks
  cases effect with
  | acceptFailed _ _ _ _ failed =>
      cases breaks with
      | arrival _ _ isConnection => omega
  | arrived found _ _ _ cleared _ =>
      cases breaks with
      | arrival found' _ _ held =>
          cases found.symm.trans found'
          exact held cleared
  | readable _ _ found silent _ =>
      cases breaks with
      | arrival found' listens =>
          cases found.symm.trans found'
          exact absurd (silent.symm.trans listens) (by decide)
  | ended _ _ _ noPacket =>
      cases breaks with
      | packet tooLong =>
          rw [Option.getD_some] at noPacket
          simp [noPacket] at tooLong
  | dropped _ _ _ _ _ fits =>
      cases breaks with
      | packet tooLong => exact absurd fits (Nat.not_le.mpr tooLong)
  | queued _ _ _ _ _ fits =>
      cases breaks with
      | packet tooLong => exact absurd fits (Nat.not_le.mpr tooLong)
  | enqueued _ _ _ _ fits =>
      cases breaks with
      | packet tooLong => exact absurd fits (Nat.not_le.mpr tooLong)
  | completed _ releases => cases releases <;> cases breaks
  | waiting enters => cases enters <;> cases breaks
  | accepted enters => cases enters <;> cases breaks
  | closeWaits closes => cases closes <;> cases breaks
  | closedPassive closes => cases closes <;> cases breaks
  | tableFull | allocated | bound | listening | finished | notListening | closed => cases breaks

end Returned

end Effects

end EE323.Stcp.Demux

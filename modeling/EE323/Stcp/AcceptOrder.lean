/-
Module: EE323.Stcp.AcceptOrder
Purpose: `myaccept` gives the application the completed connections of a listening mysocket in the
  order they completed, each of them once.  A listening mysocket refuses at most one connection: its
  receive thread keeps the refused one and fails an assertion when it accepts the next.
Main exports: Journal, accept_order, refused_fails
-/
import EE323.Stcp.DemuxSafe

namespace EE323.Stcp.Demux

open EE323.Lib

/-- What identifies a connection: the descriptor of its mysocket, its peer, and the descriptor of
the kernel connection it uses. -/
structure Connection where
  sd : Int
  peer : SockAddr
  socket : Int
deriving DecidableEq, Repr

def Context.connection (ctx : Context) : Connection := ⟨ctx.mySd, ctx.peerAddr, ctx.socket⟩

/-- The state, and for each listening mysocket the connections that completed, that `myaccept` took,
and that its receive thread accepted without any context taking them, since it started to listen. -/
structure Journal where
  state : State
  completed : Int → List Connection
  accepted : Int → List Connection
  refused : Int → List Int

namespace Journal

def init : Journal := ⟨State.init, fun _ => [], fun _ => [], fun _ => []⟩

/-- The connections completed, with that of a transport thread that releases its application. -/
def bookReleased (j : Journal) (sd : Int) : Int → List Connection :=
  match j.state.globalCtx sd with
  | some ctx =>
      if ctx.blocking then
        Function.update j.completed ctx.listenSd (j.completed ctx.listenSd ++ [ctx.connection])
      else j.completed
  | none => j.completed

def bookCompleted (j : Journal) : Action → Int → List Connection
  | .mylisten sd _ _ _ => Function.update j.completed sd []
  | .unblock sd _ => j.bookReleased sd
  | .finish sd _ => j.bookReleased sd
  | _ => j.completed

/-- The connections that a `myaccept` took, at once or after a wait. -/
def bookTaken (j : Journal) (taken : Option Context) (sd : Int) : Int → List Connection :=
  match taken with
  | some ctx => Function.update j.accepted sd (j.accepted sd ++ [ctx.connection])
  | none => j.accepted

def bookAccepted (j : Journal) (taken : Option Context) : Action → Int → List Connection
  | .mylisten sd _ _ _ => Function.update j.accepted sd []
  | .myaccept sd => j.bookTaken taken sd
  | .resume sd => j.bookTaken taken sd
  | _ => j.accepted

/-- The connections that no context took, with that of a listening mysocket whose receive thread is
through with it. -/
def bookRefused (j : Journal) (isQueued : Bool) : Action → Int → List Int
  | .mylisten sd _ _ _ => Function.update j.refused sd []
  | .receive sd _ _ =>
      match j.state.globalCtx sd with
      | some ctx =>
          if ctx.listening ∧ isQueued = false then
            Function.update j.refused sd (j.refused sd ++ [ctx.newSocket])
          else j.refused
      | none => j.refused
  | _ => j.refused

def step (j : Journal) (action : Action) : Option Journal :=
  match perform j.state action with
  | .error _ => none
  | .ok outcome =>
      some { state := outcome.state
             completed := j.bookCompleted action
             accepted := j.bookAccepted outcome.accepted action
             refused := j.bookRefused outcome.queued action }

end Journal

/-- The completed connections that a queue holds, first in line first. -/
def waiting (contexts : Contexts) (q : ListenQueue) : List Connection :=
  q.completedQueue.filterMap fun pointer =>
    (contexts (q.connectionQueue pointer.index).sd).map Context.connection

theorem waiting_congr {contexts contexts' : Contexts} {listener : Int} {q : ListenQueue}
    (sound : QueueSound contexts listener q)
    (same : ∀ k ∈ q.used, (contexts' (q.connectionQueue k).sd).map Context.connection =
      (contexts (q.connectionQueue k).sd).map Context.connection) :
    waiting contexts' q = waiting contexts q :=
  List.filterMap_congr fun pointer isCompleted => same _ (sound.completed pointer isCompleted).2

/-- A context of no queued request may change at will. -/
theorem waiting_update {contexts : Contexts} {listener sd : Int} {q : ListenQueue}
    (sound : QueueSound contexts listener q) (other : ∀ k ∈ q.used, (q.connectionQueue k).sd ≠ sd)
    (ctx : Option Context) : waiting (Function.update contexts sd ctx) q = waiting contexts q :=
  waiting_congr sound fun k isUsed => by rw [Function.update_of_ne (other k isUsed)]

/-- A context may change everything but its connection. -/
theorem waiting_touch {contexts : Contexts} {listener sd : Int} {q : ListenQueue}
    {ctx ctx' : Context}
    (sound : QueueSound contexts listener q) (found : contexts sd = some ctx)
    (same : ctx'.connection = ctx.connection) :
    waiting (Function.update contexts sd (some ctx')) q = waiting contexts q := by
  refine waiting_congr sound fun k _ => ?_
  by_cases here : (q.connectionQueue k).sd = sd
  · rw [here, Function.update_self, found, Option.map_some, Option.map_some, same]
  · rw [Function.update_of_ne here]

/-- The books agree with the queues of the mysockets that are not being closed. -/
structure Ordered (v : View) (completed accepted : Int → List Connection) : Prop where
  balanced : ∀ listener q, v.closing.map Closing.listener ≠ some listener →
    v.queues listener = some q → completed listener = accepted listener ++ waiting v.contexts q

section Books

variable {v : View} {completed accepted : Int → List Connection}

/-- What was booked before stays in balance where a call changes neither books nor queue. -/
theorem Ordered.frame (ordered : Ordered v completed accepted) {contexts' : Contexts}
    (same : ∀ listener q, v.queues listener = some q →
      waiting contexts' q = waiting v.contexts q) :
    Ordered { v with contexts := contexts' } completed accepted :=
  ⟨fun listener q stays hasQueue => by
    rw [same listener q hasQueue]
    exact ordered.balanced listener q stays hasQueue⟩

/-- A call that changes the queue of one listening mysocket, and its books with it. -/
theorem Ordered.change (ordered : Ordered v completed accepted) {contexts' : Contexts}
    {accepting' : List Int} {sd : Int} {q' : ListenQueue} {line taken : List Connection}
    (here : line = taken ++ waiting contexts' q')
    (others : ∀ other q, other ≠ sd → v.queues other = some q →
      waiting contexts' q = waiting v.contexts q) :
    Ordered ⟨contexts', Function.update v.queues sd (some q'), accepting', v.closing⟩
      (Function.update completed sd line) (Function.update accepted sd taken) := by
  refine ⟨fun other q stays hasQueue => ?_⟩
  by_cases isHere : other = sd
  · have hasQueue : Function.update v.queues sd (some q') other = some q := hasQueue
    rw [isHere, Function.update_self] at hasQueue
    cases hasQueue
    rw [isHere, Function.update_self, Function.update_self]
    exact here
  · have hasQueue : v.queues other = some q := (Function.update_of_ne isHere ..).symm.trans hasQueue
    rw [Function.update_of_ne isHere, Function.update_of_ne isHere]
    exact (ordered.balanced other q stays hasQueue).trans
      (congrArg _ (others other q isHere hasQueue).symm)

/-- A `myclose` touches no connection that another listening mysocket has queued. -/
theorem Closes.elsewhere {action : Action} {ctx : Context} {q p : ListenQueue} {c : Closing}
    (closes : Closes v action ctx q c) (parked : Parked v) (sound : Sound v.contexts v.queues)
    {closed : List Nat} (fewer : closed ⊆ c.entries) {other : Int} (apart : other ≠ c.listener)
    (hasQueue : v.queues other = some p) (entry : Option Context) {i : Nat} (isUsed : i ∈ p.used) :
    withoutEntries (Function.update v.contexts c.listener entry) q closed
        (p.connectionQueue i).sd = v.contexts (p.connectionQueue i).sd := by
  have queued := closes.hasQueue parked
  obtain ⟨_, found, listens⟩ := sound.listener _ _ queued
  refine (withoutEntries_of_ne fun k inClosed holds same => apart ?_).trans
    (Function.update_of_ne (sound.notRequest hasQueue found listens i isUsed) ..)
  have inside := closes.inside parked k (fewer inClosed)
  have isUsed' := ListenQueue.mem_used.mpr ⟨closes.maxLen ▸ inside, holds⟩
  exact (sound.apart queued hasQueue isUsed' isUsed same).symm

/-- A `myclose` of a listening mysocket changes no books of the others. -/
theorem Ordered.closes {action : Action} {ctx : Context} {q : ListenQueue} {c : Closing}
    (ordered : Ordered v completed accepted) (closes : Closes v action ctx q c)
    {contexts' : Contexts} {queue : Option ListenQueue} {closing' : Option Closing}
    (others : ∀ other p, other ≠ c.listener → v.queues other = some p →
      waiting contexts' p = waiting v.contexts p)
    (gone : queue = none ∨ closing'.map Closing.listener = some c.listener) :
    Ordered ⟨contexts', Function.update v.queues c.listener queue, v.accepting, closing'⟩
      completed accepted := by
  refine ⟨fun other p stays hasQueue => ?_⟩
  have hasQueue : Function.update v.queues c.listener queue other = some p := hasQueue
  by_cases here : other = c.listener
  · rw [here, Function.update_self] at hasQueue
    rcases gone with noQueue | closing
    · rw [noQueue] at hasQueue
      cases hasQueue
    · exact absurd (here ▸ closing) stays
  · rw [Function.update_of_ne here] at hasQueue
    have stayed : v.closing.map Closing.listener ≠ some other := by
      cases closes with
      | call free => simp [free.2]
      | again closing => simpa [closing] using Ne.symm here
    exact (ordered.balanced other p stayed hasQueue).trans
      (congrArg _ (others other p here hasQueue).symm)

/-- The first completed request is the first connection in line. -/
theorem waiting_first {contexts : Contexts} {listener : Int} {q : ListenQueue} {pointer : Pointer}
    {rest : List Pointer} {ctx : Context} (sound : QueueSound contexts listener q)
    (first : q.completedQueue = pointer :: rest)
    (found : contexts (q.connectionQueue pointer.index).sd = some ctx) :
    waiting contexts q = ctx.connection :: waiting contexts (takeRequest q pointer rest) := by
  have nodup := sound.nodup
  rw [first, List.nodup_cons] at nodup
  have isFirst := (sound.completed pointer (first ▸ List.mem_cons_self)).1
  rw [waiting, first, List.filterMap_cons, found]
  refine congrArg _ (List.filterMap_congr fun other inRest => ?_)
  have isOther := (sound.completed other (first ▸ List.mem_cons_of_mem _ inRest)).1
  have apart : other.index ≠ pointer.index := by
    intro sameIndex
    have same : other = pointer := by
      cases other
      cases pointer
      simp_all
    exact nodup.1 (same ▸ inRest)
  rw [show (takeRequest q pointer rest).connectionQueue other.index =
    q.connectionQueue other.index from Function.update_of_ne apart ..]

/-- A connection that completes is the last one in line. -/
theorem waiting_last {contexts : Contexts} {q : ListenQueue} {k : Nat} {ctx : Context}
    (found : contexts (q.connectionQueue k).sd = some ctx) :
    waiting contexts (addCompleted q k) = waiting contexts q ++ [ctx.connection] := by
  rw [waiting, addCompleted, List.filterMap_append]
  simp only [List.filterMap_cons, found, Option.map_some, List.filterMap_nil]
  rfl

/-- A change of a context that is not queued, or keeps its connection, changes no books. -/
theorem Ordered.touch (sound : Sound v.contexts v.queues) (ordered : Ordered v completed accepted)
    {sd : Int} {ctx ctx' : Context} (found : v.contexts sd = some ctx)
    (same : ctx.listening = true ∨ ctx'.connection = ctx.connection) :
    Ordered { v with contexts := Function.update v.contexts sd (some ctx') }
      completed accepted := by
  refine ordered.frame fun listener q hasQueue => ?_
  rcases same with listens | sameConnection
  · exact waiting_update (sound.queue listener q hasQueue)
      (sound.notRequest hasQueue found listens) _
  · exact waiting_touch (sound.queue listener q hasQueue) found sameConnection

end Books

/-- Every call keeps the books in balance. -/
theorem Effect.ordered {j : Journal} {queues : Queues} {v' : View} {action : Action}
    {taken : Option Context} {isQueued : Bool} (parked : Parked (j.state.view queues))
    (sound : Sound (j.state.view queues).contexts (j.state.view queues).queues)
    (effect : Effect (j.state.view queues) action taken isQueued v')
    (ordered : Ordered (j.state.view queues) j.completed j.accepted) :
    Ordered v' (j.bookCompleted action) (j.bookAccepted taken action) := by
  have stays : j.state.closing = none → ∀ sd, j.state.closing.map Closing.listener ≠ some sd := by
    intro unlocked sd
    simp [unlocked]
  cases effect with
  | tableFull => exact ordered
  | allocated _ _ _ _ free _ _ _ _ =>
      exact ordered.frame fun listener q hasQueue =>
        waiting_update (sound.queue listener q hasQueue) (fun k => sound.unused free hasQueue) _
  | bound found => exact ordered.touch sound found (.inr rfl)
  | listening _ _ _ _ found _ _ _ _ _ _ noneCompleted =>
      refine ordered.change ?_ fun other p _ hasQueue =>
        waiting_touch (sound.queue other p hasQueue) found rfl
      rw [Demux.waiting, noneCompleted]
      rfl
  | acceptFailed _ found listens => exact ordered.touch sound found (.inl listens)
  | arrived found listens => exact ordered.touch sound found (.inl listens)
  | readable _ _ found => exact ordered.touch sound found (.inr rfl)
  | ended _ found => exact ordered.touch sound found (.inr rfl)
  | dropped _ _ found listens => exact ordered.touch sound found (.inl listens)
  | @queued sd child ctx newCtx _ _ _ _ unlocked found listens _ _ hasQueue _ empty _ _ free =>
      have outside : ∀ other p, queues other = some p → ∀ i ∈ p.used,
          Function.update (Function.update (j.state.view queues).contexts sd
              (some { ctx with newSocket := -1, receiver := .polling })) child (some newCtx)
              (p.connectionQueue i).sd =
            (j.state.view queues).contexts (p.connectionQueue i).sd := by
        intro other p hasQueue' i isUsed
        rw [Function.update_of_ne (sound.unused free hasQueue' isUsed),
          Function.update_of_ne (sound.notRequest hasQueue' found listens i isUsed)]
      have balanced := ordered.balanced _ _ (stays unlocked _) hasQueue
      show Ordered _ j.completed j.accepted
      rw [← Function.update_eq_self sd j.completed, ← Function.update_eq_self sd j.accepted]
      refine ordered.change ?_ fun other p _ hasQueue' =>
        waiting_congr (sound.queue other p hasQueue') fun i isUsed => ?_
      · refine balanced.trans (congrArg _ (List.filterMap_congr ?_).symm)
        intro pointer isCompleted
        have isUsed := ((sound.queue _ _ hasQueue).completed pointer isCompleted).2
        rw [addRequest_elsewhere _ isUsed empty, outside _ _ hasQueue _ isUsed]
      · rw [outside other p hasQueue' i isUsed]
  | enqueued _ found => exact ordered.touch sound found (.inr rfl)
  | @completed sd ctx _ _ _ _ _ unlocked releases found blocking hasQueue _ mine =>
      have found : j.state.globalCtx sd = some ctx := found
      have booked : j.bookCompleted action = Function.update j.completed ctx.listenSd
          (j.completed ctx.listenSd ++ [ctx.connection]) := by
        cases releases <;>
          simp only [Journal.bookCompleted, Journal.bookReleased, found, blocking, if_true]
      have unchanged : j.bookAccepted none action = j.accepted := by cases releases <;> rfl
      rw [booked, unchanged, ← Function.update_eq_self ctx.listenSd j.accepted]
      refine ordered.change ?_ fun other p _ hasQueue' =>
        waiting_touch (sound.queue other p hasQueue') found rfl
      rw [ordered.balanced _ _ (stays unlocked _) hasQueue, List.append_assoc,
        waiting_last (by rw [mine, Function.update_self])]
      refine congrArg (fun line => _ ++ (line ++ _))
        (waiting_touch (sound.queue _ _ hasQueue) found ?_).symm
      rfl
  | @finished sd ctx errno found isReleased =>
      have found : j.state.globalCtx sd = some ctx := found
      have booked : j.bookCompleted (.finish sd errno) = j.completed := by
        simp only [Journal.bookCompleted, Journal.bookReleased, found, isReleased]
        exact if_neg (by decide)
      rw [booked]
      exact ordered.touch sound found (.inr rfl)
  | notListening => exact ordered
  | waiting enters => cases enters <;> exact ⟨ordered.balanced⟩
  | @accepted sd ctx _ _ _ _ _ enters hasQueue first found =>
      have booked : j.bookAccepted (some ctx) action =
          Function.update j.accepted sd (j.accepted sd ++ [ctx.connection]) := by
        cases enters <;> rfl
      have unchanged : j.bookCompleted action = j.completed := by cases enters <;> rfl
      rw [booked, unchanged, ← Function.update_eq_self sd j.completed]
      refine ordered.change ?_ fun _ _ _ _ => rfl
      rw [ordered.balanced _ _ (stays (enters.unlocked parked) _) hasQueue,
        waiting_first (sound.queue _ _ hasQueue) first found, List.append_assoc]
      rfl
  | closed found _ _ _ unqueued =>
      exact ordered.frame fun listener q hasQueue =>
        waiting_update (sound.queue listener q hasQueue) (unqueued listener q hasQueue) _
  | @closeWaits ctx _ q c _ k closed rest closes split =>
      have fewer : closed ⊆ c.entries := split ▸ List.subset_append_left closed (k :: rest)
      have unchanged : j.bookCompleted action = j.completed := by cases closes <;> rfl
      have unchanged' : j.bookAccepted none action = j.accepted := by cases closes <;> rfl
      rw [unchanged, unchanged']
      refine ordered.closes closes (fun other p apart hasQueue => ?_) (.inr rfl)
      refine waiting_congr (sound.queue other p hasQueue) fun i isUsed => ?_
      rw [closes.elsewhere parked sound fewer apart hasQueue _ isUsed]
  | @closedPassive ctx q c _ closes =>
      have unchanged : j.bookCompleted action = j.completed := by cases closes <;> rfl
      have unchanged' : j.bookAccepted none action = j.accepted := by cases closes <;> rfl
      rw [unchanged, unchanged']
      refine ordered.closes closes (fun other p apart hasQueue => ?_) (.inl rfl)
      obtain ⟨_, found, listens⟩ := sound.listener _ _ (closes.hasQueue parked)
      refine waiting_congr (sound.queue other p hasQueue) fun i isUsed => ?_
      rw [Function.update_of_ne (sound.notRequest hasQueue found listens i isUsed),
        closes.elsewhere parked sound (List.Subset.refl _) apart hasQueue _ isUsed]

/-! ### Refused connections -/

/-- A receive thread that is done with a connection holds it only if no context took it, and that
one is the only one refused so far. -/
structure KeepsRefused (ctx : Context) (refused : List Int) : Prop where
  connected : ctx.listening = false → ctx.newSocket = -1
  listens : ctx.listening = true →
    refused = if ctx.newSocket = -1 ∨ ctx.receiver = .reading then [] else [ctx.newSocket]

/-- A mysocket that does not listen holds no connection, whatever is in the books. -/
theorem KeepsRefused.of_connected {ctx : Context} {refused : List Int}
    (silent : ctx.listening = false) (cleared : ctx.newSocket = -1) : KeepsRefused ctx refused :=
  ⟨fun _ => cleared, fun listens => absurd (silent.symm.trans listens) (by decide)⟩

/-- A listening mysocket has its books to keep. -/
theorem KeepsRefused.of_listening {ctx : Context} {refused : List Int}
    (listens : ctx.listening = true)
    (books : refused =
      if ctx.newSocket = -1 ∨ ctx.receiver = .reading then [] else [ctx.newSocket]) :
    KeepsRefused ctx refused :=
  ⟨fun silent => absurd (listens.symm.trans silent) (by decide), fun _ => books⟩

def Refusing (contexts : Contexts) (refused : Int → List Int) : Prop :=
  ∀ sd ctx, contexts sd = some ctx → KeepsRefused ctx (refused sd)

theorem Refusing.update {contexts : Contexts} {refused : Int → List Int}
    (refusing : Refusing contexts refused) {sd : Int} {ctx : Context}
    (keeps : KeepsRefused ctx (refused sd)) :
    Refusing (Function.update contexts sd (some ctx)) refused := by
  intro other ctx' found
  by_cases here : other = sd
  · rw [here, Function.update_self] at found
    cases found
    exact here ▸ keeps
  · rw [Function.update_of_ne here] at found
    exact refusing other ctx' found

/-- Contexts that go away change nothing for the others. -/
theorem Refusing.fewer {contexts contexts' : Contexts} {refused : Int → List Int}
    (refusing : Refusing contexts refused)
    (kept : ∀ sd ctx, contexts' sd = some ctx → contexts sd = some ctx) :
    Refusing contexts' refused :=
  fun sd ctx found => refusing sd ctx (kept sd ctx found)

theorem Refusing.remove {contexts : Contexts} {refused : Int → List Int}
    (refusing : Refusing contexts refused) (sd : Int) :
    Refusing (Function.update contexts sd none) refused := by
  refine refusing.fewer fun other ctx found => ?_
  rw [Function.update_apply] at found
  split at found
  · cases found
  · exact found

/-- A fresh page for a mysocket whose context goes with it. -/
theorem Refusing.book {contexts : Contexts} {refused : Int → List Int} {sd : Int} {ctx : Context}
    {entry : List Int} (refusing : Refusing contexts refused) (keeps : KeepsRefused ctx entry) :
    Refusing (Function.update contexts sd (some ctx)) (Function.update refused sd entry) := by
  intro other ctx' found
  by_cases here : other = sd
  · rw [here, Function.update_self] at found ⊢
    cases found
    exact keeps
  · rw [Function.update_of_ne here] at found ⊢
    exact refusing other ctx' found

/-- A thread that ends in `poll` holds what it held. -/
theorem Refusing.endReceiver {contexts : Contexts} {refused : Int → List Int}
    (refusing : Refusing contexts refused) {sd : Int} {ctx : Context}
    (found : contexts sd = some ctx) (notReading : ctx.receiver ≠ .reading) :
    Refusing (Function.update contexts sd (some { ctx with receiver := .ended })) refused := by
  have keeps := refusing sd ctx found
  refine refusing.update ⟨keeps.connected, fun listens => (keeps.listens listens).trans ?_⟩
  simp [notReading]

/-- The thread goes on from a connection that it read from, without a context for it. -/
theorem Refusing.refuse {j : Journal} {queues : Queues} (sound : Sound j.state.globalCtx queues)
    (refusing : Refusing j.state.globalCtx j.refused) {sd : Int} {ctx : Context}
    (found : j.state.globalCtx sd = some ctx) (reads : ctx.receiver = .reading)
    (packet : Option (List Byte)) (socket : Int) {receiver : Receiver}
    (done : receiver ≠ .reading) :
    Refusing (Function.update j.state.globalCtx sd (some { ctx with receiver := receiver }))
      (j.bookRefused false (.receive sd packet socket)) := by
  have keeps := refusing sd ctx found
  simp only [Journal.bookRefused, found, and_true]
  rcases Bool.eq_false_or_eq_true ctx.listening with listens | silent
  · have noneYet : j.refused sd = [] := by
      rw [keeps.listens listens, if_pos (.inr reads)]
    have isConnection := ((sound.receiver sd ctx found).accepted listens reads).2.2
    have held : ¬(ctx.newSocket = -1 ∨ receiver = .reading) := by
      rintro (cleared | still)
      · omega
      · exact done still
    rw [if_pos listens, noneYet]
    exact refusing.book (.of_listening listens (if_neg held).symm)
  · rw [if_neg (by rw [silent]; decide)]
    exact refusing.update (.of_connected silent (keeps.connected silent))

/-- Every call keeps the books on refused connections. -/
theorem Effect.refusing {j : Journal} {queues : Queues} {v' : View} {action : Action}
    {taken : Option Context} {isQueued : Bool} (parked : Parked (j.state.view queues))
    (sound : Sound j.state.globalCtx queues)
    (effect : Effect (j.state.view queues) action taken isQueued v')
    (refusing : Refusing j.state.globalCtx j.refused) :
    Refusing v'.contexts (j.bookRefused isQueued action) := by
  cases effect with
  | tableFull => exact refusing
  | allocated _ _ _ _ _ _ idle _ noConnection =>
      exact refusing.update (.of_connected idle.1 noConnection)
  | bound found =>
      have keeps := refusing _ _ found
      exact refusing.update ⟨keeps.connected, keeps.listens⟩
  | listening _ _ _ _ found _ silent _ _ _ _ _ =>
      have cleared := (refusing _ _ found).connected silent
      exact refusing.book (.of_listening rfl (if_pos (.inl cleared)).symm)
  | @acceptFailed sd _ ctx _ found listens polls _ =>
      have keeps := refusing _ _ found
      refine refusing.update (.of_listening listens ?_)
      rw [keeps.listens listens, polls]
      simp
  | arrived found listens _ _ cleared _ =>
      have keeps := refusing _ _ found
      refine refusing.update (.of_listening listens ?_)
      rw [keeps.listens listens, if_pos (.inl cleared), if_pos (.inr rfl)]
  | @readable sd ctx _ _ found silent _ =>
      exact refusing.update (.of_connected silent ((refusing _ _ found).connected silent))
  | ended socket found reads _ => exact refusing.refuse sound found reads _ socket (by decide)
  | dropped socket _ found _ reads _ => exact refusing.refuse sound found reads _ socket (by decide)
  | @queued listener sd ctx child _ _ packet socket _ found listens reads _ _ _ _ _ _ _ _ _ _
      serves _ _ noConnection _ =>
      have found : j.state.globalCtx listener = some ctx := found
      have booked : j.bookRefused true (.receive listener packet socket) = j.refused := by
        simp only [Journal.bookRefused, found]
        exact if_neg (by simp)
      rw [booked]
      refine (refusing.update ?_).update (.of_connected serves.connected noConnection)
      refine .of_listening listens ?_
      rw [(refusing _ _ found).listens listens, if_pos (.inr reads), if_pos (.inl rfl)]
  | @enqueued sd ctx packet socket found silent _ _ =>
      have found : j.state.globalCtx sd = some ctx := found
      have booked : j.bookRefused false (.receive sd packet socket) = j.refused := by
        simp only [Journal.bookRefused, found, silent]
        exact if_neg (by simp)
      rw [booked]
      exact refusing.update (.of_connected silent ((refusing _ _ found).connected silent))
  | completed _ releases found =>
      have keeps := refusing _ _ found
      have unchanged : j.bookRefused false action = j.refused := by cases releases <;> rfl
      rw [unchanged]
      exact refusing.update ⟨keeps.connected, keeps.listens⟩
  | finished _ found _ =>
      have keeps := refusing _ _ found
      exact refusing.update ⟨keeps.connected, keeps.listens⟩
  | notListening => exact refusing
  | waiting enters => cases enters <;> exact refusing
  | accepted enters => cases enters <;> exact refusing
  | closed => exact refusing.remove _
  | @closeWaits ctx _ _ _ _ _ _ _ closes =>
      have unchanged : j.bookRefused false action = j.refused := by cases closes <;> rfl
      rw [unchanged]
      exact (refusing.endReceiver closes.found (closes.notReading parked)).fewer
        fun sd ctx found => (withoutEntries_eq_some.mp found).1
  | @closedPassive ctx q c _ closes =>
      have unchanged : j.bookRefused false action = j.refused := by cases closes <;> rfl
      rw [unchanged]
      refine Refusing.remove ?_ c.listener
      exact (refusing.endReceiver closes.found (closes.notReading parked)).fewer
        fun sd ctx found => (withoutEntries_eq_some.mp found).1

/-! ### Runs -/

/-- A run that is booked. -/
abbrev BookedRun (labels : List Action) (j : Journal) : Prop :=
  Run Journal.step (fun j action => Orderly j.state action) Journal.init labels j

theorem journal_step_cases {j j' : Journal} {action : Action} (stepped : j.step action = some j') :
    ∃ outcome, perform j.state action = .ok outcome ∧ j' =
      { state := outcome.state
        completed := j.bookCompleted action
        accepted := j.bookAccepted outcome.accepted action
        refused := j.bookRefused outcome.queued action } := by
  rw [Journal.step] at stepped
  cases performed : perform j.state action with
  | error fault =>
      rw [performed] at stepped
      cases stepped
  | ok outcome =>
      rw [performed] at stepped
      exact ⟨outcome, rfl, (Option.some.inj stepped).symm⟩

/-- A booked run is a run. -/
theorem BookedRun.run {labels : List Action} {j : Journal} (booked : BookedRun labels j) :
    Run step Orderly State.init labels j.state := by
  induction booked with
  | refl => exact .refl _
  | snoc _ orderly stepped inductionHypothesis =>
      obtain ⟨outcome, performed, rfl⟩ := journal_step_cases stepped
      refine .snoc inductionHypothesis orderly ?_
      rw [step, performed]
      rfl

/-- The books of a sound state are in order. -/
def InOrder (j : Journal) : Prop :=
  ∃ queues, Views j.state queues ∧ Sound j.state.globalCtx queues ∧
    Parked (j.state.view queues) ∧ Ordered (j.state.view queues) j.completed j.accepted ∧
    Refusing j.state.globalCtx j.refused

/-- The books of every state reached. -/
theorem booked_run {labels : List Action} {j : Journal} (booked : BookedRun labels j) :
    InOrder j := by
  refine booked.invariant ?_ ?_
  · refine ⟨fun _ => none, .of_maps rfl fun _ => rfl, sound_init.1, sound_init.2, ⟨?_⟩, ?_⟩
    · exact fun _ _ _ hasQueue => by cases hasQueue
    · exact fun _ _ found => by cases found
  · rintro j action j' ⟨queues, views, sound, parked, ordered, refusing⟩ orderly stepped
    obtain ⟨outcome, performed, rfl⟩ := journal_step_cases stepped
    have meets := perform_spec views sound parked orderly
    rw [MeetsSpec, performed] at meets
    obtain ⟨queues', views', effect⟩ := meets.post_of_ok
    exact ⟨queues', views', effect.sound parked sound, effect.parked parked sound,
      effect.ordered parked sound ordered, effect.refusing parked sound refusing⟩

/-- In every run, what `myaccept` took from a listening mysocket, followed by what waits for it, is
what completed, in the order in which it completed: no connection is lost, taken twice
or overtaken. -/
theorem accept_order {labels : List Action} {j : Journal} (booked : BookedRun labels j)
    {listener : Int}
    {q : ListenQueue} (hasQueue : queuesOf j.state listener = some q) :
    j.completed listener = j.accepted listener ++ waiting j.state.globalCtx q := by
  obtain ⟨queues, views, _, _, ordered, _⟩ := booked_run booked
  obtain ⟨stays, hasQueue⟩ := views.queuesOf_eq_some.mp hasQueue
  exact ordered.balanced listener q stays hasQueue

/-- Two connections complete in the other order than their requests came, the second one because its
transport thread gave up, and a `myaccept` that waited takes one. -/
theorem accept_order_two : ∃ (j : Journal) (q : ListenQueue), (j.accepted 0).length = 1 ∧
    j.completed 0 = j.accepted 0 ++ waiting j.state.globalCtx q := by
  have reached : ∃ j, BookedRun
      [.mysocket true 3, .mybind 0, .mylisten 0 1 80 true, .myaccept 0,
        .poll 0 4 (localPeer 1), .receive 0 (some synPacket) 5,
        .poll 0 6 (localPeer 2), .receive 0 (some synPacket) 7,
        .unblock 2 0, .finish 1 0, .resume 0] j ∧
      (queuesOf j.state 0).isSome = true ∧ (j.accepted 0).length = 1 :=
    exec_reaches _ (by decide +kernel)
  obtain ⟨j, booked, isSome, one⟩ := reached
  obtain ⟨q, hasQueue⟩ := Option.isSome_iff_exists.mp isSome
  exact ⟨j, q, one, accept_order booked hasQueue⟩

/-- In every run, the receive thread of a listening mysocket that accepts a connection fails an
assertion exactly when it has accepted one before that no context took, be it over the backlog, out
of descriptors or no request at all. -/
theorem refused_fails {labels : List Action} {j : Journal} (booked : BookedRun labels j)
    {listener connection : Int} {peer : SockAddr}
    (listens : WithContext j.state listener fun ctx => ctx.listening = true)
    (isConnection : 0 ≤ connection) (orderly : Orderly j.state (.poll listener connection peer)) :
    faultOf (perform j.state (.poll listener connection peer)) = some .assertion ↔
      j.refused listener ≠ [] := by
  obtain ⟨_, _, _, _, _, refusing⟩ := booked_run booked
  obtain ⟨ctx, found, listens⟩ := withContext_iff.mp listens
  obtain ⟨ctx', found', polls⟩ := withContext_iff.mp orderly.2
  cases found.symm.trans found'
  have keeps := (refusing listener ctx found).listens listens
  rw [polls] at keeps
  rw [(demux_safe booked.run orderly).2.1]
  constructor
  · intro breaks
    cases breaks with
    | arrival found' _ _ held =>
        cases found.symm.trans found'
        rw [keeps, if_neg (by simpa using held)]
        simp
  · intro someRefused
    refine .arrival found listens isConnection fun cleared => someRefused ?_
    rw [keeps, if_pos (.inl cleared)]

/-- A third connection over a backlog of one, and a fourth. -/
theorem refused_fails_backlog : ∃ (j : Journal), j.refused 0 = [8] ∧
    (faultOf (perform j.state (.poll 0 10 (localPeer 4))) = some .assertion ↔
      j.refused 0 ≠ []) := by
  have reached : ∃ j, BookedRun
      [.mysocket true 3, .mybind 0, .mylisten 0 1 80 true,
        .poll 0 4 (localPeer 1), .receive 0 (some synPacket) 5,
        .poll 0 6 (localPeer 2), .receive 0 (some synPacket) 7,
        .poll 0 8 (localPeer 3), .receive 0 (some synPacket) 9] j ∧
      j.refused 0 = [8] ∧
      (WithContext j.state 0 fun ctx => ctx.listening = true) ∧
      Orderly j.state (.poll 0 10 (localPeer 4)) :=
    exec_reaches _ (by decide +kernel)
  obtain ⟨j, booked, one, listens, orderly⟩ := reached
  exact ⟨j, one, refused_fails booked listens (by decide) orderly⟩

end EE323.Stcp.Demux

/-
Module: EE323.Stcp.DemuxSound
Purpose: What holds of the descriptor table and the queues of connection requests between calls, and
  that what a call does to contexts and queues keeps it.
Main exports: Serves, Pending, QueueSound, ReceiverSound, Sound, remaining, Sound.allocate,
  Sound.enqueue, Sound.complete, Sound.dequeue, Sound.listen, Sound.remove, Sound.closeRequests,
  Sound.removeListener
-/
import Mathlib.Data.Finset.Card
import Mathlib.Data.Finset.Range
import EE323.Lib.Run
import EE323.Stcp.Demux

namespace EE323.Stcp.Demux

open EE323.Lib

abbrev Contexts := Int → Option Context
abbrev Queues := Int → Option ListenQueue

/-! ### The invariant -/

/-- The context of a queued request. -/
structure Serves (listener : Int) (r : ConnectRequest) (ctx : Context) : Prop where
  listenSd : ctx.listenSd = listener
  passive : ctx.isActive = false
  connected : ctx.listening = false
  started : ctx.transportThreadStarted = true
  peer : ctx.peerAddr = r.peerAddr
  peerLen : ctx.peerAddrLen = sockaddrSize

/-- The address of a peer, as the kernel reports it. -/
def IsPeer (peer : SockAddr) : Prop := peer.length = sockaddrSize ∧ IsInet peer

instance (peer : SockAddr) : Decidable (IsPeer peer) := inferInstanceAs (Decidable (_ ∧ _))

/-- A request that holds an entry of the queue. -/
structure Pending (contexts : Contexts) (listener : Int) (r : ConnectRequest) : Prop where
  nonnegative : 0 ≤ r.sd
  isPeer : IsPeer r.peerAddr
  peerLen : r.peerAddrLen = sockaddrSize
  serves : ∃ ctx, contexts r.sd = some ctx ∧ Serves listener r ctx

/-- The entries that hold a request. -/
def ListenQueue.used (q : ListenQueue) : Finset Nat :=
  (Finset.range q.maxLen).filter fun k => (q.connectionQueue k).sd ≠ -1

theorem ListenQueue.mem_used {q : ListenQueue} {k : Nat} :
    k ∈ q.used ↔ k < q.maxLen ∧ (q.connectionQueue k).sd ≠ -1 := by
  simp [used]

structure QueueSound (contexts : Contexts) (listener : Int) (q : ListenQueue) : Prop where
  empty : ∀ k < q.maxLen, k ∉ q.used → q.connectionQueue k = ConnectRequest.invalid
  request : ∀ k ∈ q.used, Pending contexts listener (q.connectionQueue k)
  count : q.curLen = q.used.card
  descriptors : ∀ i ∈ q.used, ∀ j ∈ q.used,
    (q.connectionQueue i).sd = (q.connectionQueue j).sd → i = j
  peers : ∀ i ∈ q.used, ∀ j ∈ q.used,
    (q.connectionQueue i).peerAddr = (q.connectionQueue j).peerAddr → i = j
  nodup : q.completedQueue.Nodup
  completed : ∀ pointer ∈ q.completedQueue, pointer.block = q.block ∧ pointer.index ∈ q.used
  released : ∀ k ∈ q.used, ⟨q.block, k⟩ ∈ q.completedQueue ↔
    ∃ ctx, contexts (q.connectionQueue k).sd = some ctx ∧ ctx.blocking = false

/-- A receive thread runs on a listening or a connected mysocket only, and one that reads on a
listening mysocket holds a connection and knows its peer. -/
structure ReceiverSound (ctx : Context) : Prop where
  running : ctx.receiver ≠ .ended → ctx.listening = true ∨ ctx.transportThreadStarted = true
  accepted : ctx.listening = true → ctx.receiver = .reading →
    IsPeer ctx.peerAddr ∧ ctx.peerAddrLen = sockaddrSize ∧ 0 ≤ ctx.newSocket

structure Sound (contexts : Contexts) (queues : Queues) : Prop where
  placed : ∀ sd ctx, contexts sd = some ctx → 0 ≤ sd ∧ sd < MAX_NUM_CONNECTIONS ∧ ctx.mySd = sd
  listener : ∀ sd q, queues sd = some q → ∃ ctx, contexts sd = some ctx ∧ ctx.listening = true
  listening : ∀ sd ctx, contexts sd = some ctx → ctx.listening = true →
    ctx.bound = true ∧ ctx.transportThreadStarted = false ∧ (queues sd).isSome
  origin : ∀ sd ctx, contexts sd = some ctx → ctx.transportThreadStarted = true → ctx.listenSd ≠ -1
  receiver : ∀ sd ctx, contexts sd = some ctx → ReceiverSound ctx
  queue : ∀ sd q, queues sd = some q → QueueSound contexts sd q
  pending : ∀ sd ctx, contexts sd = some ctx → ctx.transportThreadStarted = true →
    ctx.blocking = true → ctx.isActive = false ∧
      ∃ q, queues ctx.listenSd = some q ∧ ∃ k ∈ q.used, (q.connectionQueue k).sd = sd

/-! ### The table of queues -/

theorem covers_descriptor {sd : Int} (nonnegative : 0 ≤ sd) (below : sd < MAX_NUM_CONNECTIONS) :
    listenTable.covers sd = true := by
  have below : sd < 64 := below
  have unchanged : Int.tmod sd ((64 : Nat) : Int) = sd := Int.tmod_eq_of_lt nonnegative (by omega)
  have inside : (Int.tmod sd ((64 : Nat) : Int) % 0x100000000).toNat < 64 := by
    rw [unchanged]
    omega
  exact decide_eq_true inside

section Tables

variable {s : State} {queues : Queues}

theorem getConnectionQueue_eq {ctx : Context}
    (maps : HashTable.Maps listenTable s.listenQueues queues)
    (ready : ctx.listening = true ∧ ctx.bound = true)
    (covered : listenTable.covers ctx.mySd = true) :
    getConnectionQueue s ctx = .ok (queues ctx.mySd) := by
  have held := maps ctx.mySd
  rw [getConnectionQueue, check, if_pos ready]
  simp only [bind, Except.bind, HashTable.hashLookupPtr,
    HashTable.hashGetEntry_covered covered, pure, Except.pure, fromHash, HashTable.walk_head]
  rw [HashTable.bindings] at held
  rw [held, Option.head?_toList]

theorem setQueue_eq {sd : Int} (maps : HashTable.Maps listenTable s.listenQueues queues)
    (covered : listenTable.covers sd = true) (q : ListenQueue) :
    ∃ after, setQueue s sd q = .ok { s with listenQueues := after } ∧
      HashTable.Maps listenTable after (Function.update queues sd (some q)) := by
  obtain ⟨after, stored, bound⟩ := HashTable.hashSetEntry_covered covered s.listenQueues q
  refine ⟨after, ?_, maps.update (some q) ?_⟩
  · rw [setQueue, stored]
    rfl
  · rw [bound, maps sd]
    cases queues sd <;> rfl

theorem insertQueue_eq {sd : Int} (maps : HashTable.Maps listenTable s.listenQueues queues)
    (covered : listenTable.covers sd = true) (absent : queues sd = none) (q : ListenQueue) :
    ∃ after, HashTable.hashInsert listenTable s.listenQueues sd q = .ok after ∧
      HashTable.Maps listenTable after (Function.update queues sd (some q)) := by
  obtain ⟨after, stored, bound⟩ := HashTable.hashInsert_covered covered s.listenQueues q
  refine ⟨after, stored, maps.update (some q) ?_⟩
  rw [bound, maps sd, absent]
  rfl

theorem deleteQueue_eq {sd : Int} (maps : HashTable.Maps listenTable s.listenQueues queues)
    (covered : listenTable.covers sd = true) :
    ∃ after, HashTable.hashDelete listenTable s.listenQueues sd = .ok after ∧
      HashTable.Maps listenTable after (Function.update queues sd none) := by
  have deleted := HashTable.hashDelete_covered covered s.listenQueues
  have single : (HashTable.bindings listenTable s.listenQueues sd).tail = [] := by
    rw [maps sd]
    cases queues sd <;> rfl
  simp only [HashTable.stackDelete, single, List.isEmpty_nil, if_true] at deleted
  cases result : HashTable.hashDelete listenTable s.listenQueues sd with
  | error fault => rw [result] at deleted; cases deleted
  | ok after =>
      rw [result] at deleted
      exact ⟨after, rfl, maps.update none (Except.ok.inj deleted)⟩

end Tables

theorem check_eq {condition : Prop} [Decidable condition] (holds : condition) :
    check condition = .ok () :=
  if_pos holds

/-! ### What the calls do to contexts and queues -/

section Transitions

variable {contexts : Contexts} {queues : Queues}

/-- A queue is sound as long as the contexts of its requests stay as they are. -/
theorem QueueSound.frame {other : Contexts} {listener : Int} {q : ListenQueue}
    (sound : QueueSound contexts listener q)
    (kept : ∀ k ∈ q.used, ∀ ctx, contexts (q.connectionQueue k).sd = some ctx →
      ∃ ctx', other (q.connectionQueue k).sd = some ctx' ∧ ctx'.blocking = ctx.blocking ∧
        ∀ r, Serves listener r ctx → Serves listener r ctx') :
    QueueSound other listener q where
  empty := sound.empty
  request k isUsed := by
    obtain ⟨ctx, found, serves⟩ := (sound.request k isUsed).serves
    obtain ⟨ctx', found', _, still⟩ := kept k isUsed ctx found
    exact { sound.request k isUsed with serves := ⟨ctx', found', still _ serves⟩ }
  count := sound.count
  descriptors := sound.descriptors
  peers := sound.peers
  nodup := sound.nodup
  completed := sound.completed
  released k isUsed := by
    obtain ⟨ctx, found, _⟩ := (sound.request k isUsed).serves
    obtain ⟨ctx', found', blocking, _⟩ := kept k isUsed ctx found
    rw [sound.released k isUsed, found, found']
    simp [blocking]

/-- The fields of a context that the invariant is about are the same. -/
structure SameRole (ctx ctx' : Context) : Prop where
  mySd : ctx'.mySd = ctx.mySd
  listening : ctx'.listening = ctx.listening
  bound : ctx.bound = true → ctx'.bound = true
  transportThreadStarted : ctx'.transportThreadStarted = ctx.transportThreadStarted
  blocking : ctx'.blocking = ctx.blocking
  listenSd : ctx'.listenSd = ctx.listenSd
  isActive : ctx'.isActive = ctx.isActive
  peer : ctx.listening = false → ctx'.peerAddr = ctx.peerAddr ∧ ctx'.peerAddrLen = ctx.peerAddrLen

theorem SameRole.serves {ctx ctx' : Context} (same : SameRole ctx ctx') {listener : Int}
    {r : ConnectRequest} (serves : Serves listener r ctx) : Serves listener r ctx' where
  listenSd := same.listenSd.trans serves.listenSd
  passive := same.isActive.trans serves.passive
  connected := same.listening.trans serves.connected
  started := same.transportThreadStarted.trans serves.started
  peer := (same.peer serves.connected).1.trans serves.peer
  peerLen := (same.peer serves.connected).2.trans serves.peerLen

/-- The receive threads, with a context written. -/
theorem Sound.receivers_update (sound : Sound contexts queues) {sd : Int} {ctx : Context}
    (received : ReceiverSound ctx) :
    ∀ other ctx', Function.update contexts sd (some ctx) other = some ctx' →
      ReceiverSound ctx' := by
  intro other ctx' found
  by_cases here : other = sd
  · rw [here, Function.update_self] at found
    cases found
    exact received
  · rw [Function.update_of_ne here] at found
    exact sound.receiver other ctx' found

/-- A change of other fields of one context. -/
theorem Sound.touch (sound : Sound contexts queues) {sd : Int} {ctx ctx' : Context}
    (found : contexts sd = some ctx) (same : SameRole ctx ctx') (received : ReceiverSound ctx') :
    Sound (Function.update contexts sd (some ctx')) queues where
  placed other ctx'' found' := by
    by_cases here : other = sd
    · rw [here, Function.update_self] at found'
      cases found'
      rw [here, same.mySd]
      exact sound.placed sd ctx found
    · rw [Function.update_of_ne here] at found'
      exact sound.placed other ctx'' found'
  listener other q queued := by
    obtain ⟨lctx, lfound, listens⟩ := sound.listener other q queued
    by_cases here : other = sd
    · rw [here, Function.update_self]
      rw [here, found] at lfound
      cases lfound
      exact ⟨ctx', rfl, same.listening.trans listens⟩
    · exact ⟨lctx, by rw [Function.update_of_ne here, lfound], listens⟩
  listening other ctx'' found' listens := by
    by_cases here : other = sd
    · rw [here, Function.update_self] at found'
      cases found'
      have before := sound.listening sd ctx found (same.listening.symm.trans listens)
      rw [here, same.transportThreadStarted]
      exact ⟨same.bound before.1, before.2⟩
    · rw [Function.update_of_ne here] at found'
      exact sound.listening other ctx'' found' listens
  origin other ctx'' found' started := by
    by_cases here : other = sd
    · rw [here, Function.update_self] at found'
      cases found'
      rw [same.listenSd]
      exact sound.origin sd ctx found (same.transportThreadStarted.symm.trans started)
    · rw [Function.update_of_ne here] at found'
      exact sound.origin other ctx'' found' started
  receiver := sound.receivers_update received
  queue listener q queued := by
    refine (sound.queue listener q queued).frame fun k isUsed ctx'' found' => ?_
    by_cases here : (q.connectionQueue k).sd = sd
    · rw [here, found] at found'
      cases found'
      exact ⟨ctx', by rw [here, Function.update_self], same.blocking, fun _ => same.serves⟩
    · exact ⟨ctx'', by rw [Function.update_of_ne here, found'], rfl, fun _ serves => serves⟩
  pending other ctx'' found' started blocking := by
    by_cases here : other = sd
    · rw [here, Function.update_self] at found'
      cases found'
      rw [here, same.isActive, same.listenSd]
      exact sound.pending sd ctx found (same.transportThreadStarted.symm.trans started)
        (same.blocking.symm.trans blocking)
    · rw [Function.update_of_ne here] at found'
      exact sound.pending other ctx'' found' started blocking

/-- A mysocket that does not listen has no queue. -/
theorem Sound.absent (sound : Sound contexts queues) {sd : Int} {ctx : Context}
    (found : contexts sd = some ctx) (silent : ctx.listening = false) : queues sd = none := by
  cases queued : queues sd with
  | none => rfl
  | some q =>
      obtain ⟨lctx, lfound, listens⟩ := sound.listener sd q queued
      rw [found] at lfound
      cases lfound
      rw [silent] at listens
      cases listens

/-- A descriptor that holds no context is in no queue. -/
theorem Sound.unused (sound : Sound contexts queues) {sd : Int} (free : contexts sd = none)
    {listener : Int} {q : ListenQueue} (queued : queues listener = some q) {k : Nat}
    (isUsed : k ∈ q.used) : (q.connectionQueue k).sd ≠ sd := by
  intro same
  obtain ⟨ctx, found, _⟩ := ((sound.queue listener q queued).request k isUsed).serves
  rw [same, free] at found
  cases found

/-- A listening mysocket is no queued request. -/
theorem Sound.notRequest (sound : Sound contexts queues) {listener sd : Int} {q : ListenQueue}
    {ctx : Context} (hasQueue : queues listener = some q) (found : contexts sd = some ctx)
    (listens : ctx.listening = true) : ∀ k ∈ q.used, (q.connectionQueue k).sd ≠ sd := by
  intro k isUsed same
  obtain ⟨child, childFound, serves⟩ := ((sound.queue listener q hasQueue).request k isUsed).serves
  rw [same, found] at childFound
  cases childFound
  exact absurd (listens.symm.trans serves.connected) (by decide)

/-- A fresh context in a free place. -/
theorem Sound.allocate (sound : Sound contexts queues) {sd : Int} {ctx : Context}
    (nonnegative : 0 ≤ sd) (below : sd < MAX_NUM_CONNECTIONS) (free : contexts sd = none)
    (mine : ctx.mySd = sd) (idle : ctx.listening = false ∧ ctx.transportThreadStarted = false)
    (received : ReceiverSound ctx) : Sound (Function.update contexts sd (some ctx)) queues where
  placed other ctx' found := by
    by_cases here : other = sd
    · rw [here, Function.update_self] at found
      cases found
      exact here ▸ ⟨nonnegative, below, mine⟩
    · rw [Function.update_of_ne here] at found
      exact sound.placed other ctx' found
  listener other q queued := by
    obtain ⟨lctx, lfound, listens⟩ := sound.listener other q queued
    refine ⟨lctx, ?_, listens⟩
    rw [Function.update_of_ne, lfound]
    rintro rfl
    rw [free] at lfound
    cases lfound
  listening other ctx' found listens := by
    by_cases here : other = sd
    · rw [here, Function.update_self] at found
      cases found
      rw [idle.1] at listens
      cases listens
    · rw [Function.update_of_ne here] at found
      exact sound.listening other ctx' found listens
  origin other ctx' found started := by
    by_cases here : other = sd
    · rw [here, Function.update_self] at found
      cases found
      rw [idle.2] at started
      cases started
    · rw [Function.update_of_ne here] at found
      exact sound.origin other ctx' found started
  receiver := sound.receivers_update received
  queue listener q queued := by
    refine (sound.queue listener q queued).frame fun k isUsed ctx' found => ?_
    exact ⟨ctx', by rw [Function.update_of_ne (sound.unused free queued isUsed), found], rfl,
      fun _ serves => serves⟩
  pending other ctx' found started blocking := by
    by_cases here : other = sd
    · rw [here, Function.update_self] at found
      cases found
      rw [idle.2] at started
      cases started
    · rw [Function.update_of_ne here] at found
      exact sound.pending other ctx' found started blocking

/-- No queue holds the descriptor. -/
def Unqueued (queues : Queues) (sd : Int) : Prop :=
  ∀ listener q, queues listener = some q → ∀ k ∈ q.used, (q.connectionQueue k).sd ≠ sd

/-- A context that goes away, and is neither a listening mysocket's nor queued. -/
theorem Sound.remove (sound : Sound contexts queues) {sd : Int}
    (noQueue : queues sd = none) (unqueued : Unqueued queues sd) :
    Sound (Function.update contexts sd none) queues where
  placed other ctx found := by
    by_cases here : other = sd
    · rw [here, Function.update_self] at found
      cases found
    · rw [Function.update_of_ne here] at found
      exact sound.placed other ctx found
  listener other q queued := by
    obtain ⟨lctx, lfound, listens⟩ := sound.listener other q queued
    refine ⟨lctx, ?_, listens⟩
    rw [Function.update_of_ne, lfound]
    rintro rfl
    rw [noQueue] at queued
    cases queued
  listening other ctx found listens := by
    by_cases here : other = sd
    · rw [here, Function.update_self] at found
      cases found
    · rw [Function.update_of_ne here] at found
      exact sound.listening other ctx found listens
  origin other ctx found started := by
    by_cases here : other = sd
    · rw [here, Function.update_self] at found
      cases found
    · rw [Function.update_of_ne here] at found
      exact sound.origin other ctx found started
  receiver other ctx found := by
    by_cases here : other = sd
    · rw [here, Function.update_self] at found
      cases found
    · rw [Function.update_of_ne here] at found
      exact sound.receiver other ctx found
  queue listener q queued := by
    refine (sound.queue listener q queued).frame fun k isUsed ctx found => ?_
    exact ⟨ctx, by rw [Function.update_of_ne (unqueued listener q queued k isUsed), found], rfl,
      fun _ serves => serves⟩
  pending other ctx found started blocking := by
    by_cases here : other = sd
    · rw [here, Function.update_self] at found
      cases found
    · rw [Function.update_of_ne here] at found
      exact sound.pending other ctx found started blocking

/-- What stays of a queue when another queue, or another context, is written. -/
theorem QueueSound.keep {other : Contexts} {listener : Int} {q : ListenQueue}
    (sound : QueueSound contexts listener q)
    (kept : ∀ k ∈ q.used, other (q.connectionQueue k).sd = contexts (q.connectionQueue k).sd) :
    QueueSound other listener q :=
  sound.frame fun k isUsed ctx found =>
    ⟨ctx, (kept k isUsed).trans found, rfl, fun _ serves => serves⟩

theorem ListenQueue.used_insert {q q' : ListenQueue} {k : Nat} {r : ConnectRequest}
    (sameLen : q'.maxLen = q.maxLen)
    (written : q'.connectionQueue = Function.update q.connectionQueue k r) (inside : k < q.maxLen)
    (holds : r.sd ≠ -1) : q'.used = insert k q.used := by
  ext i
  rw [Finset.mem_insert, mem_used, mem_used, sameLen, written]
  by_cases here : i = k
  · rw [here, Function.update_self]
    exact ⟨fun _ => .inl rfl, fun _ => ⟨inside, holds⟩⟩
  · rw [Function.update_of_ne here]
    exact ⟨.inr, fun either => either.resolve_left here⟩

theorem used_addRequest {q : ListenQueue} {k : Nat} {sd : Int} (peer : SockAddr)
    (inside : k < q.maxLen)
    (nonnegative : 0 ≤ sd) :
    (addRequest q k ⟨peer, sockaddrSize, sd⟩).used = insert k q.used :=
  ListenQueue.used_insert rfl rfl inside (by simp only [ne_eq]; omega)

theorem addRequest_elsewhere {q : ListenQueue} {i k : Nat} (request : ConnectRequest)
    (isUsed : i ∈ q.used) (empty : k ∉ q.used) :
    (addRequest q k request).connectionQueue i = q.connectionQueue i := by
  refine Function.update_of_ne ?_ ..
  rintro rfl
  exact empty isUsed

theorem ListenQueue.used_erase {q q' : ListenQueue} {k : Nat} (sameLen : q'.maxLen = q.maxLen)
    (written : q'.connectionQueue = Function.update q.connectionQueue k ConnectRequest.invalid) :
    q'.used = q.used.erase k := by
  ext i
  rw [Finset.mem_erase, mem_used, mem_used, sameLen, written]
  by_cases here : i = k
  · rw [here, Function.update_self]
    simp [ConnectRequest.invalid]
  · rw [Function.update_of_ne here]
    exact ⟨fun both => ⟨here, both⟩, And.right⟩

theorem used_takeRequest (q : ListenQueue) (pointer : Pointer) (rest : List Pointer) :
    (takeRequest q pointer rest).used = q.used.erase pointer.index :=
  ListenQueue.used_erase rfl rfl

/-- The requests of a listening mysocket are contexts that name it, so no two queues share one. -/
theorem Sound.apart (sound : Sound contexts queues) {one two : Int} {p q : ListenQueue}
    (first : queues one = some p) (second : queues two = some q) {i j : Nat} (inFirst : i ∈ p.used)
    (inSecond : j ∈ q.used) (same : (p.connectionQueue i).sd = (q.connectionQueue j).sd) :
    one = two := by
  obtain ⟨ctx, found, serves⟩ := ((sound.queue one p first).request i inFirst).serves
  obtain ⟨ctx', found', serves'⟩ := ((sound.queue two q second).request j inSecond).serves
  rw [same, found'] at found
  cases found
  exact serves.listenSd.symm.trans serves'.listenSd

/-- The queue with a request in an empty entry. -/
theorem QueueSound.add {other : Contexts} {listener sd : Int} {q : ListenQueue} {k : Nat}
    {child : Context} {peer : SockAddr} (sound : QueueSound contexts listener q)
    (inside : k < q.maxLen) (empty : k ∉ q.used) (nonnegative : 0 ≤ sd)
    (isPeer : IsPeer peer)
    (freshPeer : ∀ i ∈ q.used, (q.connectionQueue i).peerAddr ≠ peer)
    (freshSd : ∀ i ∈ q.used, (q.connectionQueue i).sd ≠ sd)
    (kept : ∀ i ∈ q.used, other (q.connectionQueue i).sd = contexts (q.connectionQueue i).sd)
    (found : other sd = some child) (blocking : child.blocking = true)
    (serves : Serves listener ⟨peer, sockaddrSize, sd⟩ child) :
    QueueSound other listener (addRequest q k ⟨peer, sockaddrSize, sd⟩) := by
  have keeps := sound.keep kept
  have used := used_addRequest peer inside nonnegative
  have atEntry : (addRequest q k ⟨peer, sockaddrSize, sd⟩).connectionQueue k =
      ⟨peer, sockaddrSize, sd⟩ := Function.update_self ..
  have elsewhere : ∀ i ∈ q.used, (addRequest q k ⟨peer, sockaddrSize, sd⟩).connectionQueue i =
      q.connectionQueue i :=
    fun i isUsed => addRequest_elsewhere _ isUsed empty
  refine ⟨?_, ?_, ?_, ?_, ?_, keeps.nodup, ?_, ?_⟩
  · intro i below notUsed
    rw [used, Finset.mem_insert, not_or] at notUsed
    exact (Function.update_of_ne notUsed.1 ..).trans (keeps.empty i below notUsed.2)
  · intro i isUsed
    rw [used, Finset.mem_insert] at isUsed
    rcases isUsed with rfl | isUsed
    · rw [atEntry]
      exact ⟨nonnegative, isPeer, rfl, child, found, serves⟩
    · rw [elsewhere i isUsed]
      exact keeps.request i isUsed
  · rw [used, Finset.card_insert_of_notMem empty, ← keeps.count]
    rfl
  · intro i isUsed j isUsed' same
    rw [used, Finset.mem_insert] at isUsed isUsed'
    rcases isUsed with rfl | isUsed <;> rcases isUsed' with rfl | isUsed'
    · rfl
    · rw [atEntry, elsewhere j isUsed'] at same
      exact absurd same.symm (freshSd j isUsed')
    · rw [atEntry, elsewhere i isUsed] at same
      exact absurd same (freshSd i isUsed)
    · rw [elsewhere i isUsed, elsewhere j isUsed'] at same
      exact keeps.descriptors i isUsed j isUsed' same
  · intro i isUsed j isUsed' same
    rw [used, Finset.mem_insert] at isUsed isUsed'
    rcases isUsed with rfl | isUsed <;> rcases isUsed' with rfl | isUsed'
    · rfl
    · rw [atEntry, elsewhere j isUsed'] at same
      exact absurd same.symm (freshPeer j isUsed')
    · rw [atEntry, elsewhere i isUsed] at same
      exact absurd same (freshPeer i isUsed)
    · rw [elsewhere i isUsed, elsewhere j isUsed'] at same
      exact keeps.peers i isUsed j isUsed' same
  · intro pointer isCompleted
    have before := keeps.completed pointer isCompleted
    exact ⟨before.1, used ▸ Finset.mem_insert_of_mem before.2⟩
  · intro i isUsed
    rw [used, Finset.mem_insert] at isUsed
    rcases isUsed with rfl | isUsed
    · rw [atEntry, found]
      constructor
      · exact fun isCompleted => absurd (keeps.completed _ isCompleted).2 empty
      · rintro ⟨ctx, isChild, released⟩
        cases isChild
        rw [blocking] at released
        cases released
    · rw [elsewhere i isUsed]
      exact keeps.released i isUsed

/-- A connection request is queued, with a new context. -/
theorem Sound.enqueue (sound : Sound contexts queues) {listener sd : Int} {q : ListenQueue}
    {k : Nat}
    {child : Context} {peer : SockAddr} (queued : queues listener = some q) (inside : k < q.maxLen)
    (empty : k ∉ q.used) (nonnegative : 0 ≤ sd) (below : sd < MAX_NUM_CONNECTIONS)
    (free : contexts sd = none) (isPeer : IsPeer peer)
    (freshPeer : ∀ i ∈ q.used, (q.connectionQueue i).peerAddr ≠ peer) (mine : child.mySd = sd)
    (blocking : child.blocking = true) (serves : Serves listener ⟨peer, sockaddrSize, sd⟩ child)
    (received : ReceiverSound child) : Sound (Function.update contexts sd (some child))
      (Function.update queues listener (some (addRequest q k ⟨peer, sockaddrSize, sd⟩))) where
  placed other ctx found := by
    by_cases here : other = sd
    · rw [here, Function.update_self] at found
      cases found
      exact here ▸ ⟨nonnegative, below, mine⟩
    · rw [Function.update_of_ne here] at found
      exact sound.placed other ctx found
  listener other q' queued' := by
    have before : ∃ q, queues other = some q := by
      by_cases there : other = listener
      · exact ⟨q, there ▸ queued⟩
      · rw [Function.update_of_ne there] at queued'
        exact ⟨q', queued'⟩
    obtain ⟨_, before⟩ := before
    obtain ⟨lctx, lfound, listens⟩ := sound.listener other _ before
    refine ⟨lctx, ?_, listens⟩
    rw [Function.update_of_ne, lfound]
    rintro rfl
    rw [free] at lfound
    cases lfound
  listening other ctx found listens := by
    by_cases here : other = sd
    · rw [here, Function.update_self] at found
      cases found
      rw [serves.connected] at listens
      cases listens
    · rw [Function.update_of_ne here] at found
      obtain ⟨isBound, started, isQueued⟩ := sound.listening other ctx found listens
      refine ⟨isBound, started, ?_⟩
      by_cases there : other = listener
      · rw [there, Function.update_self]
        rfl
      · rwa [Function.update_of_ne there]
  origin other ctx found started := by
    by_cases here : other = sd
    · rw [here, Function.update_self] at found
      cases found
      obtain ⟨lctx, lfound, _⟩ := sound.listener listener q queued
      have placed := sound.placed listener lctx lfound
      rw [serves.listenSd]
      omega
    · rw [Function.update_of_ne here] at found
      exact sound.origin other ctx found started
  receiver := sound.receivers_update received
  queue other q' queued' := by
    by_cases there : other = listener
    · rw [there, Function.update_self] at queued'
      cases queued'
      rw [there]
      refine (sound.queue listener q queued).add inside empty nonnegative isPeer freshPeer
        (fun i isUsed => sound.unused free queued isUsed) ?_ (Function.update_self ..)
        blocking serves
      exact fun i isUsed => Function.update_of_ne (sound.unused free queued isUsed) ..
    · rw [Function.update_of_ne there] at queued'
      exact (sound.queue other q' queued').keep fun i isUsed =>
        Function.update_of_ne (sound.unused free queued' isUsed) ..
  pending other ctx found started isBlocking := by
    by_cases here : other = sd
    · rw [here, Function.update_self] at found
      cases found
      refine ⟨serves.passive, _, by rw [serves.listenSd, Function.update_self], k, ?_, ?_⟩
      · rw [used_addRequest peer inside nonnegative]
        exact Finset.mem_insert_self ..
      · rw [here]
        simp [addRequest]
    · rw [Function.update_of_ne here] at found
      obtain ⟨passive, p, queued', i, isUsed, mine'⟩ :=
        sound.pending other ctx found started isBlocking
      refine ⟨passive, ?_⟩
      by_cases there : ctx.listenSd = listener
      · rw [there, queued] at queued'
        cases queued'
        refine ⟨_, by rw [there, Function.update_self], i, ?_, ?_⟩
        · rw [used_addRequest peer inside nonnegative]
          exact Finset.mem_insert_of_mem isUsed
        · rw [← mine']
          exact congrArg ConnectRequest.sd (addRequest_elsewhere _ isUsed empty)
      · exact ⟨p, by rw [Function.update_of_ne there, queued'], i, isUsed, mine'⟩

/-- A context whose application is released, by a transport thread that has returned or not. -/
def Context.released (ctx : Context) (errno : Nat) (returned : Bool) : Context :=
  { ctx with blocking := false, stcpErrno := errno, transportReturned := returned }

/-- The queue of a connection that completes. -/
theorem QueueSound.complete {listener sd : Int} {ctx : Context} {q : ListenQueue} {k errno : Nat}
    {returned : Bool} (sound : QueueSound contexts listener q) (found : contexts sd = some ctx)
    (blocking : ctx.blocking = true) (isUsed : k ∈ q.used) (mine : (q.connectionQueue k).sd = sd) :
    QueueSound (Function.update contexts sd (some (ctx.released errno returned))) listener
      (addCompleted q k) where
  empty := sound.empty
  request i isUsed' := by
    have before := sound.request i isUsed'
    refine { before with serves := ?_ }
    obtain ⟨ctx', found', serves⟩ := before.serves
    by_cases here : (q.connectionQueue i).sd = sd
    · rw [here, found] at found'
      cases found'
      exact ⟨ctx.released errno returned, (congrArg _ here).trans (Function.update_self ..),
        { serves with }⟩
    · exact ⟨ctx', (Function.update_of_ne here ..).trans found', serves⟩
  count := sound.count
  descriptors := sound.descriptors
  peers := sound.peers
  nodup := by
    refine List.nodup_append.mpr ⟨sound.nodup, List.nodup_singleton _, ?_⟩
    rintro pointer isCompleted other isLast rfl
    rw [List.mem_singleton] at isLast
    rw [isLast, sound.released k isUsed, mine, found] at isCompleted
    obtain ⟨ctx', same, released⟩ := isCompleted
    cases same
    rw [blocking] at released
    cases released
  completed pointer isCompleted := by
    rcases List.mem_append.mp isCompleted with before | isLast
    · exact sound.completed pointer before
    · rw [List.mem_singleton] at isLast
      exact isLast ▸ ⟨rfl, isUsed⟩
  released i isUsed' := by
    show _ ∈ q.completedQueue ++ [⟨q.block, k⟩] ↔
      ∃ c, Function.update contexts sd _ (q.connectionQueue i).sd = some c ∧ _
    rw [List.mem_append, List.mem_singleton]
    by_cases here : (q.connectionQueue i).sd = sd
    · have same := sound.descriptors i isUsed' k isUsed (here.trans mine.symm)
      rw [here, Function.update_self]
      exact ⟨fun _ => ⟨_, rfl, rfl⟩, fun _ => .inr (by rw [same]; rfl)⟩
    · have other : i ≠ k := by
        rintro rfl
        exact here mine
      rw [Function.update_of_ne here, ← sound.released i isUsed']
      exact ⟨fun either => either.resolve_right fun same => other (Pointer.mk.inj same).2, .inl⟩

/-- A queued connection completes: its context is released and its entry joins the completed
queue. -/
theorem Sound.complete (sound : Sound contexts queues) {sd : Int} {ctx : Context} {q : ListenQueue}
    {k errno : Nat} {returned : Bool} (found : contexts sd = some ctx)
    (blocking : ctx.blocking = true) (queued : queues ctx.listenSd = some q) (isUsed : k ∈ q.used)
    (mine : (q.connectionQueue k).sd = sd) :
    Sound (Function.update contexts sd (some (ctx.released errno returned)))
      (Function.update queues ctx.listenSd (some (addCompleted q k))) where
  placed other ctx' found' := by
    by_cases here : other = sd
    · rw [here, Function.update_self] at found'
      cases found'
      exact here ▸ sound.placed sd ctx found
    · rw [Function.update_of_ne here] at found'
      exact sound.placed other ctx' found'
  listener other q' queued' := by
    have before : ∃ q, queues other = some q := by
      by_cases there : other = ctx.listenSd
      · exact ⟨q, there ▸ queued⟩
      · rw [Function.update_of_ne there] at queued'
        exact ⟨q', queued'⟩
    obtain ⟨_, before⟩ := before
    obtain ⟨lctx, lfound, listens⟩ := sound.listener other _ before
    by_cases here : other = sd
    · rw [here, found] at lfound
      cases lfound
      exact ⟨ctx.released errno returned, by rw [here, Function.update_self], listens⟩
    · exact ⟨lctx, by rw [Function.update_of_ne here, lfound], listens⟩
  listening other ctx' found' listens := by
    have before : ctx'.bound = true ∧ ctx'.transportThreadStarted = false ∧
        (queues other).isSome := by
      by_cases here : other = sd
      · rw [here, Function.update_self] at found'
        cases found'
        exact here ▸ sound.listening sd ctx found listens
      · rw [Function.update_of_ne here] at found'
        exact sound.listening other ctx' found' listens
    refine ⟨before.1, before.2.1, ?_⟩
    by_cases there : other = ctx.listenSd
    · rw [there, Function.update_self]
      rfl
    · rw [Function.update_of_ne there]
      exact before.2.2
  origin other ctx' found' started := by
    by_cases here : other = sd
    · rw [here, Function.update_self] at found'
      cases found'
      exact sound.origin sd ctx found started
    · rw [Function.update_of_ne here] at found'
      exact sound.origin other ctx' found' started
  receiver :=
    have before := sound.receiver sd ctx found
    sound.receivers_update ⟨before.running, before.accepted⟩
  queue other q' queued' := by
    by_cases there : other = ctx.listenSd
    · rw [there, Function.update_self] at queued'
      cases queued'
      rw [there]
      exact (sound.queue _ q queued).complete found blocking isUsed mine
    · rw [Function.update_of_ne there] at queued'
      refine (sound.queue other q' queued').keep fun i isUsed' => Function.update_of_ne ?_ ..
      exact fun same => there (sound.apart queued' queued isUsed' isUsed (same.trans mine.symm))
  pending other ctx' found' started isBlocking := by
    by_cases here : other = sd
    · rw [here, Function.update_self] at found'
      cases found'
      cases isBlocking
    · rw [Function.update_of_ne here] at found'
      obtain ⟨passive, p, queued', i, isUsed', mine'⟩ :=
        sound.pending other ctx' found' started isBlocking
      refine ⟨passive, ?_⟩
      by_cases there : ctx'.listenSd = ctx.listenSd
      · rw [there, queued] at queued'
        cases queued'
        exact ⟨addCompleted q k, by rw [there, Function.update_self], i, isUsed', mine'⟩
      · exact ⟨p, by rw [Function.update_of_ne there, queued'], i, isUsed', mine'⟩

/-- The queue without its first completed request. -/
theorem QueueSound.take {listener : Int} {q : ListenQueue} {pointer : Pointer} {rest : List Pointer}
    (sound : QueueSound contexts listener q) (first : q.completedQueue = pointer :: rest) :
    QueueSound contexts listener (takeRequest q pointer rest) := by
  obtain ⟨isBlock, isUsed⟩ := sound.completed pointer (first ▸ List.mem_cons_self)
  have nodup := sound.nodup
  rw [first, List.nodup_cons] at nodup
  have used := used_takeRequest q pointer rest
  have elsewhere : ∀ i, i ≠ pointer.index →
      (takeRequest q pointer rest).connectionQueue i = q.connectionQueue i :=
    fun i other => Function.update_of_ne other ..
  refine ⟨?_, ?_, ?_, ?_, ?_, nodup.2, ?_, ?_⟩
  · intro i below notUsed
    by_cases here : i = pointer.index
    · rw [here]
      exact Function.update_self ..
    · rw [used, Finset.mem_erase, not_and] at notUsed
      rw [elsewhere i here]
      exact sound.empty i below (notUsed here)
  · intro i isUsed'
    rw [used, Finset.mem_erase] at isUsed'
    rw [elsewhere i isUsed'.1]
    exact sound.request i isUsed'.2
  · rw [used, Finset.card_erase_of_mem isUsed, ← sound.count]
    rfl
  · intro i inI j inJ same
    rw [used, Finset.mem_erase] at inI inJ
    rw [elsewhere i inI.1, elsewhere j inJ.1] at same
    exact sound.descriptors i inI.2 j inJ.2 same
  · intro i inI j inJ same
    rw [used, Finset.mem_erase] at inI inJ
    rw [elsewhere i inI.1, elsewhere j inJ.1] at same
    exact sound.peers i inI.2 j inJ.2 same
  · intro other isCompleted
    obtain ⟨otherBlock, otherUsed⟩ :=
      sound.completed other (first ▸ List.mem_cons_of_mem _ isCompleted)
    refine ⟨otherBlock, used ▸ Finset.mem_erase.mpr ⟨?_, otherUsed⟩⟩
    intro sameIndex
    have same : other = pointer := by
      rw [← isBlock] at otherBlock
      cases other
      cases pointer
      simp_all
    exact nodup.1 (same ▸ isCompleted)
  · intro i inI
    rw [used, Finset.mem_erase] at inI
    rw [elsewhere i inI.1, ← sound.released i inI.2, first, List.mem_cons]
    refine ⟨.inr, fun either => either.resolve_left ?_⟩
    rintro rfl
    exact inI.1 rfl

/-- `myaccept` takes the first completed request off its queue. -/
theorem Sound.dequeue (sound : Sound contexts queues) {listener : Int} {q : ListenQueue}
    {pointer : Pointer} {rest : List Pointer} (queued : queues listener = some q)
    (first : q.completedQueue = pointer :: rest) :
    Sound contexts (Function.update queues listener (some (takeRequest q pointer rest))) where
  placed := sound.placed
  listener other q' queued' := by
    by_cases there : other = listener
    · exact there ▸ sound.listener listener q queued
    · rw [Function.update_of_ne there] at queued'
      exact sound.listener other q' queued'
  listening other ctx found listens := by
    obtain ⟨isBound, started, isQueued⟩ := sound.listening other ctx found listens
    refine ⟨isBound, started, ?_⟩
    by_cases there : other = listener
    · rw [there, Function.update_self]
      rfl
    · rwa [Function.update_of_ne there]
  origin := sound.origin
  receiver := sound.receiver
  queue other q' queued' := by
    by_cases there : other = listener
    · rw [there, Function.update_self] at queued'
      cases queued'
      exact there ▸ (sound.queue listener q queued).take first
    · rw [Function.update_of_ne there] at queued'
      exact sound.queue other q' queued'
  pending other ctx found started blocking := by
    obtain ⟨passive, p, queued', i, isUsed, mine⟩ := sound.pending other ctx found started blocking
    refine ⟨passive, ?_⟩
    by_cases there : ctx.listenSd = listener
    · rw [there, queued] at queued'
      cases queued'
      have before := sound.queue listener q queued
      have kept : i ≠ pointer.index := by
        rintro rfl
        have isFirst := before.completed pointer (first ▸ List.mem_cons_self)
        have isCompleted : (⟨q.block, pointer.index⟩ : Pointer) ∈ q.completedQueue := by
          rw [first, ← isFirst.1]
          exact List.mem_cons_self
        obtain ⟨ctx', found', released⟩ := (before.released _ isFirst.2).mp isCompleted
        rw [mine, found] at found'
        cases found'
        rw [blocking] at released
        cases released
      refine ⟨_, by rw [there, Function.update_self], i, ?_, ?_⟩
      · rw [used_takeRequest]
        exact Finset.mem_erase.mpr ⟨kept, isUsed⟩
      · rw [← mine]
        exact congrArg ConnectRequest.sd (Function.update_of_ne kept ..)
    · exact ⟨p, by rw [Function.update_of_ne there, queued'], i, isUsed, mine⟩

/-- A mysocket starts to listen, with an empty queue. -/
theorem Sound.listen (sound : Sound contexts queues) {sd : Int} {ctx : Context} {q : ListenQueue}
    {receiver : Receiver} (found : contexts sd = some ctx) (isBound : ctx.bound = true)
    (silent : ctx.listening = false) (unstarted : ctx.transportThreadStarted = false)
    (notReading : receiver ≠ .reading)
    (empty : ∀ k < q.maxLen, q.connectionQueue k = ConnectRequest.invalid) (noneYet : q.curLen = 0)
    (noneCompleted : q.completedQueue = []) :
    Sound (Function.update contexts sd (some { ctx with listening := true, receiver := receiver }))
      (Function.update queues sd (some q)) := by
  have absent := sound.absent found silent
  have noneUsed : q.used = ∅ := by
    refine Finset.eq_empty_of_forall_notMem fun k isUsed => ?_
    obtain ⟨below, holds⟩ := ListenQueue.mem_used.mp isUsed
    rw [empty k below] at holds
    exact holds rfl
  refine ⟨?_, ?_, ?_, ?_, sound.receivers_update ⟨fun _ => .inl rfl, ?_⟩, ?_, ?_⟩
  · intro other ctx' found'
    by_cases here : other = sd
    · rw [here, Function.update_self] at found'
      cases found'
      exact here ▸ sound.placed sd ctx found
    · rw [Function.update_of_ne here] at found'
      exact sound.placed other ctx' found'
  · intro other q' queued'
    by_cases here : other = sd
    · exact ⟨_, by rw [here, Function.update_self], rfl⟩
    · rw [Function.update_of_ne here] at queued' ⊢
      exact sound.listener other q' queued'
  · intro other ctx' found' listens
    by_cases here : other = sd
    · rw [here, Function.update_self] at found' ⊢
      cases found'
      exact ⟨isBound, unstarted, rfl⟩
    · rw [Function.update_of_ne here] at found' ⊢
      exact sound.listening other ctx' found' listens
  · intro other ctx' found' started
    by_cases here : other = sd
    · rw [here, Function.update_self] at found'
      cases found'
      exact sound.origin sd ctx found started
    · rw [Function.update_of_ne here] at found'
      exact sound.origin other ctx' found' started
  · exact fun _ reads => absurd reads notReading
  · intro other q' queued'
    by_cases here : other = sd
    · rw [here, Function.update_self] at queued'
      cases queued'
      refine ⟨fun k below _ => empty k below, ?_, ?_, ?_, ?_, ?_, ?_, ?_⟩
      · simp [noneUsed]
      · rw [noneYet, noneUsed]
        rfl
      · simp [noneUsed]
      · simp [noneUsed]
      · simp [noneCompleted]
      · simp [noneCompleted]
      · simp [noneUsed]
    · rw [Function.update_of_ne here] at queued'
      refine (sound.queue other q' queued').keep fun k isUsed => Function.update_of_ne ?_ ..
      intro same
      obtain ⟨ctx', found', serves⟩ := ((sound.queue other q' queued').request k isUsed).serves
      rw [same, found] at found'
      cases found'
      have started := serves.started
      rw [unstarted] at started
      cases started
  · intro other ctx' found' started blocking
    by_cases here : other = sd
    · rw [here, Function.update_self] at found'
      cases found'
      rw [unstarted] at started
      cases started
    · rw [Function.update_of_ne here] at found'
      obtain ⟨passive, p, queued', rest⟩ := sound.pending other ctx' found' started blocking
      refine ⟨passive, p, ?_, rest⟩
      rw [Function.update_of_ne, queued']
      intro same
      rw [same, absent] at queued'
      cases queued'

/-- The contexts without those of the requests of the given entries. -/
def withoutEntries (contexts : Contexts) (q : ListenQueue) (entries : List Nat) : Contexts :=
  fun sd =>
    if ∃ k ∈ entries, (q.connectionQueue k).sd ≠ -1 ∧ (q.connectionQueue k).sd = sd then none
    else contexts sd

theorem withoutEntries_eq_some {q : ListenQueue} {entries : List Nat} {sd : Int} {ctx : Context} :
    withoutEntries contexts q entries sd = some ctx ↔ contexts sd = some ctx ∧
      ∀ k ∈ entries, (q.connectionQueue k).sd ≠ -1 → (q.connectionQueue k).sd ≠ sd := by
  rw [withoutEntries]
  split
  · rename_i gone
    obtain ⟨k, inEntries, holds, same⟩ := gone
    exact ⟨nofun, fun both => absurd same (both.2 k inEntries holds)⟩
  · rename_i kept
    have others : ∀ k ∈ entries, (q.connectionQueue k).sd ≠ -1 → (q.connectionQueue k).sd ≠ sd :=
      fun k inEntries holds same => kept ⟨k, inEntries, holds, same⟩
    exact ⟨fun found => ⟨found, others⟩, And.left⟩

theorem withoutEntries_of_ne {q : ListenQueue} {entries : List Nat} {sd : Int}
    (other : ∀ k ∈ entries, (q.connectionQueue k).sd ≠ -1 → (q.connectionQueue k).sd ≠ sd) :
    withoutEntries contexts q entries sd = contexts sd := by
  rw [withoutEntries, if_neg]
  rintro ⟨k, inEntries, holds, same⟩
  exact other k inEntries holds same

/-- A queue with the requests of these entries only. -/
def remaining (q : ListenQueue) (entries : List Nat) : ListenQueue :=
  { q with
    curLen := (q.used.filter (· ∈ entries)).card
    connectionQueue := fun k => if k ∈ entries then q.connectionQueue k else ConnectRequest.invalid
    completedQueue := q.completedQueue.filter fun pointer => decide (pointer.index ∈ entries) }

theorem used_remaining (q : ListenQueue) (entries : List Nat) :
    (remaining q entries).used = q.used.filter (· ∈ entries) := by
  ext k
  rw [Finset.mem_filter, ListenQueue.mem_used, ListenQueue.mem_used]
  by_cases inEntries : k ∈ entries
  · simp [remaining, inEntries]
  · simp [remaining, inEntries, ConnectRequest.invalid]

theorem connectionQueue_remaining (q : ListenQueue) {entries : List Nat} {k : Nat}
    (inEntries : k ∈ entries) : (remaining q entries).connectionQueue k = q.connectionQueue k :=
  if_pos inEntries

theorem remaining_remaining (q : ListenQueue) {entries left : List Nat} (fewer : left ⊆ entries) :
    remaining (remaining q entries) left = remaining q left := by
  have sameUsed : (remaining q entries).used.filter (· ∈ left) = q.used.filter (· ∈ left) := by
    rw [used_remaining, Finset.filter_filter]
    exact Finset.filter_congr fun k _ => ⟨And.right, fun inLeft => ⟨fewer inLeft, inLeft⟩⟩
  unfold remaining at sameUsed ⊢
  simp only [sameUsed, ListenQueue.mk.injEq, true_and, List.filter_filter]
  constructor
  · funext k
    by_cases inLeft : k ∈ left
    · rw [if_pos inLeft, if_pos inLeft, if_pos (fewer inLeft)]
    · rw [if_neg inLeft, if_neg inLeft]
  · refine List.filter_congr fun pointer _ => ?_
    by_cases inLeft : pointer.index ∈ left
    · simp [inLeft, fewer inLeft]
    · simp [inLeft]

theorem withoutEntries_congr {q q' : ListenQueue} {entries : List Nat}
    (same : ∀ k ∈ entries, q'.connectionQueue k = q.connectionQueue k) :
    withoutEntries contexts q' entries = withoutEntries contexts q entries := by
  funext sd
  unfold withoutEntries
  refine if_congr (exists_congr fun k => and_congr_right fun inEntries => ?_) rfl rfl
  rw [same k inEntries]

/-- The queue of the requests whose contexts stay. -/
theorem QueueSound.rest {other : Contexts} {listener : Int} {q : ListenQueue} {entries : List Nat}
    (sound : QueueSound contexts listener q)
    (kept : ∀ k ∈ q.used, k ∈ entries →
      other (q.connectionQueue k).sd = contexts (q.connectionQueue k).sd) :
    QueueSound other listener (remaining q entries) := by
  have inBoth : ∀ {k}, k ∈ (remaining q entries).used → k ∈ q.used ∧ k ∈ entries := by
    intro k isUsed
    rwa [used_remaining, Finset.mem_filter] at isUsed
  refine ⟨?_, ?_, ?_, ?_, ?_, sound.nodup.filter _, ?_, ?_⟩
  · intro k below notUsed
    by_cases inEntries : k ∈ entries
    · rw [connectionQueue_remaining q inEntries]
      refine sound.empty k below fun isUsed => notUsed ?_
      rw [used_remaining, Finset.mem_filter]
      exact ⟨isUsed, inEntries⟩
    · exact if_neg inEntries
  · intro k isUsed
    obtain ⟨isUsed, inEntries⟩ := inBoth isUsed
    rw [connectionQueue_remaining q inEntries]
    have before := sound.request k isUsed
    obtain ⟨ctx, found, serves⟩ := before.serves
    exact { before with serves := ⟨ctx, (kept k isUsed inEntries).trans found, serves⟩ }
  · rw [used_remaining]
    rfl
  · intro i inI j inJ same
    obtain ⟨usedI, entryI⟩ := inBoth inI
    obtain ⟨usedJ, entryJ⟩ := inBoth inJ
    rw [connectionQueue_remaining q entryI, connectionQueue_remaining q entryJ] at same
    exact sound.descriptors i usedI j usedJ same
  · intro i inI j inJ same
    obtain ⟨usedI, entryI⟩ := inBoth inI
    obtain ⟨usedJ, entryJ⟩ := inBoth inJ
    rw [connectionQueue_remaining q entryI, connectionQueue_remaining q entryJ] at same
    exact sound.peers i usedI j usedJ same
  · intro pointer isCompleted
    obtain ⟨isCompleted, inEntries⟩ := List.mem_filter.mp isCompleted
    obtain ⟨isBlock, isUsed⟩ := sound.completed pointer isCompleted
    refine ⟨isBlock, ?_⟩
    rw [used_remaining, Finset.mem_filter]
    exact ⟨isUsed, of_decide_eq_true inEntries⟩
  · intro k isUsed
    obtain ⟨isUsed, inEntries⟩ := inBoth isUsed
    rw [connectionQueue_remaining q inEntries, kept k isUsed inEntries, ← sound.released k isUsed]
    exact List.mem_filter.trans (and_iff_left (decide_eq_true inEntries))

/-- The requests of some entries of a queue are closed, and their contexts go away. -/
theorem Sound.closeRequests (sound : Sound contexts queues) {listener : Int} {q : ListenQueue}
    (queued : queues listener = some q) {closed left : List Nat}
    (covers : ∀ k ∈ q.used, k ∈ closed ∨ k ∈ left) (apart : ∀ k ∈ closed, k ∉ left)
    (inside : ∀ k ∈ closed, k < q.maxLen) :
    Sound (withoutEntries contexts q closed)
      (Function.update queues listener (some (remaining q left))) := by
  have isUsed : ∀ {k}, k ∈ closed → (q.connectionQueue k).sd ≠ -1 → k ∈ q.used :=
    fun inClosed holds => ListenQueue.mem_used.mpr ⟨inside _ inClosed, holds⟩
  have listens : ∀ {sd ctx}, contexts sd = some ctx → ctx.listening = true →
      withoutEntries contexts q closed sd = some ctx := by
    intro sd ctx found isListening
    refine withoutEntries_eq_some.mpr ⟨found, fun k inClosed holds same => ?_⟩
    obtain ⟨ctx', found', serves⟩ :=
      ((sound.queue listener q queued).request k (isUsed inClosed holds)).serves
    rw [same, found] at found'
    cases found'
    exact absurd (isListening.symm.trans serves.connected) (by decide)
  refine ⟨?_, ?_, ?_, ?_, ?_, ?_, ?_⟩
  · exact fun sd ctx found => sound.placed sd ctx (withoutEntries_eq_some.mp found).1
  · intro other p queued'
    have before : ∃ p, queues other = some p := by
      by_cases here : other = listener
      · exact ⟨q, here ▸ queued⟩
      · rw [Function.update_of_ne here] at queued'
        exact ⟨p, queued'⟩
    obtain ⟨_, before⟩ := before
    obtain ⟨ctx, found, isListening⟩ := sound.listener other _ before
    exact ⟨ctx, listens found isListening, isListening⟩
  · intro other ctx found isListening
    obtain ⟨isBound, unstarted, isSome⟩ :=
      sound.listening other ctx (withoutEntries_eq_some.mp found).1 isListening
    refine ⟨isBound, unstarted, ?_⟩
    by_cases here : other = listener
    · rw [here, Function.update_self]
      rfl
    · rwa [Function.update_of_ne here]
  · exact fun sd ctx found => sound.origin sd ctx (withoutEntries_eq_some.mp found).1
  · exact fun sd ctx found => sound.receiver sd ctx (withoutEntries_eq_some.mp found).1
  · intro other p queued'
    by_cases here : other = listener
    · rw [here, Function.update_self] at queued'
      cases queued'
      rw [here]
      refine (sound.queue listener q queued).rest fun k inUse inLeft => withoutEntries_of_ne ?_
      intro i inClosed holds same
      have sameEntry :=
        (sound.queue listener q queued).descriptors i (isUsed inClosed holds) k inUse same
      exact apart i inClosed (sameEntry ▸ inLeft)
    · rw [Function.update_of_ne here] at queued'
      refine (sound.queue other p queued').keep fun k inUse => withoutEntries_of_ne ?_
      intro i inClosed holds same
      exact here (sound.apart queued queued' (isUsed inClosed holds) inUse same).symm
  · intro other ctx found started blocking
    obtain ⟨found, kept⟩ := withoutEntries_eq_some.mp found
    obtain ⟨passive, p, queued', k, inUse, mine⟩ := sound.pending other ctx found started blocking
    refine ⟨passive, ?_⟩
    by_cases here : ctx.listenSd = listener
    · rw [here, queued] at queued'
      cases queued'
      have inLeft : k ∈ left := (covers k inUse).resolve_left fun inClosed =>
        kept k inClosed (ListenQueue.mem_used.mp inUse).2 mine
      refine ⟨_, by rw [here, Function.update_self], k, ?_, ?_⟩
      · rw [used_remaining, Finset.mem_filter]
        exact ⟨inUse, inLeft⟩
      · rw [connectionQueue_remaining q inLeft, mine]
    · exact ⟨p, by rw [Function.update_of_ne here, queued'], k, inUse, mine⟩

/-- A listening mysocket without queued connections goes away. -/
theorem Sound.removeListener (sound : Sound contexts queues) {sd : Int} {q : ListenQueue}
    (queued : queues sd = some q) (noneUsed : q.used = ∅) :
    Sound (Function.update contexts sd none) (Function.update queues sd none) := by
  have kept : ∀ {other ctx}, Function.update contexts sd none other = some ctx →
      other ≠ sd ∧ contexts other = some ctx := by
    intro other ctx found
    by_cases here : other = sd
    · rw [here, Function.update_self] at found
      cases found
    · rw [Function.update_of_ne here] at found
      exact ⟨here, found⟩
  have queuedBefore : ∀ {other p}, Function.update queues sd none other = some p →
      other ≠ sd ∧ queues other = some p := by
    intro other p queued'
    by_cases here : other = sd
    · rw [here, Function.update_self] at queued'
      cases queued'
    · rw [Function.update_of_ne here] at queued'
      exact ⟨here, queued'⟩
  obtain ⟨lctx, lfound, listens⟩ := sound.listener sd q queued
  refine ⟨?_, ?_, ?_, ?_, ?_, ?_, ?_⟩
  · exact fun other ctx found => sound.placed other ctx (kept found).2
  · intro other p queued'
    obtain ⟨here, queued'⟩ := queuedBefore queued'
    rw [Function.update_of_ne here]
    exact sound.listener other p queued'
  · intro other ctx found isListening
    obtain ⟨here, found⟩ := kept found
    rw [Function.update_of_ne here]
    exact sound.listening other ctx found isListening
  · exact fun other ctx found => sound.origin other ctx (kept found).2
  · exact fun other ctx found => sound.receiver other ctx (kept found).2
  · intro other p queued'
    obtain ⟨_, queued'⟩ := queuedBefore queued'
    refine (sound.queue other p queued').keep fun k isUsed => Function.update_of_ne ?_ ..
    exact sound.notRequest queued' lfound listens k isUsed
  · intro other ctx found started blocking
    obtain ⟨_, found⟩ := kept found
    obtain ⟨passive, p, queued', k, isUsed, mine⟩ := sound.pending other ctx found started blocking
    refine ⟨passive, p, ?_, k, isUsed, mine⟩
    rw [Function.update_of_ne, queued']
    intro same
    rw [same, queued] at queued'
    cases queued'
    rw [noneUsed] at isUsed
    exact absurd isUsed (Finset.notMem_empty k)

end Transitions

end EE323.Stcp.Demux

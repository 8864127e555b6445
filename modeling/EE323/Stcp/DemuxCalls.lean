/-
Module: EE323.Stcp.DemuxCalls
Purpose: Each call on a sound descriptor table and sound queues of connection requests has its
  effect, has to wait, or breaks one of two assertions.
Main exports: Views, MeetsSpec, mysocket_spec, mybind_spec, mylisten_spec, poll_spec, receive_spec,
  unblock_spec, finish_spec, myaccept_spec, resume_spec, myclose_spec, goOn_spec
-/
import EE323.Stcp.DemuxEffect

namespace EE323.Stcp.Demux

open EE323.Lib
open Framing (MAX_IP_PAYLOAD_LEN)

/-- The queues as the calls see them: what the table has, with what is left of the one that is being
closed. -/
def Views (s : State) (queues : Queues) : Prop :=
  ∃ table, HashTable.Maps listenTable s.listenQueues table ∧
    match s.closing with
    | none => queues = table
    | some c => table c.listener = some c.queue ∧
        queues = Function.update table c.listener (some (remaining c.queue c.entries))

theorem Views.maps {s : State} {queues : Queues} (views : Views s queues)
    (free : s.closing = none) : HashTable.Maps listenTable s.listenQueues queues := by
  obtain ⟨table, maps, seen⟩ := views
  rw [free] at seen
  exact seen ▸ maps

theorem Views.of_maps {s : State} {queues : Queues} (free : s.closing = none)
    (maps : HashTable.Maps listenTable s.listenQueues queues) : Views s queues := by
  refine ⟨queues, maps, ?_⟩
  rw [free]

/-- The outcome of a call is an effect, and the queues stay in the table. -/
def HasEffect (s : State) (queues : Queues) (action : Action) (outcome : Outcome) : Prop :=
  ∃ queues', Views outcome.state queues' ∧
    Effect (s.view queues) action outcome.accepted outcome.queued (outcome.state.view queues')

/-- A call returns with its effect, or stops as it may. -/
abbrev MeetsSpec (s : State) (queues : Queues) (action : Action) : Prop :=
  Ensures (Stops s action) (HasEffect s queues action) (perform s action)

section Calls

variable {s : State} {queues : Queues}

theorem mysockGetContext_of {sd : Int} {ctx : Context} (found : s.globalCtx sd = some ctx)
    (placed : 0 ≤ sd ∧ sd < MAX_NUM_CONNECTIONS ∧ ctx.mySd = sd) :
    mysockGetContext s sd = .ok ctx := by
  rw [mysockGetContext, found]
  exact if_pos placed

theorem mysockGetContext_eq (sound : Sound s.globalCtx queues) {sd : Int} {ctx : Context}
    (found : s.globalCtx sd = some ctx) : mysockGetContext s sd = .ok ctx :=
  mysockGetContext_of found (sound.placed sd ctx found)

theorem contextOf_eq {sd : Int} {ctx : Context} (found : s.globalCtx sd = some ctx) :
    contextOf s sd = .ok ctx := by
  rw [contextOf, found]

theorem Sound.covers (sound : Sound s.globalCtx queues) {sd : Int} {ctx : Context}
    (found : s.globalCtx sd = some ctx) : listenTable.covers ctx.mySd = true := by
  obtain ⟨nonnegative, below, mine⟩ := sound.placed sd ctx found
  rw [mine]
  exact covers_descriptor nonnegative below

/-- A listening mysocket has its queue in the table. -/
theorem Sound.lookup (sound : Sound s.globalCtx queues) {after : State}
    (maps : HashTable.Maps listenTable after.listenQueues queues) {sd : Int} {ctx : Context}
    {q : ListenQueue} (found : s.globalCtx sd = some ctx) (listens : ctx.listening = true)
    (hasQueue : queues sd = some q) : getConnectionQueue after ctx = .ok (some q) := by
  have isBound := (sound.listening sd ctx found listens).1
  rw [getConnectionQueue_eq maps ⟨listens, isBound⟩ (sound.covers found),
    (sound.placed sd ctx found).2.2, hasQueue]

theorem freeDescriptor_eq {k : Int} (free : freeDescriptor s = some k) :
    0 ≤ k ∧ k < MAX_NUM_CONNECTIONS ∧ s.globalCtx k = none := by
  have isFree := List.find?_some free
  have inTable := List.mem_of_find?_eq_some free
  obtain ⟨n, below, rfl⟩ := List.mem_map.mp inTable
  have below := List.mem_range.mp below
  refine ⟨Int.natCast_nonneg n, ?_, by simpa using isFree⟩
  show (n : Int) < 64
  omega

theorem mysocket_spec (views : Views s queues)
    (isReliable : Bool) (socket : Int) : MeetsSpec s queues (.mysocket isReliable socket) := by
  refine .ok ?_
  unfold mysockNewMysocket
  split
  · rename_i k free
    obtain ⟨nonnegative, below, isFree⟩ := freeDescriptor_eq free
    refine ⟨queues, views,
      .allocated isReliable socket nonnegative below isFree rfl ⟨rfl, rfl⟩ ?_ rfl⟩
    exact ⟨fun running => absurd rfl running, fun listens => by cases listens⟩
  · exact ⟨queues, views, .tableFull isReliable socket⟩

theorem mybind_spec (views : Views s queues)
    (sound : Sound s.globalCtx queues) {sd : Int} {ctx : Context}
    (found : s.globalCtx sd = some ctx) (silent : ctx.listening = false) :
    MeetsSpec s queues (.mybind sd) := by
  have result : mybind s sd = .ok (s.setContext sd (some { ctx with bound := true })) :=
    bind_eq_ok.mpr ⟨ctx, mysockGetContext_eq sound found,
      bind_eq_ok.mpr ⟨(), check_eq silent, rfl⟩⟩
  rw [MeetsSpec, perform, result]
  exact .ok ⟨queues, views, .bound found⟩

theorem growQueue_newQueue (localPort maxLen : Nat) :
    (∀ k < (growQueue (newQueue localPort) maxLen).maxLen,
      (growQueue (newQueue localPort) maxLen).connectionQueue k = ConnectRequest.invalid) ∧
      (growQueue (newQueue localPort) maxLen).curLen = 0 ∧
      (growQueue (newQueue localPort) maxLen).completedQueue = [] := by
  unfold growQueue
  split
  · refine ⟨fun k _ => ?_, rfl, rfl⟩
    show (if _ then _ else _) = _
    split <;> rfl
  · exact ⟨fun k _ => rfl, rfl, rfl⟩

/-- A lock that no call holds is had at once. -/
theorem lockForReading_eq (free : s.closing = none) : lockForReading s = .ok () :=
  if_pos (by rw [free]; rfl)

theorem lockForReading_held (held : s.closing ≠ none) : lockForReading s = .error .blocks :=
  if_neg (by simpa using held)

theorem lockForWriting_eq (free : s.Unlocked) : lockForWriting s = .ok () :=
  if_pos ⟨free.1, by rw [free.2]; rfl⟩

theorem lockForWriting_held (held : ¬s.Unlocked) : lockForWriting s = .error .blocks :=
  if_neg (by simpa [State.Unlocked] using held)

theorem mylisten_spec (views : Views s queues)
    (sound : Sound s.globalCtx queues) {sd : Int} {ctx : Context}
    (found : s.globalCtx sd = some ctx) (isBound : ctx.bound = true)
    (silent : ctx.listening = false) (unstarted : ctx.transportThreadStarted = false)
    (backlog : Nat)
    {localPort : Nat} (isPort : 0 < localPort) (listens : Bool) :
    MeetsSpec s queues (.mylisten sd backlog localPort listens) := by
  let listening : Context :=
    { ctx with listening := true, receiver := if listens then .polling else ctx.receiver }
  have mine : ctx.mySd = sd := (sound.placed sd ctx found).2.2
  have covered : listenTable.covers sd = true := mine ▸ sound.covers found
  have absent := sound.absent found silent
  have ready : listening.listening = true ∧ listening.bound = true := ⟨rfl, isBound⟩
  have begins : mylisten s sd backlog localPort listens =
      mysockSetBacklog (s.setContext sd (some listening)) listening backlog localPort := by
    simp only [mylisten, mysockGetContext_eq sound found, bind, Except.bind, check_eq isBound]
    rfl
  by_cases free : s.Unlocked
  · have maps := views.maps free.2
    have looked : getConnectionQueue (s.setContext sd (some listening)) listening = .ok none := by
      have lookup := getConnectionQueue_eq (s := s.setContext sd (some listening)) maps ready
        (mine.symm ▸ covered)
      rwa [show listening.mySd = sd from mine, absent] at lookup
    obtain ⟨inserted, insertEq, insertedMaps⟩ :=
      insertQueue_eq maps covered absent (newQueue localPort)
    let created : State := { s.setContext sd (some listening) with listenQueues := inserted }
    obtain ⟨after, setEq, afterMaps⟩ := setQueue_eq (s := created) insertedMaps covered
      (growQueue (newQueue localPort) ((backlog + 1) % 0x100000000))
    obtain ⟨empty, noneYet, noneCompleted⟩ :=
      growQueue_newQueue localPort ((backlog + 1) % 0x100000000)
    have isCreated : queueForBacklog (s.setContext sd (some listening)) listening localPort none =
        .ok (newQueue localPort, created) := by
      rw [queueForBacklog, show listening.mySd = sd from mine]
      exact bind_eq_ok.mpr ⟨inserted, by rw [State.setContext, insertEq]; rfl, rfl⟩
    have result : mylisten s sd backlog localPort listens =
        .ok { created with listenQueues := after } := by
      refine begins.trans (bind_eq_ok.mpr ⟨(), check_eq ready, ?_⟩)
      refine bind_eq_ok.mpr ⟨(), check_eq isPort, bind_eq_ok.mpr ⟨(), lockForWriting_eq free, ?_⟩⟩
      refine bind_eq_ok.mpr ⟨_, looked, bind_eq_ok.mpr ⟨_, isCreated, ?_⟩⟩
      refine bind_eq_ok.mpr ⟨(), check_eq rfl, ?_⟩
      rw [show listening.mySd = sd from mine]
      exact setEq
    have notReading : (if listens then .polling else ctx.receiver) ≠ Receiver.reading := by
      cases listens with
      | true => simp
      | false =>
          intro reads
          have reads : ctx.receiver = .reading := by simpa using reads
          rcases sound.runs found (by rw [reads]; decide) with isListening | started
          · exact absurd (silent.symm.trans isListening) (by decide)
          · exact absurd (unstarted.symm.trans started) (by decide)
    rw [Function.update_idem] at afterMaps
    rw [MeetsSpec, perform, result]
    exact .ok ⟨_, .of_maps free.2 afterMaps, .listening backlog localPort listens free found isBound
      silent unstarted notReading empty noneYet noneCompleted⟩
  · have result : mylisten s sd backlog localPort listens = .error .blocks := by
      have held : lockForWriting (s.setContext sd (some listening)) = .error .blocks :=
        lockForWriting_held free
      simp only [begins, mysockSetBacklog, bind, Except.bind, check_eq ready, check_eq isPort, held]
    rw [MeetsSpec, perform, result]
    exact .error (.waits (.listen free))

/-! ### Completed connections -/

/-- The entry of a queued mysocket is found. -/
theorem entryOf_eq (q : ListenQueue) (sd : Int) (holds : sd ≠ -1) {k : Nat} (isUsed : k ∈ q.used)
    (mine : (q.connectionQueue k).sd = sd) :
    ∃ i ∈ q.used, entryOf q sd = some i ∧ (q.connectionQueue i).sd = sd := by
  cases search : entryOf q sd with
  | none =>
      rw [entryOf] at search
      have nowhere := List.find?_eq_none.mp search k
        (List.mem_range.mpr (ListenQueue.mem_used.mp isUsed).1)
      exact absurd (decide_eq_true mine) nowhere
  | some i =>
      rw [entryOf] at search
      have isMine : (q.connectionQueue i).sd = sd := by simpa using List.find?_some search
      have below := List.mem_range.mp (List.mem_of_find?_eq_some search)
      exact ⟨i, ListenQueue.mem_used.mpr ⟨below, isMine ▸ holds⟩, rfl, isMine⟩

/-- A transport thread that releases its application completes its connection. -/
theorem stcpUnblockApplication_eq (maps : HashTable.Maps listenTable s.listenQueues queues)
    (free : s.closing = none) (sound : Sound s.globalCtx queues) {sd : Int} {ctx : Context}
    (found : s.globalCtx sd = some ctx) (started : ctx.transportThreadStarted = true)
    (blocking : ctx.blocking = true) (errno : Nat) :
    ∃ q k reported after, queues ctx.listenSd = some q ∧ k ∈ q.used ∧
      (q.connectionQueue k).sd = sd ∧
      HashTable.Maps listenTable after
        (Function.update queues ctx.listenSd (some (addCompleted q k))) ∧
      stcpUnblockApplication s sd errno = .ok { s with
        globalCtx := Function.update s.globalCtx sd
          (some (ctx.released reported ctx.transportReturned))
        listenQueues := after } := by
  obtain ⟨passive, q, hasQueue, k, isUsed, mine⟩ := sound.pending sd ctx found started blocking
  obtain ⟨lctx, lfound, listens⟩ := sound.listener ctx.listenSd q hasQueue
  have lidle := (sound.listening ctx.listenSd lctx lfound listens).2.1
  obtain ⟨lnonneg, lbelow, lmine⟩ := sound.placed ctx.listenSd lctx lfound
  obtain ⟨nonneg, below, isSd⟩ := sound.placed sd ctx found
  have other : ctx.listenSd ≠ sd := by
    intro same
    rw [same, found] at lfound
    cases lfound
    rw [started] at lidle
    cases lidle
  let reported := if errno = EINTR then 0 else errno
  let unblocked := ctx.released reported ctx.transportReturned
  have atListener : (s.setContext sd (some unblocked)).globalCtx ctx.listenSd = some lctx :=
    (Function.update_of_ne other ..).trans lfound
  obtain ⟨i, iUsed, search, iMine⟩ :=
    entryOf_eq q ctx.mySd (by omega) isUsed (mine.trans isSd.symm)
  obtain ⟨after, setEq, afterMaps⟩ := setQueue_eq (s := s.setContext sd (some unblocked)) maps
    (lmine ▸ sound.covers lfound) (addCompleted q i)
  have looked : getConnectionQueue (s.setContext sd (some unblocked)) lctx = .ok (some q) :=
    sound.lookup maps lfound listens hasQueue
  refine ⟨q, i, reported, after, hasQueue, iUsed, iMine.trans isSd, afterMaps, ?_⟩
  refine bind_eq_ok.mpr ⟨ctx, mysockGetContext_eq sound found, ?_⟩
  refine bind_eq_ok.mpr ⟨(), check_eq blocking, ?_⟩
  refine (if_neg (by simp [passive])).trans ?_
  refine bind_eq_ok.mpr ⟨(), lockForReading_eq free, bind_eq_ok.mpr ⟨(), check_eq lnonneg, ?_⟩⟩
  refine bind_eq_ok.mpr ⟨lctx, mysockGetContext_of atListener ⟨lnonneg, lbelow, lmine⟩, ?_⟩
  refine bind_eq_ok.mpr ⟨some q, looked, ?_⟩
  show completeEntry _ lctx.mySd q (entryOf q ctx.mySd) = _
  rw [search, lmine]
  exact setEq

/-- While a `myclose` waits, no application is released. -/
theorem stcpUnblockApplication_held (sound : Sound s.globalCtx queues) {sd : Int} {ctx : Context}
    (found : s.globalCtx sd = some ctx) (started : ctx.transportThreadStarted = true)
    (blocking : ctx.blocking = true) (held : s.closing ≠ none) (errno : Nat) :
    stcpUnblockApplication s sd errno = .error .blocks := by
  have passive := (sound.pending sd ctx found started blocking).1
  have blocked : ∀ ctx', lockForReading (s.setContext sd ctx') = .error .blocks :=
    fun _ => lockForReading_held held
  simp only [stcpUnblockApplication, mysockGetContext_eq sound found, bind, Except.bind,
    check_eq blocking, passive, mysockPassiveConnectionComplete, blocked]
  exact if_neg (by decide)

theorem unblock_spec (views : Views s queues) (sound : Sound s.globalCtx queues) {sd : Int}
    {ctx : Context} (found : s.globalCtx sd = some ctx)
    (started : ctx.transportThreadStarted = true) (blocking : ctx.blocking = true) (errno : Nat) :
    MeetsSpec s queues (.unblock sd errno) := by
  by_cases free : s.closing = none
  · obtain ⟨q, k, reported, after, hasQueue, isUsed, mine, afterMaps, result⟩ :=
      stcpUnblockApplication_eq (views.maps free) free sound found started blocking errno
    rw [MeetsSpec, perform, result]
    exact .ok ⟨_, .of_maps free afterMaps,
      .completed free (.unblock errno) found blocking hasQueue isUsed mine⟩
  · rw [MeetsSpec, perform, stcpUnblockApplication_held sound found started blocking free]
    exact .error (.waits (.release (.unblock errno) found blocking free))

theorem finish_spec (views : Views s queues) (sound : Sound s.globalCtx queues) {sd : Int}
    {ctx : Context} (found : s.globalCtx sd = some ctx)
    (started : ctx.transportThreadStarted = true) (errno : Nat) :
    MeetsSpec s queues (.finish sd errno) := by
  cases blocking : ctx.blocking with
  | false =>
      have result : transportThreadReturn s sd errno =
          .ok (s.setContext sd (some { ctx with transportReturned := true })) := by
        refine bind_eq_ok.mpr ⟨ctx, contextOf_eq found, ?_⟩
        refine (if_neg (by rw [blocking]; decide)).trans ?_
        exact bind_eq_ok.mpr ⟨s, rfl, bind_eq_ok.mpr ⟨ctx, contextOf_eq found, rfl⟩⟩
      rw [MeetsSpec, perform, result]
      exact .ok ⟨queues, views, .finished errno found blocking⟩
  | true =>
      by_cases free : s.closing = none
      · obtain ⟨q, k, reported, after, hasQueue, isUsed, mine, afterMaps, unblocks⟩ :=
          stcpUnblockApplication_eq (views.maps free) free sound found started blocking
            (abandonedErrno ctx errno)
        have result : transportThreadReturn s sd errno = .ok { s with
            globalCtx := Function.update s.globalCtx sd (some (ctx.released reported true))
            listenQueues := after } := by
          refine bind_eq_ok.mpr ⟨ctx, contextOf_eq found, ?_⟩
          refine (if_pos blocking).trans (bind_eq_ok.mpr ⟨_, unblocks, ?_⟩)
          refine bind_eq_ok.mpr ⟨_, contextOf_eq (Function.update_self ..), ?_⟩
          rw [State.setContext, Function.update_idem]
          rfl
        rw [MeetsSpec, perform, result]
        exact .ok ⟨_, .of_maps free afterMaps,
          .completed free (.finish errno) found blocking hasQueue isUsed mine⟩
      · have result : transportThreadReturn s sd errno = .error .blocks := by
          have unblocks := stcpUnblockApplication_held sound found started blocking free
          simp only [transportThreadReturn, contextOf_eq found, bind, Except.bind, blocking,
            if_true, unblocks]
        rw [MeetsSpec, perform, result]
        exact .error (.waits (.release (.finish errno) found blocking free))

/-- A `myaccept` that holds the queue waits, or takes the first completed connection. -/
theorem dequeueFrom_spec (maps : HashTable.Maps listenTable s.listenQueues queues)
    (free : s.closing = none) (sound : Sound s.globalCtx queues) {sd : Int} {q : ListenQueue}
    (hasQueue : queues sd = some q) {action : Action} (before : List Int)
    (enters : Enters (s.view queues) sd action before) :
    ∃ result, acceptWith sd
        (dequeueFrom { s with accepting := before } sd q q.completedQueue) = .ok result ∧
      HasEffect s queues action ⟨result.1, false, result.2⟩ := by
  obtain ⟨ctx, found, _⟩ := sound.listener sd q hasQueue
  have mine : ctx.mySd = sd := (sound.placed sd ctx found).2.2
  have queueSound := sound.queue sd q hasQueue
  cases first : q.completedQueue with
  | nil => exact ⟨_, rfl, queues, .of_maps free maps, .waiting enters hasQueue first⟩
  | cons pointer rest =>
      obtain ⟨isBlock, isUsed⟩ := queueSound.completed pointer (first ▸ List.mem_cons_self)
      obtain ⟨child, childFound, serves⟩ := (queueSound.request _ isUsed).serves
      obtain ⟨after, setEq, afterMaps⟩ := setQueue_eq (s := { s with accepting := before }) maps
        (mine ▸ sound.covers found) (takeRequest q pointer rest)
      have counted : 0 < q.curLen := by
        rw [queueSound.count]
        exact Finset.card_pos.mpr ⟨_, isUsed⟩
      have dequeued : dequeueFrom { s with accepting := before } sd q (pointer :: rest) =
          .ok (some child, { s with listenQueues := after, accepting := before }) := by
        refine bind_eq_ok.mpr ⟨q.connectionQueue pointer.index, ?_, ?_⟩
        · exact if_pos ⟨isBlock, (ListenQueue.mem_used.mp isUsed).1⟩
        · refine bind_eq_ok.mpr ⟨child, ?_, ?_⟩
          · exact mysockGetContext_of childFound (sound.placed _ child childFound)
          · exact bind_eq_ok.mpr ⟨(), check_eq counted, bind_eq_ok.mpr ⟨_, setEq, rfl⟩⟩
      have returned : acceptResult sd child =
          .ok (if child.stcpErrno = 0 then some child.mySd else none) := by
        refine bind_eq_ok.mpr ⟨(), check_eq (.inr ?_), bind_eq_ok.mpr ⟨(), ?_, rfl⟩⟩
        · rw [serves.peerLen]
          decide
        · exact check_eq serves.listenSd
      refine ⟨(some child, { s with listenQueues := after, accepting := before }), ?_, _,
        .of_maps free afterMaps, .accepted enters hasQueue first childFound⟩
      rw [dequeued]
      exact bind_eq_ok.mpr ⟨_, returned, rfl⟩

theorem myaccept_spec (views : Views s queues) (sound : Sound s.globalCtx queues) {sd : Int}
    {ctx : Context} (found : s.globalCtx sd = some ctx) : MeetsSpec s queues (.myaccept sd) := by
  have mine : ctx.mySd = sd := (sound.placed sd ctx found).2.2
  cases listens : ctx.listening with
  | false =>
      have result : myaccept s sd = .ok (none, s) :=
        bind_eq_ok.mpr ⟨ctx, mysockGetContext_eq sound found, if_neg (by simp [listens])⟩
      rw [MeetsSpec, perform, result]
      exact .ok ⟨queues, views, .notListening found listens⟩
  | true =>
      obtain ⟨isBound, _, hasQueue⟩ := sound.listening sd ctx found listens
      obtain ⟨q, hasQueue⟩ := Option.isSome_iff_exists.mp hasQueue
      by_cases free : s.closing = none
      · have looked := sound.lookup (views.maps free) found listens hasQueue
        have dispatch : myaccept s sd = acceptWith sd (dequeueFrom s sd q q.completedQueue) := by
          simp only [myaccept, mysockGetContext_eq sound found, bind, Except.bind, listens, if_true,
            mysockDequeueConnection, check, isBound, and_self, lockForReading_eq free, looked, mine]
        obtain ⟨result, returns, effect⟩ :=
          dequeueFrom_spec (views.maps free) free sound hasQueue s.accepting (.call free)
        rw [MeetsSpec, perform, dispatch.trans returns]
        exact .ok effect
      · have result : myaccept s sd = .error .blocks := by
          simp only [myaccept, mysockGetContext_eq sound found, bind, Except.bind, listens, if_true,
            mysockDequeueConnection, check, isBound, and_self, lockForReading_held free, acceptWith]
        rw [MeetsSpec, perform, result]
        exact .error (.waits (.accept found listens free))

theorem resume_spec (views : Views s queues) (sound : Sound s.globalCtx queues)
    (parked : Parked (s.view queues)) {sd : Int} (waits : sd ∈ s.accepting) :
    MeetsSpec s queues (.resume sd) := by
  have free : s.closing = none := parked.unlocked waits
  obtain ⟨q, hasQueue⟩ := Option.isSome_iff_exists.mp (parked.accepts sd waits)
  obtain ⟨ctx, found, listens⟩ := sound.listener sd q hasQueue
  have isBound := (sound.listening sd ctx found listens).1
  have looked := sound.lookup (views.maps free) found listens hasQueue
  rw [getConnectionQueue, check_eq ⟨listens, isBound⟩, (sound.placed sd ctx found).2.2] at looked
  have dispatch : resumeAccept s sd = acceptWith sd
      (dequeueFrom { s with accepting := s.accepting.erase sd } sd q q.completedQueue) := by
    refine congrArg (acceptWith sd) ?_
    have looked : fromHash (HashTable.hashLookupPtr listenTable s.listenQueues sd) = .ok (some q) :=
      looked
    simp only [resumeDequeue, looked, bind, Except.bind]
  obtain ⟨result, returns, effect⟩ :=
    dequeueFrom_spec (views.maps free) free sound hasQueue (s.accepting.erase sd) (.again waits)
  rw [MeetsSpec, perform, dispatch.trans returns]
  exact .ok effect

/-! ### Connection requests -/

theorem invalid_differs {peer : SockAddr} (isPeer : IsPeer peer) :
    sameBytes ConnectRequest.invalid.peerAddr peer sockaddrSize = false := by
  have differs : (List.replicate sockaddrSize (0 : Byte)).take sockaddrSize ≠
      peer.take sockaddrSize := by
    rw [List.take_of_length_le isPeer.1.le, List.take_of_length_le (by simp)]
    rintro rfl
    exact absurd isPeer.2 (by decide)
  simpa [sameBytes, ConnectRequest.invalid] using differs

/-- The search for a retransmission fails no assertion, and finds a request of the same peer if
there is one. -/
theorem isRetransmission_eq {contexts : Contexts} {listener : Int} {q : ListenQueue}
    (sound : QueueSound contexts listener q) {peer : SockAddr}
    (isPeer : IsPeer peer) {entries : List Nat}
    (inside : ∀ k ∈ entries, k < q.maxLen) :
    ∃ known, isRetransmission q peer sockaddrSize entries = .ok known ∧
      (known = false → ∀ k ∈ entries, k ∈ q.used → (q.connectionQueue k).peerAddr ≠ peer) := by
  induction entries with
  | nil => exact ⟨false, rfl, by simp⟩
  | cons k rest inductionHypothesis =>
      obtain ⟨known, searched, fresh⟩ :=
        inductionHypothesis fun i member => inside i (List.mem_cons_of_mem _ member)
      by_cases isUsed : k ∈ q.used
      · have pending := sound.request k isUsed
        by_cases same : (q.connectionQueue k).peerAddr = peer
        · refine ⟨true, ?_, by simp⟩
          simp [isRetransmission, pending.peerLen, same, sameBytes]
        · refine ⟨known, ?_, ?_⟩
          · have differs : sameBytes (q.connectionQueue k).peerAddr peer sockaddrSize = false := by
              simpa [sameBytes, List.take_of_length_le isPeer.1.le,
                List.take_of_length_le pending.isPeer.1.le] using same
            simpa [isRetransmission, pending.peerLen, differs] using searched
          · intro isNew i member inUse
            rcases List.mem_cons.mp member with rfl | member
            · exact same
            · exact fresh isNew i member inUse
      · have isInvalid := sound.empty k (inside k List.mem_cons_self) isUsed
        refine ⟨known, ?_, ?_⟩
        · have holdsNone : ConnectRequest.invalid.sd = -1 := rfl
          simpa [isRetransmission, isInvalid, invalid_differs isPeer, holdsNone] using searched
        · intro isNew i member inUse
          rcases List.mem_cons.mp member with rfl | member
          · exact absurd inUse isUsed
          · exact fresh isNew i member inUse

/-- Below the backlog there is an empty entry. -/
theorem emptyEntry_eq {contexts : Contexts} {listener : Int} {q : ListenQueue}
    (sound : QueueSound contexts listener q) (room : q.curLen < q.maxLen) :
    ∃ k < q.maxLen, emptyEntry q = some k ∧ k ∉ q.used ∧
      q.connectionQueue k = ConnectRequest.invalid := by
  cases search : emptyEntry q with
  | none =>
      rw [emptyEntry] at search
      have full : q.used = Finset.range q.maxLen := by
        refine Finset.filter_true_of_mem fun k inRange => ?_
        have notEmpty := List.find?_eq_none.mp search k
          (List.mem_range.mpr (Finset.mem_range.mp inRange))
        simp only [decide_eq_true_eq] at notEmpty
        omega
      rw [sound.count, full, Finset.card_range] at room
      exact absurd room (Nat.lt_irrefl _)
  | some k =>
      rw [emptyEntry] at search
      have negative : (q.connectionQueue k).sd < 0 := by simpa using List.find?_some search
      have below := List.mem_range.mp (List.mem_of_find?_eq_some search)
      have notUsed : k ∉ q.used := by
        intro isUsed
        have nonnegative := (sound.request k isUsed).nonnegative
        omega
      exact ⟨k, below, rfl, notUsed, sound.empty k below notUsed⟩

/-- The connection goes back to a listening mysocket whose request found no place. -/
theorem noDescriptor_eq {listener : Int} {q : ListenQueue} {k : Nat} (ctx : Context)
    {peer : SockAddr}
    (maps : HashTable.Maps listenTable s.listenQueues queues) (hasQueue : queues listener = some q)
    (covered : listenTable.covers listener = true) (isMine : ctx.mySd = listener)
    (isPeer : IsInet peer) (isInvalid : q.connectionQueue k = ConnectRequest.invalid)
    (full : freeDescriptor s = none) (room : q.curLen < q.maxLen) (search : emptyEntry q = some k)
    (packet : List Byte) (socket : Int) :
    ∃ after, queueRequest s listener ctx q packet peer sockaddrSize socket =
        .ok (false, { s with listenQueues := after }) ∧
      HashTable.Maps listenTable after queues := by
  have same : clearEntry q k = q := by
    rw [clearEntry, ← isInvalid, Function.update_eq_self]
  obtain ⟨after, setEq, afterMaps⟩ := setQueue_eq maps covered q
  have unchanged : Function.update queues listener (some q) = queues := by
    rw [← hasQueue, Function.update_eq_self]
  rw [unchanged] at afterMaps
  refine ⟨after, ?_, afterMaps⟩
  have isFree : (q.connectionQueue k).sd = -1 := by
    rw [isInvalid]
    rfl
  have allocated : mysockNewMysocket s ctx.isReliable socket = (-1, s) := by
    rw [mysockNewMysocket, full]
  rw [queueRequest, if_pos room, search]
  simp only [isFree, if_true, allocated]
  refine (if_pos (by decide)).trans (bind_eq_ok.mpr ⟨(), check_eq isPeer, ?_⟩)
  rw [same, isMine]
  exact bind_eq_ok.mpr ⟨_, setEq, rfl⟩

/-- The context that a connection request gets. -/
def childContext (accept : Context) (sd : Int) (peer : SockAddr) (packet : List Byte)
    (socket : Int) : Context :=
  { mysockAllocateContext socket with
    isReliable := accept.isReliable
    mySd := sd
    listenSd := accept.mySd
    peerAddr := peer
    peerAddrLen := sockaddrSize
    peerAddrValid := true
    socket := accept.newSocket
    connected := true
    receiver := .polling
    transportThreadStarted := true
    networkRecvQueue := [packet] }

/-- A request with an empty entry and a free descriptor is queued. -/
theorem queueRequest_eq {listener sd : Int} {q : ListenQueue} {k : Nat} (ctx : Context)
    {peer : SockAddr} (maps : HashTable.Maps listenTable s.listenQueues queues)
    (found : s.globalCtx listener = some ctx) (covered : listenTable.covers listener = true)
    (isMine : ctx.mySd = listener) (isPeer : IsInet peer)
    (isInvalid : q.connectionQueue k = ConnectRequest.invalid) (free : freeDescriptor s = some sd)
    (room : q.curLen < q.maxLen) (search : emptyEntry q = some k) (packet : List Byte)
    (socket : Int) :
    ∃ after, queueRequest s listener ctx q packet peer sockaddrSize socket =
        .ok (true, { s with
          globalCtx := Function.update
            (Function.update s.globalCtx listener (some { ctx with newSocket := -1 })) sd
            (some (childContext ctx sd peer packet socket))
          listenQueues := after }) ∧
      HashTable.Maps listenTable after
        (Function.update queues listener (some (addRequest q k ⟨peer, sockaddrSize, sd⟩))) := by
  obtain ⟨nonnegative, below, isFree⟩ := freeDescriptor_eq free
  have other : listener ≠ sd := by
    rintro rfl
    rw [found] at isFree
    cases isFree
  have placed : 0 ≤ sd ∧ sd < MAX_NUM_CONNECTIONS ∧ sd = sd := ⟨nonnegative, below, rfl⟩
  let fresh : Context :=
    { mysockAllocateContext socket with isReliable := ctx.isReliable, mySd := sd }
  let filled : Context :=
    { fresh with
      listenSd := ctx.mySd
      peerAddr := peer
      peerAddrLen := sockaddrSize
      peerAddrValid := true
      socket := ctx.newSocket
      connected := true }
  let given : Context := { ctx with newSocket := -1 }
  let started : Context :=
    { filled with isActive := false, receiver := .polling, transportThreadStarted := true }
  let allocated := s.setContext sd (some fresh)
  let handed := (allocated.setContext listener (some given)).setContext sd (some filled)
  obtain ⟨after, setEq, afterMaps⟩ :=
    setQueue_eq (s := handed) maps covered (addRequest q k ⟨peer, sockaddrSize, sd⟩)
  refine ⟨after, ?_, afterMaps⟩
  have entryFree : (q.connectionQueue k).sd = -1 := by
    rw [isInvalid]
    rfl
  have isAllocated : mysockNewMysocket s ctx.isReliable socket = (sd, allocated) := by
    rw [mysockNewMysocket, free]
  rw [queueRequest, if_pos room, search]
  simp only [entryFree, if_true, isAllocated]
  refine (if_neg (by omega)).trans ?_
  have atListener : contextOf allocated listener = .ok ctx :=
    contextOf_eq ((Function.update_of_ne other ..).trans found)
  have atChild : mysockGetContext allocated sd = .ok fresh :=
    mysockGetContext_of (Function.update_self ..) placed
  let stored : State := { handed with listenQueues := after }
  have isStored : setQueue handed ctx.mySd (addRequest q k ⟨peer, sockaddrSize, sd⟩) =
      .ok stored := by
    rw [isMine]
    exact setEq
  have begun : mysockTransportInit stored sd false = .ok (stored.setContext sd (some started)) := by
    refine bind_eq_ok.mpr ⟨filled, ?_, bind_eq_ok.mpr ⟨(), check_eq rfl, rfl⟩⟩
    exact mysockGetContext_of (Function.update_self ..) placed
  have enqueued : enqueuePacket (stored.setContext sd (some started)) sd packet =
      .ok ((stored.setContext sd (some started)).setContext sd
        (some (childContext ctx sd peer packet socket))) :=
    bind_eq_ok.mpr ⟨started, contextOf_eq (Function.update_self ..), rfl⟩
  have final : (stored.setContext sd (some started)).setContext sd
      (some (childContext ctx sd peer packet socket)) =
        { s with
          globalCtx := Function.update (Function.update s.globalCtx listener (some given)) sd
            (some (childContext ctx sd peer packet socket))
          listenQueues := after } := by
    simp only [State.setContext, stored, handed, allocated, Function.update_idem,
      Function.update_comm other.symm]
  refine bind_eq_ok.mpr ⟨ctx, atListener, bind_eq_ok.mpr ⟨fresh, atChild, ?_⟩⟩
  refine bind_eq_ok.mpr ⟨(), check_eq isPeer, bind_eq_ok.mpr ⟨(filled, given), ?_, ?_⟩⟩
  · exact bind_eq_ok.mpr ⟨(), check_eq rfl, bind_eq_ok.mpr ⟨(), check_eq rfl, rfl⟩⟩
  · refine bind_eq_ok.mpr ⟨_, isStored, bind_eq_ok.mpr ⟨_, begun, bind_eq_ok.mpr ⟨_, enqueued, ?_⟩⟩⟩
    rw [final]
    rfl

/-! ### Receive threads -/

theorem poll_spec (views : Views s queues) {sd : Int} {ctx : Context}
    (found : s.globalCtx sd = some ctx) (polls : ctx.receiver = .polling) {peer : SockAddr}
    (isPeer : IsPeer peer) (connection : Int) :
    MeetsSpec s queues (.poll sd connection peer) := by
  cases listens : ctx.listening with
  | false =>
      have result : startPacket s sd connection peer =
          .ok (s.setContext sd (some { ctx with receiver := .reading })) :=
        bind_eq_ok.mpr ⟨ctx, contextOf_eq found, if_neg (by rw [listens]; decide)⟩
      rw [MeetsSpec, perform, result]
      exact .ok ⟨queues, views, .readable connection peer found listens polls⟩
  | true =>
      have begins : startPacket s sd connection peer =
          if connection < 0 then
            .ok (s.setContext sd
              (some { ctx with peerAddrLen := sockaddrSize, receiver := .ended }))
          else do
            check (ctx.newSocket = -1)
            return s.setContext sd (some { ctx with
              newSocket := connection
              peerAddr := peer
              peerAddrLen := sockaddrSize
              receiver := .reading }) := by
        simp only [startPacket, contextOf_eq found, bind, Except.bind, listens, if_true]
        rfl
      by_cases failed : connection < 0
      · rw [MeetsSpec, perform, begins, if_pos failed]
        exact .ok ⟨queues, views, .acceptFailed peer found listens polls failed⟩
      · rw [MeetsSpec, perform, begins, if_neg failed]
        by_cases cleared : ctx.newSocket = -1
        · rw [check_eq cleared]
          exact .ok ⟨queues, views,
            .arrived found listens polls (Int.not_lt.mp failed) cleared isPeer⟩
        · rw [check, if_neg cleared]
          exact .error (.breaks (.arrival found listens (Int.not_lt.mp failed) cleared))

/-- A packet of a connected mysocket goes to its queue. -/
theorem dispatchPacket_connected (sd : Int) {ctx : Context} (packet : List Byte) (socket : Int)
    (silent : ctx.listening = false) :
    dispatchPacket (s.setContext sd (some { ctx with receiver := .polling })) sd ctx packet socket =
      .ok (false, s.setContext sd (some { ctx with
        receiver := .polling
        networkRecvQueue := mysockEnqueueBuffer ctx.networkRecvQueue packet })) := by
  refine (if_neg (by rw [silent]; decide)).trans ?_
  refine bind_eq_ok.mpr ⟨_, ?_, rfl⟩
  refine bind_eq_ok.mpr ⟨_, contextOf_eq (Function.update_self ..), ?_⟩
  rw [State.setContext, State.setContext, Function.update_idem]
  rfl

/-- A packet of a listening mysocket is looked at as a request. -/
theorem dispatchPacket_eq {listener : Int} {ctx polling : Context} {q : ListenQueue}
    (listens : ctx.listening = true) (peerLen : ctx.peerAddrLen = sockaddrSize)
    (found : s.globalCtx listener = some polling)
    (ready : polling.listening = true ∧ polling.bound = true) (free : s.closing = none)
    (looked : getConnectionQueue s polling = .ok (some q)) (packet : List Byte) (socket : Int) :
    dispatchPacket s listener ctx packet socket =
      if IsNoRequest packet then dropPacket s ctx.peerAddr
      else handleRequest s listener polling packet ctx.peerAddr sockaddrSize socket (some q) := by
  rw [dispatchPacket, if_pos listens, peerLen, mysockEnqueueConnection, contextOf_eq found]
  simp only [bind, Except.bind, check_eq ready, check_eq (show 0 < sockaddrSize by decide),
    lockForReading_eq free, looked]

/-- While a `myclose` waits, no packet is looked at. -/
theorem dispatchPacket_held {listener : Int} {ctx polling : Context}
    (listens : ctx.listening = true) (peerLen : ctx.peerAddrLen = sockaddrSize)
    (found : s.globalCtx listener = some polling)
    (ready : polling.listening = true ∧ polling.bound = true) (held : s.closing ≠ none)
    (packet : List Byte) (socket : Int) :
    dispatchPacket s listener ctx packet socket = .error .blocks := by
  rw [dispatchPacket, if_pos listens, peerLen, mysockEnqueueConnection, contextOf_eq found]
  simp only [bind, Except.bind, check_eq ready, check_eq (show 0 < sockaddrSize by decide),
    lockForReading_held held]

/-- A request that is no retransmission is queued, or dropped where there is no room for it. -/
theorem queueRequest_spec (maps : HashTable.Maps listenTable s.listenQueues queues)
    (unlocked : s.closing = none) (sound : Sound s.globalCtx queues) {listener : Int}
    {ctx : Context} {q : ListenQueue}
    (found : s.globalCtx listener = some ctx) (listens : ctx.listening = true)
    (reads : ctx.receiver = .reading) (hasQueue : queues listener = some q)
    (freshPeer : ∀ k ∈ q.used, (q.connectionQueue k).peerAddr ≠ ctx.peerAddr)
    {packet : Option (List Byte)} (fits : (packet.getD []).length ≤ MAX_IP_PAYLOAD_LEN)
    (socket : Int) :
    ∃ result, queueRequest (s.setContext listener (some { ctx with receiver := .polling }))
        listener { ctx with receiver := .polling } q (packet.getD []) ctx.peerAddr sockaddrSize
        socket = .ok result ∧
      HasEffect s queues (.receive listener packet socket) ⟨none, result.1, result.2⟩ := by
  have isMine : ctx.mySd = listener := (sound.placed listener ctx found).2.2
  have covered : listenTable.covers listener = true := isMine ▸ sound.covers found
  have isPeer := ((sound.receiver listener ctx found).accepted listens reads).1
  let polling : Context := { ctx with receiver := .polling }
  let given := s.setContext listener (some polling)
  have atListener : given.globalCtx listener = some polling := Function.update_self ..
  by_cases room : q.curLen < q.maxLen
  · obtain ⟨k, inside, search, empty, isInvalid⟩ :=
      emptyEntry_eq (sound.queue listener q hasQueue) room
    cases free : freeDescriptor given with
    | none =>
        obtain ⟨after, result, afterMaps⟩ := noDescriptor_eq (s := given) polling maps hasQueue
          covered isMine isPeer.2 isInvalid free room search (packet.getD []) socket
        exact ⟨_, result, queues, .of_maps unlocked afterMaps,
          .dropped socket unlocked found listens reads fits⟩
    | some sd =>
        obtain ⟨after, result, afterMaps⟩ := queueRequest_eq (s := given) polling maps atListener
          covered isMine isPeer.2 isInvalid free room search (packet.getD []) socket
        obtain ⟨nonnegative, below, isFree⟩ := freeDescriptor_eq free
        have other : listener ≠ sd := by
          rintro rfl
          rw [atListener] at isFree
          cases isFree
        have wasFree : s.globalCtx sd = none :=
          (Function.update_of_ne other.symm ..).symm.trans isFree
        refine ⟨_, result, _, .of_maps unlocked afterMaps, ?_⟩
        rw [show given.globalCtx = Function.update s.globalCtx listener (some polling) from rfl,
          Function.update_idem]
        show Effect (s.view queues) _ none true
          ⟨Function.update (Function.update s.globalCtx listener
            (some { ctx with newSocket := -1, receiver := .polling })) sd _, _, _, _⟩
        refine .queued socket unlocked found listens reads fits hasQueue inside empty nonnegative
          below wasFree freshPeer rfl rfl ⟨isMine, rfl, rfl, rfl, rfl, rfl⟩ ?_ rfl rfl rfl
        exact ⟨fun _ => .inr rfl, fun _ reads => by cases reads⟩
  · refine ⟨(false, given), ?_, queues, .of_maps unlocked maps,
      .dropped socket unlocked found listens reads fits⟩
    rw [queueRequest, if_neg room]
    exact bind_eq_ok.mpr ⟨(), check_eq isPeer.2, rfl⟩

/-- A packet of a listening mysocket is dropped, or queued as a request. -/
theorem dispatchPacket_listening (maps : HashTable.Maps listenTable s.listenQueues queues)
    (unlocked : s.closing = none) (sound : Sound s.globalCtx queues) {listener : Int}
    {ctx : Context} (found : s.globalCtx listener = some ctx) (listens : ctx.listening = true)
    (reads : ctx.receiver = .reading) {packet : Option (List Byte)}
    (fits : (packet.getD []).length ≤ MAX_IP_PAYLOAD_LEN) (socket : Int) :
    ∃ result, dispatchPacket (s.setContext listener (some { ctx with receiver := .polling }))
        listener ctx (packet.getD []) socket = .ok result ∧
      HasEffect s queues (.receive listener packet socket) ⟨none, result.1, result.2⟩ := by
  obtain ⟨isBound, _, hasQueue⟩ := sound.listening listener ctx found listens
  obtain ⟨q, hasQueue⟩ := Option.isSome_iff_exists.mp hasQueue
  obtain ⟨isPeer, peerLen, _⟩ := (sound.receiver listener ctx found).accepted listens reads
  let polling : Context := { ctx with receiver := .polling }
  let given := s.setContext listener (some polling)
  have looked : getConnectionQueue given polling = .ok (some q) := by
    show getConnectionQueue given ctx = _
    exact sound.lookup maps found listens hasQueue
  have dispatch := dispatchPacket_eq (s := given) listens peerLen (Function.update_self ..)
    ⟨listens, isBound⟩ unlocked looked (packet.getD []) socket
  have isDropped : dropPacket given ctx.peerAddr = .ok (false, given) :=
    bind_eq_ok.mpr ⟨(), check_eq isPeer.2, rfl⟩
  have dropped : HasEffect s queues (.receive listener packet socket) ⟨none, false, given⟩ :=
    ⟨queues, .of_maps unlocked maps, .dropped socket unlocked found listens reads fits⟩
  rw [dispatch]
  by_cases noRequest : IsNoRequest (packet.getD [])
  · rw [if_pos noRequest]
    exact ⟨_, isDropped, dropped⟩
  rw [if_neg noRequest]
  obtain ⟨known, searched, fresh⟩ := isRetransmission_eq (sound.queue listener q hasQueue) isPeer
    (fun k inRange => List.mem_range.mp inRange)
  have request : handleRequest given listener polling (packet.getD []) ctx.peerAddr sockaddrSize
      socket (some q) =
      if known then dropPacket given ctx.peerAddr
      else queueRequest given listener polling q (packet.getD []) ctx.peerAddr sockaddrSize
        socket := by
    rw [handleRequest, searched]
    rfl
  rw [request]
  cases known with
  | true =>
      rw [if_pos rfl]
      exact ⟨_, isDropped, dropped⟩
  | false =>
      rw [if_neg (by decide)]
      refine queueRequest_spec maps unlocked sound found listens reads hasQueue ?_ fits socket
      intro k isUsed
      exact fresh rfl k (List.mem_range.mpr (ListenQueue.mem_used.mp isUsed).1) isUsed

theorem receive_spec (views : Views s queues) (sound : Sound s.globalCtx queues) {sd : Int}
    {ctx : Context} (found : s.globalCtx sd = some ctx) (reads : ctx.receiver = .reading)
    (packet : Option (List Byte)) (socket : Int) :
    MeetsSpec s queues (.receive sd packet socket) := by
  by_cases noPacket : packet.getD [] = []
  · have result : receivePacket s sd packet socket =
        .ok (false, s.setContext sd (some { ctx with receiver := .ended })) :=
      bind_eq_ok.mpr ⟨ctx, contextOf_eq found, if_pos noPacket⟩
    rw [MeetsSpec, perform, result]
    exact .ok ⟨queues, views, .ended socket found reads noPacket⟩
  obtain ⟨bytes, rfl⟩ : ∃ bytes, packet = some bytes := by
    cases packet with
    | none => exact absurd rfl noPacket
    | some bytes => exact ⟨bytes, rfl⟩
  let polling : Context := { ctx with receiver := .polling }
  let given := s.setContext sd (some polling)
  have begins : receivePacket s sd (some bytes) socket = (do
      check (bytes.length ≤ MAX_IP_PAYLOAD_LEN)
      dispatchPacket given sd ctx bytes socket) := by
    rw [receivePacket, contextOf_eq found]
    exact if_neg noPacket
  rw [MeetsSpec, perform, begins]
  by_cases fits : bytes.length ≤ MAX_IP_PAYLOAD_LEN
  · rw [check_eq fits]
    rcases Bool.eq_false_or_eq_true ctx.listening with listens | silent
    · by_cases free : s.closing = none
      · have fits : ((some bytes).getD []).length ≤ MAX_IP_PAYLOAD_LEN := fits
        obtain ⟨result, dispatched, effect⟩ :=
          dispatchPacket_listening (views.maps free) free sound found listens reads fits socket
        have dispatched : dispatchPacket given sd ctx bytes socket = .ok result := dispatched
        simp only [bind, Except.bind, dispatched]
        exact .ok effect
      · have peerLen := ((sound.receiver sd ctx found).accepted listens reads).2.1
        have isBound := (sound.listening sd ctx found listens).1
        have dispatched := dispatchPacket_held (s := given) listens peerLen
          (Function.update_self ..) ⟨listens, isBound⟩ free bytes socket
        simp only [bind, Except.bind, dispatched]
        exact .error (.waits (.dispatch found listens noPacket fits free))
    · have dispatched := dispatchPacket_connected (s := s) sd bytes socket silent
      simp only [bind, Except.bind, given, polling, dispatched]
      exact .ok ⟨queues, views, .enqueued socket found silent reads fits⟩
  · rw [check, if_neg fits]
    exact .error (.breaks (.packet (Nat.not_le.mp fits)))

/-! ### Closing -/

/-- A mysocket that does not listen goes away, as soon as no thread of it is busy. -/
theorem mycloseWith_eq (closePassive : State → Context → Except Fault State) {sd : Int}
    {ctx : Context} (found : s.globalCtx sd = some ctx)
    (placed : 0 ≤ sd ∧ sd < MAX_NUM_CONNECTIONS ∧ ctx.mySd = sd) (silent : ctx.listening = false)
    (origin : ctx.transportThreadStarted = true → ctx.listenSd ≠ -1) :
    mycloseWith closePassive s sd =
      if ctx.Busy then .error .blocks else .ok (s.setContext sd none) := by
  have joins : check (ctx.transportThreadStarted = false ∨
      ctx.listening = false ∧ (ctx.isActive = true ∨ ctx.listenSd ≠ -1)) = .ok () := by
    refine check_eq ?_
    cases started : ctx.transportThreadStarted with
    | false => exact .inl rfl
    | true => exact .inr ⟨silent, .inr (origin started)⟩
  simp only [mycloseWith, mysockGetContext_of found placed, bind, Except.bind, joinTransport, joins]
  by_cases running : ctx.transportThreadStarted = true ∧ ctx.transportReturned = false
  · have busy : ctx.Busy := .inl running
    rw [if_pos running, if_pos busy]
  · rw [if_neg running]
    by_cases reads : ctx.receiver = .reading
    · have busy : ctx.Busy := .inr reads
      rw [if_pos busy]
      simp only [pure, Except.pure, networkStopRecvThread, if_pos reads]
    · have idle : ¬ctx.Busy := fun busy => busy.elim running reads
      simp only [pure, Except.pure, networkStopRecvThread, if_neg reads, silent]
      rw [if_neg idle]
      rfl

theorem withoutEntries_nil (contexts : Contexts) (q : ListenQueue) :
    withoutEntries contexts q [] = contexts := by
  funext sd
  simp [withoutEntries]

/-- A queued connection, as the loop over the connection queue finds it. -/
def Closable (contexts : Contexts) (sd : Int) : Prop :=
  ∃ ctx, contexts sd = some ctx ∧ (0 ≤ sd ∧ sd < MAX_NUM_CONNECTIONS ∧ ctx.mySd = sd) ∧
    ctx.listening = false ∧ ctx.listenSd ≠ -1

/-- The loop over the connection queue closes the contexts of its requests, up to one that has a
busy thread. -/
theorem closeEntries_eq {q : ListenQueue} {entries : List Nat} (nodup : entries.Nodup)
    (distinct : ∀ i ∈ entries, ∀ j ∈ entries, (q.connectionQueue i).sd ≠ -1 →
      (q.connectionQueue i).sd = (q.connectionQueue j).sd → i = j)
    (closable : ∀ k ∈ entries, (q.connectionQueue k).sd ≠ -1 →
      Closable s.globalCtx (q.connectionQueue k).sd) :
    ∃ closed left, entries = closed ++ left ∧
      closeEntries q s entries =
        .ok (left, { s with globalCtx := withoutEntries s.globalCtx q closed }) ∧
      (∀ k ∈ closed, (q.connectionQueue k).sd ≠ -1 →
        ∀ ctx, s.globalCtx (q.connectionQueue k).sd = some ctx → ¬ctx.Busy) ∧
      ∀ k ∈ left.head?, (q.connectionQueue k).sd ≠ -1 ∧
        ∃ ctx, s.globalCtx (q.connectionQueue k).sd = some ctx ∧ ctx.Busy := by
  induction entries generalizing s with
  | nil =>
      refine ⟨[], [], rfl, ?_, by simp, by simp⟩
      rw [withoutEntries_nil]
      rfl
  | cons k rest inductionHypothesis =>
      obtain ⟨notLater, nodup⟩ := List.nodup_cons.mp nodup
      have restDistinct : ∀ i ∈ rest, ∀ j ∈ rest, (q.connectionQueue i).sd ≠ -1 →
          (q.connectionQueue i).sd = (q.connectionQueue j).sd → i = j :=
        fun i inI j inJ => distinct i (List.mem_cons_of_mem _ inI) j (List.mem_cons_of_mem _ inJ)
      by_cases holds : (q.connectionQueue k).sd ≠ -1
      · obtain ⟨ctx, found, placed, silent, origin⟩ := closable k List.mem_cons_self holds
        have closes :=
          mycloseWith_eq (fun _ _ => .error .assertion) found placed silent fun _ => origin
        by_cases busy : ctx.Busy
        · refine ⟨[], k :: rest, rfl, ?_, by simp, ?_⟩
          · rw [withoutEntries_nil]
            simp only [closeEntries, if_pos holds, closeQueued, closes, if_pos busy]
          · rintro i ⟨⟩
            exact ⟨holds, ctx, found, busy⟩
        have later : ∀ i ∈ rest, (q.connectionQueue i).sd ≠ -1 →
            (q.connectionQueue i).sd ≠ (q.connectionQueue k).sd := by
          intro i inRest holds' same
          have isSame :=
            distinct i (List.mem_cons_of_mem _ inRest) k List.mem_cons_self holds' same
          exact notLater (isSame ▸ inRest)
        obtain ⟨closed, left, rfl, result, idle, busy'⟩ :=
          inductionHypothesis (s := s.setContext (q.connectionQueue k).sd none) nodup restDistinct
            fun i inRest holds' => by
              obtain ⟨ctx', found', others⟩ := closable i (List.mem_cons_of_mem _ inRest) holds'
              exact ⟨ctx', (Function.update_of_ne (later i inRest holds') ..).trans found', others⟩
        refine ⟨k :: closed, left, rfl, ?_, ?_, ?_⟩
        · simp only [closeEntries, if_pos holds, closeQueued, closes, if_neg busy, result]
          refine congrArg (fun contexts => Except.ok (left, { s with globalCtx := contexts })) ?_
          funext sd
          simp only [withoutEntries, State.setContext, List.exists_mem_cons_iff,
            Function.update_apply]
          by_cases here : (q.connectionQueue k).sd = sd
          · simp [here, here ▸ holds]
          · simp [here, Ne.symm here]
        · intro i inClosed holds' ctx' found'
          rcases List.mem_cons.mp inClosed with rfl | inClosed
          · cases found.symm.trans found'
            exact busy
          · exact idle i inClosed holds' ctx' ((Function.update_of_ne
              (later i (List.mem_append_left _ inClosed) holds') ..).trans found')
        · intro i isFirst
          obtain ⟨holds', ctx', found', isBusy⟩ := busy' i isFirst
          have inRest := List.mem_append_right closed (List.mem_of_mem_head? isFirst)
          exact ⟨holds', ctx',
            (Function.update_of_ne (later i inRest holds') ..).symm.trans found', isBusy⟩
      · obtain ⟨closed, left, rfl, result, idle, busy⟩ :=
          inductionHypothesis nodup restDistinct fun i inRest =>
            closable i (List.mem_cons_of_mem _ inRest)
        refine ⟨k :: closed, left, rfl, ?_, ?_, busy⟩
        · simp only [closeEntries, if_neg holds, result]
          refine congrArg (fun contexts => Except.ok (left, { s with globalCtx := contexts })) ?_
          funext sd
          simp only [withoutEntries, List.exists_mem_cons_iff, holds, false_and, false_or]
        · intro i inClosed holds'
          rcases List.mem_cons.mp inClosed with rfl | inClosed
          · exact absurd holds' holds
          · exact idle i inClosed holds'

/-- The loop of a `myclose`, for the first time or after a wait, closes all that is left, up to a
connection that has a busy thread. -/
theorem Closes.loop {action : Action} {ctx : Context} {q : ListenQueue} {c : Closing}
    (closes : Closes (s.view queues) action ctx q c) (parked : Parked (s.view queues))
    (sound : Sound s.globalCtx queues) :
    ∃ closed left, c.entries = closed ++ left ∧
      closeEntries c.queue (s.setContext c.listener (some { ctx with receiver := .ended }))
        c.entries =
        .ok (left, { s with
          globalCtx := withoutEntries (Function.update s.globalCtx c.listener
            (some { ctx with receiver := .ended })) q closed }) ∧
      (∀ k ∈ closed, k ∈ q.used → ∀ child,
        s.globalCtx (q.connectionQueue k).sd = some child → ¬child.Busy) ∧
      ∀ k ∈ left.head?, k ∈ q.used ∧ ∃ child,
        s.globalCtx (q.connectionQueue k).sd = some child ∧ child.Busy := by
  have hasQueue : queues c.listener = some q := closes.hasQueue parked
  have queueSound := sound.queue c.listener q hasQueue
  obtain ⟨_, lfound, listens⟩ := sound.listener c.listener q hasQueue
  have notListener := sound.notRequest hasQueue lfound listens
  have inUse : ∀ {k}, k ∈ c.entries → (c.queue.connectionQueue k).sd ≠ -1 → k ∈ q.used := by
    intro k inEntries holds
    rw [← closes.entry inEntries] at holds
    exact ListenQueue.mem_used.mpr ⟨closes.maxLen ▸ closes.inside parked k inEntries, holds⟩
  let given := s.setContext c.listener (some { ctx with receiver := .ended })
  have kept : ∀ {k}, k ∈ c.entries → k ∈ q.used →
      given.globalCtx (c.queue.connectionQueue k).sd = s.globalCtx (q.connectionQueue k).sd := by
    intro k inEntries isUsed
    rw [← closes.entry inEntries]
    exact Function.update_of_ne (notListener k isUsed) ..
  obtain ⟨closed, left, split, result, idle, busy⟩ := closeEntries_eq (s := given) (q := c.queue)
    (closes.nodup parked)
    (fun i inI j inJ holds same => by
      refine queueSound.descriptors i (inUse inI holds) j (inUse inJ (same ▸ holds)) ?_
      rwa [closes.entry inI, closes.entry inJ])
    (fun k inEntries holds => by
      have isUsed := inUse inEntries holds
      obtain ⟨child, childFound, serves⟩ := (queueSound.request k isUsed).serves
      refine ⟨child, (kept inEntries isUsed).trans childFound, ?_, serves.connected,
        sound.origin _ child childFound serves.started⟩
      rw [← closes.entry inEntries]
      exact sound.placed _ child childFound)
  have inClosed : ∀ {k}, k ∈ closed → k ∈ c.entries :=
    fun member => split ▸ List.mem_append_left left member
  refine ⟨closed, left, split, ?_, ?_, ?_⟩
  · rw [withoutEntries_congr fun k member => closes.entry (inClosed member)]
    exact result
  · intro k member isUsed child childFound
    have holds := (ListenQueue.mem_used.mp isUsed).2
    rw [closes.entry (inClosed member)] at holds
    exact idle k member holds child ((kept (inClosed member) isUsed).trans childFound)
  · intro k isFirst
    have inEntries : k ∈ c.entries :=
      split ▸ List.mem_append_right closed (List.mem_of_mem_head? isFirst)
    obtain ⟨holds, child, childFound, isBusy⟩ := busy k isFirst
    have isUsed := inUse inEntries holds
    exact ⟨isUsed, child, (kept inEntries isUsed).symm.trans childFound, isBusy⟩

/-- Behind its loop, a `myclose` of a listening mysocket is through, or waits. -/
theorem closeFrom_spec {table : Queues} (maps : HashTable.Maps listenTable s.listenQueues table)
    (parked : Parked (s.view queues)) (sound : Sound s.globalCtx queues) {action : Action}
    {ctx : Context} {q : ListenQueue} {c : Closing}
    (closes : Closes (s.view queues) action ctx q c) (inTable : table c.listener = some c.queue)
    (seen : queues = Function.update table c.listener (some q)) :
    ∃ after, closeFrom (s.setContext c.listener (some { ctx with receiver := .ended })) c =
        .ok after ∧ HasEffect s queues action (.quiet after) := by
  obtain ⟨closed, left, split, result, idle, busy⟩ := closes.loop parked sound
  cases left with
  | nil =>
      rw [List.append_nil] at split
      have covered : listenTable.covers c.listener = true := by
        have found : s.globalCtx c.listener = some ctx := closes.found
        exact (sound.placed c.listener ctx found).2.2 ▸ sound.covers found
      obtain ⟨after, deleteEq, afterMaps⟩ := deleteQueue_eq maps covered
      have emptied : Function.update queues c.listener none =
          Function.update table c.listener none := by
        rw [seen, Function.update_idem]
      refine ⟨_, bind_eq_ok.mpr ⟨_, result, bind_eq_ok.mpr ⟨after, ?_, rfl⟩⟩, _,
        .of_maps rfl (emptied ▸ afterMaps), ?_⟩
      · exact (congrArg fromHash deleteEq).trans rfl
      · rw [← split] at idle ⊢
        exact .closedPassive closes idle
  | cons k rest =>
      obtain ⟨isUsed, child, childFound, isBusy⟩ := busy k rfl
      have fewer : k :: rest ⊆ c.entries := split ▸ List.subset_append_right closed (k :: rest)
      refine ⟨_, bind_eq_ok.mpr ⟨_, result, rfl⟩, _, ⟨table, maps, inTable, ?_⟩,
        .closeWaits closes split isUsed childFound isBusy idle⟩
      show Function.update queues c.listener (some (remaining q (k :: rest))) =
        Function.update table c.listener (some (remaining c.queue (k :: rest)))
      rw [seen, Function.update_idem, closes.rest fewer]

/-- `myclose` of a mysocket that does not listen. -/
theorem myclose_connected (views : Views s queues) (sound : Sound s.globalCtx queues) {sd : Int}
    {ctx : Context} (found : s.globalCtx sd = some ctx) (unqueued : Unqueued queues sd)
    (silent : ctx.listening = false) : MeetsSpec s queues (.myclose sd) := by
  have closed := mycloseWith_eq mysockClosePassiveSocket found (sound.placed sd ctx found) silent
    (sound.origin sd ctx found)
  rw [MeetsSpec, perform, myclose, closed]
  by_cases busy : ctx.Busy
  · rw [if_pos busy]
    exact .error (.waits (.close found busy))
  · rw [if_neg busy]
    exact .ok ⟨queues, views, .closed found silent busy (sound.absent found silent) unqueued⟩

/-- `myclose` of a listening mysocket. -/
theorem myclose_listening (views : Views s queues) (sound : Sound s.globalCtx queues)
    (parked : Parked (s.view queues)) {sd : Int} {ctx : Context}
    (found : s.globalCtx sd = some ctx) (listens : ctx.listening = true) :
    MeetsSpec s queues (.myclose sd) := by
  have mine : ctx.mySd = sd := (sound.placed sd ctx found).2.2
  obtain ⟨_, unstarted, hasQueue⟩ := sound.listening sd ctx found listens
  obtain ⟨q, hasQueue⟩ := Option.isSome_iff_exists.mp hasQueue
  let given := s.setContext sd (some { ctx with receiver := .ended })
  have joins : joinTransport ctx = .ok () := by
    simp [joinTransport, check, unstarted, bind, Except.bind, pure, Except.pure]
  by_cases reads : ctx.receiver = .reading
  · have result : myclose s sd = .error .blocks := by
      simp only [myclose, mycloseWith, mysockGetContext_eq sound found, bind, Except.bind, joins,
        networkStopRecvThread, if_pos reads]
    rw [MeetsSpec, perform, result]
    exact .error (.waits (.close found (.inr reads)))
  have idle : ¬ctx.Busy := fun busy =>
    busy.elim (fun running => absurd (unstarted.symm.trans running.1) (by decide)) reads
  have begins : myclose s sd = mysockClosePassiveSocket given ctx := by
    simp only [myclose, mycloseWith, mysockGetContext_eq sound found, bind, Except.bind, joins,
      networkStopRecvThread, if_neg reads]
    exact if_pos listens
  by_cases free : s.Unlocked
  · have maps := views.maps free.2
    have looked : getConnectionQueue given ctx = .ok (some q) :=
      sound.lookup maps found listens hasQueue
    have seen : queues = Function.update queues sd (some q) := by
      rw [← hasQueue, Function.update_eq_self]
    obtain ⟨after, result, effect⟩ :=
      closeFrom_spec maps parked sound (.call free found idle hasQueue) hasQueue seen
    have result : myclose s sd = .ok after := by
      rw [begins]
      refine bind_eq_ok.mpr ⟨(), lockForWriting_eq free, bind_eq_ok.mpr ⟨_, looked, ?_⟩⟩
      rw [mine]
      exact result
    rw [MeetsSpec, perform, result]
    exact .ok effect
  · have result : myclose s sd = .error .blocks := by
      have held : lockForWriting given = .error .blocks := lockForWriting_held free
      simp only [begins, mysockClosePassiveSocket, bind, Except.bind, held]
    rw [MeetsSpec, perform, result]
    exact .error (.waits (.closeListening found listens free))

theorem myclose_spec (views : Views s queues) (sound : Sound s.globalCtx queues)
    (parked : Parked (s.view queues)) {sd : Int} {ctx : Context}
    (found : s.globalCtx sd = some ctx) (unqueued : Unqueued queues sd) :
    MeetsSpec s queues (.myclose sd) := by
  cases listens : ctx.listening with
  | false => exact myclose_connected views sound found unqueued listens
  | true => exact myclose_listening views sound parked found listens

theorem goOn_spec (views : Views s queues) (sound : Sound s.globalCtx queues)
    (parked : Parked (s.view queues)) (waits : s.closing.isSome) :
    MeetsSpec s queues .goOn := by
  obtain ⟨c, closing⟩ := Option.isSome_iff_exists.mp waits
  obtain ⟨table, maps, seen⟩ := views
  rw [closing] at seen
  obtain ⟨ctx, found, ended⟩ := (parked.closes c closing).ended
  have unchanged : s.setContext c.listener (some { ctx with receiver := .ended }) = s := by
    have same : { ctx with receiver := .ended } = ctx := by rw [← ended]
    have found : s.globalCtx c.listener = some ctx := found
    rw [State.setContext, same, ← found, Function.update_eq_self]
  obtain ⟨after, result, effect⟩ :=
    closeFrom_spec maps parked sound (.again closing found) seen.1 seen.2
  rw [unchanged] at result
  have goesOn : resumeClose s = .ok after := by
    rw [resumeClose, closing]
    exact result
  rw [MeetsSpec, perform, goesOn]
  exact .ok effect

end Calls

end EE323.Stcp.Demux

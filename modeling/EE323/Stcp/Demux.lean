/-
Module: EE323.Stcp.Demux
Purpose: The descriptor table of `mysock.c`, the calls of `mysock_api.c` that open, accept and close
  mysockets, the receive threads of `network_io_socket.c`, and the queues of connection requests
  that `connection_demux.c` keeps for listening mysockets, over the TCP network layer of
  `network_io_tcp.c`.  A call is one step, at the time it has all it waits for; what holds a lock
  while it waits, and the receive threads, are cut where they wait.  A failed assertion, a bad
  pointer and a call that cannot begin yet are faults.
Main exports: Context, ListenQueue, Closing, State, mysockNewMysocket, mysockGetContext,
  mysockSetBacklog, mysockEnqueueConnection, mysockPassiveConnectionComplete,
  mysockDequeueConnection, mysockClosePassiveSocket, Action, perform
-/
import EE323.Stcp.Framing
import EE323.Stcp.HashTable
import EE323.Stcp.Mysock

namespace EE323.Stcp.Demux

open EE323.Lib
open Framing (MAX_IP_PAYLOAD_LEN)

/-- The bytes of a `struct sockaddr`. -/
abbrev SockAddr := List Byte

def sockaddrSize : Nat := 16
def MAX_NUM_CONNECTIONS : Int := 64
def AF_INET : UInt8 := 2
def EINTR : Nat := 4
def ECONNABORTED : Nat := 103
def ECONNREFUSED : Nat := 111

/-- How a call fails.  `blocks` is a call that has to wait for another thread before it begins. -/
inductive Fault where
  | assertion
  | useAfterFree
  | blocks
deriving DecidableEq, Repr

/-- `assert`. -/
def check (condition : Prop) [Decidable condition] : Except Fault Unit :=
  if condition then .ok () else .error .assertion

/-- Where the receive thread of a mysocket is: not in its loop, in `poll`, or past it, in a
`_network_recv_packet` that has not read its packet yet. -/
inductive Receiver where
  | ended
  | polling
  | reading
deriving DecidableEq, Repr

/-- The part of `mysock_context_t`, its `network_context_t` and the TCP state behind it that opening
and closing connections reads or writes.  `transportReturned` and `receiver` are where the two
threads of the mysocket are. -/
structure Context where
  isActive : Bool
  isReliable : Bool
  bound : Bool
  listening : Bool
  mySd : Int
  listenSd : Int
  blocking : Bool
  stcpErrno : Nat
  transportThreadStarted : Bool
  transportReturned : Bool
  receiver : Receiver
  peerAddr : SockAddr
  peerAddrLen : Nat
  peerAddrValid : Bool
  socket : Int
  newSocket : Int
  connected : Bool
  networkRecvQueue : List (List Byte)
deriving DecidableEq, Repr

/-- `_mysock_allocate_context`, with the descriptor that `socket` returned. -/
def mysockAllocateContext (socket : Int) : Context :=
  { isActive := false
    isReliable := false
    bound := false
    listening := false
    mySd := 0
    listenSd := -1
    blocking := true
    stcpErrno := 0
    transportThreadStarted := false
    transportReturned := false
    receiver := .ended
    peerAddr := List.replicate sockaddrSize 0
    peerAddrLen := 0
    peerAddrValid := false
    socket := socket
    newSocket := -1
    connected := false
    networkRecvQueue := [] }

/-- `connect_request_t`. -/
structure ConnectRequest where
  peerAddr : SockAddr
  peerAddrLen : Nat
  sd : Int
deriving DecidableEq, Repr

/-- What `INVALIDATE_CONNECT_REQUEST` leaves. -/
def ConnectRequest.invalid : ConnectRequest := ⟨List.replicate sockaddrSize 0, 0, -1⟩

/-- A pointer to an entry of a connection queue: the block that `realloc` returned, and
the index. -/
structure Pointer where
  block : Nat
  index : Nat
deriving DecidableEq, Repr

/-- `listen_queue_t`.  The connection queue is an array with `maxLen` entries, and the completed
queue the list of the requests that its nodes point to. -/
structure ListenQueue where
  localPort : Nat
  maxLen : Nat
  curLen : Nat
  block : Nat
  connectionQueue : Nat → ConnectRequest
  completedQueue : List Pointer

/-- `HASH_TABLE_DECLARE(listen_table, mysocket_t, listen_queue_t *, MAX_NUM_CONNECTIONS)`: the
remainder of a negative key, taken as unsigned, is no index. -/
def listenTable : HashTable.Declaration Int where
  hashfn key size := (Int.tmod key size % 0x100000000).toNat
  size := 64

/-- The `myclose` of a listening mysocket that waits for a thread of a queued connection: its
descriptor, its queue, and the entries that are left to close, with that connection's first. -/
structure Closing where
  listener : Int
  queue : ListenQueue
  entries : List Nat

/-- `global_ctx`, `listen_table`, and who holds `listen_lock` between the steps: for reading the
calls of `myaccept` that wait, each with its listening mysocket, and for writing a `myclose` that
waits.  A queue belongs to its entry of the table. -/
structure State where
  globalCtx : Int → Option Context
  listenQueues : HashTable.Table Int ListenQueue
  accepting : List Int
  closing : Option Closing

namespace State

def init : State :=
  { globalCtx := fun _ => none
    listenQueues := HashTable.Table.empty
    accepting := []
    closing := none }

def setContext (s : State) (sd : Int) (ctx : Option Context) : State :=
  { s with globalCtx := Function.update s.globalCtx sd ctx }

end State

/-- An assertion of the hash table is an assertion. -/
def fromHash {α : Type} : Except HashTable.HashFault α → Except Fault α
  | .ok result => .ok result
  | .error _ => .error .assertion

/-- `pthread_rwlock_rdlock` on `listen_lock`. -/
def lockForReading (s : State) : Except Fault Unit :=
  if s.closing.isNone then .ok () else .error .blocks

/-- `pthread_rwlock_wrlock` on `listen_lock`. -/
def lockForWriting (s : State) : Except Fault Unit :=
  if s.accepting = [] ∧ s.closing.isNone then .ok () else .error .blocks

/-- Stores through the pointer that the table keeps for the mysocket. -/
def setQueue (s : State) (sd : Int) (q : ListenQueue) : Except Fault State := do
  let queues ← fromHash (HashTable.hashSetEntry listenTable s.listenQueues sd q)
  return { s with listenQueues := queues }

/-! ### The descriptor table -/

/-- The search for a free mysocket descriptor. -/
def freeDescriptor (s : State) : Option Int :=
  ((List.range 64).map Int.ofNat).find? fun k => (s.globalCtx k).isNone

/-- `_mysock_new_mysocket`. -/
def mysockNewMysocket (s : State) (isReliable : Bool) (socket : Int) : Int × State :=
  match freeDescriptor s with
  | some k =>
      (k, s.setContext k (some { mysockAllocateContext socket with
        isReliable := isReliable
        mySd := k }))
  | none => (-1, s)

/-- `_mysock_get_context`, with `verify_mysocket_descriptor`. -/
def mysockGetContext (s : State) (sd : Int) : Except Fault Context :=
  match s.globalCtx sd with
  | some ctx =>
      if 0 ≤ sd ∧ sd < MAX_NUM_CONNECTIONS ∧ ctx.mySd = sd then .ok ctx else .error .assertion
  | none => .error .assertion

/-- The context that a thread keeps a pointer to. -/
def contextOf (s : State) (sd : Int) : Except Fault Context :=
  match s.globalCtx sd with
  | some ctx => .ok ctx
  | none => .error .useAfterFree

/-- `_get_connection_queue`. -/
def getConnectionQueue (s : State) (ctx : Context) : Except Fault (Option ListenQueue) := do
  check (ctx.listening ∧ ctx.bound)
  fromHash (HashTable.hashLookupPtr listenTable s.listenQueues ctx.mySd)

/-! ### The backlog -/

/-- The entries beyond the old length are cleared. -/
def growQueue (q : ListenQueue) (maxLen : Nat) : ListenQueue :=
  if q.maxLen < maxLen then
    { q with
      block := q.block + 1
      maxLen := maxLen
      connectionQueue := fun k =>
        if q.maxLen ≤ k ∧ k < maxLen then ConnectRequest.invalid else q.connectionQueue k }
  else { q with maxLen := maxLen }

/-- The queue of a listening socket that has none yet. -/
def newQueue (localPort : Nat) : ListenQueue :=
  { localPort := localPort
    maxLen := 0
    curLen := 0
    block := 0
    connectionQueue := fun _ => ConnectRequest.invalid
    completedQueue := [] }

/-- The queue whose backlog is set: the one there is, or a new one in the table. -/
def queueForBacklog (s : State) (ctx : Context) (localPort : Nat) :
    Option ListenQueue → Except Fault (ListenQueue × State)
  | some q => .ok (q, s)
  | none => do
      let queues ← fromHash
        (HashTable.hashInsert listenTable s.listenQueues ctx.mySd (newQueue localPort))
      return (newQueue localPort, { s with listenQueues := queues })

/-- `_mysock_set_backlog`.  `realloc` moves the array. -/
def mysockSetBacklog (s : State) (ctx : Context) (backlog localPort : Nat) :
    Except Fault State := do
  check (ctx.listening ∧ ctx.bound)
  check (0 < localPort)
  lockForWriting s
  let found ← getConnectionQueue s ctx
  let (q, s) ← queueForBacklog s ctx localPort found
  check (q.localPort = localPort)
  setQueue s ctx.mySd (growQueue q ((backlog + 1) % 0x100000000))

/-! ### Connection requests -/

/-- The address family of a socket address, as a number below 256. -/
def IsInet (peer : SockAddr) : Prop := peer.getD 0 0 = AF_INET ∧ peer.getD 1 0 = 0

instance (peer : SockAddr) : Decidable (IsInet peer) := inferInstanceAs (Decidable (_ ∧ _))

/-- `DEBUG_CONNECTION_MSG`: the printing is left out, the assertion stays. -/
def debugPrintConnection (peer : SockAddr) : Except Fault Unit := check (IsInet peer)

/-- `!memcmp(one, two, len)`. -/
def sameBytes (one two : SockAddr) (len : Nat) : Bool := one.take len == two.take len

/-- The search for a queued request of the same peer. -/
def isRetransmission (q : ListenQueue) (peer : SockAddr) (peerLen : Nat) :
    List Nat → Except Fault Bool
  | [] => .ok false
  | k :: rest =>
      let r := q.connectionQueue k
      if r.sd = -1 ∨ peerLen = r.peerAddrLen then
        if sameBytes r.peerAddr peer peerLen then .ok true
        else isRetransmission q peer peerLen rest
      else .error .assertion

/-- The search for an empty entry. -/
def emptyEntry (q : ListenQueue) : Option Nat :=
  (List.range q.maxLen).find? fun k => decide ((q.connectionQueue k).sd < 0)

/-- `packet_len < sizeof(struct tcphdr) || !(th_flags & TH_SYN)`. -/
def IsNoRequest (packet : List Byte) : Prop :=
  packet.length < tcphdrSize ∨ packet.getD 13 0 &&& TH_SYN = 0

instance (packet : List Byte) : Decidable (IsNoRequest packet) :=
  inferInstanceAs (Decidable (_ ∨ _))

/-- A packet that no context receives. -/
def dropPacket (s : State) (peer : SockAddr) : Except Fault (Bool × State) := do
  debugPrintConnection peer
  return (false, s)

/-- `_network_update_passive_state`: the connection passes on to the new context. -/
def networkUpdatePassiveState (newCtx acceptCtx : Context) : Except Fault (Context × Context) := do
  check (newCtx.listening = false)
  check (newCtx.isActive = false)
  return ({ newCtx with socket := acceptCtx.newSocket, connected := true },
    { acceptCtx with newSocket := -1 })

/-- `_mysock_transport_init`. -/
def mysockTransportInit (s : State) (sd : Int) (isActive : Bool) : Except Fault State := do
  let ctx ← mysockGetContext s sd
  check (ctx.listening = false)
  return s.setContext sd (some { ctx with
    isActive := isActive
    receiver := .polling
    transportThreadStarted := true })

/-- `_mysock_enqueue_buffer` on the receive queue. -/
def enqueuePacket (s : State) (sd : Int) (packet : List Byte) : Except Fault State := do
  let ctx ← contextOf s sd
  return s.setContext sd (some { ctx with
    networkRecvQueue := mysockEnqueueBuffer ctx.networkRecvQueue packet })

/-- The queue with the entry filled in. -/
def addRequest (q : ListenQueue) (k : Nat) (request : ConnectRequest) : ListenQueue :=
  { q with
    curLen := q.curLen + 1
    connectionQueue := Function.update q.connectionQueue k request }

/-- `INVALIDATE_CONNECT_REQUEST` on an entry. -/
def clearEntry (q : ListenQueue) (k : Nat) : ListenQueue :=
  { q with connectionQueue := Function.update q.connectionQueue k ConnectRequest.invalid }

/-- The new context for a request, from the entry filled in on. -/
def establish (s : State) (listener sd : Int) (q : ListenQueue) (k : Nat) (packet : List Byte)
    (peer : SockAddr) (peerLen : Nat) : Except Fault (Bool × State) := do
  let ctx ← contextOf s listener
  let newCtx ← mysockGetContext s sd
  debugPrintConnection peer
  let (newCtx, ctx) ← networkUpdatePassiveState
    { newCtx with
      listenSd := ctx.mySd
      peerAddr := peer
      peerAddrLen := peerLen
      peerAddrValid := true } ctx
  let s ← setQueue ((s.setContext listener (some ctx)).setContext sd (some newCtx)) ctx.mySd
    (addRequest q k ⟨peer, peerLen, sd⟩)
  let s ← mysockTransportInit s sd false
  let s ← enqueuePacket s sd packet
  return (true, s)

/-- A request that is no retransmission: it takes an empty entry, unless the backlog is reached or
there is no free descriptor. -/
def queueRequest (s : State) (listener : Int) (ctx : Context) (q : ListenQueue) (packet : List Byte)
    (peer : SockAddr) (peerLen : Nat) (socket : Int) : Except Fault (Bool × State) :=
  if q.curLen < q.maxLen then
    match emptyEntry q with
    | none => .error .assertion
    | some k =>
        if (q.connectionQueue k).sd = -1 then
          match mysockNewMysocket s ctx.isReliable socket with
          | (sd, after) =>
              if sd < 0 then do
                debugPrintConnection peer
                let s ← setQueue after ctx.mySd (clearEntry q k)
                return (false, s)
              else establish after listener sd q k packet peer peerLen
        else .error .assertion
  else dropPacket s peer

/-- The rest of `_mysock_enqueue_connection`, with the queue looked up. -/
def handleRequest (s : State) (listener : Int) (ctx : Context) (packet : List Byte)
    (peer : SockAddr)
    (peerLen : Nat) (socket : Int) : Option ListenQueue → Except Fault (Bool × State)
  | none => dropPacket s peer
  | some q => do
      let known ← isRetransmission q peer peerLen (List.range q.maxLen)
      if known then dropPacket s peer
      else queueRequest s listener ctx q packet peer peerLen socket

/-- `_mysock_enqueue_connection`. -/
def mysockEnqueueConnection (s : State) (listener : Int) (packet : List Byte) (peer : SockAddr)
    (peerLen : Nat) (socket : Int) : Except Fault (Bool × State) := do
  let ctx ← contextOf s listener
  check (ctx.listening ∧ ctx.bound)
  check (0 < peerLen)
  lockForReading s
  if IsNoRequest packet then dropPacket s peer
  else do
    let found ← getConnectionQueue s ctx
    handleRequest s listener ctx packet peer peerLen socket found

/-! ### Receive threads -/

/-- A receive thread whose `poll` reports its socket, up to the first read of
`_network_recv_packet`: on a listening mysocket with the result of `accept` and the peer. -/
def startPacket (s : State) (sd connection : Int) (peer : SockAddr) : Except Fault State := do
  let ctx ← contextOf s sd
  if ctx.listening then
    if connection < 0 then
      return s.setContext sd (some { ctx with peerAddrLen := sockaddrSize, receiver := .ended })
    else do
      check (ctx.newSocket = -1)
      return s.setContext sd (some { ctx with
        newSocket := connection
        peerAddr := peer
        peerAddrLen := sockaddrSize
        receiver := .reading })
  else return s.setContext sd (some { ctx with receiver := .reading })

/-- The packet of a turn goes to its mysocket, or to the queue of connection requests. -/
def dispatchPacket (s : State) (sd : Int) (ctx : Context) (packet : List Byte) (socket : Int) :
    Except Fault (Bool × State) :=
  if ctx.listening then
    mysockEnqueueConnection s sd packet ctx.peerAddr ctx.peerAddrLen socket
  else do
    let s ← enqueuePacket s sd packet
    return (false, s)

/-- The rest of the turn, once the read is over: `none` is a connection that ended or failed.
Without a byte the thread ends, and keeps what it has accepted. -/
def receivePacket (s : State) (sd : Int) (packet : Option (List Byte)) (socket : Int) :
    Except Fault (Bool × State) := do
  let ctx ← contextOf s sd
  if packet.getD [] = [] then
    return (false, s.setContext sd (some { ctx with receiver := .ended }))
  else do
    check ((packet.getD []).length ≤ MAX_IP_PAYLOAD_LEN)
    dispatchPacket (s.setContext sd (some { ctx with receiver := .polling })) sd ctx
      (packet.getD []) socket

/-! ### Completed connections -/

/-- The entry of a mysocket in the connection queue. -/
def entryOf (q : ListenQueue) (sd : Int) : Option Nat :=
  (List.range q.maxLen).find? fun k => decide ((q.connectionQueue k).sd = sd)

/-- The queue with a new node at the tail of the completed queue. -/
def addCompleted (q : ListenQueue) (k : Nat) : ListenQueue :=
  { q with completedQueue := q.completedQueue ++ [⟨q.block, k⟩] }

/-- `assert(connection_req)`, and the new node. -/
def completeEntry (s : State) (listener : Int) (q : ListenQueue) : Option Nat → Except Fault State
  | none => .error .assertion
  | some k => setQueue s listener (addCompleted q k)

/-- `_mysock_passive_connection_complete`. -/
def mysockPassiveConnectionComplete (s : State) (ctx : Context) : Except Fault State := do
  lockForReading s
  check (0 ≤ ctx.listenSd)
  let listener ← mysockGetContext s ctx.listenSd
  let found ← getConnectionQueue s listener
  match found with
  | none => return s
  | some q => completeEntry s listener.mySd q (entryOf q ctx.mySd)

/-- `stcp_unblock_application`, with `errno` as it stands. -/
def stcpUnblockApplication (s : State) (sd : Int) (errno : Nat) : Except Fault State := do
  let ctx ← mysockGetContext s sd
  check (ctx.blocking = true)
  let unblocked := { ctx with
    blocking := false
    stcpErrno := if errno = EINTR then 0 else errno }
  let s := s.setContext sd (some unblocked)
  if ctx.isActive then return s else mysockPassiveConnectionComplete s unblocked

/-- The `errno` that `transport_thread_func` sets where `transport_init` returned without one. -/
def abandonedErrno (ctx : Context) (errno : Nat) : Nat :=
  if errno = 0 ∨ errno = EINTR then if ctx.isActive then ECONNREFUSED else ECONNABORTED else errno

/-- `transport_thread_func`, once `transport_init` has returned: an application that still waits is
released with an error. -/
def transportThreadReturn (s : State) (sd : Int) (errno : Nat) : Except Fault State := do
  let ctx ← contextOf s sd
  let s ← if ctx.blocking then stcpUnblockApplication s sd (abandonedErrno ctx errno) else pure s
  let ctx ← contextOf s sd
  return s.setContext sd (some { ctx with transportReturned := true })

/-- The request that a completed entry points to. -/
def requestAt (q : ListenQueue) (pointer : Pointer) : Except Fault ConnectRequest :=
  if pointer.block = q.block ∧ pointer.index < q.maxLen then .ok (q.connectionQueue pointer.index)
  else .error .useAfterFree

/-- The queue without the request that was taken off. -/
def takeRequest (q : ListenQueue) (pointer : Pointer) (rest : List Pointer) : ListenQueue :=
  { q with
    curLen := q.curLen - 1
    connectionQueue := Function.update q.connectionQueue pointer.index ConnectRequest.invalid
    completedQueue := rest }

/-- The body of `_mysock_dequeue_connection` once it holds the queue.  With no completed connection
the call waits. -/
def dequeueFrom (s : State) (listener : Int) (q : ListenQueue) :
    List Pointer → Except Fault (Option Context × State)
  | [] => .ok (none, { s with accepting := listener :: s.accepting })
  | pointer :: rest => do
      let request ← requestAt q pointer
      let ctx ← mysockGetContext s request.sd
      check (0 < q.curLen)
      let s ← setQueue s listener (takeRequest q pointer rest)
      return (some ctx, s)

/-- `_mysock_dequeue_connection`. -/
def mysockDequeueConnection (s : State) (acceptCtx : Context) :
    Except Fault (Option Context × State) := do
  check (acceptCtx.listening ∧ acceptCtx.bound)
  lockForReading s
  let found ← getConnectionQueue s acceptCtx
  match found with
  | none => .error .assertion
  | some q => dequeueFrom s acceptCtx.mySd q q.completedQueue

/-- A call that waits in `_mysock_dequeue_connection` looks at the completed queue again. -/
def resumeDequeue (s : State) (listener : Int) : Except Fault (Option Context × State) := do
  let queue ← fromHash (HashTable.hashLookupPtr listenTable s.listenQueues listener)
  match queue with
  | none => .error .useAfterFree
  | some q =>
      dequeueFrom { s with accepting := s.accepting.erase listener } listener q q.completedQueue

/-- What `myaccept` makes of the context it was given: the descriptor is withheld on an error. -/
def acceptResult (sd : Int) (ctx : Context) : Except Fault (Option Int) := do
  check (ctx.stcpErrno ≠ 0 ∨ 0 < ctx.peerAddrLen)
  check (ctx.listenSd = sd)
  return if ctx.stcpErrno = 0 then some ctx.mySd else none

/-! ### Closing -/

/-- The wait for the transport thread. -/
def joinTransport (ctx : Context) : Except Fault Unit := do
  check (ctx.transportThreadStarted = false ∨
    ctx.listening = false ∧ (ctx.isActive = true ∨ ctx.listenSd ≠ -1))
  if ctx.transportThreadStarted ∧ ctx.transportReturned = false then .error .blocks else return

/-- `_network_stop_recv_thread`: the byte in the exit pipe reaches a thread in `poll` only. -/
def networkStopRecvThread (ctx : Context) : Except Fault Unit :=
  if ctx.receiver = .reading then .error .blocks else .ok ()

/-- `myclose`, with what it does for a listening mysocket. -/
def mycloseWith (closePassive : State → Context → Except Fault State) (s : State) (sd : Int) :
    Except Fault State := do
  let ctx ← mysockGetContext s sd
  joinTransport ctx
  networkStopRecvThread ctx
  if ctx.listening then closePassive (s.setContext sd (some { ctx with receiver := .ended })) ctx
  else return s.setContext sd none

/-- `myclose` of a queued connection.  Its caller holds the lock for writing already. -/
def closeQueued : State → Int → Except Fault State := mycloseWith fun _ _ => .error .assertion

/-- The loop over the connection queue, up to a connection that it has to wait for: the entries that
are left, with that connection's. -/
def closeEntries (q : ListenQueue) (s : State) : List Nat → Except Fault (List Nat × State)
  | [] => .ok ([], s)
  | k :: rest =>
      if (q.connectionQueue k).sd ≠ -1 then
        match closeQueued s (q.connectionQueue k).sd with
        | .error .blocks => .ok (k :: rest, s)
        | .error fault => .error fault
        | .ok s => closeEntries q s rest
      else closeEntries q s rest

/-- The rest of the `myclose` of a listening mysocket, from the loop of
`_mysock_close_passive_socket` on. -/
def closeFrom (s : State) (c : Closing) : Except Fault State := do
  let (left, s) ← closeEntries c.queue s c.entries
  match left with
  | [] =>
      let queues ← fromHash (HashTable.hashDelete listenTable s.listenQueues c.listener)
      return { s with listenQueues := queues, closing := none }.setContext c.listener none
  | _ :: _ => return { s with closing := some { c with entries := left } }

/-- `_mysock_close_passive_socket`, and the end of its `myclose`. -/
def mysockClosePassiveSocket (s : State) (ctx : Context) : Except Fault State := do
  lockForWriting s
  let found ← getConnectionQueue s ctx
  match found with
  | none => return s.setContext ctx.mySd none
  | some q => closeFrom s ⟨ctx.mySd, q, List.range q.maxLen⟩

/-- `myclose`. -/
def myclose : State → Int → Except Fault State := mycloseWith mysockClosePassiveSocket

/-- A `myclose` that waits in its loop goes on. -/
def resumeClose (s : State) : Except Fault State :=
  match s.closing with
  | none => .error .useAfterFree
  | some c => closeFrom s c

/-! ### The calls as one machine -/

/-- `mybind`.  The mysocket counts as bound whatever `bind` returns. -/
def mybind (s : State) (sd : Int) : Except Fault State := do
  let ctx ← mysockGetContext s sd
  check (ctx.listening = false)
  return s.setContext sd (some { ctx with bound := true })

/-- `mylisten`, with the port that `getsockname` reports and whether `listen` succeeds: the receive
thread starts only then. -/
def mylisten (s : State) (sd : Int) (backlog localPort : Nat) (listens : Bool) :
    Except Fault State := do
  let ctx ← mysockGetContext s sd
  check (ctx.bound = true)
  let listening := { ctx with
    listening := true
    receiver := if listens then .polling else ctx.receiver }
  mysockSetBacklog (s.setContext sd (some listening)) listening backlog localPort

/-- `myaccept` behind `_mysock_dequeue_connection`. -/
def acceptWith (sd : Int) :
    Except Fault (Option Context × State) → Except Fault (Option Context × State)
  | .error fault => .error fault
  | .ok (none, s) => .ok (none, s)
  | .ok (some ctx, s) => do
      let _ ← acceptResult sd ctx
      return (some ctx, s)

/-- `myaccept`: the context of the connection it returns or reports the error of, or none while it
waits for one. -/
def myaccept (s : State) (sd : Int) : Except Fault (Option Context × State) := do
  let acceptCtx ← mysockGetContext s sd
  if acceptCtx.listening then acceptWith sd (mysockDequeueConnection s acceptCtx)
  else return (none, s)

/-- A `myaccept` that waits goes on. -/
def resumeAccept (s : State) (sd : Int) : Except Fault (Option Context × State) :=
  acceptWith sd (resumeDequeue s sd)

/-- A call of the application, the part of a turn of a receive thread before or behind its wait for
a packet, what a transport thread does to release its application or when it returns, or a
`myaccept` or `myclose` that waits and goes on. -/
inductive Action where
  | mysocket (isReliable : Bool) (socket : Int)
  | mybind (sd : Int)
  | mylisten (sd : Int) (backlog localPort : Nat) (listens : Bool)
  | poll (sd connection : Int) (peer : SockAddr)
  | receive (sd : Int) (packet : Option (List Byte)) (socket : Int)
  | unblock (sd : Int) (errno : Nat)
  | finish (sd : Int) (errno : Nat)
  | myaccept (sd : Int)
  | resume (sd : Int)
  | myclose (sd : Int)
  | goOn
deriving DecidableEq, Repr

/-- What a call leaves: the connection that `myaccept` took, whether a connection request was
queued, and the state. -/
structure Outcome where
  accepted : Option Context
  queued : Bool
  state : State

def Outcome.quiet (state : State) : Outcome := ⟨none, false, state⟩

def perform (s : State) : Action → Except Fault Outcome
  | .mysocket isReliable socket => .ok (.quiet (mysockNewMysocket s isReliable socket).2)
  | .mybind sd => (mybind s sd).map .quiet
  | .mylisten sd backlog localPort listens => (mylisten s sd backlog localPort listens).map .quiet
  | .poll sd connection peer => (startPacket s sd connection peer).map .quiet
  | .receive sd packet socket =>
      (receivePacket s sd packet socket).map fun result => ⟨none, result.1, result.2⟩
  | .unblock sd errno => (stcpUnblockApplication s sd errno).map .quiet
  | .finish sd errno => (transportThreadReturn s sd errno).map .quiet
  | .myaccept sd => (myaccept s sd).map fun result => ⟨result.1, false, result.2⟩
  | .resume sd => (resumeAccept s sd).map fun result => ⟨result.1, false, result.2⟩
  | .myclose sd => (myclose s sd).map .quiet
  | .goOn => (resumeClose s).map .quiet

/-- The fault of a call that failed. -/
def faultOf : Except Fault Outcome → Option Fault
  | .error fault => some fault
  | .ok _ => none

def step (s : State) (action : Action) : Option State :=
  (perform s action).toOption.map Outcome.state

end EE323.Stcp.Demux

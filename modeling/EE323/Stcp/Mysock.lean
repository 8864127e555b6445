/-
Module: EE323.Stcp.Mysock
Purpose: The buffer queues of `mysock.c`, the application calls of `mysock_api.c` and the interface
  of `stcp_api.c` to the transport layer.  A queue operation that would block has no result.
Main exports: mysockEnqueueBuffer, mysockDequeueBuffer, MysockContext, Event, stcpWaitForEvent,
  stcpNetworkRecv, stcpAppRecv, stcpAppSend, stcpFinReceived, mywrite, myread, myclose
-/
import EE323.Stcp.Segment

namespace EE323.Stcp

/-- A `packet_queue_t` of buffers, head first. -/
abbrev PacketQueue := List (List Byte)

/-- `_mysock_enqueue_buffer`. -/
def mysockEnqueueBuffer (queue : PacketQueue) (packet : List Byte) : PacketQueue :=
  queue ++ [packet]

/-- `_mysock_dequeue_buffer` with `remove_partial` set: the bytes copied to `dst` and the queue
left behind.  The call returns the number of bytes copied. -/
def mysockDequeueBuffer : PacketQueue → Nat → Option (List Byte × PacketQueue)
  | [], _ => none
  | node :: rest, maxLen =>
      if maxLen < node.length then
        some (node.take maxLen, node.drop maxLen :: rest)
      else some (node, rest)

/-- A call on a queue with a buffer returns. -/
theorem mysockDequeueBuffer_returns {queue : PacketQueue} (nonEmpty : queue ≠ []) (maxLen : Nat) :
    ∃ copied left, mysockDequeueBuffer queue maxLen = some (copied, left) := by
  obtain ⟨node, rest, rfl⟩ := List.exists_cons_of_ne_nil nonEmpty
  simp only [mysockDequeueBuffer]
  split
  · exact ⟨_, _, rfl⟩
  · exact ⟨_, _, rfl⟩

/-- A partial call leaves the head with a rest, and any other takes it off. -/
theorem mysockDequeueBuffer_cases {queue left : PacketQueue} {maxLen : Nat} {copied : List Byte}
    (dequeued : mysockDequeueBuffer queue maxLen = some (copied, left)) :
    ∃ node rest, queue = node :: rest ∧
      (maxLen < node.length ∧ copied = node.take maxLen ∧ left = node.drop maxLen :: rest ∨
        node.length ≤ maxLen ∧ copied = node ∧ left = rest) := by
  cases queue with
  | nil => cases dequeued
  | cons node rest =>
      refine ⟨node, rest, rfl, ?_⟩
      simp only [mysockDequeueBuffer] at dequeued
      split at dequeued
      · rename_i long
        cases dequeued
        exact .inl ⟨long, rfl, rfl⟩
      · rename_i short
        cases dequeued
        exact .inr ⟨Nat.le_of_not_lt short, rfl, rfl⟩

/-- Dequeueing takes the bytes from the front of the stream the queue holds. -/
theorem mysockDequeueBuffer_flatten {queue left : PacketQueue} {maxLen : Nat} {copied : List Byte}
    (dequeued : mysockDequeueBuffer queue maxLen = some (copied, left)) :
    copied ++ left.flatten = queue.flatten := by
  obtain ⟨node, rest, rfl, ⟨_, rfl, rfl⟩ | ⟨_, rfl, rfl⟩⟩ := mysockDequeueBuffer_cases dequeued
  · rw [List.flatten_cons, List.flatten_cons, ← List.append_assoc, List.take_append_drop]
  · exact List.flatten_cons.symm

theorem mysockDequeueBuffer_length_le {queue left : PacketQueue} {maxLen : Nat}
    {copied : List Byte} (dequeued : mysockDequeueBuffer queue maxLen = some (copied, left)) :
    copied.length ≤ maxLen := by
  obtain ⟨node, rest, rfl, ⟨_, rfl, rfl⟩ | ⟨short, rfl, rfl⟩⟩ := mysockDequeueBuffer_cases dequeued
  · exact List.length_take_le _ _
  · exact short

/-- The part of `mysock_context_t` that the transport layer and the application share. -/
structure MysockContext where
  closeRequested : Bool
  eof : Bool
  networkRecvQueue : List Segment
  appSendQueue : PacketQueue
  appRecvQueue : PacketQueue
deriving Repr

/-- A context fresh from `_mysock_allocate_context`. -/
def MysockContext.init : MysockContext :=
  { closeRequested := false
    eof := false
    networkRecvQueue := []
    appSendQueue := []
    appRecvQueue := [] }

/-- The bit vector returned by `stcp_wait_for_event`. -/
structure Event where
  appData : Bool
  networkData : Bool
  appCloseRequested : Bool
deriving DecidableEq, Repr

/-- `stcp_wait_for_event(sd, ANY_EVENT, NULL)`.  The close event is passed down once, and only when
the application has no data left to send. -/
def stcpWaitForEvent (sock : MysockContext) : Option (Event × MysockContext) :=
  let event : Event :=
    { appData := !sock.appRecvQueue.isEmpty
      networkData := !sock.networkRecvQueue.isEmpty
      appCloseRequested := sock.closeRequested && sock.appRecvQueue.isEmpty }
  if event.appData || event.networkData || event.appCloseRequested then
    some (event, { sock with closeRequested := sock.closeRequested && !event.appCloseRequested })
  else none

/-- The outcome of `stcp_network_recv`. -/
inductive NetworkRecv where
  | received (packet : Segment) (sock : MysockContext)
  | checksumAssertion

/-- `stcp_network_recv`: the datagram at the head of the receive queue is removed whole, and what
fits into `max_len` bytes is copied.  When the datagram is longer, the checksum is verified over
bytes past the end of the destination; `overread` says whether that check happens to pass. -/
def stcpNetworkRecv (sock : MysockContext) (maxLen : Nat) (overread : Bool) :
    Option NetworkRecv :=
  match sock.networkRecvQueue with
  | [] => none
  | packet :: rest =>
      if packet.size ≤ maxLen ∨ overread then
        some (.received { packet with data := packet.data.take (maxLen - tcphdrSize) }
          { sock with networkRecvQueue := rest })
      else some .checksumAssertion

/-- `stcp_app_recv`. -/
def stcpAppRecv (sock : MysockContext) (maxLen : Nat) : Option (List Byte × MysockContext) :=
  match mysockDequeueBuffer sock.appRecvQueue maxLen with
  | none => none
  | some (data, left) => some (data, { sock with appRecvQueue := left })

/-- `stcp_app_send`. -/
def stcpAppSend (sock : MysockContext) (data : List Byte) : MysockContext :=
  if 0 < data.length then
    { sock with appSendQueue := mysockEnqueueBuffer sock.appSendQueue data }
  else sock

/-- `stcp_fin_received`: an empty buffer marks the end of the stream. -/
def stcpFinReceived (sock : MysockContext) : MysockContext :=
  { sock with appSendQueue := mysockEnqueueBuffer sock.appSendQueue [] }

/-- `mywrite`. -/
def mywrite (sock : MysockContext) (data : List Byte) : MysockContext :=
  { sock with appRecvQueue := mysockEnqueueBuffer sock.appRecvQueue data }

/-- `myread`: the bytes returned.  Reading nothing sets the end-of-file flag. -/
def myread (sock : MysockContext) (bufLen : Nat) : Option (List Byte × MysockContext) :=
  if sock.eof then some ([], sock)
  else
    match mysockDequeueBuffer sock.appSendQueue bufLen with
    | none => none
    | some (data, left) =>
        some (data, { sock with appSendQueue := left, eof := data.isEmpty })

/-- The request made by `myclose`, before it blocks until the transport thread exits. -/
def myclose (sock : MysockContext) : MysockContext := { sock with closeRequested := true }

end EE323.Stcp

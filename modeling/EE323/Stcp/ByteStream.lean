/-
Module: EE323.Stcp.ByteStream
Purpose: Sequences of calls on one buffer queue.  What the calls return and what is still queued are
  the bytes that were enqueued, in their order, and each call returns a part of one buffer.
Main exports: Call, World, ByteStream, dequeue_position, call_kept, queue_is_byte_stream
-/
import Mathlib.Data.List.Induction
import EE323.Stcp.BufferQueue

namespace EE323.Stcp.BufferQueue

open EE323.Lib

inductive Call where
  | enqueue (packet : Buffer)
  | dequeue (maxLen : Nat) (room : 1 ≤ maxLen)

/-- A call of `_mysock_dequeue_buffer` that returned. -/
structure Returned where
  maxLen : Nat
  dst : List Cell
  packetLen : Nat

/-- The heap and the queue, and a record of the calls. -/
structure World where
  heap : Heap
  pq : PacketQueue
  enqueued : List (List Byte)
  returned : List Returned

namespace World

/-- A new queue. -/
def start (heap : Heap) : World :=
  { heap := heap, pq := { head := none, tail := none }, enqueued := [], returned := [] }

/-- One call, which is a partial one when it dequeues. -/
def call (world : World) : Call → Except Fault World
  | .enqueue packet => do
      let left ← mysockEnqueueBuffer world.heap world.pq packet
      .ok { world with
        heap := left.1
        pq := left.2
        enqueued := world.enqueued ++ [packet.bytes] }
  | .dequeue maxLen _ => do
      let dequeued ← mysockDequeueBuffer world.heap world.pq maxLen true
      .ok { world with
        heap := dequeued.heap
        pq := dequeued.pq
        returned := world.returned ++ [⟨maxLen, dequeued.dst, dequeued.packetLen⟩] }

def calls (world : World) (calls : List Call) : Except Fault World := calls.foldlM call world

end World

/-- The bytes that the calls returned. -/
def bytesOf (returned : List Returned) : List Cell := returned.flatMap fun call => call.dst

/-- What was returned and what is queued make up what was enqueued; each call returns as many bytes
as it copied, at most `max_len`, and they lie in one buffer, behind everything returned before; 0 is
only returned for an empty buffer; and head and tail are the ends of the queue. -/
structure ByteStream (world : World) (chain : Entries) (queued : List (List Byte)) : Prop where
  represents : Represents world.heap world.pq chain queued
  stream : bytesOf world.returned ++ queued.flatten.map some = world.enqueued.flatten.map some
  counted : ∀ call ∈ world.returned,
    call.packetLen = call.dst.length ∧ call.packetLen ≤ call.maxLen
  pieces : ∀ before call after, world.returned = before ++ call :: after →
    ∃ earlier buffer later front back, world.enqueued = earlier ++ buffer :: later ∧
      buffer.map some = front ++ call.dst ++ back ∧
      bytesOf before = earlier.flatten.map some ++ front ∧ (call.packetLen = 0 → buffer = [])
  ends : (world.pq.head = none ↔ world.pq.tail = none) ∧
    ∀ tail ∈ world.pq.tail, ∃ front node, chain = front ++ [(tail, node)] ∧ node.next = none

/-! ### The place in the stream -/

/-- The queued buffers with what was taken from the first one. -/
def whole (front : List Byte) : List (List Byte) → List (List Byte)
  | [] => []
  | left :: rest => (front ++ left) :: rest

/-- Some buffers were returned whole, and some bytes of the next one. -/
structure Position (enqueued : List (List Byte)) (returned : List Cell) (queued : List (List Byte))
    (done : List (List Byte)) (front : List Byte) : Prop where
  split : enqueued = done ++ whole front queued
  bytes : returned = done.flatten.map some ++ front.map some
  fresh : queued = [] ∨ queued.head? = some [] → front = []

section Places

variable {enqueued queued done left : List (List Byte)} {returned : List Cell}
  {front copied : List Byte} {maxLen : Nat}

theorem Position.stream (position : Position enqueued returned queued done front) :
    returned ++ queued.flatten.map some = enqueued.flatten.map some := by
  have joined : front ++ queued.flatten = (whole front queued).flatten := by
    cases queued with
    | nil =>
        rw [position.fresh (.inl rfl)]
        rfl
    | cons first rest => simp [whole]
  rw [position.bytes, position.split, List.flatten_append, ← joined]
  simp

theorem Position.enqueue (position : Position enqueued returned queued done front)
    (packet : List Byte) :
    Position (enqueued ++ [packet]) returned (Stcp.mysockEnqueueBuffer queued packet) done front where
  split := by
    rw [position.split, List.append_assoc]
    cases queued with
    | nil =>
        rw [position.fresh (.inl rfl)]
        rfl
    | cons first rest => rfl
  bytes := position.bytes
  fresh := by
    cases queued with
    | nil => exact fun _ => position.fresh (.inl rfl)
    | cons first rest =>
        rintro (isNil | isEmpty)
        · cases isNil
        · exact position.fresh (.inr isEmpty)

/-- What a call copies is a part of the buffer at the place of the stream, and it moves
the place. -/
theorem Position.dequeue (position : Position enqueued returned queued done front)
    (room : 1 ≤ maxLen) (dequeued : Stcp.mysockDequeueBuffer queued maxLen = some (copied, left)) :
    (∃ buffer later back, enqueued = done ++ buffer :: later ∧ buffer = front ++ copied ++ back ∧
        (copied = [] → buffer = [])) ∧
      ∃ done' front', Position enqueued (returned ++ copied.map some) left done' front' := by
  obtain ⟨bytes, more, rfl, ⟨long, rfl, rfl⟩ | ⟨short, rfl, rfl⟩⟩ :=
    mysockDequeueBuffer_cases dequeued
  · have notEmpty (isNil : bytes.take maxLen = []) : False := by
      have length := congrArg List.length isNil
      rw [List.length_take, List.length_nil] at length
      omega
    refine ⟨⟨front ++ bytes, more, bytes.drop maxLen, position.split, ?_, fun isNil =>
      (notEmpty isNil).elim⟩, done, front ++ bytes.take maxLen, ?_⟩
    · rw [List.append_assoc, List.take_append_drop]
    · exact
        { split := by
            rw [position.split, whole, whole, List.append_assoc, List.take_append_drop]
          bytes := by
            rw [position.bytes, List.map_append, List.append_assoc]
          fresh := by
            rintro (isNil | isEmpty)
            · cases isNil
            · have length := congrArg List.length (Option.some.inj isEmpty)
              rw [List.length_drop, List.length_nil] at length
              omega }
  · refine ⟨⟨front ++ copied, left, [], position.split, (List.append_nil _).symm, ?_⟩,
      done ++ [front ++ copied], [], ?_⟩
    · rintro rfl
      rw [position.fresh (.inr rfl)]
      rfl
    · exact
        { split := by
            rw [position.split, List.append_assoc]
            cases left with
            | nil => rfl
            | cons first rest => rfl
          bytes := by
            rw [position.bytes]
            simp
          fresh := fun _ => rfl }

end Places

/-! ### Sequences of calls -/

/-- The stream, with the place in it. -/
def Kept (world : World) : Prop :=
  ∃ chain queued, ByteStream world chain queued ∧
    ∃ done front, Position world.enqueued (bytesOf world.returned) queued done front

section Calls

variable {world : World}

theorem bytesOf_append (one two : List Returned) :
    bytesOf (one ++ two) = bytesOf one ++ bytesOf two :=
  List.flatMap_append

theorem kept_start (heap : Heap) : Kept (World.start heap) :=
  ⟨[], [],
    { represents := represents_empty heap
      stream := rfl
      counted := fun _ member => by cases member
      pieces := fun before call after split => by
        have length := congrArg List.length split
        simp [World.start] at length
      ends := (represents_empty heap).ends },
    [], [], ⟨rfl, rfl, fun _ => rfl⟩⟩

theorem call_enqueue_kept (kept : Kept world) (packet : Buffer) :
    ∃ after, world.call (.enqueue packet) = .ok after ∧ Kept after := by
  obtain ⟨chain, queued, stream, done, front, position⟩ := kept
  obtain ⟨heap', pq', chain', enqueued, represents⟩ := enqueue_refines stream.represents packet
  have moved := position.enqueue packet.bytes
  refine ⟨_, bind_eq_ok.mpr ⟨_, enqueued, rfl⟩, chain', _, ?_, done, front, moved⟩
  exact
    { represents := represents
      stream := moved.stream
      counted := stream.counted
      pieces := fun before call after split => by
        obtain ⟨earlier, buffer, later, one, two, isEnqueued, rest⟩ :=
          stream.pieces before call after split
        refine ⟨earlier, buffer, later ++ [packet.bytes], one, two, ?_, rest⟩
        show world.enqueued ++ [packet.bytes] = _
        rw [isEnqueued, List.append_assoc]
        rfl
      ends := represents.ends }

theorem call_dequeue_kept (kept : Kept world) (nonEmpty : world.pq.head ≠ none) {maxLen : Nat}
    (room : 1 ≤ maxLen) : ∃ after, world.call (.dequeue maxLen room) = .ok after ∧ Kept after := by
  obtain ⟨chain, queued, stream, done, front, position⟩ := kept
  have hasQueued : queued ≠ [] := by
    rintro rfl
    cases chain with
    | nil => exact nonEmpty stream.represents.linked
    | cons entry rest => cases stream.represents.holds
  obtain ⟨copied, left, taken⟩ := mysockDequeueBuffer_returns hasQueued maxLen
  obtain ⟨heap', pq', chain', dequeued, represents⟩ := dequeue_refines stream.represents taken
  obtain ⟨⟨buffer, later, back, isEnqueued, isBuffer, empty⟩, done', front', moved⟩ :=
    position.dequeue room taken
  have bytes : bytesOf (world.returned ++ [⟨maxLen, copied.map some, copied.length⟩]) =
      bytesOf world.returned ++ copied.map some := by
    rw [bytesOf_append]
    simp [bytesOf]
  rw [← bytes] at moved
  refine ⟨_, bind_eq_ok.mpr ⟨_, dequeued, rfl⟩, chain', left, ?_, done', front', moved⟩
  exact
    { represents := represents
      stream := moved.stream
      counted := fun call member => by
        rcases List.mem_append.mp member with old | new
        · exact stream.counted call old
        · obtain rfl := List.mem_singleton.mp new
          exact ⟨(List.length_map _).symm, mysockDequeueBuffer_length_le taken⟩
      pieces := fun before call after split => by
        rcases List.eq_nil_or_concat after with rfl | ⟨others, last, rfl⟩
        · -- The call is the new one.
          obtain ⟨rfl, same⟩ := List.append_inj' split rfl
          obtain rfl := List.head_eq_of_cons_eq same
          refine ⟨done, buffer, later, front.map some, back.map some, isEnqueued, ?_,
            position.bytes, fun isZero => empty (List.length_eq_zero_iff.mp isZero)⟩
          rw [isBuffer, List.map_append, List.map_append]
        · have earlierSplit : world.returned ++ [⟨maxLen, copied.map some, copied.length⟩] =
              (before ++ call :: others) ++ [last] := split.trans (by simp)
          exact stream.pieces before call others (List.append_inj' earlierSplit rfl).1
      ends := represents.ends }

/-- Whatever the calls are, as long as those that dequeue find the queue non-empty, they all return,
and the queue is a byte stream. -/
theorem queue_is_byte_stream (heap : Heap) (calls : List Call)
    (nonEmpty : ∀ before maxLen room after world, calls = before ++ .dequeue maxLen room :: after →
      (World.start heap).calls before = .ok world → world.pq.head ≠ none) :
    ∃ world chain queued, (World.start heap).calls calls = .ok world ∧
      ByteStream world chain queued := by
  have kept : ∃ world, (World.start heap).calls calls = .ok world ∧ Kept world := by
    induction calls using List.reverseRecOn with
    | nil => exact ⟨_, rfl, kept_start heap⟩
    | append_singleton calls call inductionHypothesis =>
        obtain ⟨world, reached, kept⟩ := inductionHypothesis
          fun before maxLen room after world split =>
            nonEmpty before maxLen room (after ++ [call]) world (by rw [split]; simp)
        have step : ∃ after, world.call call = .ok after ∧ Kept after := by
          cases call with
          | enqueue packet => exact call_enqueue_kept kept packet
          | dequeue maxLen room =>
              exact call_dequeue_kept kept (nonEmpty calls maxLen room [] world rfl reached) room
        obtain ⟨after, stepped, keptAfter⟩ := step
        refine ⟨after, ?_, keptAfter⟩
        unfold World.calls at reached ⊢
        rw [List.foldlM_append]
        exact bind_eq_ok.mpr ⟨world, reached, bind_eq_ok.mpr ⟨after, stepped, rfl⟩⟩
  obtain ⟨world, reached, chain, queued, stream, _⟩ := kept
  exact ⟨world, chain, queued, reached, stream⟩

end Calls

def emptyHeap : Heap := ⟨fun _ => none, fun _ => none, 0⟩

def threeBytes : Buffer := ⟨[1, 2, 3], by decide⟩

/-- A buffer of three bytes, of which two are read. -/
theorem queue_is_byte_stream_part : ∃ world chain queued,
    (World.start emptyHeap).calls [.enqueue threeBytes, .dequeue 2 (by decide)] = .ok world ∧
      ByteStream world chain queued := by
  refine queue_is_byte_stream emptyHeap _ fun before maxLen room after world split reached => ?_
  cases before with
  | nil => cases split
  | cons first rest =>
      obtain ⟨rfl, others⟩ := List.cons.inj split
      cases rest with
      | nil =>
          obtain rfl := Except.ok.inj reached
          exact Option.some_ne_none _
      | cons second more =>
          have length := congrArg List.length others
          simp at length

end EE323.Stcp.BufferQueue

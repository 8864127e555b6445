/-
Module: EE323.Stcp.BufferQueue
Purpose: The buffer queues of `mysock.c` as linked nodes on a heap, with the copies and the
  deallocations that the two functions make.  They keep the order of the buffers, and they do with the
  nodes what `mysockEnqueueBuffer` and `mysockDequeueBuffer` do with a list of buffers.
Main exports: Heap, PacketQueueNode, BufferQueue.mysockEnqueueBuffer,
  BufferQueue.mysockDequeueBuffer, Represents, enqueue_refines, dequeue_refines
-/
import Mathlib.Data.List.Forall2
import Mathlib.Data.List.Nodup
import EE323.Lib.Ensures
import EE323.Lib.Linked
import EE323.Lib.Memory
import EE323.Stcp.Mysock

namespace EE323.Stcp.BufferQueue

open EE323.Lib

/-- A byte of an allocated block.  What `malloc` returns is not initialised. -/
abbrev Cell := Option Byte

abbrev Address := Nat

/-- `packet_queue_node_t`. -/
structure PacketQueueNode where
  data : Option Address
  dataLen : Nat
  next : Option Address
deriving DecidableEq, Repr

/-- `packet_queue_t`. -/
structure PacketQueue where
  head : Option Address
  tail : Option Address
deriving DecidableEq, Repr

/-- The nodes and the blocks that are allocated.  Addresses from `nextFree` on are unused. -/
structure Heap where
  nodes : Address → Option PacketQueueNode
  blocks : Address → Option (List Cell)
  nextFree : Address

inductive Fault where
  | assertion
  | access
  | blocks
deriving DecidableEq, Repr

/-- No object is larger. -/
def ptrdiffMax : Nat := 0x7fffffffffffffff

/-- A buffer of the caller. -/
structure Buffer where
  bytes : List Byte
  sized : bytes.length ≤ ptrdiffMax

namespace Heap

/-- `calloc` of a node. -/
def calloc (heap : Heap) : Address × Heap :=
  (heap.nextFree,
    { heap with
      nodes := Function.update heap.nodes heap.nextFree (some ⟨none, 0, none⟩)
      nextFree := heap.nextFree + 1 })

/-- `malloc`, which refuses sizes that no object has. -/
def malloc (heap : Heap) (size : Nat) : Option Address × Heap :=
  if size ≤ ptrdiffMax then
    (some heap.nextFree,
      { heap with
        blocks := Function.update heap.blocks heap.nextFree (some (List.replicate size none))
        nextFree := heap.nextFree + 1 })
  else (none, heap)

def node (heap : Heap) (address : Address) : Except Fault PacketQueueNode :=
  match heap.nodes address with
  | some node => .ok node
  | none => .error .access

def setNode (heap : Heap) (address : Address) (node : PacketQueueNode) : Except Fault Heap :=
  if (heap.nodes address).isSome then
    .ok { heap with nodes := Function.update heap.nodes address (some node) }
  else .error .access

/-- `memcpy` from a block. -/
def read (heap : Heap) (pointer : Option Address) (offset count : Nat) :
    Except Fault (List Cell) :=
  match (pointer.bind heap.blocks).bind fun block => load block offset count with
  | some cells => .ok cells
  | none => .error .access

/-- `memcpy` into a block. -/
def write (heap : Heap) (pointer : Option Address) (offset : Nat) (cells : List Cell) :
    Except Fault Heap :=
  match pointer with
  | none => .error .access
  | some address =>
      match (heap.blocks address).bind fun block => store block offset cells with
      | some block => .ok { heap with blocks := Function.update heap.blocks address (some block) }
      | none => .error .access

/-- `free` of a block. -/
def freeBlock (heap : Heap) (pointer : Option Address) : Except Fault Heap :=
  match pointer with
  | none => .ok heap
  | some address =>
      if (heap.blocks address).isSome then
        .ok { heap with blocks := Function.update heap.blocks address none }
      else .error .access

/-- `free` of a node. -/
def freeNode (heap : Heap) (address : Address) : Except Fault Heap :=
  if (heap.nodes address).isSome then
    .ok { heap with nodes := Function.update heap.nodes address none }
  else .error .access

end Heap

/-- `memcpy` of a buffer that has bytes. -/
def fillBlock (heap : Heap) (data : Option Address) (packet : List Byte) : Except Fault Heap :=
  if 0 < packet.length then heap.write data 0 (packet.map some) else .ok heap

/-- The node that is made for a buffer. -/
def makeNode (heap : Heap) (packet : List Byte) : Except Fault (Address × Heap) := do
  let node := heap.calloc
  let data := node.2.malloc packet.length
  if data.1 = none then .error .assertion
  else
    let heap ← fillBlock data.2 data.1 packet
    let heap ← heap.setNode node.1 { data := data.1, dataLen := packet.length, next := none }
    .ok (node.1, heap)

/-- The node becomes the last one. -/
def linkNode (heap : Heap) (pq : PacketQueue) (node : Address) :
    Except Fault (Heap × PacketQueue) :=
  if pq.head = none then
    if pq.tail ≠ none then .error .assertion
    else .ok (heap, { head := some node, tail := some node })
  else
    match pq.tail with
    | none => .error .assertion
    | some tail => do
        let last ← heap.node tail
        if last.next ≠ none then .error .assertion
        else
          let heap ← heap.setNode tail { last with next := some node }
          .ok (heap, { pq with tail := some node })

/-- `_mysock_enqueue_buffer`. -/
def mysockEnqueueBuffer (heap : Heap) (pq : PacketQueue) (packet : Buffer) :
    Except Fault (Heap × PacketQueue) := do
  let made ← makeNode heap packet.bytes
  linkNode made.2 pq made.1

/-- What a call of `_mysock_dequeue_buffer` copies to `dst` and returns, and what it
leaves behind. -/
structure Dequeued where
  dst : List Cell
  packetLen : Nat
  heap : Heap
  pq : PacketQueue

/-- `node->data_len - max_len` in `size_t`. -/
def restSize (dataLen maxLen : Nat) : Nat := (((dataLen : Int) - maxLen) % 0x10000000000000000).toNat

/-- The head stays with the bytes that did not fit, which are moved to its front by way of `mid`. -/
def dequeuePart (heap : Heap) (pq : PacketQueue) (head : Address) (node : PacketQueueNode)
    (mid : Option Address) (maxLen : Nat) : Except Fault Dequeued := do
  let dst ← heap.read node.data 0 maxLen
  let rest ← heap.read node.data maxLen (node.dataLen - maxLen)
  let heap ← heap.write mid 0 rest
  let rest ← heap.read mid 0 (node.dataLen - maxLen)
  let heap ← heap.write node.data 0 rest
  let heap ← heap.setNode head { node with dataLen := node.dataLen - maxLen }
  .ok { dst := dst, packetLen := maxLen, heap := heap, pq := pq }

/-- The head is taken off the queue, which may leave it empty. -/
def unlinkHead (pq : PacketQueue) (head : Address) (node : PacketQueueNode) :
    Except Fault PacketQueue :=
  if node.next = none then
    if pq.tail = some head then .ok { head := none, tail := none } else .error .assertion
  else .ok { pq with head := node.next }

/-- The head is taken off the queue, copied and freed. -/
def dequeueWhole (heap : Heap) (pq : PacketQueue) (head : Address) (node : PacketQueueNode)
    (maxLen : Nat) : Except Fault Dequeued := do
  let pq ← unlinkHead pq head node
  let dst ← heap.read node.data 0 (min maxLen node.dataLen)
  let heap ← heap.freeBlock node.data
  let heap ← heap.freeNode head
  .ok { dst := dst, packetLen := node.dataLen, heap := heap, pq := pq }

/-- `_mysock_dequeue_buffer`.  The block `mid` is allocated on every call and never freed. -/
def mysockDequeueBuffer (heap : Heap) (pq : PacketQueue) (maxLen : Nat) (removePartial : Bool) :
    Except Fault Dequeued :=
  match pq.head with
  | none => .error .blocks
  | some head => do
      let node ← heap.node head
      let mid := heap.malloc (restSize node.dataLen maxLen)
      if node.data = none then .error .assertion
      else if maxLen < node.dataLen ∧ removePartial then
        dequeuePart mid.2 pq head node mid.1 maxLen
      else dequeueWhole mid.2 pq head node maxLen

/-! ### What a heap holds -/

section Holding

variable {heap other : Heap} {pq : PacketQueue}

/-- The block and the number of bytes of a node. -/
def PacketQueueNode.payload (node : PacketQueueNode) : Option Address × Nat :=
  (node.data, node.dataLen)

/-- The bytes lie at the front of the block. -/
def Holds (heap : Heap) (payload : Option Address × Nat) (bytes : List Byte) : Prop :=
  payload.2 = bytes.length ∧ bytes.length ≤ ptrdiffMax ∧
    ∃ data block, payload.1 = some data ∧ data < heap.nextFree ∧ heap.blocks data = some block ∧
      load block 0 bytes.length = some (bytes.map some)

abbrev Entries : Type := List (Address × PacketQueueNode)

def payloads (chain : Entries) : List (Option Address × Nat) :=
  chain.map fun entry => entry.2.payload

/-- The queue consists of these nodes, which hold these buffers in blocks of their own. -/
structure Represents (heap : Heap) (pq : PacketQueue) (chain : Entries)
    (queue : List (List Byte)) : Prop where
  linked : Chain PacketQueueNode.next heap.nodes pq.head chain
  last : pq.tail = (chain.map Prod.fst).getLast?
  apart : (chain.map Prod.fst).Nodup
  dataApart : ((payloads chain).map Prod.fst).Nodup
  holds : List.Forall₂ (Holds heap) (payloads chain) queue
  allocated : ∀ entry ∈ chain, entry.1 < heap.nextFree

theorem Holds.frame {payload : Option Address × Nat} {bytes : List Byte}
    (holds : Holds heap payload bytes)
    (same : ∀ data, payload.1 = some data → data < heap.nextFree →
      other.blocks data = heap.blocks data)
    (later : heap.nextFree ≤ other.nextFree) : Holds other payload bytes := by
  obtain ⟨isLength, sized, data, block, isData, below, isBlock, loaded⟩ := holds
  refine ⟨isLength, sized, data, block, isData, Nat.lt_of_lt_of_le below later, ?_, loaded⟩
  rw [same data isData below, isBlock]

theorem holds_frame {payloads : List (Option Address × Nat)} {queue : List (List Byte)}
    (holds : List.Forall₂ (Holds heap) payloads queue)
    (same : ∀ payload ∈ payloads, ∀ data, payload.1 = some data → data < heap.nextFree →
      other.blocks data = heap.blocks data)
    (later : heap.nextFree ≤ other.nextFree) : List.Forall₂ (Holds other) payloads queue := by
  induction holds with
  | nil => exact .nil
  | cons one _ inductionHypothesis =>
      refine .cons (one.frame (same _ List.mem_cons_self) later) (inductionHypothesis ?_)
      exact fun payload member => same payload (List.mem_cons_of_mem _ member)

theorem holds_data {payloads : List (Option Address × Nat)} {queue : List (List Byte)}
    (holds : List.Forall₂ (Holds heap) payloads queue) {payload : Option Address × Nat}
    (member : payload ∈ payloads) : ∃ data, payload.1 = some data ∧ data < heap.nextFree := by
  induction holds with
  | nil => cases member
  | cons one _ inductionHypothesis =>
      rcases List.mem_cons.mp member with rfl | later
      · obtain ⟨_, _, data, _, isData, below, _⟩ := one
        exact ⟨data, isData, below⟩
      · exact inductionHypothesis later

/-- No node of the queue is at a new address, and no block of it. -/
theorem Represents.new_address {chain : Entries} {queue : List (List Byte)}
    (represents : Represents heap pq chain queue) {address : Address}
    (isNew : heap.nextFree ≤ address) :
    address ∉ chain.map Prod.fst ∧ some address ∉ (payloads chain).map Prod.fst := by
  constructor
  · intro member
    obtain ⟨entry, isEntry, rfl⟩ := List.mem_map.mp member
    exact Nat.not_lt_of_le isNew (represents.allocated entry isEntry)
  · intro member
    obtain ⟨payload, isPayload, same⟩ := List.mem_map.mp member
    obtain ⟨data, isData, below⟩ := holds_data represents.holds isPayload
    rw [isData] at same
    rw [Option.some.inj same] at below
    exact Nat.not_lt_of_le isNew below

/-- What happens at new addresses does not concern the queue. -/
theorem Represents.frame {chain : Entries} {queue : List (List Byte)}
    (represents : Represents heap pq chain queue)
    (nodes : ∀ address < heap.nextFree, other.nodes address = heap.nodes address)
    (blocks : ∀ address < heap.nextFree, other.blocks address = heap.blocks address)
    (later : heap.nextFree ≤ other.nextFree) : Represents other pq chain queue where
  linked := represents.linked.frame fun entry member =>
    nodes entry.1 (represents.allocated entry member)
  last := represents.last
  apart := represents.apart
  dataApart := represents.dataApart
  holds := holds_frame represents.holds (fun _ _ data _ below => blocks data below) later
  allocated := fun entry member => Nat.lt_of_lt_of_le (represents.allocated entry member) later

/-- A new queue is empty, whatever else there is on the heap. -/
theorem represents_empty (heap : Heap) : Represents heap ⟨none, none⟩ [] [] where
  linked := rfl
  last := rfl
  apart := List.nodup_nil
  dataApart := List.nodup_nil
  holds := .nil
  allocated := fun _ member => by cases member

/-- Head and tail are NULL together, and the tail is the last node. -/
theorem Represents.ends {chain : Entries} {queue : List (List Byte)}
    (represents : Represents heap pq chain queue) :
    (pq.head = none ↔ pq.tail = none) ∧
      ∀ tail ∈ pq.tail, ∃ front node, chain = front ++ [(tail, node)] ∧ node.next = none := by
  constructor
  · rw [represents.linked.start_eq_none, represents.last, List.getLast?_eq_none_iff,
      List.map_eq_nil_iff]
  · intro tail isTail
    rw [represents.last] at isTail
    rcases List.eq_nil_or_concat chain with rfl | ⟨front, ⟨address, node⟩, rfl⟩
    · cases isTail
    · simp only [List.concat_eq_append, List.map_append, List.map_cons, List.map_nil,
        List.getLast?_append, List.getLast?_singleton, Option.some_or, Option.mem_def,
        Option.some.injEq] at isTail
      subst isTail
      have linked := represents.linked
      rw [List.concat_eq_append] at linked
      exact ⟨front, node, List.concat_eq_append, linked.last_next⟩

end Holding

/-! ### The heap operations -/

section Operations

variable {heap : Heap}

theorem node_eq {address : Address} {node : PacketQueueNode}
    (isNode : heap.nodes address = some node) : heap.node address = .ok node := by
  unfold Heap.node
  rw [isNode]

theorem setNode_eq {address : Address} {old : PacketQueueNode} (node : PacketQueueNode)
    (isNode : heap.nodes address = some old) :
    heap.setNode address node =
      .ok { heap with nodes := Function.update heap.nodes address (some node) } := by
  unfold Heap.setNode
  rw [isNode]
  rfl

theorem read_eq {data : Address} {block cells : List Cell} {offset count : Nat}
    (isBlock : heap.blocks data = some block) (loaded : load block offset count = some cells) :
    heap.read (some data) offset count = .ok cells := by
  unfold Heap.read
  rw [Option.bind_some, isBlock, Option.bind_some, loaded]

theorem write_eq {data : Address} {block stored cells : List Cell} {offset : Nat}
    (isBlock : heap.blocks data = some block) (isStored : store block offset cells = some stored) :
    heap.write (some data) offset cells =
      .ok { heap with blocks := Function.update heap.blocks data (some stored) } := by
  unfold Heap.write
  dsimp only
  rw [isBlock, Option.bind_some, isStored]

theorem freeBlock_eq {data : Address} {block : List Cell} (isBlock : heap.blocks data = some block) :
    heap.freeBlock (some data) =
      .ok { heap with blocks := Function.update heap.blocks data none } := by
  unfold Heap.freeBlock
  dsimp only
  rw [isBlock]
  rfl

theorem freeNode_eq {address : Address} {node : PacketQueueNode}
    (isNode : heap.nodes address = some node) :
    heap.freeNode address =
      .ok { heap with nodes := Function.update heap.nodes address none } := by
  unfold Heap.freeNode
  rw [isNode]
  rfl

/-- `malloc` leaves what there is as it is. -/
theorem malloc_frame (heap : Heap) (size : Nat) :
    (heap.malloc size).2.nodes = heap.nodes ∧
      (∀ address < heap.nextFree, (heap.malloc size).2.blocks address = heap.blocks address) ∧
      heap.nextFree ≤ (heap.malloc size).2.nextFree := by
  unfold Heap.malloc
  split
  · refine ⟨rfl, fun address below => ?_, Nat.le_succ _⟩
    exact Function.update_of_ne (Nat.ne_of_lt below) _ _
  · exact ⟨rfl, fun _ _ => rfl, Nat.le_refl _⟩

/-- A block that is filled from its front. -/
theorem store_whole {block cells : List Cell} (sameSize : block.length = cells.length) :
    store block 0 cells = some cells := by
  unfold store
  rw [if_pos (by omega), List.take_zero, Nat.zero_add, List.drop_of_length_le (by omega)]
  simp

end Operations

/-! ### Enqueueing -/

section Enqueueing

variable {heap : Heap} {pq : PacketQueue}

/-- The heap with a node for a buffer. -/
def withNode (heap : Heap) (packet : List Byte) : Heap where
  nodes := Function.update heap.nodes heap.nextFree
    (some ⟨some (heap.nextFree + 1), packet.length, none⟩)
  blocks := Function.update heap.blocks (heap.nextFree + 1) (some (packet.map some))
  nextFree := heap.nextFree + 2

theorem fillBlock_eq {data : Address} {packet : List Byte}
    (isBlock : heap.blocks data = some (List.replicate packet.length none)) :
    fillBlock heap (some data) packet =
      .ok { heap with blocks := Function.update heap.blocks data (some (packet.map some)) } := by
  unfold fillBlock
  by_cases some : 0 < packet.length
  · rw [if_pos some, write_eq isBlock (store_whole (by simp))]
  · obtain rfl : packet = [] := List.length_eq_zero_iff.mp (by omega)
    have unchanged : Function.update heap.blocks data (Option.some []) = heap.blocks := by
      rw [Function.update_eq_self_iff, isBlock]
      rfl
    rw [if_neg some, List.map_nil, unchanged]

theorem makeNode_eq {packet : List Byte} (sized : packet.length ≤ ptrdiffMax) :
    makeNode heap packet = .ok (heap.nextFree, withNode heap packet) := by
  unfold makeNode Heap.calloc Heap.malloc
  dsimp only
  rw [if_pos sized]
  dsimp only
  rw [if_neg (by simp)]
  refine bind_eq_ok.mpr ⟨_, fillBlock_eq (Function.update_self _ _ _), ?_⟩
  refine bind_eq_ok.mpr ⟨_, setNode_eq _ (Function.update_self _ _ _), ?_⟩
  dsimp only
  rw [Function.update_idem, Function.update_idem]
  rfl

theorem withNode_frame (packet : List Byte) :
    (∀ address < heap.nextFree, (withNode heap packet).nodes address = heap.nodes address) ∧
      (∀ address < heap.nextFree, (withNode heap packet).blocks address = heap.blocks address) :=
  ⟨fun _ below => Function.update_of_ne (Nat.ne_of_lt below) _ _,
    fun _ below => Function.update_of_ne (Nat.ne_of_lt (Nat.lt_succ_of_lt below)) _ _⟩

theorem withNode_holds {packet : List Byte} (sized : packet.length ≤ ptrdiffMax) :
    Holds (withNode heap packet) (some (heap.nextFree + 1), packet.length) packet := by
  refine ⟨rfl, sized, _, packet.map some, rfl, Nat.lt_succ_self _, Function.update_self _ _ _, ?_⟩
  have whole := load_self (packet.map some)
  rwa [List.length_map] at whole

section Linking

variable {chain : Entries} {queue : List (List Byte)} {bytes : List Byte} {added : Address}
  {node : PacketQueueNode}

theorem linkNode_empty (noHead : pq.head = none) (noTail : pq.tail = none) :
    linkNode heap pq added = .ok (heap, ⟨some added, some added⟩) := by
  unfold linkNode
  rw [if_pos noHead, if_neg (not_not.mpr noTail)]

theorem linkNode_tail {tail : Address} {last : PacketQueueNode} (hasHead : pq.head ≠ none)
    (isTail : pq.tail = some tail) (isLast : heap.nodes tail = some last) (ends : last.next = none) :
    linkNode heap pq added =
      .ok ({ heap with
          nodes := Function.update heap.nodes tail (some { last with next := some added }) },
        { pq with tail := some added }) := by
  unfold linkNode
  rw [if_neg hasHead, isTail]
  dsimp only
  rw [node_eq isLast]
  dsimp only [bind, Except.bind]
  rw [if_neg (not_not.mpr ends), setNode_eq _ isLast]

/-- A node outside the queue that holds a buffer becomes its last one. -/
theorem linkNode_refines (represents : Represents heap pq chain queue)
    (isNode : heap.nodes added = some node) (ends : node.next = none) (below : added < heap.nextFree)
    (isNew : added ∉ chain.map Prod.fst) (newData : node.data ∉ (payloads chain).map Prod.fst)
    (holds : Holds heap node.payload bytes) :
    ∃ heap' pq' chain', linkNode heap pq added = .ok (heap', pq') ∧
      Represents heap' pq' chain' (queue ++ [bytes]) := by
  have allHold : List.Forall₂ (Holds heap) (payloads chain ++ [node.payload]) (queue ++ [bytes]) :=
    List.rel_append represents.holds (.cons holds .nil)
  have allApart : ((payloads chain).map Prod.fst ++ [node.data]).Nodup := by
    rw [← List.concat_eq_append, List.nodup_concat]
    exact ⟨newData, represents.dataApart⟩
  rcases List.eq_nil_or_concat chain with rfl | ⟨front, ⟨tail, last⟩, isChain⟩
  · have noHead : pq.head = none := represents.linked
    have noTail : pq.tail = none := represents.last
    refine ⟨_, _, [(added, node)], linkNode_empty noHead noTail, ?_⟩
    exact
      { linked := ⟨rfl, isNode, ends⟩
        last := rfl
        apart := List.nodup_singleton _
        dataApart := allApart
        holds := allHold
        allocated := fun entry member => List.mem_singleton.mp member ▸ below }
  · rw [List.concat_eq_append] at isChain
    subst isChain
    have hasHead : pq.head ≠ none := by
      rw [Ne, represents.linked.start_eq_none]
      simp
    have isTail : pq.tail = some tail := by
      rw [represents.last]
      simp
    have newAddress : ((front ++ [(tail, last)]).map Prod.fst ++ [added]).Nodup := by
      rw [← List.concat_eq_append, List.nodup_concat]
      exact ⟨isNew, represents.apart⟩
    have tailNode := represents.linked.node (List.mem_append_right front List.mem_cons_self)
    have tailEnds := represents.linked.last_next
    have notTail : tail ≠ added := fun same => isNew (by rw [← same]; simp)
    have apart := represents.apart
    rw [List.map_append, List.nodup_append] at apart
    have tailApart : tail ∉ front.map Prod.fst := fun member =>
      apart.2.2 tail member tail List.mem_cons_self rfl
    let joined : PacketQueueNode := { last with next := some added }
    have samePayloads : payloads (front ++ [(tail, joined), (added, node)]) =
        payloads (front ++ [(tail, last)]) ++ [node.payload] := by
      simp [payloads, PacketQueueNode.payload, joined]
    have sameAddresses : (front ++ [(tail, joined), (added, node)]).map Prod.fst =
        (front ++ [(tail, last)]).map Prod.fst ++ [added] := by simp
    refine ⟨_, _, front ++ [(tail, joined), (added, node)],
      linkNode_tail hasHead isTail tailNode tailEnds, ?_⟩
    exact
      { linked := represents.linked.push tailApart rfl isNode notTail ends
        last := by simp
        apart := by
          rw [sameAddresses]
          exact newAddress
        dataApart := by
          rw [samePayloads, List.map_append]
          exact allApart
        holds := by
          rw [samePayloads]
          exact holds_frame allHold (fun _ _ _ _ _ => rfl) (Nat.le_refl _)
        allocated := by
          intro entry member
          have address := List.mem_map_of_mem (f := Prod.fst) member
          rw [sameAddresses] at address
          rcases List.mem_append.mp address with old | isAdded
          · obtain ⟨other, isOther, same⟩ := List.mem_map.mp old
            exact same ▸ represents.allocated other isOther
          · exact List.mem_singleton.mp isAdded ▸ below }

end Linking

/-- The call adds the buffer to the end of the queue. -/
theorem enqueue_refines {chain : Entries} {queue : List (List Byte)}
    (represents : Represents heap pq chain queue) (packet : Buffer) :
    ∃ heap' pq' chain', mysockEnqueueBuffer heap pq packet = .ok (heap', pq') ∧
      Represents heap' pq' chain' (Stcp.mysockEnqueueBuffer queue packet.bytes) := by
  obtain ⟨sameNodes, sameBlocks⟩ := @withNode_frame heap packet.bytes
  have framed : Represents (withNode heap packet.bytes) pq chain queue :=
    represents.frame sameNodes sameBlocks (Nat.le_add_right _ 2)
  have isNode : (withNode heap packet.bytes).nodes heap.nextFree =
      some ⟨some (heap.nextFree + 1), packet.bytes.length, none⟩ := Function.update_self _ _ _
  have isNew := (represents.new_address (Nat.le_refl heap.nextFree)).1
  have newData := (represents.new_address (Nat.le_succ heap.nextFree)).2
  obtain ⟨heap', pq', chain', linked, after⟩ := linkNode_refines framed isNode rfl
    (Nat.lt_add_of_pos_right Nat.two_pos) isNew newData (withNode_holds packet.sized)
  refine ⟨heap', pq', chain', ?_, after⟩
  unfold mysockEnqueueBuffer
  rw [makeNode_eq packet.sized]
  exact linked

end Enqueueing

/-! ### Dequeueing -/

section Dequeueing

variable {heap : Heap} {pq : PacketQueue} {head : Address} {node : PacketQueueNode} {rest : Entries}
  {bytes : List Byte} {more : List (List Byte)} {maxLen : Nat}

/-- Writes to the head's block and to blocks outside the queue leave the other buffers as
they are. -/
theorem rest_holds {other : Heap} {data : Address}
    (represents : Represents heap pq ((head, node) :: rest) (bytes :: more))
    (isData : node.data = some data)
    (same : ∀ address < heap.nextFree, some address ∈ (payloads rest).map Prod.fst →
      address ≠ data → other.blocks address = heap.blocks address)
    (later : heap.nextFree ≤ other.nextFree) :
    List.Forall₂ (Holds other) (payloads rest) more := by
  have apart := (List.nodup_cons.mp represents.dataApart).1
  refine holds_frame (List.forall₂_cons.mp represents.holds).2 ?_ later
  intro payload member address isAddress below
  have listed : some address ∈ (payloads rest).map Prod.fst :=
    isAddress ▸ List.mem_map_of_mem member
  refine same address below listed ?_
  rintro rfl
  apply apart
  show node.data ∈ _
  rw [isData]
  exact listed

/-- The bytes that fit are copied and the others move to the front of the block. -/
theorem dequeuePart_refines {mid : Address}
    (represents : Represents heap pq ((head, node) :: rest) (bytes :: more))
    (long : maxLen < bytes.length)
    (isMid : heap.blocks mid = some (List.replicate (bytes.length - maxLen) none))
    (newMid : some mid ∉ (payloads ((head, node) :: rest)).map Prod.fst) :
    ∃ heap' chain', dequeuePart heap pq head node (some mid) maxLen =
        .ok ⟨(bytes.take maxLen).map some, maxLen, heap', pq⟩ ∧
      Represents heap' pq chain' (bytes.drop maxLen :: more) := by
  obtain ⟨isLength, sized, data, block, isData, below, isBlock, loaded⟩ :=
    (List.forall₂_cons.mp represents.holds).1
  have isNode := represents.linked.node List.mem_cons_self
  have headApart := (List.nodup_cons.mp represents.apart).1
  obtain ⟨pointer, dataLen, next⟩ := node
  obtain rfl : pointer = some data := isData
  obtain rfl : dataLen = bytes.length := isLength
  have midApart : data ≠ mid := by
    rintro rfl
    exact newMid List.mem_cons_self
  have taken : load block 0 maxLen = some ((bytes.take maxLen).map some) := by
    rw [load_take loaded (Nat.le_of_lt long), List.map_take]
  have behind : load block maxLen (bytes.length - maxLen) =
      some ((bytes.drop maxLen).map some) := by
    have further := load_drop loaded maxLen (Nat.le_of_lt long)
    rwa [Nat.zero_add, ← List.map_drop] at further
  have reloadedMid : load ((bytes.drop maxLen).map some) 0 (bytes.length - maxLen) =
      some ((bytes.drop maxLen).map some) := by
    have whole := load_self ((bytes.drop maxLen).map some)
    rwa [List.length_map, List.length_drop] at whole
  have inside : 0 + ((bytes.drop maxLen).map some).length ≤ block.length := by
    have whole := (load_eq_some.mp loaded).1
    rw [List.length_map, List.length_drop]
    omega
  obtain ⟨stored, isStored⟩ := store_isSome inside
  let shorter : PacketQueueNode := ⟨some data, bytes.length - maxLen, next⟩
  let withMid : Heap :=
    { heap with blocks := Function.update heap.blocks mid (some ((bytes.drop maxLen).map some)) }
  let after : Heap :=
    { withMid with
      nodes := Function.update heap.nodes head (some shorter)
      blocks := Function.update withMid.blocks data (some stored) }
  have keptBlock : withMid.blocks data = some block := by
    rw [← isBlock]
    exact Function.update_of_ne midApart _ _
  refine ⟨after, (head, shorter) :: rest, ?_, ?_⟩
  · unfold dequeuePart
    refine bind_eq_ok.mpr ⟨_, read_eq isBlock taken, ?_⟩
    refine bind_eq_ok.mpr ⟨_, read_eq isBlock behind, ?_⟩
    refine bind_eq_ok.mpr ⟨withMid, write_eq isMid (store_whole (by simp)), ?_⟩
    refine bind_eq_ok.mpr ⟨(bytes.drop maxLen).map some, ?_, ?_⟩
    · exact read_eq (Function.update_self _ _ _) reloadedMid
    refine bind_eq_ok.mpr ⟨_, write_eq keptBlock isStored, ?_⟩
    exact bind_eq_ok.mpr ⟨after, setNode_eq _ isNode, rfl⟩
  · have samePayloads : (payloads ((head, shorter) :: rest)).map Prod.fst =
        (payloads ((head, ⟨some data, bytes.length, next⟩) :: rest)).map Prod.fst := rfl
    have headHolds : Holds after shorter.payload (bytes.drop maxLen) := by
      refine ⟨List.length_drop.symm, ?_, data, stored, rfl, below,
        Function.update_self _ _ _, ?_⟩
      · rw [List.length_drop]
        omega
      · have reloaded := load_store isStored
        rwa [List.length_map] at reloaded
    have restHolds : List.Forall₂ (Holds after) (payloads rest) more := by
      refine rest_holds represents rfl ?_ (Nat.le_refl _)
      intro address _ listed notData
      have notMid : address ≠ mid := by
        rintro rfl
        exact newMid (List.mem_cons_of_mem _ listed)
      exact (Function.update_of_ne notData _ _).trans (Function.update_of_ne notMid _ _)
    exact
      { linked := represents.linked.set_head headApart rfl
        last := represents.last
        apart := represents.apart
        dataApart := samePayloads ▸ represents.dataApart
        holds := .cons headHolds restHolds
        allocated := by
          intro entry member
          rcases List.mem_cons.mp member with rfl | later
          · exact represents.allocated (head, ⟨some data, bytes.length, next⟩) List.mem_cons_self
          · exact represents.allocated entry (List.mem_cons_of_mem _ later) }

/-- The head leaves the queue, which is empty when there was no next node. -/
theorem unlinkHead_eq (represents : Represents heap pq ((head, node) :: rest) (bytes :: more)) :
    ∃ pq', unlinkHead pq head node = .ok pq' ∧ pq'.head = node.next ∧
      pq'.tail = (rest.map Prod.fst).getLast? := by
  have isRest := represents.linked.2.2.start_eq_none
  unfold unlinkHead
  by_cases noRest : node.next = none
  · obtain rfl := isRest.mp noRest
    have isTail : pq.tail = some head := represents.last
    rw [if_pos noRest, if_pos isTail]
    exact ⟨_, rfl, noRest.symm, rfl⟩
  · rw [if_neg noRest]
    refine ⟨_, rfl, rfl, ?_⟩
    obtain ⟨second, others, rfl⟩ := List.exists_cons_of_ne_nil (mt isRest.mpr noRest)
    show pq.tail = _
    rw [represents.last, List.map_cons, List.map_cons, List.getLast?_cons_cons]

/-- A buffer that fits is copied whole, and its node and its block are freed. -/
theorem dequeueWhole_refines
    (represents : Represents heap pq ((head, node) :: rest) (bytes :: more))
    (short : bytes.length ≤ maxLen) :
    ∃ heap' pq', dequeueWhole heap pq head node maxLen =
        .ok ⟨bytes.map some, bytes.length, heap', pq'⟩ ∧ Represents heap' pq' rest more := by
  obtain ⟨isLength, sized, data, block, isData, below, isBlock, loaded⟩ :=
    (List.forall₂_cons.mp represents.holds).1
  have isNode := represents.linked.node List.mem_cons_self
  have headApart := (List.nodup_cons.mp represents.apart).1
  change node.data = some data at isData
  change node.dataLen = bytes.length at isLength
  obtain ⟨pq', unlinked, isHead, isTail⟩ := unlinkHead_eq represents
  let after : Heap :=
    { heap with
      nodes := Function.update heap.nodes head none
      blocks := Function.update heap.blocks data none }
  refine ⟨after, pq', ?_, ?_⟩
  · unfold dequeueWhole
    refine bind_eq_ok.mpr ⟨pq', unlinked, ?_⟩
    rw [isData, isLength, Nat.min_eq_right short]
    refine bind_eq_ok.mpr ⟨_, read_eq isBlock loaded, ?_⟩
    refine bind_eq_ok.mpr ⟨_, freeBlock_eq isBlock, ?_⟩
    exact bind_eq_ok.mpr ⟨after, freeNode_eq isNode, rfl⟩
  · exact
      { linked := isHead ▸ represents.linked.unlink headApart
        last := isTail
        apart := (List.nodup_cons.mp represents.apart).2
        dataApart := (List.nodup_cons.mp represents.dataApart).2
        holds := rest_holds represents isData
          (fun _ _ _ notData => Function.update_of_ne notData _ _) (Nat.le_refl _)
        allocated := fun entry member =>
          represents.allocated entry (List.mem_cons_of_mem _ member) }

theorem restSize_eq {dataLen : Nat} (long : maxLen < dataLen) (sized : dataLen ≤ ptrdiffMax) :
    restSize dataLen maxLen = dataLen - maxLen := by
  unfold ptrdiffMax at sized
  unfold restSize
  omega

/-- The call takes from the front of the queue what the list of buffers gives. -/
theorem dequeue_refines {chain : Entries} {queue left : List (List Byte)} {copied : List Byte}
    (represents : Represents heap pq chain queue)
    (dequeued : Stcp.mysockDequeueBuffer queue maxLen = some (copied, left)) :
    ∃ heap' pq' chain', mysockDequeueBuffer heap pq maxLen true =
        .ok ⟨copied.map some, copied.length, heap', pq'⟩ ∧ Represents heap' pq' chain' left := by
  obtain ⟨bytes, more, rfl, parts⟩ := mysockDequeueBuffer_cases dequeued
  cases chain with
  | nil => cases represents.holds
  | cons entry rest =>
      obtain ⟨head, node⟩ := entry
      obtain ⟨isHead, isNode, _⟩ := represents.linked
      obtain ⟨isLength, sized, data, _, isData, below, _⟩ :=
        (List.forall₂_cons.mp represents.holds).1
      change node.dataLen = bytes.length at isLength
      change node.data = some data at isData
      have hasData : node.data ≠ none := by simp [isData]
      obtain ⟨sameNodes, sameBlocks, later⟩ := malloc_frame heap (restSize bytes.length maxLen)
      have framed : Represents (heap.malloc (restSize bytes.length maxLen)).2 pq
          ((head, node) :: rest) (bytes :: more) :=
        represents.frame (fun _ _ => by rw [sameNodes]) sameBlocks later
      unfold mysockDequeueBuffer
      rw [isHead]
      dsimp only
      rw [node_eq isNode]
      dsimp only [bind, Except.bind]
      rw [if_neg hasData, isLength]
      rcases parts with ⟨long, rfl, rfl⟩ | ⟨short, rfl, rfl⟩
      · have small : bytes.length - maxLen ≤ ptrdiffMax := Nat.le_trans (Nat.sub_le _ _) sized
        have allocated := (congrArg heap.malloc (restSize_eq long sized)).trans (if_pos small)
        have newMid := (represents.new_address (Nat.le_refl heap.nextFree)).2
        have copiedLength : (bytes.take maxLen).length = maxLen :=
          List.length_take_of_le (Nat.le_of_lt long)
        rw [if_pos ⟨long, rfl⟩]
        rw [allocated] at framed ⊢
        obtain ⟨heap', chain', returned, after⟩ :=
          dequeuePart_refines framed long (Function.update_self _ _ _) newMid
        exact ⟨heap', pq, chain', by rw [returned, copiedLength], after⟩
      · rw [if_neg fun both => Nat.not_lt_of_le short both.1]
        obtain ⟨heap', pq', returned, after⟩ := dequeueWhole_refines framed short
        exact ⟨heap', pq', rest, returned, after⟩

end Dequeueing

end EE323.Stcp.BufferQueue

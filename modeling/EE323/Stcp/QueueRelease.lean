/-
Module: EE323.Stcp.QueueRelease
Purpose: What the buffer queues of `mysock.c` leave on the heap.  `_mysock_free_queue` frees every
  node and every block of its queue once and nothing else, and what stays allocated behind it is one
  block for each call of `_mysock_dequeue_buffer` that filled its caller's buffer.
Main exports: mysockFreeQueue, freeQueue_refines, Books, calls_books, queue_leaks
-/
import EE323.Lib.Allocation
import EE323.Stcp.ByteStream
import Mathlib.Data.List.Perm.Subperm

namespace EE323.Stcp.BufferQueue

open EE323.Lib

/-! ### Counting what is allocated -/

/-- Nothing is allocated at the addresses that are still to come. -/
structure Heap.Tidy (heap : Heap) : Prop where
  nodes : ∀ address, heap.nextFree ≤ address → heap.nodes address = none
  blocks : ∀ address, heap.nextFree ≤ address → heap.blocks address = none

/-- The nodes and the blocks that are allocated, counted. -/
def Heap.nodeCount (heap : Heap) : Nat := inUse heap.nodes heap.nextFree
def Heap.blockCount (heap : Heap) : Nat := inUse heap.blocks heap.nextFree

/-- How a call changed the heap: the numbers before it, with what it allocated, are the numbers
after it with what it freed. -/
structure Changed (before after : Heap) (newNodes oldNodes newBlocks oldBlocks : Nat) : Prop where
  tidy : after.Tidy
  nodes : after.nodeCount + oldNodes = before.nodeCount + newNodes
  blocks : after.blockCount + oldBlocks = before.blockCount + newBlocks

theorem Changed.trans {one two three : Heap} {a b c d a' b' c' d' : Nat}
    (first : Changed one two a b c d) (second : Changed two three a' b' c' d') :
    Changed one three (a + a') (b + b') (c + c') (d + d') where
  tidy := second.tidy
  nodes := by
    have := first.nodes
    have := second.nodes
    omega
  blocks := by
    have := first.blocks
    have := second.blocks
    omega

section Changes

variable {heap after : Heap} {address : Address}

theorem Heap.Tidy.node_below (tidy : heap.Tidy) {node : PacketQueueNode}
    (isNode : heap.nodes address = some node) : address < heap.nextFree := by
  refine Nat.lt_of_not_le fun behind => ?_
  rw [tidy.nodes address behind] at isNode
  cases isNode

theorem Heap.Tidy.block_below (tidy : heap.Tidy) {block : List Cell}
    (isBlock : heap.blocks address = some block) : address < heap.nextFree := by
  refine Nat.lt_of_not_le fun behind => ?_
  rw [tidy.blocks address behind] at isBlock
  cases isBlock

theorem update_node_changed (tidy : heap.Tidy) (below : address < heap.nextFree)
    (value : Option PacketQueueNode) :
    Changed heap { heap with nodes := Function.update heap.nodes address value } (oneIf value)
      (oneIf (heap.nodes address)) 0 0 where
  tidy :=
    { nodes := fun other behind =>
        (Function.update_of_ne (Nat.ne_of_gt (Nat.lt_of_lt_of_le below behind)) _ _).trans
          (tidy.nodes other behind)
      blocks := tidy.blocks }
  nodes := inUse_update below value
  blocks := rfl

theorem update_block_changed (tidy : heap.Tidy) (below : address < heap.nextFree)
    (value : Option (List Cell)) :
    Changed heap { heap with blocks := Function.update heap.blocks address value } 0 0 (oneIf value)
      (oneIf (heap.blocks address)) where
  tidy :=
    { nodes := tidy.nodes
      blocks := fun other behind =>
        (Function.update_of_ne (Nat.ne_of_gt (Nat.lt_of_lt_of_le below behind)) _ _).trans
          (tidy.blocks other behind) }
  nodes := rfl
  blocks := inUse_update below value

/-- A node that is written stays a node. -/
theorem setNode_changed (tidy : heap.Tidy) {node : PacketQueueNode}
    (written : heap.setNode address node = .ok after) : Changed heap after 0 0 0 0 := by
  unfold Heap.setNode at written
  split at written
  next isSome =>
    cases written
    obtain ⟨old, isOld⟩ := Option.isSome_iff_exists.mp isSome
    have changed := update_node_changed tidy (tidy.node_below isOld) (some node)
    rw [isOld] at changed
    exact ⟨changed.tidy, Nat.add_right_cancel changed.nodes, changed.blocks⟩
  next => cases written

theorem write_changed (tidy : heap.Tidy) {pointer : Option Address} {offset : Nat}
    {cells : List Cell}
    (written : heap.write pointer offset cells = .ok after) : Changed heap after 0 0 0 0 := by
  unfold Heap.write at written
  split at written
  next => cases written
  next address =>
    split at written
    next block stored =>
      cases written
      obtain ⟨old, isOld, -⟩ := Option.bind_eq_some_iff.mp stored
      have changed := update_block_changed tidy (tidy.block_below isOld) (some block)
      rw [isOld] at changed
      exact ⟨changed.tidy, changed.nodes, Nat.add_right_cancel changed.blocks⟩
    next => cases written

theorem fillBlock_changed (tidy : heap.Tidy) {data : Option Address} {packet : List Byte}
    (filled : fillBlock heap data packet = .ok after) : Changed heap after 0 0 0 0 := by
  unfold fillBlock at filled
  split at filled
  next => exact write_changed tidy filled
  next =>
    cases filled
    exact ⟨tidy, rfl, rfl⟩

theorem freeNode_changed (tidy : heap.Tidy) (freed : heap.freeNode address = .ok after) :
    Changed heap after 0 1 0 0 := by
  unfold Heap.freeNode at freed
  split at freed
  next isSome =>
    cases freed
    obtain ⟨old, isOld⟩ := Option.isSome_iff_exists.mp isSome
    have changed := update_node_changed tidy (tidy.node_below isOld) none
    rwa [isOld] at changed
  next => cases freed

theorem freeBlock_changed (tidy : heap.Tidy) (freed : heap.freeBlock (some address) = .ok after) :
    Changed heap after 0 0 0 1 := by
  unfold Heap.freeBlock at freed
  simp only at freed
  split at freed
  next isSome =>
    cases freed
    obtain ⟨old, isOld⟩ := Option.isSome_iff_exists.mp isSome
    have changed := update_block_changed tidy (tidy.block_below isOld) none
    rwa [isOld] at changed
  next => cases freed

theorem calloc_changed (tidy : heap.Tidy) : Changed heap heap.calloc.2 1 0 0 0 where
  tidy :=
    { nodes := fun other behind =>
        (Function.update_of_ne (Nat.ne_of_gt behind) _ _).trans
          (tidy.nodes other (Nat.le_of_succ_le behind))
      blocks := fun other behind => tidy.blocks other (Nat.le_of_succ_le behind) }
  nodes := by
    show inUse (Function.update heap.nodes heap.nextFree _) (heap.nextFree + 1) + 0 =
      inUse heap.nodes heap.nextFree + 1
    rw [inUse_succ, inUse_update_outside (Nat.le_refl _), Function.update_self]
    rfl
  blocks := by
    show inUse heap.blocks (heap.nextFree + 1) + 0 = inUse heap.blocks heap.nextFree + 0
    rw [inUse_succ, tidy.blocks _ (Nat.le_refl _)]
    rfl

/-- `malloc` allocates a block, if the size is one that an object can have. -/
theorem malloc_changed (tidy : heap.Tidy) (size : Nat) :
    Changed heap (heap.malloc size).2 0 0 (if size ≤ ptrdiffMax then 1 else 0) 0 := by
  unfold Heap.malloc
  split
  next =>
    refine ⟨⟨fun other behind => tidy.nodes other (Nat.le_of_succ_le behind),
        fun other behind => ?_⟩,
      ?_, ?_⟩
    · exact (Function.update_of_ne (Nat.ne_of_gt behind) _ _).trans
        (tidy.blocks other (Nat.le_of_succ_le behind))
    · show inUse heap.nodes (heap.nextFree + 1) + 0 = inUse heap.nodes heap.nextFree + 0
      rw [inUse_succ, tidy.nodes _ (Nat.le_refl _)]
      rfl
    · show inUse (Function.update heap.blocks heap.nextFree _) (heap.nextFree + 1) + 0 =
        inUse heap.blocks heap.nextFree + 1
      rw [inUse_succ, inUse_update_outside (Nat.le_refl _), Function.update_self]
      rfl
  next => exact ⟨tidy, rfl, rfl⟩

/-! ### The two functions -/

theorem Changed.same {one two three : Heap} {a b c d : Nat} (first : Changed one two a b c d)
    (second : Changed two three 0 0 0 0) : Changed one three a b c d := first.trans second

theorem makeNode_changed (tidy : heap.Tidy) {packet : List Byte} {made : Address × Heap}
    (isMade : makeNode heap packet = .ok made) : Changed heap made.2 1 0 1 0 := by
  unfold makeNode at isMade
  dsimp only at isMade
  split at isMade
  next => cases isMade
  next allocated =>
    obtain ⟨filled, isFilled, isMade⟩ := bind_eq_ok.mp isMade
    obtain ⟨linked, isLinked, isMade⟩ := bind_eq_ok.mp isMade
    cases isMade
    have node := calloc_changed tidy
    have data := malloc_changed node.tidy packet.length
    have size : packet.length ≤ ptrdiffMax := by
      by_contra large
      exact allocated (by rw [Heap.malloc, if_neg large])
    rw [if_pos size] at data
    have both := node.trans data
    have full := both.same (fillBlock_changed both.tidy isFilled)
    exact full.same (setNode_changed full.tidy isLinked)

theorem linkNode_changed (tidy : heap.Tidy) {pq : PacketQueue} {node : Address}
    {linked : Heap × PacketQueue} (isLinked : linkNode heap pq node = .ok linked) :
    Changed heap linked.1 0 0 0 0 := by
  unfold linkNode at isLinked
  split at isLinked
  next =>
    split at isLinked
    next => cases isLinked
    next =>
      cases isLinked
      exact ⟨tidy, rfl, rfl⟩
  next =>
    split at isLinked
    next => cases isLinked
    next =>
      obtain ⟨last, -, isLinked⟩ := bind_eq_ok.mp isLinked
      split at isLinked
      next => cases isLinked
      next =>
        obtain ⟨written, isWritten, isLinked⟩ := bind_eq_ok.mp isLinked
        cases isLinked
        exact setNode_changed tidy isWritten

/-- A buffer that is enqueued has a node and a block. -/
theorem enqueue_changed (tidy : heap.Tidy) {pq : PacketQueue} {packet : Buffer}
    {left : Heap × PacketQueue} (enqueued : mysockEnqueueBuffer heap pq packet = .ok left) :
    Changed heap left.1 1 0 1 0 := by
  obtain ⟨made, isMade, isLinked⟩ := bind_eq_ok.mp enqueued
  have node := makeNode_changed tidy isMade
  exact node.same (linkNode_changed node.tidy isLinked)

theorem dequeuePart_changed (tidy : heap.Tidy) {pq : PacketQueue} {head : Address}
    {node : PacketQueueNode} {mid : Option Address} {maxLen : Nat} {dequeued : Dequeued}
    (isPart : dequeuePart heap pq head node mid maxLen = .ok dequeued) :
    Changed heap dequeued.heap 0 0 0 0 ∧ dequeued.packetLen = maxLen := by
  obtain ⟨_, -, isPart⟩ := bind_eq_ok.mp isPart
  obtain ⟨_, -, isPart⟩ := bind_eq_ok.mp isPart
  obtain ⟨moved, isMoved, isPart⟩ := bind_eq_ok.mp isPart
  obtain ⟨_, -, isPart⟩ := bind_eq_ok.mp isPart
  obtain ⟨back, isBack, isPart⟩ := bind_eq_ok.mp isPart
  obtain ⟨shorter, isShorter, isPart⟩ := bind_eq_ok.mp isPart
  cases isPart
  have first := write_changed tidy isMoved
  have second := first.same (write_changed first.tidy isBack)
  exact ⟨second.same (setNode_changed second.tidy isShorter), rfl⟩

theorem dequeueWhole_changed (tidy : heap.Tidy) {pq : PacketQueue} {head : Address}
    {node : PacketQueueNode} {maxLen : Nat} {dequeued : Dequeued} (hasData : node.data ≠ none)
    (isWhole : dequeueWhole heap pq head node maxLen = .ok dequeued) :
    Changed heap dequeued.heap 0 1 0 1 ∧ dequeued.packetLen = node.dataLen := by
  obtain ⟨data, isData⟩ := Option.ne_none_iff_exists'.mp hasData
  obtain ⟨_, -, isWhole⟩ := bind_eq_ok.mp isWhole
  obtain ⟨_, -, isWhole⟩ := bind_eq_ok.mp isWhole
  rw [isData] at isWhole
  obtain ⟨freed, isFreed, isWhole⟩ := bind_eq_ok.mp isWhole
  obtain ⟨left, isLeft, isWhole⟩ := bind_eq_ok.mp isWhole
  cases isWhole
  have block := freeBlock_changed tidy isFreed
  exact ⟨block.trans (freeNode_changed block.tidy isLeft), rfl⟩

/-- A call that fills the caller's buffer leaves a block behind.  One that takes the whole head
takes its node and its block off the heap. -/
theorem dequeue_changed (tidy : heap.Tidy) {pq : PacketQueue} {maxLen : Nat} {dequeued : Dequeued}
    {head : Address} {node : PacketQueueNode} (isHead : pq.head = some head)
    (isNode : heap.nodes head = some node) (fits : node.dataLen ≤ ptrdiffMax)
    (small : maxLen ≤ ptrdiffMax)
    (isDequeued : mysockDequeueBuffer heap pq maxLen true = .ok dequeued) :
    Changed heap dequeued.heap 0 (if maxLen < node.dataLen then 0 else 1)
      (if dequeued.packetLen = maxLen then 1 else 0) (if maxLen < node.dataLen then 0 else 1) := by
  unfold mysockDequeueBuffer at isDequeued
  rw [isHead] at isDequeued
  dsimp only at isDequeued
  rw [node_eq isNode] at isDequeued
  dsimp only [bind, Except.bind] at isDequeued
  split at isDequeued
  next => cases isDequeued
  next hasData =>
    have mid := malloc_changed tidy (restSize node.dataLen maxLen)
    split at isDequeued
    next part =>
      obtain ⟨changed, length⟩ := dequeuePart_changed mid.tidy isDequeued
      have allocated : restSize node.dataLen maxLen ≤ ptrdiffMax := by
        rw [restSize_eq part.1 fits]
        exact Nat.le_trans (Nat.sub_le _ _) fits
      rw [if_pos allocated] at mid
      rw [if_pos part.1, if_pos length]
      exact mid.same changed
    next whole =>
      obtain ⟨changed, length⟩ := dequeueWhole_changed mid.tidy hasData isDequeued
      have short : ¬maxLen < node.dataLen := fun long => whole ⟨long, rfl⟩
      have allocated : restSize node.dataLen maxLen ≤ ptrdiffMax ↔ dequeued.packetLen = maxLen := by
        rw [length]
        unfold ptrdiffMax at small
        unfold restSize ptrdiffMax
        omega
      rw [if_neg short]
      have both := mid.trans changed
      simp only [allocated] at both
      exact both

end Changes

/-! ### Releasing a queue -/

/-- The loop of `_mysock_free_queue`, with fuel for the nodes. -/
def freeNodes : Nat → Heap → Option Address → Bool → Except Fault (Bool × Heap)
  | _, heap, none, result => .ok (result, heap)
  | 0, _, some _, _ => .error .blocks
  | fuel + 1, heap, some node, result => do
      let entry ← heap.node node
      let freed ← heap.freeBlock entry.data
      let freed ← freed.freeNode node
      freeNodes fuel freed entry.next (result || 0 < entry.dataLen)

/-- `_mysock_free_queue`. -/
def mysockFreeQueue (heap : Heap) (pq : PacketQueue) :
    Except Fault (Bool × Heap × PacketQueue) := do
  let freed ← freeNodes heap.nextFree heap pq.head pq.head.isSome
  .ok (freed.1, freed.2, { head := none, tail := none })

/-- Every node and every block of the queue is freed, and nothing else. -/
theorem freeNodes_frees {heap : Heap} {start : Option Address} {chain : Entries}
    {queue : List (List Byte)} {fuel : Nat} (result : Bool) (tidy : heap.Tidy)
    (linked : Chain PacketQueueNode.next heap.nodes start chain)
    (apart : (chain.map Prod.fst).Nodup)
    (dataApart : ((payloads chain).map Prod.fst).Nodup)
    (holds : List.Forall₂ (Holds heap) (payloads chain) queue) (enough : chain.length ≤ fuel) :
    ∃ heap' more, freeNodes fuel heap start result = .ok (result || more, heap') ∧
      Changed heap heap' 0 chain.length 0 chain.length := by
  induction chain generalizing heap start queue fuel result with
  | nil =>
      obtain rfl : start = none := linked
      refine ⟨heap, false, ?_, tidy, rfl, rfl⟩
      rw [freeNodes, Bool.or_false]
  | cons entry rest inductionHypothesis =>
      obtain ⟨head, node⟩ := entry
      obtain ⟨fewer, rfl⟩ : ∃ fewer, fuel = fewer + 1 :=
        ⟨fuel - 1, by simp only [List.length_cons] at enough; omega⟩
      cases holds with
      | @cons _ _ _ behind one others =>
        obtain ⟨-, -, data, block, isData, below, isBlock, -⟩ := one
        change node.data = some data at isData
        obtain ⟨rfl, isNode, later⟩ := linked
        have headApart := (List.nodup_cons.mp apart).1
        have dataHead := (List.nodup_cons.mp dataApart).1
        let freed : Heap :=
          { heap with
            nodes := Function.update heap.nodes head none
            blocks := Function.update heap.blocks data none }
        have isFreed := freeBlock_eq isBlock
        have blockChanged := freeBlock_changed tidy isFreed
        let unblocked : Heap := { heap with blocks := Function.update heap.blocks data none }
        have isLeft : unblocked.freeNode head =
            .ok freed := freeNode_eq isNode
        have changed := blockChanged.trans (freeNode_changed blockChanged.tidy isLeft)
        have restHolds : List.Forall₂ (Holds freed) (payloads rest) behind := by
          refine holds_frame others (fun payload member address isAddress _ => ?_) (Nat.le_refl _)
          refine Function.update_of_ne ?_ _ _
          rintro rfl
          apply dataHead
          show node.data ∈ _
          rw [isData, ← isAddress]
          exact List.mem_map_of_mem member
        obtain ⟨heap', more, returned, after⟩ := inductionHypothesis (result || 0 < node.dataLen)
          changed.tidy (later.update_other headApart) (List.nodup_cons.mp apart).2
          (List.nodup_cons.mp dataApart).2 restHolds (Nat.le_of_succ_le_succ enough)
        refine ⟨heap', decide (0 < node.dataLen) || more, ?_, ?_⟩
        · unfold freeNodes
          refine bind_eq_ok.mpr ⟨node, node_eq isNode, ?_⟩
          refine bind_eq_ok.mpr ⟨_, isData ▸ isFreed, ?_⟩
          refine bind_eq_ok.mpr ⟨freed, isLeft, ?_⟩
          rw [returned, Bool.or_assoc]
        · have whole := changed.trans after
          simpa [Nat.add_comm] using whole

/-- A queue has no more nodes than there are addresses. -/
theorem Represents.length_le {heap : Heap} {pq : PacketQueue} {chain : Entries}
    {queue : List (List Byte)} (represents : Represents heap pq chain queue) :
    chain.length ≤ heap.nextFree := by
  have inside : chain.map Prod.fst ⊆ List.range heap.nextFree := by
    intro address member
    obtain ⟨entry, isEntry, rfl⟩ := List.mem_map.mp member
    exact List.mem_range.mpr (represents.allocated entry isEntry)
  have fewer := (List.subperm_of_subset represents.apart inside).length_le
  rwa [List.length_map, List.length_range] at fewer

theorem Represents.length_eq {heap : Heap} {pq : PacketQueue} {chain : Entries}
    {queue : List (List Byte)} (represents : Represents heap pq chain queue) :
    chain.length = queue.length := by
  have same := represents.holds.length_eq
  rwa [payloads, List.length_map] at same

/-- The queue is released, and the call says whether there was one. -/
theorem freeQueue_refines {heap : Heap} {pq : PacketQueue} {chain : Entries}
    {queue : List (List Byte)} (represents : Represents heap pq chain queue) (tidy : heap.Tidy) :
    ∃ result heap', mysockFreeQueue heap pq = .ok (result, heap', ⟨none, none⟩) ∧
      (result = true ↔ queue ≠ []) ∧ Changed heap heap' 0 queue.length 0 queue.length := by
  obtain ⟨heap', more, freed, changed⟩ := freeNodes_frees pq.head.isSome tidy represents.linked
    represents.apart represents.dataApart represents.holds represents.length_le
  rw [represents.length_eq] at changed
  refine ⟨pq.head.isSome || more, heap', bind_eq_ok.mpr ⟨_, freed, rfl⟩, ?_, changed⟩
  by_cases empty : queue = []
  · subst empty
    obtain rfl := List.length_eq_zero_iff.mp represents.length_eq
    have noHead : pq.head = none := represents.linked
    rw [noHead] at freed ⊢
    have none : freeNodes heap.nextFree heap none false = .ok (false, heap) := by
      cases heap.nextFree <;> rfl
    obtain ⟨isFalse, -⟩ := Prod.mk.inj (Except.ok.inj (none.symm.trans freed))
    simpa using isFalse.symm
  · have isHead : pq.head.isSome = true := by
      rw [Option.isSome_iff_ne_none, Ne, represents.linked.start_eq_none]
      rintro rfl
      exact empty (List.length_eq_zero_iff.mp represents.length_eq.symm)
    simp [isHead, empty]

/-! ### Runs -/

/-- A call that filled its caller's buffer. -/
def Returned.Full (call : Returned) : Bool := call.packetLen = call.maxLen

/-- A node and a block for each buffer that is queued, and a block for each call that filled its
caller's buffer. -/
structure Books (world : World) : Prop where
  tidy : world.heap.Tidy
  counts : ∃ chain queued, Represents world.heap world.pq chain queued ∧
    world.heap.nodeCount = queued.length ∧
    world.heap.blockCount = queued.length + (world.returned.filter Returned.Full).length

/-- `max_len` is the size of an object. -/
def Call.Real : Call → Prop
  | .enqueue _ => True
  | .dequeue maxLen _ => maxLen ≤ ptrdiffMax

theorem start_books : Books (World.start emptyHeap) where
  tidy := ⟨fun _ _ => rfl, fun _ _ => rfl⟩
  counts := ⟨[], [], represents_empty emptyHeap, rfl, rfl⟩

/-- One call keeps the books. -/
theorem call_books {world after : World} {call : Call} (books : Books world) (real : call.Real)
    (called : world.call call = .ok after) : Books after := by
  obtain ⟨tidy, chain, queued, represents, nodes, blocks⟩ := books
  cases call with
  | enqueue packet =>
      obtain ⟨left, isLeft, called⟩ := bind_eq_ok.mp called
      cases called
      have changed := enqueue_changed tidy isLeft
      obtain ⟨heap', pq', chain', enqueued, kept⟩ := enqueue_refines represents packet
      obtain rfl := Except.ok.inj (isLeft.symm.trans enqueued)
      have length : (Stcp.mysockEnqueueBuffer queued packet.bytes).length = queued.length + 1 :=
        List.length_append
      have moreNodes := changed.nodes
      have moreBlocks := changed.blocks
      refine ⟨changed.tidy, chain', _, kept, ?_, ?_⟩
      · dsimp only at *
        omega
      · dsimp only at *
        omega
  | dequeue maxLen room =>
      obtain ⟨dequeued, isDequeued, called⟩ := bind_eq_ok.mp called
      cases called
      cases chain with
      | nil =>
          have noHead : world.pq.head = none := represents.linked
          rw [mysockDequeueBuffer, noHead] at isDequeued
          cases isDequeued
      | cons entry rest =>
          obtain ⟨head, node⟩ := entry
          obtain ⟨isHead, isNode, -⟩ := represents.linked
          generalize isQueued : queued = buffers at represents
          obtain ⟨bytes, more, rfl⟩ : ∃ bytes more, buffers = bytes :: more :=
            List.exists_cons_of_length_eq_add_one represents.length_eq.symm
          obtain ⟨isLength, sized, -⟩ := (List.forall₂_cons.mp represents.holds).1
          change node.dataLen = bytes.length at isLength
          have changed := dequeue_changed tidy isHead isNode (isLength ▸ sized) real isDequeued
          obtain ⟨copied, left, taken⟩ :=
            mysockDequeueBuffer_returns (List.cons_ne_nil bytes more) maxLen
          obtain ⟨heap', pq', chain', dequeuedAs, kept⟩ := dequeue_refines represents taken
          obtain rfl := Except.ok.inj (isDequeued.symm.trans dequeuedAs)
          have length : left.length + (if maxLen < node.dataLen then 0 else 1) = queued.length := by
            obtain ⟨first, others, same, ⟨long, -, rfl⟩ | ⟨short, -, rfl⟩⟩ :=
              mysockDequeueBuffer_cases taken
            · obtain ⟨rfl, rfl⟩ := List.cons.inj same
              rw [isLength, if_pos long, isQueued]
              rfl
            · obtain ⟨rfl, rfl⟩ := List.cons.inj same
              rw [isLength, if_neg (Nat.not_lt.mpr short), isQueued]
              rfl
          have fewerNodes := changed.nodes
          have fewerBlocks := changed.blocks
          refine ⟨changed.tidy, chain', left, kept, ?_, ?_⟩
          · dsimp only at *
            omega
          · rw [List.filter_append, List.length_append]
            have last : (([⟨maxLen, copied.map some, copied.length⟩] : List Returned).filter
                Returned.Full).length = if copied.length = maxLen then 1 else 0 := by
              rw [List.filter_singleton]
              by_cases full : copied.length = maxLen <;> simp [Returned.Full, full]
            rw [last]
            dsimp only at *
            omega

/-- Calls that return keep the books. -/
theorem calls_books {world after : World} {calls : List Call} (books : Books world)
    (real : ∀ call ∈ calls, call.Real) (called : world.calls calls = .ok after) : Books after := by
  induction calls generalizing world with
  | nil =>
      obtain rfl := Except.ok.inj called
      exact books
  | cons call calls inductionHypothesis =>
      obtain ⟨next, isNext, called⟩ := bind_eq_ok.mp called
      exact inductionHypothesis (call_books books (real call List.mem_cons_self) isNext)
        (fun other member => real other (List.mem_cons_of_mem _ member)) called

/-- After any calls on a new queue and the release of the queue, no node is allocated, and of the
blocks one is for each call that filled its caller's buffer.  The release faults nowhere, and it
returns whether the queue had a node, even one without bytes. -/
theorem queue_leaks {calls : List Call} {world : World} (real : ∀ call ∈ calls, call.Real)
    (called : (World.start emptyHeap).calls calls = .ok world) :
    ∃ result heap', mysockFreeQueue world.heap world.pq = .ok (result, heap', ⟨none, none⟩) ∧
      heap'.nodeCount = 0 ∧ heap'.blockCount = (world.returned.filter Returned.Full).length ∧
      (result = true ↔ world.pq.head ≠ none) := by
  obtain ⟨tidy, chain, queued, represents, nodes, blocks⟩ := calls_books start_books real called
  obtain ⟨result, heap', released, isResult, changed⟩ := freeQueue_refines represents tidy
  have noNodes := changed.nodes
  have fewerBlocks := changed.blocks
  refine ⟨result, heap', released, ?_, ?_, ?_⟩
  · omega
  · omega
  · rw [isResult, Ne, Ne, represents.linked.start_eq_none, ← List.length_eq_zero_iff,
      ← List.length_eq_zero_iff, represents.length_eq]

/-- Two of three bytes are read, which leaves a block behind. -/
theorem queue_leaks_part :
    ∃ world result heap', (World.start emptyHeap).calls
        [.enqueue threeBytes, .dequeue 2 (by decide)] = .ok world ∧
      mysockFreeQueue world.heap world.pq = .ok (result, heap', ⟨none, none⟩) ∧
      heap'.nodeCount = 0 ∧ heap'.blockCount = 1 := by
  have called : ∃ world, (World.start emptyHeap).calls
      [.enqueue threeBytes, .dequeue 2 (by decide)] = .ok world ∧
      (world.returned.filter Returned.Full).length = 1 := ⟨_, rfl, rfl⟩
  obtain ⟨world, reached, one⟩ := called
  have real : ∀ call ∈ ([.enqueue threeBytes, .dequeue 2 (by decide)] : List Call), call.Real := by
    intro call member
    rcases List.mem_pair.mp member with rfl | rfl
    · trivial
    · show 2 ≤ ptrdiffMax
      decide
  obtain ⟨result, heap', released, nodes, blocks, -⟩ := queue_leaks real reached
  exact ⟨world, result, heap', reached, released, nodes, blocks.trans one⟩

end EE323.Stcp.BufferQueue

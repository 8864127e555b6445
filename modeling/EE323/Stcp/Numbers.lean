/-
Module: EE323.Stcp.Numbers
Purpose: The sequence and acknowledgement numbers in flight.  The true numbers, which the headers
  carry modulo 2^32, count the bytes and the FIN of a direction: the segments in flight are numbered
  consecutively up to `next_seqnum`, and the acknowledgements in flight rise from `SendBase` to the
  number of the next segment the receiver takes.
Main exports: Segment.span, Sequenced, AckRun, Sized, InWindow, Numbers, numbers_of_run
-/
import EE323.Stcp.Stream

namespace EE323.Stcp

open EE323.Lib

/-- The sequence numbers a segment takes up. -/
def Segment.span (segment : Segment) : Nat :=
  if segment.IsData then segment.data.length else if segment.IsFin then 1 else 0

/-- The sequence numbers a list of segments takes up. -/
def span : List Segment → Nat
  | [] => 0
  | segment :: rest => segment.span + span rest

@[simp] theorem span_nil : span [] = 0 := rfl

@[simp] theorem span_cons (segment : Segment) (rest : List Segment) :
    span (segment :: rest) = segment.span + span rest := rfl

@[simp] theorem span_append (first second : List Segment) :
    span (first ++ second) = span first + span second := by
  induction first with
  | nil => simp
  | cons segment rest inductionHypothesis => simp [inductionHypothesis, Nat.add_assoc]

namespace Segment

variable {segment : Segment}

theorem IsData.span (isData : segment.IsData) : segment.span = segment.data.length :=
  if_pos isData

theorem IsFin.span (isFin : segment.IsFin) : segment.span = 1 := by
  unfold Segment.span
  rw [if_neg fun isData => isData.not_isFin isFin, if_pos isFin]

theorem IsAck.span (isAck : segment.IsAck) : segment.span = 0 := by
  unfold Segment.span
  rw [if_neg isAck.not_isData, if_neg isAck.not_isFin]

theorem IsSyn.span (isSyn : segment.IsSyn) : segment.span = 0 := by
  unfold Segment.span
  rw [if_neg isSyn.not_isData, if_neg isSyn.not_isFin]

end Segment

/-- The data and FIN segments of a list are numbered consecutively from `base`. -/
def Sequenced : Nat → List Segment → Prop
  | _, [] => True
  | base, segment :: rest =>
      (segment.IsData ∨ segment.IsFin → segment.thSeq = trunc32 base) ∧
        Sequenced (base + segment.span) rest

theorem Sequenced.snoc {base : Nat} {segments : List Segment} {segment : Segment}
    (sequenced : Sequenced base segments)
    (next : segment.IsData ∨ segment.IsFin → segment.thSeq = trunc32 (base + span segments)) :
    Sequenced base (segments ++ [segment]) := by
  induction segments generalizing base with
  | nil => exact ⟨by simpa using next, trivial⟩
  | cons first rest inductionHypothesis =>
      refine ⟨sequenced.1, inductionHypothesis sequenced.2 ?_⟩
      simpa [Nat.add_assoc] using next

/-- The acknowledgements of a list stand for true numbers that rise from `low` to at most
`high`. -/
def AckRun : Nat → List Segment → Nat → Prop
  | low, [], high => low ≤ high
  | low, segment :: rest, high =>
      if segment.IsAck then
        ∃ number, low ≤ number ∧ segment.thAck = trunc32 number ∧ AckRun number rest high
      else AckRun low rest high

namespace AckRun

variable {low high : Nat} {segments rest : List Segment} {segment : Segment}

theorem cons_ack (isAck : segment.IsAck) :
    AckRun low (segment :: rest) high ↔
      ∃ number, low ≤ number ∧ segment.thAck = trunc32 number ∧ AckRun number rest high := by
  simp [AckRun, isAck]

theorem cons_other (notAck : ¬segment.IsAck) :
    AckRun low (segment :: rest) high ↔ AckRun low rest high := by
  simp [AckRun, notAck]

theorem le (run : AckRun low segments high) : low ≤ high := by
  induction segments generalizing low with
  | nil => exact run
  | cons segment rest inductionHypothesis =>
      by_cases isAck : segment.IsAck
      · obtain ⟨number, above, _, later⟩ := (cons_ack isAck).mp run
        exact Nat.le_trans above (inductionHypothesis later)
      · exact inductionHypothesis ((cons_other isAck).mp run)

theorem lower {lower : Nat} (run : AckRun low segments high) (below : lower ≤ low) :
    AckRun lower segments high := by
  induction segments generalizing low with
  | nil => exact Nat.le_trans below run
  | cons segment rest inductionHypothesis =>
      by_cases isAck : segment.IsAck
      · obtain ⟨number, above, carried, later⟩ := (cons_ack isAck).mp run
        exact (cons_ack isAck).mpr ⟨number, Nat.le_trans below above, carried, later⟩
      · exact (cons_other isAck).mpr (inductionHypothesis ((cons_other isAck).mp run) below)

theorem raise {higher : Nat} (run : AckRun low segments high) (above : high ≤ higher) :
    AckRun low segments higher := by
  induction segments generalizing low with
  | nil => exact Nat.le_trans run above
  | cons segment rest inductionHypothesis =>
      by_cases isAck : segment.IsAck
      · obtain ⟨number, below, carried, later⟩ := (cons_ack isAck).mp run
        exact (cons_ack isAck).mpr ⟨number, below, carried, inductionHypothesis later⟩
      · exact (cons_other isAck).mpr (inductionHypothesis ((cons_other isAck).mp run))

theorem snoc_ack {number : Nat} (run : AckRun low segments high) (above : high ≤ number)
    (isAck : segment.IsAck) (carries : segment.thAck = trunc32 number) :
    AckRun low (segments ++ [segment]) number := by
  induction segments generalizing low with
  | nil => exact (cons_ack isAck).mpr ⟨number, Nat.le_trans run above, carries, Nat.le_refl _⟩
  | cons first rest inductionHypothesis =>
      rw [List.cons_append]
      by_cases firstAck : first.IsAck
      · obtain ⟨other, below, carried, later⟩ := (cons_ack firstAck).mp run
        exact (cons_ack firstAck).mpr ⟨other, below, carried, inductionHypothesis later⟩
      · exact (cons_other firstAck).mpr (inductionHypothesis ((cons_other firstAck).mp run))

theorem snoc_other (run : AckRun low segments high) (notAck : ¬segment.IsAck) :
    AckRun low (segments ++ [segment]) high := by
  induction segments generalizing low with
  | nil => exact (cons_other notAck).mpr run
  | cons first rest inductionHypothesis =>
      rw [List.cons_append]
      by_cases firstAck : first.IsAck
      · obtain ⟨other, below, carried, later⟩ := (cons_ack firstAck).mp run
        exact (cons_ack firstAck).mpr ⟨other, below, carried, inductionHypothesis later⟩
      · exact (cons_other firstAck).mpr (inductionHypothesis ((cons_other firstAck).mp run))

theorem of_no_acks (noAcks : ∀ segment ∈ segments, ¬segment.IsAck) (ordered : low ≤ high) :
    AckRun low segments high := by
  induction segments with
  | nil => exact ordered
  | cons segment rest inductionHypothesis =>
      refine (cons_other (noAcks segment List.mem_cons_self)).mpr (inductionHypothesis ?_)
      exact fun other later => noAcks other (List.mem_cons_of_mem _ later)

end AckRun

/-! ### The window of one end -/

/-- Slow start and congestion avoidance: the window grows up to `MSS * MSS + 1`, where the
increment of congestion avoidance is zero. -/
theorem nextCwnd_bounds {cwnd : Nat} (least : MSS ≤ cwnd) (most : cwnd ≤ MSS * MSS + 1) :
    cwnd ≤ nextCwnd cwnd ∧ nextCwnd cwnd ≤ MSS * MSS + 1 := by
  have mss : MSS = 536 := rfl
  rw [mss] at least most ⊢
  have quotient_le : 536 * 536 / cwnd ≤ 536 * 536 := Nat.div_le_self _ _
  have product_le : 536 * 536 / cwnd * cwnd ≤ 536 * 536 := Nat.div_mul_le_self _ _
  unfold nextCwnd
  rw [mss]
  generalize 536 * 536 / cwnd = quotient at *
  split
  · rw [sizeAdd_eq (by omega)]
    omega
  · rw [sizeAdd_eq (by omega)]
    refine ⟨by omega, ?_⟩
    rcases Nat.eq_zero_or_pos quotient with zero | positive
    · omega
    · -- c + n / c ≤ n + 1, because the product of c - 1 and n / c - 1 is not negative
      obtain ⟨q, rfl⟩ : ∃ q, quotient = q + 1 := ⟨quotient - 1, by omega⟩
      obtain ⟨c, rfl⟩ : ∃ c, cwnd = c + 1 := ⟨cwnd - 1, by omega⟩
      rw [Nat.add_mul, Nat.mul_add] at product_le
      omega

/-- The sizes that belong together in an end that runs `control_loop`. -/
structure Sized (ctx : Context) : Prop where
  recvWin : ctx.recvWin = RECV_WINDOW_SIZE
  swnd : ctx.swnd = min ctx.cwnd RECV_WINDOW_SIZE
  cwndLeast : MSS ≤ ctx.cwnd
  cwndMost : ctx.cwnd ≤ MSS * MSS + 1
  buffer : ctx.buffer.length = ctx.swnd

/-- What is in flight fits the window, and `rem` is the room left. -/
structure InWindow (ctx : Context) : Prop where
  ordered : ctx.sendBase ≤ ctx.nextSeqnum
  fits : ctx.nextSeqnum ≤ ctx.sendBase + ctx.swnd
  rem : ctx.rem = ctx.swnd - (ctx.nextSeqnum - ctx.sendBase)

theorem Sized.swnd_le {ctx : Context} (sized : Sized ctx) : ctx.swnd ≤ 3072 := by
  rw [sized.swnd]
  exact Nat.min_le_right _ _

namespace Sized

variable {ctx : Context}

theorem establish (ctx : Context) (isActive : Bool) : Sized (ctx.establish isActive) where
  recvWin := rfl
  swnd := rfl
  cwndLeast := Nat.le_refl _
  cwndMost := show MSS ≤ MSS * MSS + 1 by decide
  buffer := List.length_replicate

/-- The window never shrinks when an ACK is processed. -/
theorem acked_swnd (sized : Sized ctx) (thAck : Nat) : ctx.swnd ≤ (ctx.acked thAck).swnd := by
  have grows := (nextCwnd_bounds sized.cwndLeast sized.cwndMost).1
  simp only [Context.acked, sized.recvWin, sized.swnd]
  exact Nat.le_min.mpr ⟨Nat.le_trans (Nat.min_le_left _ _) grows, Nat.min_le_right _ _⟩

theorem acked (sized : Sized ctx) {thAck : Nat} {buffer : List Byte}
    (shifted : (ctx.acked thAck).shiftBuffer = some buffer) :
    Sized { ctx.acked thAck with buffer := buffer } := by
  have bounds := nextCwnd_bounds sized.cwndLeast sized.cwndMost
  refine ⟨sized.recvWin, ?_, Nat.le_trans sized.cwndLeast bounds.1, bounds.2, ?_⟩
  · simp [Context.acked, sized.recvWin]
  · unfold Context.shiftBuffer at shifted
    obtain ⟨kept, _, stored⟩ := Option.bind_eq_some_iff.mp shifted
    simpa using store_length stored

theorem sent (sized : Sized ctx) {offset : Nat} {data buffer : List Byte}
    (stored : store ctx.buffer offset data = some buffer) (size : Nat) :
    Sized (ctx.sent buffer size) :=
  ⟨sized.recvWin, sized.swnd, sized.cwndLeast, sized.cwndMost,
    (store_length stored).trans sized.buffer⟩

theorem recvBase (sized : Sized ctx) (recvBase : Nat) : Sized { ctx with recvBase := recvBase } :=
  ⟨sized.recvWin, sized.swnd, sized.cwndLeast, sized.cwndMost, sized.buffer⟩

theorem receivedFin (sized : Sized ctx) : Sized ctx.receivedFin := by
  unfold Context.receivedFin
  split <;> exact ⟨sized.recvWin, sized.swnd, sized.cwndLeast, sized.cwndMost, sized.buffer⟩

theorem finAcked (sized : Sized ctx) : Sized ctx.finAcked := by
  unfold Context.finAcked
  split <;> exact ⟨sized.recvWin, sized.swnd, sized.cwndLeast, sized.cwndMost, sized.buffer⟩

theorem sentFin (sized : Sized ctx) (next : CState) : Sized (ctx.sentFin next) :=
  ⟨sized.recvWin, sized.swnd, sized.cwndLeast, sized.cwndMost, sized.buffer⟩

/-- The copy stays inside both blocks when the acknowledged size is at most the old window. -/
theorem shiftBuffer_of_ackSize (sized : Sized ctx) {thAck : Nat}
    (within : (ctx.acked thAck).ackSize ≤ (ctx.acked thAck).swndPrev) :
    ∃ buffer, (ctx.acked thAck).shiftBuffer = some buffer ∧
      buffer.length = (ctx.acked thAck).swnd := by
  have small := sized.swnd_le
  have grows := sized.acked_swnd thAck
  have swndPrev : (ctx.acked thAck).swndPrev = ctx.swnd := rfl
  have length : (ctx.acked thAck).buffer.length = ctx.swnd := sized.buffer
  unfold Context.shiftBuffer
  generalize ctx.acked thAck = after at grows swndPrev length within
  rw [swndPrev] at within
  rw [swndPrev, sizeSub_eq within (by omega)]
  have loaded : load after.buffer after.ackSize (ctx.swnd - after.ackSize) =
      some ((after.buffer.drop after.ackSize).take (ctx.swnd - after.ackSize)) :=
    load_eq_some.mpr ⟨by omega, rfl⟩
  have room : 0 + ((after.buffer.drop after.ackSize).take (ctx.swnd - after.ackSize)).length ≤
      (List.replicate after.swnd (0 : Byte)).length := by
    simp
    omega
  obtain ⟨buffer, stored⟩ := store_isSome room
  rw [loaded, Option.bind_some]
  exact ⟨buffer, stored, by simpa using store_length stored⟩

/-- Copying out what is left unacknowledged stays inside both buffers when the acknowledgement lies
in the old window. -/
theorem shiftBuffer_isSome (sized : Sized ctx) {thAck : Nat} (above : ctx.sendBase ≤ thAck)
    (within : thAck ≤ ctx.sendBase + ctx.swnd) (fits : thAck < 2 ^ 64) :
    ∃ buffer, (ctx.acked thAck).shiftBuffer = some buffer := by
  have ackSize : (ctx.acked thAck).ackSize = thAck - ctx.sendBase := sizeSub_eq above fits
  have swndPrev : (ctx.acked thAck).swndPrev = ctx.swnd := rfl
  have within' : (ctx.acked thAck).ackSize ≤ (ctx.acked thAck).swndPrev := by omega
  obtain ⟨buffer, shifted, _⟩ := sized.shiftBuffer_of_ackSize within'
  exact ⟨buffer, shifted⟩

end Sized

namespace InWindow

variable {ctx : Context}

theorem establish (ctx : Context) (isActive : Bool) : InWindow (ctx.establish isActive) := by
  have self : sizeSub ctx.initialSequenceNum ctx.initialSequenceNum = 0 := by
    unfold sizeSub
    omega
  refine ⟨Nat.le_refl _, by simp [Context.establish], ?_⟩
  simp only [Context.establish, self, Nat.sub_self, Nat.sub_zero]
  exact sizeSub_eq (Nat.zero_le _) (by decide)

/-- The data fits the buffer behind what is in flight. -/
theorem store_isSome (window : InWindow ctx) (sized : Sized ctx) (small : ctx.nextSeqnum < 2 ^ 33)
    {data : List Byte} (room : data.length ≤ ctx.rem) :
    ∃ buffer, store ctx.buffer (sizeSub ctx.nextSeqnum ctx.sendBase) data = some buffer := by
  obtain ⟨ordered, fits, rem⟩ := window
  have length := sized.buffer
  rw [sizeSub_eq ordered (by omega)]
  exact Lib.store_isSome (by omega)

/-- The data sent fits the room left. -/
theorem sent (window : InWindow ctx) (small : ctx.nextSeqnum < 2 ^ 33) (swnd : ctx.swnd ≤ 3072)
    {size : Nat} (room : size ≤ ctx.rem) (buffer : List Byte) :
    InWindow (ctx.sent buffer size) ∧ (ctx.sent buffer size).nextSeqnum = ctx.nextSeqnum + size := by
  obtain ⟨ordered, fits, rem⟩ := window
  have next : (ctx.sent buffer size).nextSeqnum = ctx.nextSeqnum + size := by
    simp only [Context.sent]
    exact sizeAdd_eq (by omega)
  refine ⟨⟨?_, ?_, ?_⟩, next⟩
  · rw [next]
    simp only [Context.sent]
    omega
  · rw [next]
    simp only [Context.sent]
    omega
  · simp only [Context.sent, Context.window]
    have inFlight : sizeSub (ctx.nextSeqnum + size) ctx.sendBase =
        ctx.nextSeqnum + size - ctx.sendBase := sizeSub_eq (by omega) (by omega)
    rw [sizeAdd_eq (by omega), inFlight, sizeSub_eq (by omega) (by omega)]

/-- An acknowledgement between `SendBase` and `next_seqnum` keeps the rest inside the window. -/
theorem acked (window : InWindow ctx) (sized : Sized ctx) (small : ctx.nextSeqnum < 2 ^ 33)
    {thAck : Nat} (above : ctx.sendBase ≤ thAck) (below : thAck ≤ ctx.nextSeqnum)
    (buffer : List Byte) : InWindow { ctx.acked thAck with buffer := buffer } := by
  have grows := sized.acked_swnd thAck
  obtain ⟨ordered, fits, rem⟩ := window
  have swnd_small : (ctx.acked thAck).swnd ≤ 3072 := by
    simp only [Context.acked, sized.recvWin]
    exact Nat.min_le_right _ _
  have newRem : (ctx.acked thAck).rem =
      sizeSub (ctx.acked thAck).swnd (sizeSub ctx.nextSeqnum thAck) := rfl
  refine ⟨below, ?_, ?_⟩
  · show ctx.nextSeqnum ≤ thAck + (ctx.acked thAck).swnd
    omega
  · show (ctx.acked thAck).rem = (ctx.acked thAck).swnd - (ctx.nextSeqnum - thAck)
    rw [newRem, sizeSub_eq below (by omega), sizeSub_eq (by omega) (by omega)]

end InWindow

/-! ### Both ends -/

/-- The acknowledgement that the next step of the transport thread processes in its window. -/
def Endpoint.nextAck (e : Endpoint) : Option Segment :=
  match e.pc with
  | .networkData event =>
      if event.networkData = true ∧
          ¬(e.ctx.connectionState = .finWait1 ∨ e.ctx.connectionState = .lastAck) then
        e.sock.networkRecvQueue.head?.filter fun packet => packet.IsAck
      else none
  | _ => none

/-- The acknowledgement processed next does not lie behind `SendBase`. -/
def Endpoint.AckInOrder (e : Endpoint) : Prop :=
  ∀ packet ∈ e.nextAck, e.ctx.sendBase ≤ packet.thAck

instance (e : Endpoint) : Decidable e.AckInOrder := by
  unfold Endpoint.AckInOrder
  infer_instance

theorem nextAck_of_ack {e : Endpoint} {event : Event} {packet : Segment} {rest : List Segment}
    (pc : e.pc = .networkData event) (ready : event.networkData = true)
    (reads : ¬e.ReadsHeader) (queue : e.sock.networkRecvQueue = packet :: rest)
    (isAck : packet.IsAck) : packet ∈ e.nextAck := by
  have notAwaiting := Endpoint.not_awaiting pc ready reads
  unfold Endpoint.nextAck
  simp [pc, ready, notAwaiting, queue, isAck]

theorem ack_of_nextAck {e : Endpoint} {packet : Segment} (next : packet ∈ e.nextAck) :
    (∃ event, e.pc = .networkData event) ∧
      (∃ rest, e.sock.networkRecvQueue = packet :: rest) ∧ packet.IsAck := by
  unfold Endpoint.nextAck at next
  split at next
  · rename_i event pc
    split at next
    · obtain ⟨head, isAck⟩ := Option.mem_filter_iff.mp next
      exact ⟨⟨event, pc⟩, List.head?_eq_some_iff.mp head, of_decide_eq_true isAck⟩
    · cases next
  · cases next

/-- What is sent in answer to a segment: a handshake segment during the handshake, afterwards an
acknowledgement of a data segment or of a FIN that carries the number after it. -/
theorem View.answer {link : Link} {e' : Endpoint} {packet segment : Segment} {inc : List Segment}
    (view : View link) (incoming : link.inc = packet :: inc)
    (moved : ThreadStep link.self (some packet) (some segment) e') :
    link.self.ctx.Opening ∧ segment.IsSyn ∨
      segment.IsAck ∧ (packet.IsData ∨ packet.IsFin) ∧
        segment.thAck = trunc32 (packet.thSeq + packet.span) := by
  cases moved with
  | connect pc =>
      have opening := (view.near.handshake pc).1
      exact .inl ⟨opening, ((view.opening opening).1 packet inc incoming).1.echo _ _⟩
  | accept pc =>
      have opening := (view.near.handshake pc).1
      exact .inl ⟨opening, ((view.opening opening).1 packet inc incoming).1.echo _ _⟩
  | fin pc ready reads queue isFin =>
      refine .inr ⟨Context.ackSegment_isAck _ _, .inr isFin, ?_⟩
      rw [isFin.span]
      rfl
  | data pc ready reads queue notAck notFin copied =>
      have running : ¬link.self.ctx.Opening :=
        view.near.not_opening (by simp [Endpoint.InLoop, pc])
      obtain ⟨out, connected⟩ := view.opened running
      have flow := connected.incoming.flow
      rw [incoming] at flow
      obtain ⟨isData, short⟩ := flow.head_data notAck notFin
      refine .inr ⟨Context.ackSegment_isAck _ _, .inl isData, ?_⟩
      rw [isData.span, copied, List.take_of_length_le short]
      rfl

theorem trunc32_add_trunc32 (a b : Nat) : trunc32 (trunc32 a + b) = trunc32 (a + b) := by
  unfold trunc32
  omega

/-- The numbers of one direction: the segments its sender has in flight, and the acknowledgements
on their way back to it. -/
structure Numbers (ctx : Context) (out inc : List Segment) (base : Nat) : Prop where
  sequenced : Sequenced base out
  top : base + span out = ctx.nextSeqnum
  acks : AckRun ctx.sendBase inc base
  sendBase : ctx.sendBase < 2 ^ 32
  near : ctx.nextSeqnum ≤ ctx.sendBase + 3073
  window : ¬ctx.FinSent → InWindow ctx

/-- The numbers of the direction that the link's own end sends in. -/
structure Numbered (link : Link) : Prop where
  opening : link.self.ctx.Opening → ∀ segment ∈ link.out, segment.IsSyn
  opened : ¬link.self.ctx.Opening →
    Sized link.self.ctx ∧ ∃ base, Numbers link.self.ctx link.out link.inc base

namespace Numbers

variable {ctx ctx' : Context} {out inc : List Segment} {base : Nat}

theorem small (numbers : Numbers ctx out inc base) : ctx.nextSeqnum < 2 ^ 33 := by
  have near := numbers.near
  have sendBase := numbers.sendBase
  omega

theorem base_le (numbers : Numbers ctx out inc base) : base ≤ ctx.nextSeqnum := by
  have top := numbers.top
  omega

/-- The numbers depend on three fields of the context. -/
theorem congr (numbers : Numbers ctx out inc base) (next : ctx'.nextSeqnum = ctx.nextSeqnum)
    (sendBase : ctx'.sendBase = ctx.sendBase) (window : ¬ctx'.FinSent → InWindow ctx') :
    Numbers ctx' out inc base where
  sequenced := numbers.sequenced
  top := numbers.top.trans next.symm
  acks := by
    rw [sendBase]
    exact numbers.acks
  sendBase := by
    rw [sendBase]
    exact numbers.sendBase
  near := by
    rw [next, sendBase]
    exact numbers.near
  window := window

/-- An acknowledgement that is not behind `SendBase` carries its true number. -/
theorem ack_true {packet : Segment} (numbers : Numbers ctx out (packet :: inc) base)
    (isAck : packet.IsAck) (inOrder : ctx.sendBase ≤ packet.thAck) :
    packet.thAck ≤ base ∧ AckRun packet.thAck inc base := by
  obtain ⟨number, above, carries, later⟩ := (AckRun.cons_ack isAck).mp numbers.acks
  have below := later.le
  have near := numbers.near
  have reached := numbers.base_le
  have small := numbers.sendBase
  have exact : trunc32 number = number := by
    unfold trunc32 at carries ⊢
    omega
  rw [carries, exact]
  exact ⟨below, later⟩

/-- The end takes a segment other than an acknowledgement, or drops an acknowledgement. -/
theorem take {packet : Segment} (numbers : Numbers ctx out (packet :: inc) base) :
    Numbers ctx out inc base := by
  refine ⟨numbers.sequenced, numbers.top, ?_, numbers.sendBase, numbers.near, numbers.window⟩
  by_cases isAck : packet.IsAck
  · obtain ⟨number, above, _, later⟩ := (AckRun.cons_ack isAck).mp numbers.acks
    exact later.lower above
  · exact (AckRun.cons_other isAck).mp numbers.acks

/-- The end sends a segment that takes up no sequence numbers. -/
theorem send_empty {segment : Segment} (numbers : Numbers ctx out inc base)
    (notData : ¬segment.IsData) (notFin : ¬segment.IsFin) :
    Numbers ctx (out ++ [segment]) inc base where
  sequenced := numbers.sequenced.snoc fun numbered => absurd numbered (by simp [notData, notFin])
  top := by
    have none : segment.span = 0 := by simp [Segment.span, notData, notFin]
    rw [span_append, span_cons, none]
    exact numbers.top
  acks := numbers.acks
  sendBase := numbers.sendBase
  near := numbers.near
  window := numbers.window

/-- The end sends a data segment or its FIN. -/
theorem send {segment : Segment} (numbers : Numbers ctx out inc base)
    (thSeq : segment.thSeq = trunc32 ctx.nextSeqnum)
    (next : ctx'.nextSeqnum = ctx.nextSeqnum + segment.span)
    (sendBase : ctx'.sendBase = ctx.sendBase) (near : ctx'.nextSeqnum ≤ ctx'.sendBase + 3073)
    (window : ¬ctx'.FinSent → InWindow ctx') : Numbers ctx' (out ++ [segment]) inc base where
  sequenced := numbers.sequenced.snoc fun _ => by rw [thSeq, numbers.top]
  top := by
    rw [span_append, ← Nat.add_assoc, numbers.top, next]
    rfl
  acks := by
    rw [sendBase]
    exact numbers.acks
  sendBase := by
    rw [sendBase]
    exact numbers.sendBase
  near := near
  window := window

/-- The other end takes a segment and may acknowledge it. -/
theorem receive {packet : Segment} {sent : Option Segment}
    (numbers : Numbers ctx (packet :: out) inc base)
    (answer : ∀ segment, sent = some segment → segment.IsAck →
      (packet.IsData ∨ packet.IsFin) ∧ segment.thAck = trunc32 (packet.thSeq + packet.span)) :
    Numbers ctx out (inc ++ sent.toList) (base + packet.span) where
  sequenced := numbers.sequenced.2
  top := by
    rw [← numbers.top, span_cons, Nat.add_assoc]
  acks := by
    cases sent with
    | none =>
        rw [Option.toList_none, List.append_nil]
        exact numbers.acks.raise (Nat.le_add_right _ _)
    | some segment =>
        by_cases isAck : segment.IsAck
        · obtain ⟨numbered, thAck⟩ := answer segment rfl isAck
          refine numbers.acks.snoc_ack (Nat.le_add_right _ _) isAck ?_
          rw [thAck, numbers.sequenced.1 numbered, trunc32_add_trunc32]
        · exact (numbers.acks.raise (Nat.le_add_right _ _)).snoc_other isAck
  sendBase := numbers.sendBase
  near := numbers.near
  window := numbers.window

/-- The other end sends something of its own. -/
theorem idle {sent : Option Segment} (numbers : Numbers ctx out inc base)
    (notAck : ∀ segment, sent = some segment → ¬segment.IsAck) :
    Numbers ctx out (inc ++ sent.toList) base := by
  refine ⟨numbers.sequenced, numbers.top, ?_, numbers.sendBase, numbers.near, numbers.window⟩
  cases sent with
  | none => simpa using numbers.acks
  | some segment => exact numbers.acks.snoc_other (notAck segment rfl)

end Numbers

/-! ### Steps -/

theorem syn_numbers {segments : List Segment} (base : Nat)
    (syns : ∀ segment ∈ segments, segment.IsSyn) :
    Sequenced base segments ∧ span segments = 0 := by
  induction segments generalizing base with
  | nil => exact ⟨trivial, rfl⟩
  | cons segment rest inductionHypothesis =>
      have isSyn := syns segment List.mem_cons_self
      have later := inductionHypothesis (base + segment.span)
        fun other member => syns other (List.mem_cons_of_mem _ member)
      refine ⟨⟨?_, later.1⟩, ?_⟩
      · rintro (isData | isFin)
        · exact absurd isData isSyn.not_isData
        · exact absurd isFin isSyn.not_isFin
      · rw [span_cons, isSyn.span, later.2]

/-- An end enters the data phase with nothing numbered in flight. -/
private theorem numbers_establish {e : Endpoint} {out inc : List Segment} (coherent : Coherent e)
    (opening : e.ctx.Opening) (syns : ∀ segment ∈ out, segment.IsSyn)
    (noAcks : ∀ segment ∈ inc, ¬segment.IsAck) :
    Numbers (e.ctx.establish e.isActive) out inc 1 := by
  have first : e.ctx.initialSequenceNum = 1 := by
    rw [coherent.fresh opening]
    rfl
  obtain ⟨sequenced, none⟩ := syn_numbers 1 syns
  refine ⟨sequenced, ?_, ?_, ?_, ?_, fun _ => InWindow.establish _ _⟩
  · rw [none]
    exact first.symm
  · refine AckRun.of_no_acks noAcks ?_
    simp [Context.establish, first]
  · simp [Context.establish, first]
  · simp [Context.establish]

namespace Numbered

variable {link : Link} {e' : Endpoint} {taken sent : Option Segment} {inc : List Segment}

private theorem opening_step (numbered : Numbered link) (view : View link)
    (opening : link.self.ctx.Opening) (incoming : link.inc = taken.toList ++ inc)
    (moved : ThreadStep link.self taken sent e') :
    Numbered { self := e', peer := link.peer, out := link.out ++ sent.toList, inc := inc } := by
  have syns := numbered.opening opening
  obtain ⟨head, noAcks⟩ := view.opening opening
  have noAcks_inc : ∀ segment ∈ inc, ¬segment.IsAck := by
    intro segment member
    refine noAcks segment ?_
    rw [incoming]
    exact List.mem_append_right _ member
  have snoc : ∀ last : Segment, last.IsSyn → ∀ segment ∈ link.out ++ [last], segment.IsSyn := by
    intro last isSyn segment member
    rcases List.mem_append.mp member with earlier | now
    · exact syns segment earlier
    · rw [List.mem_singleton.mp now]
      exact isSyn
  have step := view.near.opening_step opening moved
  generalize context : e'.ctx = ctx' at step
  cases step with
  | sendSyn state =>
      refine ⟨fun _ => snoc _ link.self.ctx.synSegment_isSyn, fun notOpening => ?_⟩
      exact absurd (by rw [context]; simp [Context.Opening]) notOpening
  | connect state =>
      have isSyn := (head _ _ incoming).1
      refine ⟨fun stillOpening => ?_, fun _ => ?_⟩
      · rw [context] at stillOpening
        exact absurd stillOpening (Context.establish_not_opening _ _)
      · simp only [context]
        exact ⟨Sized.establish _ _, 1,
          numbers_establish view.near opening (snoc _ (isSyn.echo _ _)) noAcks_inc⟩
  | accept state =>
      have isSyn := (head _ _ incoming).1
      refine ⟨fun _ => snoc _ (isSyn.echo _ _), fun notOpening => ?_⟩
      exact absurd (by rw [context]; simp [Context.Opening]) notOpening
  | accepted state =>
      refine ⟨fun stillOpening => ?_, fun _ => ?_⟩
      · rw [context] at stillOpening
        exact absurd stillOpening (Context.establish_not_opening _ _)
      · simp only [context]
        refine ⟨Sized.establish _ _, 1, numbers_establish view.near opening ?_ noAcks_inc⟩
        simpa using syns
  | overread =>
      refine ⟨fun _ => by simpa using syns, fun notOpening => ?_⟩
      rw [context] at notOpening
      exact absurd opening notOpening

private theorem running_step {base : Nat} (sized : Sized link.self.ctx)
    (numbers : Numbers link.self.ctx link.out link.inc base) (view : View link)
    (running : ¬link.self.ctx.Opening) (inOrder : link.self.AckInOrder)
    (incoming : link.inc = taken.toList ++ inc)
    (moved : ThreadStep link.self taken sent e') :
    Sized e'.ctx ∧ ∃ base, Numbers e'.ctx (link.out ++ sent.toList) inc base := by
  obtain ⟨out, connected⟩ := view.opened running
  rw [incoming] at numbers connected
  cases moved with
  | sendSyn pc =>
      exact absurd (view.near.opening_of_start pc) running
  | connect pc => exact absurd (view.near.handshake pc).1 running
  | accept pc => exact absurd (view.near.handshake pc).1 running
  | accepted pc => exact absurd (view.near.handshake pc).1 running
  | stalled pc => exact absurd (view.near.handshake pc).1 running
  | appSend pc ready room dequeued stored =>
      have notSent := view.near.not_finSent_of_dequeued dequeued
      have fits := mysockDequeueBuffer_length_le dequeued
      obtain ⟨window, next⟩ := (numbers.window notSent).sent numbers.small sized.swnd_le
        (Nat.le_trans fits (Nat.min_le_left _ _)) _
      refine ⟨sized.sent stored _, base, numbers.send rfl ?_ rfl ?_ fun _ => window⟩
      · rw [next, (Context.dataSegment_isData _ _).span, Context.dataSegment_data]
      · have within := window.fits
        have small : link.self.ctx.swnd ≤ 3072 := sized.swnd_le
        simp only [Context.sent] at within ⊢
        omega
  | ack pc ready reads queue isAck shifted =>
      have above := inOrder _ (nextAck_of_ack pc ready reads queue isAck)
      obtain ⟨below, later⟩ := numbers.ack_true isAck above
      have reached := numbers.base_le
      refine ⟨sized.acked shifted, base, ?_⟩
      rw [Option.toList_none, List.append_nil]
      refine ⟨numbers.sequenced, numbers.top, later, ?_, ?_, ?_⟩
      · obtain ⟨number, _, carries, _⟩ := (AckRun.cons_ack isAck).mp numbers.acks
        show _ < 2 ^ 32
        simp only [Context.acked]
        rw [carries]
        exact trunc32_lt _
      · have near := numbers.near
        simp only [Context.acked]
        omega
      · intro notSent
        have window := numbers.window
          fun finSent => notSent ((Context.samePhase_acked _ _ _).finSent.mpr finSent)
        exact window.acked sized numbers.small above (Nat.le_trans below reached) _
  | ackOverflow =>
      refine ⟨sized, base, ?_⟩
      rw [Option.toList_none, List.append_nil]
      exact numbers.take
  | fin pc ready reads queue isFin =>
      have same : link.self.ctx.receivedFin.FinSent ↔ link.self.ctx.FinSent :=
        connected.receivedFin_finSent view.near view.far view.roles running isFin
      have isAck := link.self.ctx.receivedFin.ackSegment_isAck
      refine ⟨sized.receivedFin, base, ?_⟩
      refine (numbers.take.congr ?_ ?_ ?_).send_empty (isAck _).not_isData (isAck _).not_isFin
      · unfold Context.receivedFin
        split <;> rfl
      · unfold Context.receivedFin
        split <;> rfl
      · intro notSent
        have window := numbers.window fun finSent => notSent (same.mpr finSent)
        unfold Context.receivedFin
        split <;> exact ⟨window.ordered, window.fits, window.rem⟩
  | data pc ready reads queue notAck notFin copied =>
      have isAck := Context.ackSegment_isAck
      refine ⟨sized.recvBase _, base, ?_⟩
      refine Numbers.send_empty ?_ (isAck _ _).not_isData (isAck _ _).not_isFin
      refine numbers.take.congr rfl rfl ?_
      intro notSent
      have window := numbers.window
        fun finSent => notSent ((Context.samePhase_recvBase _ _).finSent.mpr finSent)
      exact ⟨window.ordered, window.fits, window.rem⟩
  | finAcked enters header queue isAck =>
      rw [Endpoint.loopEnd_ctx, Option.toList_none, List.append_nil]
      refine ⟨sized.finAcked, base, ?_⟩
      unfold Context.finAcked
      split
      · refine numbers.take.congr rfl rfl ?_
        simp [Context.FinSent]
      · refine numbers.take.congr rfl rfl ?_
        simp [Context.FinSent]
  | ignored =>
      rw [Endpoint.loopEnd_ctx, Option.toList_none, List.append_nil]
      exact ⟨sized, base, numbers.take⟩
  | sendFin pc asked state =>
      rw [Endpoint.loopEnd_ctx]
      have notSent := Context.not_finSent_of_unsent state
      have window := numbers.window notSent
      have small := numbers.small
      have most := sized.swnd_le
      have next : sizeAdd link.self.ctx.nextSeqnum 1 = link.self.ctx.nextSeqnum + 1 :=
        sizeAdd_eq (by omega)
      refine ⟨sized.sentFin _, base, numbers.send rfl ?_ rfl ?_ ?_⟩
      · rw [link.self.ctx.finSegment_isFin.span]
        exact next
      · have fits := window.fits
        simp only [Context.sentFin, next]
        omega
      · intro stillUnsent
        refine absurd ?_ stillUnsent
        cases link.self.ctx.isClient <;> simp [Context.FinSent, Context.sentFin]
  | _ =>
      refine ⟨by simpa using sized, base, ?_⟩
      simpa using numbers

/-- The sender of a direction moves. -/
theorem self_step (numbered : Numbered link) (view : View link)
    (inOrder : link.self.AckInOrder) (incoming : link.inc = taken.toList ++ inc)
    (moved : ThreadStep link.self taken sent e') :
    Numbered { self := e', peer := link.peer, out := link.out ++ sent.toList, inc := inc } := by
  by_cases opening : link.self.ctx.Opening
  · exact numbered.opening_step view opening incoming moved
  · obtain ⟨sized, base, numbers⟩ := numbered.opened opening
    refine ⟨fun stillOpening => ?_, fun _ => ?_⟩
    · exact absurd stillOpening (view.near.stays_open opening moved)
    · exact running_step sized numbers view opening inOrder incoming moved

/-- The receiver of a direction moves. -/
theorem peer_step (numbered : Numbered link.swap) (view : View link)
    (incoming : link.inc = taken.toList ++ inc) (moved : ThreadStep link.self taken sent e') :
    Numbered { self := link.peer, peer := e', out := inc, inc := link.out ++ sent.toList } := by
  refine ⟨fun opening segment member => ?_, fun running => ?_⟩
  · refine numbered.opening opening segment ?_
    simp only [Link.swap, incoming]
    exact List.mem_append_right _ member
  · obtain ⟨sized, base, numbers⟩ := numbered.opened running
    refine ⟨sized, ?_⟩
    simp only [Link.swap, incoming] at numbers
    cases taken with
    | none =>
        refine ⟨base, numbers.idle ?_⟩
        rintro segment rfl
        exact moved.sent_not_ack
    | some packet =>
        refine ⟨base + packet.span, numbers.receive ?_⟩
        rintro segment rfl isAck
        rcases view.answer incoming moved with ⟨_, isSyn⟩ | ⟨_, answered⟩
        · exact absurd isAck isSyn.not_isAck
        · exact answered

end Numbered

/-! ### Runs -/

/-- The acknowledgements that the transport threads process are never behind `SendBase`. -/
def AcksInOrder (s : System) : Action → Prop
  | .thread side _ _ => (s.endpoint side).AckInOrder
  | _ => True

instance (s : System) (action : Action) : Decidable (AcksInOrder s action) :=
  match action with
  | .thread side _ _ => inferInstanceAs (Decidable (s.endpoint side).AckInOrder)
  | .deliver _ | .write _ _ | .read _ _ | .close _ => .isTrue trivial

theorem numbered_init (side : Side) : Numbered (System.init.link side) := by
  cases side
  · refine ⟨by simp [System.link, System.init, System.inFlight, Endpoint.init,
      MysockContext.init], fun running => absurd ?_ running⟩
    simp [System.link, System.init, Endpoint.init, Context.init, Context.Opening]
  · refine ⟨by simp [System.link, System.init, System.inFlight, Endpoint.init,
      MysockContext.init], fun running => absurd ?_ running⟩
    simp [System.link, System.init, Endpoint.init, Context.init, Context.Opening]

/-- The numbers of both directions are in order as long as no acknowledgement behind `SendBase` is
processed. -/
theorem numbered_of_run {guard : System → Action → Prop} {labels : List Action} {s : System}
    (inOrder : ∀ {s action}, guard s action → AcksInOrder s action)
    (run : ReliableRun guard labels s) (side : Side) : Numbered (s.link side) := by
  induction run generalizing side with
  | refl => exact numbered_init side
  | @snoc s t labels action before admitted stepped inductionHypothesis =>
      refine links_preserved inductionHypothesis stepped ?_ side
      intro actor link own other moved
      have view := Protocol.view_of_run before actor
      cases moved with
      | thread moved incoming =>
          exact ⟨own.self_step view (inOrder admitted) incoming moved,
            other.peer_step view incoming moved⟩
      | receive packet => exact ⟨⟨own.opening, own.opened⟩, ⟨other.opening, other.opened⟩⟩
      | app called =>
          refine ⟨⟨?_, ?_⟩, ⟨other.opening, other.opened⟩⟩
          · rw [called.ctx]
            exact own.opening
          · rw [called.ctx]
            exact own.opened

end EE323.Stcp

/-
Module: EE323.Stcp.LongTransfer
Purpose: `SendBase` over transfers of any length.  A ledger beside the connection keeps what each
  acknowledgement in flight stands for, so what one newly acknowledges can be compared with what it
  does to `SendBase`.  The two agree until an acknowledgement stands for 2^32 or more.
Main exports: Tally, Ledger, Unwrapped, sendBase_counts
-/
import EE323.Stcp.Window

namespace EE323.Stcp

open EE323.Lib

/-! ### What the acknowledgements stand for -/

/-- One direction of a connection: the segments the receiver has taken, and for every
acknowledgement it has sent the segments it had taken by then.  `promised` belongs to the
acknowledgements in flight, `acknowledged` to the last one that the sender has taken. -/
structure Tally where
  received : List Segment
  promised : List (List Segment)
  acknowledged : List Segment

namespace Tally

def init : Tally := { received := [], promised := [], acknowledged := [] }

/-- The receiver takes a segment and sends one. -/
def take (tally : Tally) (taken sent : Option Segment) : Tally :=
  let received := tally.received ++ taken.toList
  { tally with
    received := received
    promised := tally.promised ++
      (sent.toList.filter fun segment => segment.IsAck).map fun _ => received }

/-- The sender takes a segment. -/
def hear (tally : Tally) (taken : Option Segment) : Tally :=
  match taken, tally.promised with
  | some packet, place :: rest =>
      if packet.IsAck then { tally with promised := rest, acknowledged := place } else tally
  | _, _ => tally

/-- The payload bytes that the next acknowledgement newly acknowledges. -/
def newBytes (tally : Tally) : Nat :=
  (payloads (tally.promised.headD [])).length - (payloads tally.acknowledged).length

end Tally

/-- A connection and the tallies of the two streams. -/
structure Ledger where
  system : System
  tally : Side → Tally

/-- The segment that a step from one state of an endpoint to another has taken. -/
def Endpoint.takenBy (e e' : Endpoint) : Option Segment :=
  if e'.sock.networkRecvQueue.length < e.sock.networkRecvQueue.length then
    e.sock.networkRecvQueue.head?
  else none

namespace Ledger

def init : Ledger := { system := System.init, tally := fun _ => Tally.init }

/-- The tallies after an action. -/
def book (l : Ledger) : Action → Side → Tally
  | .thread actor _ overread, stream =>
      match (l.system.endpoint actor).threadStep overread with
      | none => l.tally stream
      | some (e', sent) =>
          let taken := (l.system.endpoint actor).takenBy e'
          if stream = actor then (l.tally stream).hear taken else (l.tally stream).take taken sent
  | _, stream => l.tally stream

def step (l : Ledger) (action : Action) : Option Ledger :=
  (System.step true l.system action).map fun t => { system := t, tally := l.book action }

end Ledger

/-- An acknowledgement is processed only if it stands for fewer than 2^32, and a FIN is sent only
while there is room in the window. -/
def Unwrapped (l : Ledger) : Action → Prop
  | .thread side _ _ =>
      ((l.system.endpoint side).nextAck.isSome = true →
        ∀ place ∈ (l.tally side).promised.head?, 1 + span place < 2 ^ 32) ∧
        ((l.system.endpoint side).SendsFin → (l.system.endpoint side).ctx.rem ≠ 0)
  | _ => True

instance (l : Ledger) (action : Action) : Decidable (Unwrapped l action) :=
  match action with
  | .thread _ _ _ => inferInstanceAs (Decidable (_ ∧ _))
  | .deliver _ | .write _ _ | .read _ _ | .close _ => .isTrue trivial

/-! ### The invariant of one direction -/

/-- What the tally of a stream says about its sender and the acknowledgements on their way back. -/
structure Tallied (link : Link) (tally : Tally) : Prop where
  opening : link.self.ctx.Opening → span tally.received = 0
  next : ¬link.self.ctx.Opening →
    link.self.ctx.nextSeqnum = 1 + span tally.received + span link.out
  finished : HasFin tally.received → link.self.ctx.FinSent
  acks : (link.inc.filter fun packet => packet.IsAck).map Segment.thAck =
    tally.promised.map fun place => trunc32 (1 + span place)
  places : (tally.acknowledged :: tally.promised).Pairwise (· <+: ·)
  within : ∀ place ∈ tally.acknowledged :: tally.promised, place <+: tally.received
  behind : ¬link.self.ctx.Opening →
    link.self.ctx.sendBase ≤ 1 + span tally.acknowledged
  exact : ¬link.self.ctx.Opening → ¬link.self.ctx.FinSent →
    link.self.ctx.sendBase = 1 + span tally.acknowledged

theorem span_mono {first second : List Segment} (before : first <+: second) :
    span first ≤ span second := by
  obtain ⟨rest, rfl⟩ := before
  rw [span_append]
  exact Nat.le_add_right _ _

/-- The segment taken can be read off the receive queue. -/
theorem ThreadStep.takenBy {e e' : Endpoint} {taken sent : Option Segment}
    (moved : ThreadStep e taken sent e') : e.takenBy e' = taken := by
  have queue := moved.queue
  unfold Endpoint.takenBy
  rw [queue]
  cases taken with
  | none => simp
  | some packet => simp

/-- What a running end does with an acknowledgement: it becomes `SendBase`, unless the copy of the
buffer leaves its block or the end waits for the acknowledgement of its FIN. -/
theorem ThreadStep.takesAck {e e' : Endpoint} {packet : Segment} {sent : Option Segment}
    (moved : ThreadStep e (some packet) sent e') (isAck : packet.IsAck) (near : Coherent e)
    (running : ¬e.ctx.Opening) :
    packet ∈ e.nextAck ∧ (e'.ctx.sendBase = packet.thAck ∨
        e'.ctx.sendBase = e.ctx.sendBase ∧ (e.ctx.acked packet.thAck).shiftBuffer = none) ∨
      e.ctx.FinSent ∧ e'.ctx.sendBase = e.ctx.sendBase := by
  cases moved with
  | connect pc => exact absurd (near.handshake pc).1 running
  | accept pc => exact absurd (near.handshake pc).1 running
  | accepted pc => exact absurd (near.handshake pc).1 running
  | stalled pc => exact absurd (near.handshake pc).1 running
  | ack pc ready reads queue => exact .inl ⟨nextAck_of_ack pc ready reads queue isAck, .inl rfl⟩
  | ackOverflow pc ready reads queue _ outside =>
      exact .inl ⟨nextAck_of_ack pc ready reads queue isAck, .inr ⟨rfl, outside⟩⟩
  | fin pc ready reads queue isFin => exact absurd isFin isAck.not_isFin
  | data pc ready reads queue notAck => exact absurd isAck notAck
  | finAcked enters header =>
      refine .inr ⟨(Context.awaitsFinAck_of_header header).finSent, ?_⟩
      rw [Endpoint.loopEnd_ctx]
      simp only [Context.finAcked]
      split <;> rfl
  | ignored enters header queue notAck => exact absurd isAck notAck

/-- The acknowledgement that is processed next is the segment taken. -/
theorem ThreadStep.takesNext {e e' : Endpoint} {packet : Segment} {taken sent : Option Segment}
    (moved : ThreadStep e taken sent e') (next : packet ∈ e.nextAck)
    (short : packet.data.length ≤ MSS) : taken = some packet := by
  obtain ⟨⟨event, pc⟩, ⟨rest, queue⟩, _⟩ := ack_of_nextAck next
  have reads : event.networkData = true ∧
      ¬(e.ctx.connectionState = .finWait1 ∨ e.ctx.connectionState = .lastAck) := by
    unfold Endpoint.nextAck at next
    simp only [pc] at next
    split at next
    · assumption
    · cases next
  have same : ∀ {other : Segment} {left : List Segment},
      e.sock.networkRecvQueue = other :: left → some other = some packet := by
    intro other left head
    rw [queue] at head
    cases head
    rfl
  cases moved with
  | connect _ head => exact same head
  | accept _ head => exact same head
  | accepted _ head => exact same head
  | stalled _ head => exact same head
  | ack _ _ _ head => exact same head
  | ackOverflow _ _ _ head => exact same head
  | fin _ _ _ head => exact same head
  | data _ _ _ head => exact same head
  | finAcked _ _ head => exact same head
  | ignored _ _ head => exact same head
  | overread atHeader =>
      rcases atHeader with handshake | ⟨_, awaits⟩
      · simp [pc] at handshake
      · exact absurd awaits reads.2
  | oversized _ _ head long =>
      obtain rfl := Option.some.inj (same head)
      simp only [Segment.size] at long
      omega
  | networkSkip other idle =>
      rw [pc] at other
      cases other
      rw [reads.1] at idle
      cases idle
  | forget enters _ _ dispatched =>
      rcases enters with ⟨other, _⟩ | ⟨other, _⟩
      · exact absurd (dispatched other) reads.2
      · simp [pc] at other
  | sendSyn other => simp [pc] at other
  | dispatch other => simp [pc] at other
  | appSkip other => simp [pc] at other
  | appSend other => simp [pc] at other
  | appOverflow other => simp [pc] at other
  | sendFin other => simp [pc] at other
  | noClose other => simp [pc] at other

/-- Nothing else moves `SendBase`. -/
theorem ThreadStep.keepsSendBase {e e' : Endpoint} {taken sent : Option Segment}
    (moved : ThreadStep e taken sent e')
    (notAck : ∀ packet, taken = some packet → ¬packet.IsAck) (near : Coherent e)
    (running : ¬e.ctx.Opening) : e'.ctx.sendBase = e.ctx.sendBase := by
  cases moved with
  | connect pc => exact absurd (near.handshake pc).1 running
  | accepted pc => exact absurd (near.handshake pc).1 running
  | ack _ _ _ _ isAck => exact absurd isAck (notAck _ rfl)
  | fin =>
      simp only [Context.receivedFin]
      split <;> rfl
  | finAcked _ _ _ isAck => exact absurd isAck (notAck _ rfl)
  | _ => first | rfl | simp [Context.sentFin]

/-- `next_seqnum` counts the numbers that a running end sends. -/
theorem ThreadStep.countsSent {e e' : Endpoint} {taken sent : Option Segment}
    (moved : ThreadStep e taken sent e') (near : Coherent e) (running : ¬e.ctx.Opening)
    (small : e.ctx.nextSeqnum < 2 ^ 33) :
    e'.ctx.nextSeqnum = e.ctx.nextSeqnum + span sent.toList := by
  cases moved with
  | sendSyn pc => exact absurd (near.opening_of_start pc) running
  | connect pc => exact absurd (near.handshake pc).1 running
  | accept pc => exact absurd (near.handshake pc).1 running
  | accepted pc => exact absurd (near.handshake pc).1 running
  | @appSend event data buffer left pc ready room dequeued =>
      have short : data.length ≤ MSS :=
        Nat.le_trans (mysockDequeueBuffer_length_le dequeued) (Nat.min_le_right _ _)
      have mss : MSS = 536 := rfl
      simp only [Context.sent, Option.toList_some, span_cons, span_nil, Nat.add_zero,
        (Context.dataSegment_isData _ _).span, Context.dataSegment_data]
      exact sizeAdd_eq (by omega)
  | fin =>
      simp only [Option.toList_some, span_cons, span_nil, (Context.ackSegment_isAck _ _).span,
        Context.receivedFin]
      split <;> rfl
  | data => simp [(Context.ackSegment_isAck _ _).span]
  | finAcked =>
      rw [Endpoint.loopEnd_ctx]
      simp only [Context.finAcked]
      split <;> rfl
  | sendFin =>
      rw [Endpoint.loopEnd_ctx]
      simp only [Context.sentFin, Option.toList_some, span_cons, span_nil, Nat.add_zero,
        (Context.finSegment_isFin _).span]
      exact sizeAdd_eq (by omega)
  | _ => first | rfl | simp

namespace Tally

variable {tally : Tally} {taken : Option Segment} {packet : Segment}

@[simp] theorem hear_received (tally : Tally) (taken : Option Segment) :
    (tally.hear taken).received = tally.received := by
  unfold hear
  split
  · split <;> rfl
  · rfl

theorem hear_other (notAck : ∀ packet, taken = some packet → ¬packet.IsAck) :
    tally.hear taken = tally := by
  unfold hear
  split
  · rw [if_neg (notAck _ rfl)]
  · rfl

theorem hear_ack {place : List Segment} {rest : List (List Segment)} (isAck : packet.IsAck)
    (promised : tally.promised = place :: rest) :
    tally.hear (some packet) = { tally with promised := rest, acknowledged := place } := by
  unfold hear
  rw [promised]
  exact if_pos isAck

end Tally

/-- An acknowledgement inside the window becomes `SendBase`: the copy of the buffer fits. -/
private theorem Numbered.advances {link : Link} {e' : Endpoint} {packet : Segment}
    {inc : List Segment} (numbered : Numbered link) (running : ¬link.self.ctx.Opening)
    (incoming : link.inc = packet :: inc) (isAck : packet.IsAck)
    (above : link.self.ctx.sendBase ≤ packet.thAck) (notSent : ¬link.self.ctx.FinSent)
    (heard : e'.ctx.sendBase = packet.thAck ∨ e'.ctx.sendBase = link.self.ctx.sendBase ∧
      (link.self.ctx.acked packet.thAck).shiftBuffer = none) :
    e'.ctx.sendBase = packet.thAck := by
  rcases heard with updated | ⟨_, outside⟩
  · exact updated
  · obtain ⟨sized, base, numbers⟩ := numbered.opened running
    rw [incoming] at numbers
    have fits := (numbers.window notSent).fits
    have below := (numbers.ack_true isAck above).1
    have reached := numbers.base_le
    have small := numbers.small
    obtain ⟨buffer, shifted⟩ := sized.shiftBuffer_isSome above (by omega) (by omega)
    rw [shifted] at outside
    cases outside

namespace Tallied

variable {link : Link} {tally : Tally} {e' : Endpoint} {taken sent : Option Segment}
  {inc : List Segment}

/-- A segment taken that is no acknowledgement leaves the promises as they are. -/
private theorem skip (tallied : Tallied link tally) (incoming : link.inc = taken.toList ++ inc)
    (notAck : ∀ packet, taken = some packet → ¬packet.IsAck) :
    (inc.filter fun packet => packet.IsAck).map Segment.thAck =
      tally.promised.map fun place => trunc32 (1 + span place) := by
  have none : (taken.toList.filter fun packet => packet.IsAck) = [] := by
    refine List.filter_eq_nil_iff.mpr fun packet member => ?_
    simpa using notAck packet (Option.mem_toList.mp member)
  rw [← tallied.acks, incoming, List.filter_append, none, List.nil_append]

/-- The acknowledgement at the head of the segments in flight and the place it stands for. -/
theorem promise {packet : Segment} (tallied : Tallied link tally)
    (head : link.inc = packet :: inc) (isAck : packet.IsAck) :
    ∃ place rest, tally.promised = place :: rest ∧ packet.thAck = trunc32 (1 + span place) ∧
      (inc.filter fun packet => packet.IsAck).map Segment.thAck =
        rest.map fun place => trunc32 (1 + span place) := by
  have acks := tallied.acks
  rw [head, List.filter_cons_of_pos (by simpa using isAck), List.map_cons] at acks
  obtain ⟨place, rest, promised, number, later⟩ := List.map_eq_cons_iff.mp acks.symm
  exact ⟨place, rest, promised, number.symm, later.symm⟩

/-- The guard keeps the acknowledgement that is processed next in order. -/
private theorem inOrder (tallied : Tallied link tally) (running : ¬link.self.ctx.Opening)
    {packet : Segment} (head : link.inc = packet :: inc) (isAck : packet.IsAck)
    (unwrapped : ∀ place ∈ tally.promised.head?, 1 + span place < 2 ^ 32) :
    ∃ place rest, tally.promised = place :: rest ∧ packet.thAck = 1 + span place ∧
      span tally.acknowledged ≤ span place ∧ link.self.ctx.sendBase ≤ packet.thAck := by
  obtain ⟨place, rest, promised, number, _⟩ := tallied.promise head isAck
  rw [trunc32_eq (unwrapped place (by simp [promised]))] at number
  have places := tallied.places
  rw [promised] at places
  have later := span_mono (List.rel_of_pairwise_cons places List.mem_cons_self)
  have behind := tallied.behind running
  exact ⟨place, rest, promised, number, later, by omega⟩

/-- An acknowledgement that the receiver sends carries the number behind everything it has taken. -/
private theorem answered {packet segment : Segment} (tallied : Tallied link.swap tally)
    (numbered : Numbered link.swap) (view : View link) (incoming : link.inc = packet :: inc)
    (moved : ThreadStep link.self (some packet) (some segment) e') (isAck : segment.IsAck) :
    segment.thAck = trunc32 (1 + span (tally.received ++ [packet])) := by
  rcases view.answer incoming moved with ⟨_, isSyn⟩ | ⟨_, counts, thAck⟩
  · exact absurd isAck isSyn.not_isAck
  · have running : ¬link.swap.self.ctx.Opening := by
      intro opening
      have isSyn := numbered.opening opening packet (by simp [Link.swap, incoming])
      rcases counts with isData | isFin
      · exact isSyn.not_isData isData
      · exact isSyn.not_isFin isFin
    obtain ⟨_, base, numbers⟩ := numbered.opened running
    have top := numbers.top
    have next := tallied.next running
    have sequenced := numbers.sequenced
    simp only [Link.swap, incoming] at top next sequenced
    have first : base = 1 + span tally.received := by omega
    rw [thAck, sequenced.1 counts, trunc32_add_trunc32, first, span_append, span_cons, span_nil,
      Nat.add_zero, Nat.add_assoc]

/-- The receiver of the stream moves. -/
private theorem take (tallied : Tallied link.swap tally) (numbered : Numbered link.swap)
    (view : View link) (finSent : HasFin link.inc → link.peer.ctx.FinSent)
    (incoming : link.inc = taken.toList ++ inc) (moved : ThreadStep link.self taken sent e') :
    Tallied { self := link.peer, peer := e', out := inc, inc := link.out ++ sent.toList }
      (tally.take taken sent) := by
  have grows : tally.received <+: tally.received ++ taken.toList := List.prefix_append _ _
  refine ⟨?_, ?_, ?_, ?_, ?_, ?_, tallied.behind, tallied.exact⟩
  · intro opening
    have noNumbers : span taken.toList = 0 := by
      cases taken with
      | none => rfl
      | some packet =>
          have isSyn := numbered.opening opening packet (by simp [Link.swap, incoming])
          simp [isSyn.span]
    simp only [Tally.take]
    rw [span_append, tallied.opening opening, noNumbers]
  · intro running
    have next := tallied.next running
    simp only [Link.swap, incoming, span_append] at next
    simp only [Tally.take, span_append]
    omega
  · intro received
    simp only [Tally.take, hasFin_append] at received
    rcases received with before | now
    · exact tallied.finished before
    · refine finSent ?_
      rw [incoming, hasFin_append]
      exact .inl now
  · simp only [Tally.take, List.filter_append, List.map_append]
    have acks : (link.out.filter fun packet => packet.IsAck).map Segment.thAck =
        tally.promised.map fun place => trunc32 (1 + span place) := tallied.acks
    rw [acks, List.append_cancel_left_eq]
    cases sent with
    | none => rfl
    | some segment =>
        by_cases isAck : segment.IsAck
        · cases taken with
          | none => exact absurd isAck moved.sent_not_ack
          | some packet =>
              have number := tallied.answered numbered view incoming moved isAck
              simp [isAck, number]
        · simp [isAck]
  · rw [Tally.take, ← List.cons_append]
    refine List.pairwise_append.mpr ⟨tallied.places, ?_, ?_⟩
    · exact List.pairwise_map.mpr (List.pairwise_of_forall fun _ _ => List.prefix_rfl)
    · intro place member later new
      obtain ⟨_, _, rfl⟩ := List.mem_map.mp new
      exact (tallied.within place member).trans grows
  · intro place member
    rw [Tally.take, ← List.cons_append] at member
    rcases List.mem_append.mp member with old | new
    · exact (tallied.within place old).trans grows
    · obtain ⟨_, _, rfl⟩ := List.mem_map.mp new
      exact List.prefix_rfl

/-- The sender of the stream is still in its handshake. -/
private theorem hear_opening (tallied : Tallied link tally) (numbered : Numbered link)
    (view : View link) (opening : link.self.ctx.Opening)
    (incoming : link.inc = taken.toList ++ inc) (moved : ThreadStep link.self taken sent e') :
    Tallied { self := e', peer := link.peer, out := link.out ++ sent.toList, inc := inc }
      tally := by
  obtain ⟨head, noAcks⟩ := view.opening opening
  have nothing := tallied.opening opening
  have outNothing : span link.out = 0 := (syn_numbers 1 (numbered.opening opening)).2
  have notFin : ¬HasFin tally.received :=
    fun hasFin => (tallied.finished hasFin).not_opening opening
  have notAck : ∀ packet, taken = some packet → ¬packet.IsAck := by
    rintro packet rfl
    exact noAcks packet (by simp [incoming])
  have acks := tallied.skip incoming notAck
  have acknowledged : span tally.acknowledged = 0 := by
    have below := span_mono (tallied.within _ List.mem_cons_self)
    omega
  have first : link.self.ctx.initialSequenceNum = 1 := by
    rw [view.near.fresh opening]
    rfl
  have established : ∀ last : List Segment, span last = 0 →
      e'.ctx = link.self.ctx.establish link.self.isActive →
      Tallied { self := e', peer := link.peer, out := link.out ++ last, inc := inc } tally := by
    intro last lastNothing context
    refine ⟨fun _ => nothing, fun _ => ?_, fun hasFin => absurd hasFin notFin, acks,
      tallied.places, tallied.within, fun _ => ?_, fun _ _ => ?_⟩
    · simp only [context, span_append, nothing, outNothing, lastNothing]
      exact first
    · simp only [context, acknowledged]
      exact Nat.le_of_eq first
    · simp only [context, acknowledged]
      exact first
  have waiting : ∀ last : List Segment, e'.ctx.Opening →
      Tallied { self := e', peer := link.peer, out := link.out ++ last, inc := inc } tally := by
    intro last stillOpening
    exact ⟨fun _ => nothing, fun running => absurd stillOpening running,
      fun hasFin => absurd hasFin notFin, acks, tallied.places, tallied.within,
      fun running => absurd stillOpening running, fun running => absurd stillOpening running⟩
  have step := view.near.opening_step opening moved
  generalize context : e'.ctx = ctx' at step
  cases step with
  | sendSyn => exact waiting _ (by rw [context]; simp [Context.Opening])
  | connect =>
      have isSyn := (head _ _ incoming).1.echo
      exact established _ (by simp [(isSyn _ _).span]) context
  | accept => exact waiting _ (by rw [context]; simp [Context.Opening])
  | accepted => exact established _ rfl context
  | overread => exact waiting _ (by rw [context]; exact opening)

/-- The sender of the stream takes an acknowledgement. -/
private theorem hear_ack {packet : Segment} (tallied : Tallied link tally)
    (numbered : Numbered link) (view : View link) (running : ¬link.self.ctx.Opening)
    (unwrapped : link.self.nextAck.isSome = true →
      ∀ place ∈ tally.promised.head?, 1 + span place < 2 ^ 32)
    (incoming : link.inc = packet :: inc) (isAck : packet.IsAck)
    (moved : ThreadStep link.self (some packet) sent e')
    (next : e'.ctx.nextSeqnum = link.self.ctx.nextSeqnum + span sent.toList) :
    Tallied { self := e', peer := link.peer, out := link.out ++ sent.toList, inc := inc }
      (tally.hear (some packet)) := by
  obtain ⟨place, rest, promised, number, later⟩ := tallied.promise incoming isAck
  have stays := view.near.stays_open running moved
  have sentStays := view.near.finSent_mono moved
  have places := tallied.places
  rw [promised] at places
  have placeLater := span_mono (List.rel_of_pairwise_cons places List.mem_cons_self)
  have behind := tallied.behind running
  have sendBase : e'.ctx.sendBase ≤ 1 + span place ∧
      (¬e'.ctx.FinSent → e'.ctx.sendBase = 1 + span place) := by
    rcases moved.takesAck isAck view.near running with ⟨isNext, heard⟩ | ⟨finSent, same⟩
    · have fits := unwrapped (by simp [Option.mem_def.mp isNext]) place (by simp [promised])
      rw [trunc32_eq fits] at number
      have above : link.self.ctx.sendBase ≤ packet.thAck := by omega
      refine ⟨?_, fun notSent => ?_⟩
      · rcases heard with updated | ⟨same, _⟩ <;> omega
      · rw [← number]
        exact numbered.advances running incoming isAck above
          (fun finSent => notSent (sentStays finSent)) heard
    · exact ⟨by omega, fun notSent => absurd (sentStays finSent) notSent⟩
  rw [Tally.hear_ack isAck promised]
  refine ⟨fun opening => absurd opening stays, fun _ => ?_,
    fun hasFin => sentStays (tallied.finished hasFin), later, (List.pairwise_cons.mp places).2,
    fun other member => ?_, fun _ => sendBase.1, fun _ => sendBase.2⟩
  · simp only [next, tallied.next running, span_append]
    omega
  · refine tallied.within other ?_
    rw [promised]
    exact List.mem_cons_of_mem _ member

/-- The sender of the stream takes something else, or nothing. -/
private theorem hear_other (tallied : Tallied link tally) (view : View link)
    (running : ¬link.self.ctx.Opening) (incoming : link.inc = taken.toList ++ inc)
    (notAck : ∀ packet, taken = some packet → ¬packet.IsAck)
    (moved : ThreadStep link.self taken sent e')
    (next : e'.ctx.nextSeqnum = link.self.ctx.nextSeqnum + span sent.toList) :
    Tallied { self := e', peer := link.peer, out := link.out ++ sent.toList, inc := inc }
      tally := by
  have stays := view.near.stays_open running moved
  have sentStays := view.near.finSent_mono moved
  have same := moved.keepsSendBase notAck view.near running
  refine ⟨fun opening => absurd opening stays, fun _ => ?_,
    fun hasFin => sentStays (tallied.finished hasFin), tallied.skip incoming notAck,
    tallied.places, tallied.within, fun _ => ?_, fun _ notSent => ?_⟩
  · simp only [next, tallied.next running, span_append]
    omega
  · simp only [same]
    exact tallied.behind running
  · simp only [same]
    exact tallied.exact running fun finSent => notSent (sentStays finSent)

end Tallied

/-! ### Runs -/

/-- The sender of the stream moves. -/
private theorem Tallied.hear {link : Link} {tally : Tally} {e' : Endpoint}
    {taken sent : Option Segment} {inc : List Segment} (tallied : Tallied link tally)
    (numbered : Numbered link) (view : View link)
    (unwrapped : link.self.nextAck.isSome = true →
      ∀ place ∈ tally.promised.head?, 1 + span place < 2 ^ 32)
    (incoming : link.inc = taken.toList ++ inc) (moved : ThreadStep link.self taken sent e') :
    Tallied { self := e', peer := link.peer, out := link.out ++ sent.toList, inc := inc }
      (tally.hear taken) := by
  by_cases opening : link.self.ctx.Opening
  · obtain ⟨_, noAcks⟩ := view.opening opening
    rw [Tally.hear_other]
    · exact tallied.hear_opening numbered view opening incoming moved
    · rintro packet rfl
      exact noAcks packet (by simp [incoming])
  · obtain ⟨_, base, numbers⟩ := numbered.opened opening
    have next := moved.countsSent view.near opening numbers.small
    cases taken with
    | none =>
        have notAck : ∀ packet, (none : Option Segment) = some packet → ¬packet.IsAck := nofun
        rw [Tally.hear_other notAck]
        exact tallied.hear_other view opening incoming notAck moved next
    | some packet =>
        by_cases isAck : packet.IsAck
        · exact tallied.hear_ack numbered view opening unwrapped incoming isAck moved next
        · have notAck : ∀ other, some packet = some other → ¬other.IsAck := by
            rintro other ⟨⟩
            exact isAck
          rw [Tally.hear_other notAck]
          exact tallied.hear_other view opening incoming notAck moved next

/-- Only the transport threads change the contexts and the segments in flight. -/
private theorem quiet_link {s t : System} {action : Action}
    (stepped : System.step true s action = some t)
    (quiet : ∀ side rand overread, action ≠ .thread side rand overread) (side : Side) :
    (t.link side).self.ctx = (s.link side).self.ctx ∧ (t.link side).out = (s.link side).out ∧
      (t.link side).inc = (s.link side).inc := by
  obtain ⟨actor, moved⟩ := step_link stepped
  have atActor : (t.link actor).self.ctx = (s.link actor).self.ctx ∧
      (t.link actor).peer = (s.link actor).peer ∧
      (t.link actor).out = (s.link actor).out ∧ (t.link actor).inc = (s.link actor).inc := by
    generalize t.link actor = link' at moved
    cases moved with
    | thread => exact absurd rfl (quiet _ _ _)
    | receive packet => exact ⟨rfl, rfl, rfl, rfl⟩
    | app called => exact ⟨called.ctx, rfl, rfl, rfl⟩
  rcases Side.eq_or_eq_peer actor side with rfl | rfl
  · exact ⟨atActor.1, atActor.2.2.1, atActor.2.2.2⟩
  · rw [System.link_peer, System.link_peer]
    exact ⟨congrArg Endpoint.ctx atActor.2.1, atActor.2.2.2, atActor.2.2.1⟩

private theorem Tallied.quiet {link link' : Link} {tally : Tally} (tallied : Tallied link tally)
    (same : link'.self.ctx = link.self.ctx ∧ link'.out = link.out ∧ link'.inc = link.inc) :
    Tallied link' tally := by
  obtain ⟨ctx, out, inc⟩ := same
  refine ⟨?_, ?_, ?_, ?_, tallied.places, tallied.within, ?_, ?_⟩
  · rw [ctx]
    exact tallied.opening
  · rw [ctx, out]
    exact tallied.next
  · rw [ctx]
    exact tallied.finished
  · rw [inc]
    exact tallied.acks
  · rw [ctx]
    exact tallied.behind
  · rw [ctx]
    exact tallied.exact

/-- The ledger of every run: the connection runs inside its window, and both tallies are right. -/
structure Balanced (labels : List Action) (l : Ledger) : Prop where
  run : ReliableRun WindowKept labels l.system
  tallied : ∀ side, Tallied (l.system.link side) (l.tally side)

namespace Balanced

variable {labels : List Action} {l l' : Ledger} {action : Action}

private theorem init : Balanced [] Ledger.init where
  run := .refl _
  tallied := by
    intro side
    have opening : (System.init.link side).self.ctx.Opening := by
      cases side <;> simp [System.link, System.init, Endpoint.init, Context.init, Context.Opening]
    have noneInFlight : (System.init.link side).inc = [] := by
      cases side <;> rfl
    refine ⟨fun _ => rfl, fun running => absurd opening running,
      fun hasFin => absurd hasFin hasFin_nil, ?_, List.pairwise_singleton _ _, ?_,
      fun running => absurd opening running, fun running => absurd opening running⟩
    · simp only [Ledger.init, noneInFlight]
      rfl
    · intro place member
      rw [List.mem_singleton.mp member]
      exact List.prefix_rfl

theorem numbered (balanced : Balanced labels l) (side : Side) :
    Numbered (l.system.link side) :=
  numbered_of_run WindowKept.acksInOrder balanced.run side

/-- The guard of the ledger keeps the connection inside its window. -/
private theorem windowKept (balanced : Balanced labels l) (admitted : Unwrapped l action) :
    WindowKept l.system action := by
  cases action with
  | thread side rand overread =>
      refine ⟨fun packet next => ?_, admitted.2⟩
      obtain ⟨⟨event, pc⟩, ⟨rest, queue⟩, isAck⟩ := ack_of_nextAck next
      have near : Coherent (l.system.endpoint side) := (Protocol.view_of_run balanced.run side).near
      have running : ¬(l.system.endpoint side).ctx.Opening :=
        near.not_opening (by simp [Endpoint.InLoop, pc])
      have head : (l.system.link side).inc = packet :: (rest ++ l.system.wire side.peer) := by
        simp [System.link, System.inFlight, queue]
      have unwrapped := admitted.1 (by simp [Option.mem_def.mp next])
      obtain ⟨_, _, _, _, _, above⟩ :=
        (balanced.tallied side).inOrder running head isAck unwrapped
      exact above
  | _ => trivial

private theorem step (balanced : Balanced labels l) (admitted : Unwrapped l action)
    (stepped : l.step action = some l') : Balanced (labels ++ [action]) l' := by
  simp only [Ledger.step, Option.map_eq_some_iff] at stepped
  obtain ⟨t, systemStepped, rfl⟩ := stepped
  refine ⟨.snoc balanced.run (balanced.windowKept admitted) systemStepped, ?_⟩
  intro side
  cases action with
  | thread actor rand overread =>
      simp only [System.step, Option.map_eq_some_iff] at systemStepped
      obtain ⟨⟨e', sent⟩, threadStepped, rfl⟩ := systemStepped
      obtain ⟨taken, moved⟩ := Endpoint.threadStep_sound threadStepped
      have view := Protocol.view_of_run balanced.run actor
      have link := transmit_link l.system actor rand e' sent
      simp only [Ledger.book, threadStepped, moved.takenBy]
      rcases Side.eq_or_eq_peer actor side with rfl | rfl
      · rw [if_pos rfl, link]
        exact (balanced.tallied side).hear (balanced.numbered side) view admitted.1 moved.incoming
          moved
      · rw [if_neg actor.peer_ne, System.link_peer, link]
        have tallied := balanced.tallied actor.peer
        have numbered := balanced.numbered actor.peer
        rw [System.link_peer] at tallied numbered
        refine tallied.take numbered view (fun hasFin => ?_) moved.incoming moved
        have finSent := Protocol.finSent_of_run balanced.run actor.peer
        rw [System.link_peer] at finSent
        exact finSent hasFin
  | deliver sender =>
      exact (balanced.tallied side).quiet (quiet_link systemStepped (by simp) side)
  | write actor data =>
      exact (balanced.tallied side).quiet (quiet_link systemStepped (by simp) side)
  | read actor bufLen =>
      exact (balanced.tallied side).quiet (quiet_link systemStepped (by simp) side)
  | close actor =>
      exact (balanced.tallied side).quiet (quiet_link systemStepped (by simp) side)

end Balanced

theorem balanced_of_run {labels : List Action} {l : Ledger}
    (run : Run Ledger.step Unwrapped Ledger.init labels l) : Balanced labels l := by
  induction run with
  | refl => exact .init
  | snoc _ admitted stepped inductionHypothesis => exact inductionHypothesis.step admitted stepped

/-- Without a FIN the numbers of a place count its payload bytes. -/
private theorem Tallied.newBytes {link : Link} {tally : Tally} {place : List Segment}
    {rest : List (List Segment)} (tallied : Tallied link tally) (notSent : ¬link.self.ctx.FinSent)
    (promised : tally.promised = place :: rest) :
    tally.newBytes = span place - span tally.acknowledged := by
  have bytes : ∀ known ∈ tally.acknowledged :: tally.promised,
      span known = (payloads known).length := by
    intro known member
    refine span_eq_payloads fun hasFin => notSent (tallied.finished ?_)
    obtain ⟨later, split⟩ := tallied.within known member
    rw [← split, hasFin_append]
    exact .inl hasFin
  rw [bytes place (by simp [promised]), bytes tally.acknowledged List.mem_cons_self]
  simp [Tally.newBytes, promised]

/-- What the next acknowledgement processed in `ESTABLISHED` does to `SendBase`. -/
theorem Balanced.advances_iff {labels : List Action} {l l' : Ledger} {side : Side} {rand : Nat}
    {overread : Bool} (balanced : Balanced labels l)
    (stepped : l.step (.thread side rand overread) = some l')
    (processes : (l.system.endpoint side).nextAck.isSome = true)
    (established : (l.system.endpoint side).ctx.connectionState = .established) :
    (l'.system.endpoint side).ctx.sendBase =
        (l.system.endpoint side).ctx.sendBase + (l.tally side).newBytes ↔
      ∀ place ∈ (l.tally side).promised.head?, 1 + span place < 2 ^ 32 := by
  obtain ⟨packet, next⟩ := Option.isSome_iff_exists.mp processes
  simp only [Ledger.step, System.step, Option.map_eq_some_iff] at stepped
  obtain ⟨t, ⟨⟨e', sent⟩, threadStepped, rfl⟩, rfl⟩ := stepped
  obtain ⟨taken, moved⟩ := Endpoint.threadStep_sound threadStepped
  have after : (l.system.transmit true rand side (e', sent)).endpoint side = e' := by
    rw [transmit_endpoint, if_pos rfl]
  rw [after]
  have view := Protocol.view_of_run balanced.run side
  have tallied := balanced.tallied side
  have numbered := balanced.numbered side
  have running : ¬(l.system.link side).self.ctx.Opening := by
    simp [System.link, Context.Opening, established]
  have notSent : ¬(l.system.link side).self.ctx.FinSent := by
    simp [System.link, Context.FinSent, established]
  obtain ⟨_, ⟨left, queue⟩, isAck⟩ := ack_of_nextAck next
  have head : (l.system.link side).inc = packet :: (left ++ l.system.wire side.peer) := by
    simp [System.link, System.inFlight, queue]
  have short : packet.data.length ≤ MSS := by
    obtain ⟨_, connected⟩ := view.opened running
    have flow := connected.incoming.flow
    rw [head] at flow
    exact flow.head_short
  obtain rfl := moved.takesNext next short
  obtain ⟨place, rest, promised, number, _⟩ := tallied.promise head isAck
  have heard : e'.ctx.sendBase = packet.thAck ∨
      e'.ctx.sendBase = (l.system.endpoint side).ctx.sendBase ∧
        ((l.system.endpoint side).ctx.acked packet.thAck).shiftBuffer = none := by
    rcases moved.takesAck isAck view.near running with ⟨_, heard⟩ | ⟨finSent, _⟩
    · exact heard
    · exact absurd finSent notSent
  have exact : (l.system.endpoint side).ctx.sendBase = 1 + span (l.tally side).acknowledged :=
    tallied.exact running notSent
  have places := tallied.places
  rw [promised] at places
  have later := span_mono (List.rel_of_pairwise_cons places List.mem_cons_self)
  rw [tallied.newBytes notSent promised, promised]
  constructor
  · intro advanced place' isHead
    obtain rfl : place = place' := by simpa using isHead
    obtain ⟨_, base, numbers⟩ := numbered.opened running
    have small : (l.system.endpoint side).ctx.sendBase < 2 ^ 32 := numbers.sendBase
    have wrapped := trunc32_lt (1 + span place)
    rcases heard with updated | ⟨same, _⟩ <;> omega
  · intro fits
    rw [trunc32_eq (fits place (by simp))] at number
    have above : (l.system.link side).self.ctx.sendBase ≤ packet.thAck := by
      show (l.system.endpoint side).ctx.sendBase ≤ _
      omega
    have advanced := numbered.advances running head isAck above notSent heard
    omega

/-- Sequence numbers of transfers of any length: as long as no acknowledgement that is processed
stands for 2^32 or more and no FIN is sent into a full window, what is in flight stays inside the
window, and the next acknowledgement processed in `ESTABLISHED` moves `SendBase` by the payload
bytes it newly acknowledges if and only if it stands for less than 2^32 as well. -/
theorem sendBase_counts {labels : List Action} {l : Ledger}
    (run : Run Ledger.step Unwrapped Ledger.init labels l) (side : Side) :
    ((l.system.endpoint side).ctx.sendBase ≤ (l.system.endpoint side).ctx.nextSeqnum ∧
        (l.system.endpoint side).ctx.nextSeqnum - (l.system.endpoint side).ctx.sendBase ≤
          (l.system.endpoint side).ctx.swnd) ∧
      ∀ (rand : Nat) (overread : Bool) (l' : Ledger),
        l.step (.thread side rand overread) = some l' →
        (l.system.endpoint side).nextAck.isSome = true →
        (l.system.endpoint side).ctx.connectionState = .established →
          ((l'.system.endpoint side).ctx.sendBase =
              (l.system.endpoint side).ctx.sendBase + (l.tally side).newBytes ↔
            ∀ place ∈ (l.tally side).promised.head?, 1 + span place < 2 ^ 32) := by
  have balanced := balanced_of_run run
  have window := inWindow_of_run balanced.run side
  have fits := window.fits
  refine ⟨⟨window.ordered, by omega⟩, ?_⟩
  intro rand overread l' stepped processes established
  exact balanced.advances_iff stepped processes established

/-- The acknowledgement of one byte. -/
theorem sendBase_counts_one_byte : ∃ l l' : Ledger,
    l.step (.move .client) = some l' ∧ (l.tally .client).newBytes = 1 ∧
      (l'.system.endpoint .client).ctx.sendBase =
        (l.system.endpoint .client).ctx.sendBase + (l.tally .client).newBytes := by
  let schedule := handshakeSchedule ++ [Action.write .client [7]] ++ iteration .client ++
    [Action.deliver .client] ++ iteration .server ++
    [Action.deliver .server, .move .client, .move .client]
  have reached : ∃ l, Run Ledger.step Unwrapped Ledger.init schedule l ∧
      (l.system.endpoint .client).nextAck.isSome = true ∧
      (l.system.endpoint .client).ctx.connectionState = .established ∧
      (l.tally .client).newBytes = 1 ∧
      (∀ place ∈ (l.tally .client).promised.head?, 1 + span place < 2 ^ 32) ∧
      (l.step (.move .client)).isSome = true :=
    exec_reaches _ (by decide +kernel)
  obtain ⟨l, run, processes, established, bytes, below, moves⟩ := reached
  obtain ⟨l', stepped⟩ := Option.isSome_iff_exists.mp moves
  exact ⟨l, l', stepped, bytes,
    ((sendBase_counts run .client).2 31 false l' stepped processes established).mpr below⟩

end EE323.Stcp

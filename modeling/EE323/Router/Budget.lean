/-
Module: EE323.Router.Budget
Purpose: The ARP requests that are sent for one request.  `times_sent` and `sent` count and date them
  whoever calls the handler, so there are at most five, more than a second apart, and a host
  unreachable message about a packet of the request comes more than a second after the fifth.
Main exports: broadcasts, Exhausted, Budget, handleArpreq_spends, ClockForward, retry_budget
-/
import EE323.Router.Dispatch
import EE323.Router.Release

namespace EE323.Router

open EE323.Lib

/-- The time of an ARP request for the request. -/
def Origin.sentFor (id : Nat) : Origin → Option Nat
  | .arpRequest req sent => if req = id then some sent else none
  | _ => none

/-- The times of the ARP requests among the frames that were sent for a request. -/
def broadcasts (id : Nat) (frames : List Packet) : List Nat :=
  frames.filterMap fun frame => frame.origin.sentFor id

@[simp] theorem broadcasts_append (id : Nat) (earlier later : List Packet) :
    broadcasts id (earlier ++ later) = broadcasts id earlier ++ broadcasts id later :=
  List.filterMap_append

/-- The request was sent exactly five times, the last time more than a second ago. -/
def Exhausted (sr : Instance) (id : Nat) : Prop :=
  (broadcasts id sr.handed).length = 5 ∧ ∀ sent ∈ broadcasts id sr.handed, sent + 1 < sr.now

/-- What is known of the origin of a packet that the router sends or queues: it is not an ARP
request, and the request that a host unreachable message names is exhausted. -/
def Vouched (sr : Instance) : Origin → Prop
  | .hostUnreachable req _ => Exhausted sr req
  | .arpRequest _ _ => False
  | .forwarded | .echoReply | .icmpError | .arpReply => True

/-- The counts and dates of the requests agree with the frames sent for them. -/
structure Counted (sr : Instance) : Prop where
  allocated : ∀ req ∈ sr.requests, req.id < sr.nextReq
  fresh : ∀ id, sr.nextReq ≤ id → broadcasts id sr.handed = []
  most : ∀ id, (broadcasts id sr.handed).length ≤ 5
  spaced : ∀ id, (broadcasts id sr.handed).Pairwise fun earlier later => earlier + 1 < later
  timesSent : ∀ req ∈ sr.requests, req.timesSent = (broadcasts req.id sr.handed).length
  sent : ∀ req ∈ sr.requests, ∀ time ∈ broadcasts req.id sr.handed, time ≤ req.sent

/-- Packets are vouched for while they wait, and messages for ever. -/
structure Justified (sr : Instance) : Prop where
  waits : ∀ req ∈ sr.requests, ∀ walk ∈ req.packets, Vouched sr walk.origin
  reported : ∀ message ∈ sr.handed ++ sr.queued, ∀ id about,
    message.origin = .hostUnreachable id about → Exhausted sr id

/-- The invariant of the retries. -/
structure Budget (sr : Instance) : Prop where
  counted : Counted sr
  justified : Justified sr

variable {net : Network} {sr middle next : Instance}

/-! ### What a change spends -/

theorem Vouched.mono {origin : Origin} (vouched : Vouched sr origin)
    (keeps : ∀ id, Exhausted sr id → Exhausted next id) : Vouched next origin := by
  cases origin with
  | hostUnreachable req about => exact keeps req vouched
  | arpRequest req sent => exact vouched
  | _ => trivial

/-- A packet that is vouched for is no ARP request. -/
theorem Vouched.no_broadcast {frame : Packet} (vouched : Vouched sr frame.origin) (id : Nat) :
    broadcasts id [frame] = [] := by
  unfold broadcasts
  cases isOrigin : frame.origin with
  | arpRequest req sent =>
      rw [isOrigin] at vouched
      exact vouched.elim
  | _ => simp [isOrigin, Origin.sentFor]

theorem Exhausted.of_same {id : Nat} (exhausted : Exhausted sr id)
    (same : broadcasts id next.handed = broadcasts id sr.handed) (now : sr.now ≤ next.now) :
    Exhausted next id := by
  unfold Exhausted
  rw [same]
  refine ⟨exhausted.1, ?_⟩
  intro sent member
  exact Nat.lt_of_lt_of_le (exhausted.2 sent member) now

/-- Nothing is broadcast, and every request is one with the same count and date or a new one. -/
theorem Counted.of_same (counted : Counted sr)
    (same : ∀ id, broadcasts id next.handed = broadcasts id sr.handed)
    (grows : sr.nextReq ≤ next.nextReq)
    (known : ∀ req ∈ next.requests,
      (∃ before ∈ sr.requests, before.id = req.id ∧ before.timesSent = req.timesSent ∧
        before.sent = req.sent) ∨
      (req.id = sr.nextReq ∧ req.timesSent = 0 ∧ next.nextReq = sr.nextReq + 1)) :
    Counted next := by
  constructor
  · intro req pending
    rcases known req pending with ⟨before, member, sameId, _⟩ | ⟨isNew, _, nextReq⟩
    · rw [← sameId]
      exact Nat.lt_of_lt_of_le (counted.allocated before member) grows
    · rw [isNew, nextReq]
      exact Nat.lt_succ_self _
  · intro id unused
    rw [same]
    exact counted.fresh id (Nat.le_trans grows unused)
  · intro id
    rw [same]
    exact counted.most id
  · intro id
    rw [same]
    exact counted.spaced id
  · intro req pending
    rw [same]
    rcases known req pending with ⟨before, member, sameId, timesSent, _⟩ | ⟨isNew, never, _⟩
    · rw [← sameId, ← timesSent]
      exact counted.timesSent before member
    · rw [isNew, never, counted.fresh _ (Nat.le_refl _)]
      rfl
  · intro req pending
    rw [same]
    rcases known req pending with ⟨before, member, sameId, _, sent⟩ | ⟨isNew, _, _⟩
    · rw [← sameId, ← sent]
      exact counted.sent before member
    · rw [isNew, counted.fresh _ (Nat.le_refl _)]
      intro time none
      cases none

/-- Exhausted requests stay so, and what waits or is reported did so before or is vouched for. -/
theorem Justified.grow (justified : Justified sr)
    (keeps : ∀ id, Exhausted sr id → Exhausted next id)
    (waits : ∀ req ∈ next.requests, ∀ walk ∈ req.packets,
      (∃ before ∈ sr.requests, walk ∈ before.packets) ∨ Vouched sr walk.origin)
    (reported : ∀ message ∈ next.handed ++ next.queued, message ∈ sr.handed ++ sr.queued ∨
      Vouched sr message.origin ∨ ∃ req sent, message.origin = .arpRequest req sent) :
    Justified next := by
  constructor
  · intro req pending walk member
    rcases waits req pending walk member with ⟨before, isBefore, waited⟩ | vouched
    · exact (justified.waits before isBefore walk waited).mono keeps
    · exact vouched.mono keeps
  · intro message member id about isMessage
    rcases reported message member with before | vouched | ⟨req, sent, isRequest⟩
    · exact keeps id (justified.reported message before id about isMessage)
    · rw [isMessage] at vouched
      exact keeps id vouched
    · rw [isMessage] at isRequest
      cases isRequest

/-- Requests may go and the clock may advance. -/
theorem Budget.of_fewer (budget : Budget sr) (handed : next.handed = sr.handed)
    (queued : next.queued = sr.queued) (nextReq : next.nextReq = sr.nextReq)
    (now : sr.now ≤ next.now) (fewer : ∀ req ∈ next.requests, req ∈ sr.requests) : Budget next where
  counted := by
    apply budget.counted.of_same
    · exact fun id => by rw [handed]
    · exact Nat.le_of_eq nextReq.symm
    · exact fun req pending => .inl ⟨req, fewer req pending, rfl, rfl, rfl⟩
  justified := by
    apply budget.justified.grow
    · exact fun id exhausted => exhausted.of_same (by rw [handed]) now
    · exact fun req pending walk waits => .inl ⟨req, fewer req pending, waits⟩
    · rw [handed, queued]
      exact fun message member => .inl member

/-- A packet that is vouched for may be sent. -/
theorem Budget.send {frame : Packet} (budget : Budget sr) (vouched : Vouched sr frame.origin) :
    Budget (srSendPacket net frame sr) := by
  have same : ∀ id, broadcasts id (srSendPacket net frame sr).handed = broadcasts id sr.handed := by
    intro id
    rw [srSendPacket_handed, broadcasts_append, vouched.no_broadcast, List.append_nil]
  constructor
  · apply budget.counted.of_same same
    · exact Nat.le_of_eq (srSendPacket_nextReq _ _).symm
    · rw [srSendPacket_requests]
      exact fun req pending => .inl ⟨req, pending, rfl, rfl, rfl⟩
  · apply budget.justified.grow
    · exact fun id exhausted => exhausted.of_same (same id) (Nat.le_of_eq (srSendPacket_now _ _).symm)
    · rw [srSendPacket_requests]
      exact fun req pending walk waits => .inl ⟨req, pending, waits⟩
    · rw [srSendPacket_handed, srSendPacket_queued]
      intro message member
      rcases List.mem_append.mp member with handed | queued
      · rcases List.mem_append.mp handed with before | isFrame
        · exact .inl (List.mem_append_left _ before)
        · rw [List.mem_singleton.mp isFrame]
          exact .inr (.inl vouched)
      · exact .inl (List.mem_append_right _ queued)

/-- What the requests are after a packet was queued. -/
private theorem srArpcacheQueuereq_known (ip : IpAddr) (packet : Packet) (sr : Instance) :
    sr.nextReq ≤ (srArpcacheQueuereq ip packet sr).2.nextReq ∧
      ∀ req ∈ (srArpcacheQueuereq ip packet sr).2.requests,
        (∃ before ∈ sr.requests, before.id = req.id ∧ before.timesSent = req.timesSent ∧
          before.sent = req.sent ∧
          (req.packets = before.packets ∨ req.packets = packet :: before.packets)) ∨
        (req = ⟨sr.nextReq, ip, 0, 0, [packet]⟩ ∧
          (srArpcacheQueuereq ip packet sr).2.nextReq = sr.nextReq + 1) := by
  unfold srArpcacheQueuereq
  dsimp only
  split
  · refine ⟨Nat.le_refl _, ?_⟩
    intro req pending
    obtain ⟨before, member, rfl⟩ := List.mem_map.mp pending
    refine .inl ⟨before, member, ?_⟩
    split
    · exact ⟨rfl, rfl, rfl, .inr rfl⟩
    · exact ⟨rfl, rfl, rfl, .inl rfl⟩
  · refine ⟨Nat.le_succ _, ?_⟩
    intro req pending
    rcases List.mem_cons.mp pending with rfl | member
    · exact .inr ⟨rfl, rfl⟩
    · exact .inl ⟨req, member, rfl, rfl, rfl, .inl rfl⟩

/-- A packet that is vouched for may be queued. -/
theorem Budget.queue {ip : IpAddr} {packet : Packet} (budget : Budget sr)
    (vouched : Vouched sr packet.origin) : Budget (srArpcacheQueuereq ip packet sr).2 := by
  obtain ⟨_, now, handed, queued⟩ := srArpcacheQueuereq_entries ip packet sr
  obtain ⟨grows, known⟩ := srArpcacheQueuereq_known ip packet sr
  constructor
  · apply budget.counted.of_same _ grows
    · intro req pending
      rcases known req pending with ⟨before, member, id, timesSent, sent, _⟩ | ⟨rfl, nextReq⟩
      · exact .inl ⟨before, member, id, timesSent, sent⟩
      · exact .inr ⟨rfl, rfl, nextReq⟩
    · exact fun id => by rw [handed]
  · apply budget.justified.grow
    · exact fun id exhausted => exhausted.of_same (by rw [handed]) (Nat.le_of_eq now.symm)
    · intro req pending walk waits
      rcases known req pending with ⟨before, member, _, _, _, same | inFront⟩ | ⟨rfl, _⟩
      · rw [same] at waits
        exact .inl ⟨before, member, waits⟩
      · rw [inFront] at waits
        rcases List.mem_cons.mp waits with rfl | earlier
        · exact .inr vouched
        · exact .inl ⟨before, member, earlier⟩
      · rw [List.mem_singleton.mp waits]
        exact .inr vouched
    · rw [handed, queued, ← List.append_assoc]
      intro message member
      rcases List.mem_append.mp member with before | isPacket
      · exact .inl before
      · rw [List.mem_singleton.mp isPacket]
        exact .inr (.inl vouched)

/-- The frames of a request after it was sent again. -/
private theorem broadcasts_resent (packet : Packet) {id : Nat} (other : Nat)
    (isRequest : packet.origin = .arpRequest id sr.now) :
    broadcasts other (srSendPacket net packet sr).handed =
      broadcasts other sr.handed ++ if id = other then [sr.now] else [] := by
  rw [srSendPacket_handed, broadcasts_append]
  congr 1
  unfold broadcasts
  by_cases same : id = other
  · simp [isRequest, Origin.sentFor, same]
  · simp [isRequest, Origin.sentFor, same]

/-- A request that is due and has not failed was sent fewer than five times, each more than a second
ago. -/
theorem Counted.due {req : ArpReq} (counted : Counted sr) (pending : req ∈ sr.requests)
    (due : req.Due sr.now) (left : ¬req.Failed) :
    (broadcasts req.id sr.handed).length < 5 ∧
      ∀ time ∈ broadcasts req.id sr.handed, time + 1 < sr.now := by
  constructor
  · rw [← counted.timesSent req pending]
    exact Nat.lt_of_not_le left
  · intro time member
    exact Nat.lt_of_le_of_lt (Nat.succ_le_succ (counted.sent req pending time member)) due

/-- A request that has expired is exhausted. -/
theorem Counted.exhausted {req : ArpReq} (counted : Counted sr) (pending : req ∈ sr.requests)
    (due : req.Due sr.now) (failed : req.Failed) : Exhausted sr req.id := by
  constructor
  · have most := counted.most req.id
    have least : 5 ≤ req.timesSent := failed
    rw [counted.timesSent req pending] at least
    exact Nat.le_antisymm most least
  · intro time member
    exact Nat.lt_of_le_of_lt (Nat.succ_le_succ (counted.sent req pending time member)) due

/-- One more broadcast of a request that is due and has not failed. -/
theorem Counted.request {req : ArpReq} {packet : Packet} (counted : Counted sr)
    (pending : req ∈ sr.requests) (due : req.Due sr.now) (left : ¬req.Failed)
    (isRequest : packet.origin = .arpRequest req.id sr.now) :
    Counted (updateReq req.id (ArpReq.resent sr.now) (srSendPacket net packet sr)) := by
  obtain ⟨few, old⟩ := counted.due pending due left
  have times := fun other => @broadcasts_resent net sr packet req.id other isRequest
  have own : broadcasts req.id (srSendPacket net packet sr).handed =
      broadcasts req.id sr.handed ++ [sr.now] := by
    rw [times, if_pos rfl]
  have other : ∀ id, req.id ≠ id →
      broadcasts id (srSendPacket net packet sr).handed = broadcasts id sr.handed := by
    intro id different
    rw [times, if_neg different, List.append_nil]
  unfold updateReq
  constructor <;> dsimp only
  · intro later member
    obtain ⟨before, isBefore, rfl⟩ := List.mem_map.mp member
    rw [srSendPacket_requests] at isBefore
    rw [srSendPacket_nextReq]
    split <;> exact counted.allocated before isBefore
  · intro id unused
    rw [srSendPacket_nextReq] at unused
    have different : req.id ≠ id :=
      Nat.ne_of_lt (Nat.lt_of_lt_of_le (counted.allocated req pending) unused)
    exact (other id different).trans (counted.fresh id unused)
  · intro id
    by_cases same : req.id = id
    · rw [← same, own, List.length_append]
      exact few
    · rw [other id same]
      exact counted.most id
  · intro id
    by_cases same : req.id = id
    · rw [← same, own, List.pairwise_append]
      refine ⟨counted.spaced req.id, List.pairwise_singleton _ _, ?_⟩
      intro earlier isEarlier later isLater
      rw [List.mem_singleton.mp isLater]
      exact old earlier isEarlier
    · rw [other id same]
      exact counted.spaced id
  · intro later member
    obtain ⟨before, isBefore, rfl⟩ := List.mem_map.mp member
    rw [srSendPacket_requests] at isBefore
    have timesSent := counted.timesSent before isBefore
    split
    · rename_i same
      simp only [ArpReq.resent]
      rw [timesSent, same, own, List.length_append]
      rfl
    · rename_i different
      rw [other _ (Ne.symm different)]
      exact timesSent
  · intro later member
    obtain ⟨before, isBefore, rfl⟩ := List.mem_map.mp member
    rw [srSendPacket_requests] at isBefore
    split
    · rename_i same
      simp only [ArpReq.resent]
      rw [same, own]
      intro time isTime
      rcases List.mem_append.mp isTime with earlier | now
      · exact Nat.le_of_lt (Nat.lt_of_succ_lt (old time earlier))
      · exact Nat.le_of_eq (List.mem_singleton.mp now)
    · rename_i different
      rw [other _ (Ne.symm different)]
      exact counted.sent before isBefore

/-- A pending request that is due and has not failed may be sent again. -/
theorem Budget.request {req : ArpReq} (budget : Budget sr) (pending : req ∈ sr.requests)
    (due : req.Due sr.now) (left : ¬req.Failed) (returned : sendArpRequest net req sr = .ok next) :
    Budget next := by
  obtain ⟨head, ifc, rtentry, _, _, _, rfl⟩ := sendArpRequest_eq returned
  refine ⟨budget.counted.request pending due left rfl, ?_⟩
  apply budget.justified.grow
  · intro id exhausted
    have different : req.id ≠ id := by
      rintro rfl
      exact absurd exhausted.1 (Nat.ne_of_lt (budget.counted.due pending due left).1)
    refine exhausted.of_same ?_ (Nat.le_of_eq (srSendPacket_now _ _).symm)
    unfold updateReq
    dsimp only
    rw [broadcasts_resent _ _ rfl, if_neg different, List.append_nil]
  · intro later member walk waits
    obtain ⟨before, isBefore, rfl⟩ := List.mem_map.mp member
    rw [srSendPacket_requests] at isBefore
    refine .inl ⟨before, isBefore, ?_⟩
    split at waits <;> exact waits
  · intro message member
    unfold updateReq at member
    dsimp only at member
    rw [srSendPacket_handed, srSendPacket_queued] at member
    rcases List.mem_append.mp member with handed | queued
    · rcases List.mem_append.mp handed with before | isFrame
      · exact .inl (List.mem_append_left _ before)
      · rw [List.mem_singleton.mp isFrame]
        exact .inr (.inr ⟨_, _, rfl⟩)
    · exact .inl (List.mem_append_right _ queued)

/-! ### What a handler spends -/

/-- A later state of the same event. -/
structure Later (sr next : Instance) : Prop where
  budget : Budget next
  now : next.now = sr.now
  handed : sr.handed <+: next.handed

theorem Later.refl (budget : Budget sr) : Later sr sr := ⟨budget, rfl, List.prefix_refl _⟩

theorem Later.trans (one : Later sr middle) (two : Later middle next) : Later sr next :=
  ⟨two.budget, two.now.trans one.now, one.handed.trans two.handed⟩

/-- Nothing more is broadcast for an exhausted request. -/
theorem Later.exhausted {id : Nat} (later : Later sr next) (exhausted : Exhausted sr id) :
    Exhausted next id := by
  obtain ⟨more, handed⟩ := later.handed
  have most := later.budget.counted.most id
  rw [← handed, broadcasts_append, List.length_append, exhausted.1] at most
  have none : broadcasts id more = [] := List.length_eq_zero_iff.mp (by omega)
  refine exhausted.of_same ?_ (Nat.le_of_eq later.now.symm)
  rw [← handed, broadcasts_append, none, List.append_nil]

theorem Later.send {frame : Packet} (budget : Budget sr) (vouched : Vouched sr frame.origin) :
    Later sr (srSendPacket net frame sr) where
  budget := budget.send vouched
  now := srSendPacket_now _ _
  handed := by
    rw [srSendPacket_handed]
    exact List.prefix_append _ _

theorem Later.queue {ip : IpAddr} {packet : Packet} (budget : Budget sr)
    (vouched : Vouched sr packet.origin) : Later sr (srArpcacheQueuereq ip packet sr).2 := by
  obtain ⟨_, now, handed, _⟩ := srArpcacheQueuereq_entries ip packet sr
  exact ⟨budget.queue vouched, now, handed ▸ List.prefix_refl _⟩

/-- Requests that go take no frame with them. -/
theorem Later.of_fewer (budget : Budget sr) (handed : next.handed = sr.handed)
    (queued : next.queued = sr.queued) (nextReq : next.nextReq = sr.nextReq)
    (now : next.now = sr.now) (fewer : ∀ req ∈ next.requests, req ∈ sr.requests) :
    Later sr next where
  budget := budget.of_fewer handed queued nextReq (Nat.le_of_eq now.symm) fewer
  now := now
  handed := handed ▸ List.prefix_refl _

/-- A handler of requests that keeps to the budget. -/
def Spends (handle : Nat → Instance → Except Fault Instance) : Prop :=
  ∀ {id sr next}, Budget sr → handle id sr = .ok next → Later sr next

variable {handle : Nat → Instance → Except Fault Instance}

theorem sendOrQueue_spends {edit : List Byte → List Byte} {rtentry : Route} {buf : List Byte}
    {origin : Origin} (spends : Spends handle) (budget : Budget sr) (vouched : Vouched sr origin)
    (returned : sendOrQueue handle net edit rtentry buf origin sr = .ok next) : Later sr next := by
  unfold sendOrQueue at returned
  split at returned
  · cases returned
    exact .send budget vouched
  · have queued : Later sr (srArpcacheQueuereq rtentry.gw ⟨buf, rtentry.interface, origin⟩ sr).2 :=
      .queue budget vouched
    exact queued.trans (spends queued.budget returned)

theorem answerPackets_spends {req : ArpReq} {packets : List Packet} (spends : Spends handle)
    (budget : Budget sr) (exhausted : Exhausted sr req.id)
    (returned : answerPackets handle net req packets sr = .ok next) : Later sr next := by
  induction packets generalizing sr with
  | nil =>
      cases returned
      exact .refl budget
  | cons walk rest inductionHypothesis =>
      unfold answerPackets at returned
      obtain ⟨_, _, returned⟩ := bind_eq_ok.mp returned
      obtain ⟨middle, answered, returned⟩ := bind_eq_ok.mp returned
      have one : Later sr middle := by
        unfold answerPacket at answered
        obtain ⟨_, _, answered⟩ := bind_eq_ok.mp answered
        obtain ⟨_, _, answered⟩ := bind_eq_ok.mp answered
        obtain ⟨_, _, answered⟩ := bind_eq_ok.mp answered
        obtain ⟨_, _, answered⟩ := bind_eq_ok.mp answered
        split at answered
        · cases answered
        · have vouched : Vouched sr (.hostUnreachable req.id walk.buf) := exhausted
          exact sendOrQueue_spends spends budget vouched answered
      exact one.trans (inductionHypothesis one.budget (one.exhausted exhausted) returned)

theorem sendArpRequest_spends {req : ArpReq} (budget : Budget sr) (pending : req ∈ sr.requests)
    (due : req.Due sr.now) (left : ¬req.Failed) (returned : sendArpRequest net req sr = .ok next) :
    Later sr next := by
  refine ⟨budget.request pending due left returned, ?_, ?_⟩
  · obtain ⟨head, ifc, rtentry, _, _, _, rfl⟩ := sendArpRequest_eq returned
    exact srSendPacket_now _ _
  · obtain ⟨head, ifc, rtentry, _, _, _, rfl⟩ := sendArpRequest_eq returned
    unfold updateReq
    dsimp only
    rw [srSendPacket_handed]
    exact List.prefix_append _ _

/-- `sr_arpcache_handle_arpreq` keeps to the budget, whoever calls it. -/
theorem handleArpreq_spends (depth : Nat) : Spends (srArpcacheHandleArpreq net depth) := by
  induction depth with
  | zero =>
      intro id sr next _ returned
      cases returned
  | succ depth inductionHypothesis =>
      intro id sr next budget returned
      unfold srArpcacheHandleArpreq at returned
      obtain ⟨req, found, returned⟩ := bind_eq_ok.mp returned
      obtain ⟨pending, rfl⟩ := findReq_eq_some (deref_eq_ok.mp found)
      split at returned
      · rename_i due
        split at returned
        · rename_i failed
          obtain ⟨middle, answered, returned⟩ := bind_eq_ok.mp returned
          have before := answerPackets_spends inductionHypothesis budget
            (budget.counted.exhausted pending due failed) answered
          unfold srArpreqDestroy at returned
          split at returned
          · cases returned
            apply before.trans
            exact .of_fewer before.budget rfl rfl rfl rfl fun _ => List.mem_of_mem_eraseP
          · cases returned
        · rename_i left
          exact sendArpRequest_spends budget pending due left returned
      · cases returned
        exact .refl budget

theorem sweepFrom_spends {depth : Nat} {ids : List Nat} {pointer : Option Nat} (budget : Budget sr)
    (returned : sweepFrom net depth ids pointer sr = .ok next) : Later sr next := by
  induction ids generalizing sr pointer with
  | nil =>
      cases returned
      exact .refl budget
  | cons id rest inductionHypothesis =>
      unfold sweepFrom at returned
      split at returned
      · obtain ⟨_, _, returned⟩ := bind_eq_ok.mp returned
        obtain ⟨middle, handled, returned⟩ := bind_eq_ok.mp returned
        have one := handleArpreq_spends depth budget handled
        exact one.trans (inductionHypothesis one.budget returned)
      · exact inductionHypothesis budget returned

/-! ### The frames that arrive -/

/-- The origins of the packets that are sent for a frame, which nobody has to vouch for. -/
def Origin.Direct : Origin → Prop
  | .hostUnreachable _ _ => False
  | .arpRequest _ _ => False
  | .forwarded | .echoReply | .icmpError | .arpReply => True

theorem Origin.Direct.vouched {origin : Origin} (direct : origin.Direct) : Vouched sr origin := by
  cases origin with
  | hostUnreachable req about => exact direct.elim
  | arpRequest req sent => exact direct
  | _ => trivial

/-- A decision for a packet of a direct origin. -/
abbrev DecidesDirect : Except Fault (Option Job) → Prop :=
  Ensures (fun _ => True) fun decision => ∀ job ∈ decision, job.origin.Direct

theorem ipJob_direct (packet : List Byte) : DecidesDirect (ipJob net packet) := by
  cases decided : ipJob net packet with
  | error fault => exact .error trivial
  | ok decision =>
      refine .ok fun job isJob => ?_
      rw [Option.mem_def.mp isJob] at decided
      have reported {type code : Byte} (reports : job.Reports packet type code) :
          job.origin.Direct := by
        obtain ⟨_, _, _, _, _, same⟩ := reports
        rw [same]
        trivial
      have routed {edit : List Byte → List Byte} {buf : List Byte} {origin : Origin}
          (direct : origin.Direct) (routes : job.Routes edit buf origin) : job.origin.Direct := by
        obtain ⟨_, _, same⟩ := routes
        rw [same]
        exact direct
      rcases ipJob_cases decided with port | expired | net | echo | transit
      · exact reported port
      · exact reported expired
      · exact reported net
      · exact routed (show Origin.echoReply.Direct from trivial) echo
      · exact routed (show Origin.forwarded.Direct from trivial) transit

theorem handleIp_spends {depth : Nat} {packet : List Byte} (budget : Budget sr)
    (returned : handleIp (srArpcacheHandleArpreq net depth) net packet sr = .ok next) :
    Later sr next := by
  rw [handleIp_eq] at returned
  obtain ⟨decision, decided, returned⟩ := bind_eq_ok.mp returned
  have direct : DecidesDirect (ipJob net packet) := ipJob_direct packet
  rw [decided] at direct
  cases decision with
  | none =>
      cases returned
      exact .refl budget
  | some job =>
      have vouched : Vouched sr job.origin := (direct.post_of_ok job rfl).vouched
      exact sendOrQueue_spends (handleArpreq_spends depth) budget vouched returned

theorem releasePackets_spends {mac : Mac} {packets : List Packet} (budget : Budget sr)
    (vouched : ∀ walk ∈ packets, Vouched sr walk.origin)
    (returned : releasePackets net mac packets sr = .ok next) : Later sr next := by
  induction packets generalizing sr with
  | nil =>
      cases returned
      exact .refl budget
  | cons walk rest inductionHypothesis =>
      have returned := releasePackets_cons returned
      have sent : Later sr (srSendPacket net (released mac walk) sr) :=
        .send budget (vouched walk List.mem_cons_self)
      apply sent.trans (inductionHypothesis sent.budget _ returned)
      intro other later
      exact (vouched other (List.mem_cons_of_mem _ later)).mono fun _ => sent.exhausted

theorem handleArp_spends {packet : List Byte} (budget : Budget sr)
    (returned : handleArp net packet sr = .ok next) : Later sr next := by
  unfold handleArp at returned
  split at returned
  · cases returned
    exact .refl budget
  obtain ⟨rtentry, _, returned⟩ := bind_eq_ok.mp returned
  obtain ⟨ifc, _, returned⟩ := bind_eq_ok.mp returned
  split at returned
  · cases returned
    exact .refl budget
  split at returned
  · cases returned
    exact .send budget trivial
  split at returned
  · have inserted : Later sr (srArpcacheInsert (arSha packet) (arSip packet) sr).2 :=
      .of_fewer budget rfl rfl rfl rfl fun _ => List.mem_of_mem_eraseP
    split at returned
    · rename_i arpreq after isInserted
      have found : sr.requests.find? (fun req => req.ip = arSip packet) = some arpreq :=
        congrArg Prod.fst isInserted
      have rest : (srArpcacheInsert (arSha packet) (arSip packet) sr).2 = after :=
        congrArg Prod.snd isInserted
      obtain ⟨done, sent, returned⟩ := bind_eq_ok.mp returned
      cases returned
      rw [rest] at inserted
      have vouched : ∀ walk ∈ arpreq.packets, Vouched after walk.origin := by
        intro walk waits
        have pending := List.mem_of_find?_eq_some found
        exact (budget.justified.waits arpreq pending walk waits).mono fun _ => inserted.exhausted
      have released := inserted.trans (releasePackets_spends inserted.budget vouched sent)
      apply released.trans
      exact .of_fewer released.budget rfl rfl rfl rfl fun _ => List.mem_of_mem_eraseP
    · rename_i after isInserted
      have rest : (srArpcacheInsert (arSha packet) (arSip packet) sr).2 = after :=
        congrArg Prod.snd isInserted
      cases returned
      rw [← rest]
      exact inserted
  · cases returned
    exact .refl budget

/-! ### Runs -/

/-- The clock does not go back. -/
def ClockForward (sr : Instance) : Event → Prop
  | .frame _ => True
  | .sweep => True
  | .clock now => sr.now ≤ now

instance (sr : Instance) (event : Event) : Decidable (ClockForward sr event) :=
  match event with
  | .frame _ | .sweep => .isTrue trivial
  | .clock now => inferInstanceAs (Decidable (sr.now ≤ now))

theorem react_budget {depth : Nat} {event : Event} (budget : Budget sr)
    (forward : ClockForward sr event) (returned : react net depth sr event = .ok next) :
    Budget next := by
  cases event with
  | frame packet =>
      unfold react srHandlepacket at returned
      dsimp only at returned
      split at returned
      · cases returned
        exact budget
      split at returned
      · exact (handleIp_spends budget returned).budget
      split at returned
      · exact (handleArp_spends budget returned).budget
      · cases returned
        exact budget
  | sweep =>
      unfold react srArpcacheTimeout srArpcacheSweepreqs at returned
      refine (sweepFrom_spends ?_ returned).budget
      exact budget.of_fewer rfl rfl rfl (Nat.le_refl _) fun _ member => member
  | clock now =>
      cases returned
      exact budget.of_fewer rfl rfl rfl forward fun _ member => member

/-- In every run with a clock that does not go back, each request is broadcast at most five times
and any two times more than a second apart, `times_sent` of a pending request is the number of its
broadcasts, and a host unreachable message for a request is only there when the request was
broadcast exactly five times, the last time more than a second ago. -/
theorem retry_budget {depth now : Nat} {events : List Event}
    (run : Run (step net depth) ClockForward (srArpcacheInit now) events sr) :
    (∀ id, (broadcasts id sr.written).length ≤ 5 ∧
      (broadcasts id sr.written).Pairwise fun earlier later => earlier + 1 < later) ∧
    (∀ req ∈ sr.requests, req.timesSent = (broadcasts req.id sr.written).length) ∧
    (∀ message ∈ sr.handed ++ sr.queued, ∀ id about,
      message.origin = .hostUnreachable id about →
        (broadcasts id sr.written).length = 5 ∧
          ∀ sent ∈ broadcasts id sr.written, sent + 1 < sr.now) := by
  have budget : Budget sr := by
    apply run.invariant
    · refine ⟨⟨?_, ?_, ?_, ?_, ?_, ?_⟩, ⟨?_, ?_⟩⟩ <;> simp [srArpcacheInit, broadcasts]
    · intro before event after beforeBudget forward stepped
      exact react_budget beforeBudget forward (step_eq_some.mp stepped)
  rw [all_written (run.mono fun _ => trivial)]
  refine ⟨?_, budget.counted.timesSent, budget.justified.reported⟩
  exact fun id => ⟨budget.counted.most id, budget.counted.spaced id⟩

/-- A datagram that waits for an answer that never comes. -/
private def unansweredDatagram : List Event :=
  [.frame (ipFrame 64 17 0xC0A80202 0xAC40030A (List.replicate 8 1)), .clock 7, .sweep, .clock 9,
    .sweep, .clock 11, .sweep, .clock 13, .sweep, .clock 15, .sweep]

theorem retry_budget_unanswered : ∃ sr,
    Run (step labNetwork 4) ClockForward (srArpcacheInit 5) unansweredDatagram sr ∧
    (broadcasts 0 sr.handed = [5, 7, 9, 11, 13] ∧
      ∃ message ∈ sr.queued, ∃ about, message.origin = .hostUnreachable 0 about) ∧
    (∀ id, (broadcasts id sr.written).length ≤ 5 ∧
      (broadcasts id sr.written).Pairwise fun earlier later => earlier + 1 < later) ∧
    (∀ req ∈ sr.requests, req.timesSent = (broadcasts req.id sr.written).length) ∧
    (∀ message ∈ sr.handed ++ sr.queued, ∀ id about,
      message.origin = .hostUnreachable id about →
        (broadcasts id sr.written).length = 5 ∧
          ∀ sent ∈ broadcasts id sr.written, sent + 1 < sr.now) := by
  have reached : ∃ sr,
      Run (step labNetwork 4) ClockForward (srArpcacheInit 5) unansweredDatagram sr ∧
      broadcasts 0 sr.handed = [5, 7, 9, 11, 13] ∧
      ∃ message ∈ sr.queued, message.origin = .hostUnreachable 0
        (setShost (ipFrame 64 17 0xC0A80202 0xAC40030A (List.replicate 8 1))
          labInterface.addr) :=
    exec_reaches _ (by decide +kernel)
  obtain ⟨sr, run, times, message, queued, isMessage⟩ := reached
  exact ⟨sr, run, ⟨times, message, queued, _, isMessage⟩, retry_budget run⟩

end EE323.Router

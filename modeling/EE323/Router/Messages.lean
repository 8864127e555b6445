/-
Module: EE323.Router.Messages
Purpose: The messages that the router adds while it handles an event: which ones are sent or queued,
  and which packets wait on requests afterwards.  Handling a request adds ARP requests and host
  unreachable messages about waiting packets, and nothing else, in every state and at every depth.
Main exports: ErrorAbout, Report, Notice, AllWait, Spread, handleArpreq_spread, sweepFrom_spread
-/
import EE323.Router.Reports

namespace EE323.Router

open EE323.Lib

/-- The frame is an ICMP error about a packet, with or without its destination in the Ethernet
header. -/
def ErrorAbout (type code : Byte) (about buf : List Byte) : Prop :=
  ∃ trailing ≤ icmpDataSize, ∃ source shost,
    buf = icmpError type code trailing source shost about ∨
      ∃ mac, buf = setDhost (icmpError type code trailing source shost about) mac

/-- A host unreachable message about one of the packets described. -/
def Report (Waits : Packet → Prop) (message : Packet) : Prop :=
  ∃ walk req, Waits walk ∧ message.origin = .hostUnreachable req walk.buf ∧
    ErrorAbout 3 1 walk.buf message.buf

/-- What the handling of a request may send. -/
def Notice (Waits : Packet → Prop) (message : Packet) : Prop :=
  Report Waits message ∨
    (∃ req sent, message.origin = .arpRequest req sent) ∧ etherType message.buf = ethertypeArp

theorem Notice.report {Waits : Packet → Prop} {message : Packet} (report : Report Waits message) :
    Notice Waits message := .inl report

/-- Every packet on a request is as described. -/
def AllWait (Waits : Packet → Prop) (sr : Instance) : Prop :=
  ∀ req ∈ sr.requests, ∀ packet ∈ req.packets, Waits packet

/-- The second state extends the lists of the first by new messages, and the packets that wait are
as described. -/
structure Spread (Waits New : Packet → Prop) (sr next : Instance) : Prop where
  waits : AllWait Waits next
  queued : ∃ more, next.queued = sr.queued ++ more ∧ ∀ message ∈ more, New message
  handed : ∃ more, next.handed = sr.handed ++ more ∧ ∀ message ∈ more, New message

section Spreading

variable {net : Network} {Waits New : Packet → Prop} {sr middle next : Instance}

/-- Two additions one after the other. -/
private theorem added_trans {first second third : List Packet}
    (one : ∃ more, second = first ++ more ∧ ∀ message ∈ more, New message)
    (two : ∃ more, third = second ++ more ∧ ∀ message ∈ more, New message) :
    ∃ more, third = first ++ more ∧ ∀ message ∈ more, New message := by
  obtain ⟨early, rfl, allEarly⟩ := one
  obtain ⟨late, rfl, allLate⟩ := two
  exact ⟨early ++ late, List.append_assoc _ _ _, List.forall_mem_append.mpr ⟨allEarly, allLate⟩⟩

private theorem added_none {same : List Packet} :
    ∃ more, same = same ++ more ∧ ∀ message ∈ more, New message :=
  ⟨[], (List.append_nil _).symm, fun _ member => absurd member (by simp)⟩

private theorem added_one {same : List Packet} {message : Packet} (new : New message) :
    ∃ more, same ++ [message] = same ++ more ∧ ∀ message ∈ more, New message :=
  ⟨[message], rfl, fun _ member => List.mem_singleton.mp member ▸ new⟩

theorem Spread.refl (waits : AllWait Waits sr) : Spread Waits New sr sr :=
  ⟨waits, added_none, added_none⟩

theorem Spread.trans (one : Spread Waits New sr middle) (two : Spread Waits New middle next) :
    Spread Waits New sr next :=
  ⟨two.waits, added_trans one.queued two.queued, added_trans one.handed two.handed⟩

theorem Spread.mono {More : Packet → Prop} (spread : Spread Waits New sr next)
    (weaken : ∀ message, New message → More message) : Spread Waits More sr next := by
  obtain ⟨waits, ⟨queued, isQueued, allQueued⟩, handed, isHanded, allHanded⟩ := spread
  exact ⟨waits, ⟨queued, isQueued, fun message member => weaken _ (allQueued message member)⟩,
    handed, isHanded, fun message member => weaken _ (allHanded message member)⟩

theorem Spread.send {message : Packet} (waits : AllWait Waits sr) (new : New message) :
    Spread Waits New sr (srSendPacket net message sr) where
  waits := by
    unfold AllWait
    rw [srSendPacket_requests]
    exact waits
  queued := by
    rw [srSendPacket_queued]
    exact added_none
  handed := by
    rw [srSendPacket_handed]
    exact added_one new

/-- The requests may go or be sent again, with the packets that they hold. -/
theorem Spread.keep (waits : AllWait Waits sr) (handed : next.handed = sr.handed)
    (queued : next.queued = sr.queued)
    (kept : ∀ req ∈ next.requests, ∃ before ∈ sr.requests, req.packets = before.packets) :
    Spread Waits New sr next where
  waits := by
    intro req pending packet waiting
    obtain ⟨before, member, same⟩ := kept req pending
    rw [same] at waiting
    exact waits before member packet waiting
  queued := by
    rw [queued]
    exact added_none
  handed := by
    rw [handed]
    exact added_none

theorem Spread.queue {ip : IpAddr} {message : Packet} (waits : AllWait Waits sr)
    (may : Waits message) (new : New message) :
    Spread Waits New sr (srArpcacheQueuereq ip message sr).2 := by
  obtain ⟨_, _, handed, queued⟩ := srArpcacheQueuereq_entries ip message sr
  refine ⟨?_, ?_, ?_⟩
  · unfold srArpcacheQueuereq
    dsimp only
    split
    · intro req pending packet waiting
      obtain ⟨before, member, rfl⟩ := List.mem_map.mp pending
      split at waiting
      · rcases List.mem_cons.mp waiting with rfl | earlier
        · exact may
        · exact waits before member packet earlier
      · exact waits before member packet waiting
    · intro req pending packet waiting
      rcases List.mem_cons.mp pending with rfl | member
      · rw [List.mem_singleton.mp waiting]
        exact may
      · exact waits req member packet waiting
  · rw [queued]
    exact added_one new
  · rw [handed]
    exact added_none

/-- A handler of requests that spreads messages. -/
def Spreads (Waits New : Packet → Prop) (handle : Nat → Instance → Except Fault Instance) : Prop :=
  ∀ {id sr next}, AllWait Waits sr → handle id sr = .ok next → Spread Waits New sr next

variable {handle : Nat → Instance → Except Fault Instance}

theorem sendOrQueue_spread {edit : List Byte → List Byte} {rtentry : Route} {buf : List Byte}
    {origin : Origin} (spreads : Spreads Waits New handle) (waits : AllWait Waits sr)
    (may : Waits ⟨buf, rtentry.interface, origin⟩) (new : New ⟨buf, rtentry.interface, origin⟩)
    (newSent : ∀ mac, New ⟨edit (setDhost buf mac), rtentry.interface, origin⟩)
    (returned : sendOrQueue handle net edit rtentry buf origin sr = .ok next) :
    Spread Waits New sr next := by
  unfold sendOrQueue at returned
  split at returned
  · cases returned
    exact .send waits (newSent _)
  · have queued : Spread Waits New sr
        (srArpcacheQueuereq rtentry.gw ⟨buf, rtentry.interface, origin⟩ sr).2 :=
      .queue waits may new
    exact queued.trans (spreads queued.waits returned)

/-- The packets described include every host unreachable message about one of them. -/
def ClosedUnderReports (Waits : Packet → Prop) : Prop :=
  ∀ message, Report Waits message → Waits message

theorem answerPackets_spread {req : ArpReq} {packets : List Packet}
    (closed : ClosedUnderReports Waits) (spreads : Spreads Waits (Notice Waits) handle)
    (waits : AllWait Waits sr) (described : ∀ walk ∈ packets, Waits walk)
    (returned : answerPackets handle net req packets sr = .ok next) :
    Spread Waits (Notice Waits) sr next := by
  induction packets generalizing sr with
  | nil =>
      cases returned
      exact .refl waits
  | cons walk rest inductionHypothesis =>
      unfold answerPackets at returned
      obtain ⟨_, _, returned⟩ := bind_eq_ok.mp returned
      obtain ⟨middle, answered, returned⟩ := bind_eq_ok.mp returned
      have walkWaits := described walk List.mem_cons_self
      have one : Spread Waits (Notice Waits) sr middle := by
        unfold answerPacket at answered
        obtain ⟨_, _, answered⟩ := bind_eq_ok.mp answered
        obtain ⟨source, _, answered⟩ := bind_eq_ok.mp answered
        obtain ⟨rtentry, _, answered⟩ := bind_eq_ok.mp answered
        obtain ⟨ifc, _, answered⟩ := bind_eq_ok.mp answered
        split at answered
        · cases answered
        · have report (buf : List Byte) (about : ErrorAbout 3 1 walk.buf buf) :
              Report Waits ⟨buf, rtentry.interface, .hostUnreachable req.id walk.buf⟩ :=
            ⟨walk, req.id, walkWaits, rfl, about⟩
          have queued := report (hostUnreachable source.ip ifc.addr walk.buf)
            ⟨icmpDataSize, Nat.le_refl _, source.ip, ifc.addr, .inl rfl⟩
          have sent (mac : Mac) :=
            report (setDhost (hostUnreachable source.ip ifc.addr walk.buf) mac)
              ⟨icmpDataSize, Nat.le_refl _, source.ip, ifc.addr, .inr ⟨mac, rfl⟩⟩
          refine sendOrQueue_spread spreads waits (closed _ queued) (.report queued) ?_ answered
          intro mac
          rw [id_eq]
          exact .report (sent mac)
      exact one.trans (inductionHypothesis one.waits
        (fun other later => described other (List.mem_cons_of_mem _ later)) returned)

theorem sendArpRequest_spread {req : ArpReq} (waits : AllWait Waits sr)
    (returned : sendArpRequest net req sr = .ok next) : Spread Waits (Notice Waits) sr next := by
  obtain ⟨head, ifc, rtentry, _, _, _, rfl⟩ := sendArpRequest_eq returned
  have sent : Spread Waits (Notice Waits) sr (srSendPacket net
      ⟨arpRequestFor ifc head, rtentry.interface, .arpRequest req.id sr.now⟩ sr) :=
    .send waits (.inr ⟨⟨_, _, rfl⟩, etherType_arpFrame _ _ _ _ _ _ _⟩)
  refine sent.trans (.keep sent.waits rfl rfl ?_)
  intro later pending
  obtain ⟨before, member, rfl⟩ := List.mem_map.mp pending
  refine ⟨before, member, ?_⟩
  split <;> rfl

/-- `sr_arpcache_handle_arpreq` sends and queues notices only. -/
theorem handleArpreq_spread (closed : ClosedUnderReports Waits) (depth : Nat) :
    Spreads Waits (Notice Waits) (srArpcacheHandleArpreq net depth) := by
  induction depth with
  | zero =>
      intro id sr next _ returned
      cases returned
  | succ depth inductionHypothesis =>
      intro id sr next waits returned
      unfold srArpcacheHandleArpreq at returned
      obtain ⟨req, found, returned⟩ := bind_eq_ok.mp returned
      obtain ⟨pending, rfl⟩ := findReq_eq_some (deref_eq_ok.mp found)
      split at returned
      · split at returned
        · obtain ⟨middle, answered, returned⟩ := bind_eq_ok.mp returned
          have before := answerPackets_spread closed inductionHypothesis waits (waits req pending)
            answered
          unfold srArpreqDestroy at returned
          split at returned
          · cases returned
            refine before.trans (.keep before.waits rfl rfl ?_)
            exact fun req member => ⟨req, List.mem_of_mem_eraseP member, rfl⟩
          · cases returned
        · exact sendArpRequest_spread waits returned
      · cases returned
        exact .refl waits

theorem sweepFrom_spread {depth : Nat} {ids : List Nat} {pointer : Option Nat}
    (closed : ClosedUnderReports Waits) (waits : AllWait Waits sr)
    (returned : sweepFrom net depth ids pointer sr = .ok next) :
    Spread Waits (Notice Waits) sr next := by
  induction ids generalizing sr pointer with
  | nil =>
      cases returned
      exact .refl waits
  | cons id rest inductionHypothesis =>
      unfold sweepFrom at returned
      split at returned
      · obtain ⟨_, _, returned⟩ := bind_eq_ok.mp returned
        obtain ⟨middle, handled, returned⟩ := bind_eq_ok.mp returned
        have one := handleArpreq_spread closed depth waits handled
        exact one.trans (inductionHypothesis one.waits returned)
      · exact inductionHypothesis waits returned

end Spreading

end EE323.Router

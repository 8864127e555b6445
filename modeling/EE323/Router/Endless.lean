/-
Module: EE323.Router.Endless
Purpose: Expired requests whose reports are queued on each other.  Handling one of them never
  returns, however deep the stack.
Main exports: Circular, Endless, handleArpreq_endless, expired_request_handled, expiry_never_returns
-/
import EE323.Router.Expiry

namespace EE323.Router

open EE323.Lib

variable {net : Network} {ips : IpAddr → Prop} {sr middle next : Instance}

/-- Every address of the set has an expired request with a packet whose report is queued on a
request for an address of the set. -/
def Circular (net : Network) (ips : IpAddr → Prop) (sr : Instance) : Prop :=
  ∀ ip, ips ip → ∃ req ∈ sr.requests, req.ip = ip ∧ req.Expired sr.now ∧
    ∃ packet ∈ req.packets, ∃ rtentry,
      srFindLPMentry net.routingTable (ipSrc packet.buf) = some rtentry ∧
      srArpcacheLookup sr rtentry.gw = none ∧ ips rtentry.gw

/-- The requests of the set that are expired stay so, with all their packets. -/
structure Stays (ips : IpAddr → Prop) (sr next : Instance) : Prop where
  entries : next.entries = sr.entries
  now : next.now = sr.now
  kept : ∀ req ∈ sr.requests, ips req.ip → req.Expired sr.now → ∃ later ∈ next.requests,
    later.ip = req.ip ∧ later.Expired sr.now ∧ ∀ packet ∈ req.packets, packet ∈ later.packets

theorem Stays.refl (ips : IpAddr → Prop) (sr : Instance) : Stays ips sr sr where
  entries := rfl
  now := rfl
  kept := fun req pending _ expired => ⟨req, pending, rfl, expired, fun _ waits => waits⟩

theorem Stays.trans (one : Stays ips sr middle) (two : Stays ips middle next) :
    Stays ips sr next where
  entries := two.entries.trans one.entries
  now := two.now.trans one.now
  kept := by
    intro req pending inSet expired
    obtain ⟨between, betweenPending, betweenIp, betweenExpired, some⟩ :=
      one.kept req pending inSet expired
    rw [← one.now] at betweenExpired
    rw [← betweenIp] at inSet
    obtain ⟨later, laterPending, laterIp, laterExpired, more⟩ :=
      two.kept between betweenPending inSet betweenExpired
    refine ⟨later, laterPending, laterIp.trans betweenIp, ?_, fun packet waits =>
      more packet (some packet waits)⟩
    rw [one.now] at laterExpired
    exact laterExpired

theorem Circular.stays (circular : Circular net ips sr) (stays : Stays ips sr next) :
    Circular net ips next := by
  intro ip inSet
  obtain ⟨req, pending, rfl, expired, packet, waits, rtentry, route, unknown, inside⟩ :=
    circular ip inSet
  obtain ⟨later, laterPending, laterIp, laterExpired, packets⟩ :=
    stays.kept req pending inSet expired
  refine ⟨later, laterPending, laterIp, ?_, packet, packets packet waits, rtentry, route, ?_, inside⟩
  · rw [stays.now]
    exact laterExpired
  · rw [srArpcacheLookup_congr stays.entries]
    exact unknown

theorem stays_of_subset (entries : next.entries = sr.entries) (now : next.now = sr.now)
    (kept : ∀ req ∈ sr.requests, ips req.ip → req.Expired sr.now → req ∈ next.requests) :
    Stays ips sr next where
  entries := entries
  now := now
  kept := fun req pending inSet expired =>
    ⟨req, kept req pending inSet expired, rfl, expired, fun _ waits => waits⟩

theorem stays_send (frame : Packet) : Stays ips sr (srSendPacket net frame sr) := by
  apply stays_of_subset
  · exact srSendPacket_entries _ _
  · exact srSendPacket_now _ _
  · intro req pending _ _
    rw [srSendPacket_requests]
    exact pending

theorem stays_queue (ip : IpAddr) (message : Packet) :
    Stays ips sr (srArpcacheQueuereq ip message sr).2 where
  entries := (srArpcacheQueuereq_entries ip message sr).1
  now := (srArpcacheQueuereq_entries ip message sr).2.1
  kept := by
    intro req pending _ expired
    unfold srArpcacheQueuereq
    dsimp only
    cases sr.requests.find? fun req => req.ip = ip with
    | none =>
        exact ⟨req, List.mem_cons_of_mem _ pending, rfl, expired, fun _ waits => waits⟩
    | some found =>
        refine ⟨_, List.mem_map_of_mem pending, ?_⟩
        dsimp only
        split
        · exact ⟨rfl, expired, fun packet waits => List.mem_cons_of_mem _ waits⟩
        · exact ⟨rfl, expired, fun packet waits => waits⟩

/-- A state with a circular set of requests. -/
structure Endless (net : Network) (ips : IpAddr → Prop) (sr : Instance) : Prop where
  inv : Inv (RoutedVia net) (FromInterface net) sr
  circular : Circular net ips sr

theorem Endless.send {frame : Packet} (endless : Endless net ips sr) (own : FromInterface net frame) :
    Endless net ips (srSendPacket net frame sr) ∧ Stays ips sr (srSendPacket net frame sr) :=
  ⟨⟨endless.inv.send own, endless.circular.stays (stays_send frame)⟩, stays_send frame⟩

theorem Endless.queue {ip : IpAddr} {message : Packet} (endless : Endless net ips sr)
    (routed : RoutedVia net ip message) :
    Endless net ips (srArpcacheQueuereq ip message sr).2 ∧
      Stays ips sr (srArpcacheQueuereq ip message sr).2 :=
  ⟨⟨endless.inv.queue routed, endless.circular.stays (stays_queue ip message)⟩,
    stays_queue ip message⟩

/-- A handler that returns only on requests outside the set, and leaves the set as it is. -/
def Avoids (net : Network) (ips : IpAddr → Prop)
    (handle : Nat → Instance → Except Fault Instance) : Prop :=
  ∀ {id sr next}, Endless net ips sr → handle id sr = .ok next →
    (∀ req ∈ sr.requests, req.id = id → ¬ips req.ip) ∧ Endless net ips next ∧ Stays ips sr next

section Answering

variable {handle : Nat → Instance → Except Fault Instance} {req : ArpReq}

/-- A report that returns was not queued on a request of the set. -/
theorem answerPacket_avoids {walk : Packet} (avoids : Avoids net ips handle)
    (endless : Endless net ips sr) (returned : answerPacket handle net req walk sr = .ok next) :
    (∀ rtentry, srFindLPMentry net.routingTable (ipSrc walk.buf) = some rtentry →
      srArpcacheLookup sr rtentry.gw = none → ¬ips rtentry.gw) ∧
      Endless net ips next ∧ Stays ips sr next := by
  unfold answerPacket at returned
  obtain ⟨own, routeOwn, returned⟩ := bind_eq_ok.mp returned
  obtain ⟨ownIfc, isOwn, returned⟩ := bind_eq_ok.mp returned
  obtain ⟨other, routeOther, returned⟩ := bind_eq_ok.mp returned
  obtain ⟨otherIfc, isOther, returned⟩ := bind_eq_ok.mp returned
  have leadsOther := routeTo_interfaceOf routeOther isOther
  have passes := report_passes ownIfc.ip req.id walk.buf leadsOther
  have onlyRoute : ∀ rtentry, srFindLPMentry net.routingTable (ipSrc walk.buf) = some rtentry →
      rtentry = other := by
    intro rtentry route
    exact Option.some.inj (route.symm.trans leadsOther.1)
  split at returned
  · cases returned
  cases known : srArpcacheLookup sr other.gw with
  | some arpentry =>
      rw [sendOrQueue_known known] at returned
      have sent := endless.send (passes.2 arpentry.mac)
      rw [Except.ok.inj returned] at sent
      refine ⟨?_, sent⟩
      intro rtentry route unknown
      rw [onlyRoute rtentry route, known] at unknown
      cases unknown
  | none =>
      rw [sendOrQueue_unknown known] at returned
      obtain ⟨queued, stays⟩ := endless.queue passes.1
      obtain ⟨outside, nextEndless, nextStays⟩ := avoids queued returned
      refine ⟨?_, nextEndless, stays.trans nextStays⟩
      intro rtentry route _ inSet
      rw [onlyRoute rtentry route] at inSet
      obtain ⟨target, pending, isTarget⟩ := queueing_pending other.gw _ sr
      have targetIp :=
        (queued_in_front endless.inv.allocated endless.inv.identified pending isTarget).1
      apply outside target pending isTarget
      rw [targetIp]
      exact inSet

theorem answerPackets_avoids {packets : List Packet} (avoids : Avoids net ips handle)
    (endless : Endless net ips sr)
    (returned : answerPackets handle net req packets sr = .ok next) :
    (∀ walk ∈ packets, ∀ rtentry,
      srFindLPMentry net.routingTable (ipSrc walk.buf) = some rtentry →
      srArpcacheLookup sr rtentry.gw = none → ¬ips rtentry.gw) ∧
      Endless net ips next ∧ Stays ips sr next := by
  induction packets generalizing sr with
  | nil =>
      cases returned
      exact ⟨fun _ member => absurd member List.not_mem_nil, endless, .refl ips _⟩
  | cons walk rest inductionHypothesis =>
      unfold answerPackets at returned
      obtain ⟨_, _, returned⟩ := bind_eq_ok.mp returned
      obtain ⟨middle, returnedOne, returned⟩ := bind_eq_ok.mp returned
      obtain ⟨outsideOne, middleEndless, one⟩ := answerPacket_avoids avoids endless returnedOne
      obtain ⟨outside, nextEndless, later⟩ := inductionHypothesis middleEndless returned
      refine ⟨?_, nextEndless, one.trans later⟩
      intro other member rtentry route unknown
      rcases List.mem_cons.mp member with rfl | isLater
      · exact outsideOne rtentry route unknown
      · apply outside other isLater rtentry route
        rw [srArpcacheLookup_congr one.entries]
        exact unknown

end Answering

/-- Destroying a request outside the set. -/
theorem destroy_avoids {id : Nat} (endless : Endless net ips sr)
    (destroyed : srArpreqDestroy id sr = .ok next)
    (outside : ∀ req ∈ sr.requests, req.id = id → ¬ips req.ip) :
    Stays ips sr next ∧ Endless net ips next := by
  unfold srArpreqDestroy at destroyed
  split at destroyed
  · cases destroyed
    have stays : Stays ips sr
        { sr with requests := sr.requests.eraseP fun req => req.id = id } := by
      apply stays_of_subset
      · rfl
      · rfl
      · intro req pending inSet _
        apply (List.mem_eraseP_of_neg _).mpr pending
        intro isTarget
        exact outside req pending (by simpa using isTarget) inSet
    exact ⟨stays, endless.inv.remove List.eraseP_sublist, endless.circular.stays stays⟩
  · cases destroyed

/-- Sending a request outside the set again. -/
theorem resend_stays {req : ArpReq} (inv : Inv (RoutedVia net) (FromInterface net) sr)
    (pending : req ∈ sr.requests) (returned : sendArpRequest net req sr = .ok next)
    (outside : ¬ips req.ip) : Stays ips sr next := by
  obtain ⟨head, ifc, rtentry, _, _, _, rfl⟩ := sendArpRequest_eq returned
  apply stays_of_subset
  · exact srSendPacket_entries _ _
  · exact srSendPacket_now _ _
  · intro other otherPending inSet _
    refine List.mem_map.mpr ⟨other, ?_, if_neg ?_⟩
    · rw [srSendPacket_requests]
      exact otherPending
    · intro sameId
      apply outside
      rw [← inv.same otherPending pending sameId]
      exact inSet

/-- Handling a request of a circular set never returns. -/
theorem handleArpreq_endless (depth : Nat) : Avoids net ips (srArpcacheHandleArpreq net depth) := by
  induction depth with
  | zero =>
      intro id sr next endless returned
      cases returned
  | succ depth inductionHypothesis =>
      intro id sr next endless returned
      have inv := endless.inv
      unfold srArpcacheHandleArpreq at returned
      obtain ⟨req, found, returned⟩ := bind_eq_ok.mp returned
      obtain ⟨pending, sameId⟩ := findReq_eq_some (deref_eq_ok.mp found)
      have isReq : ∀ other ∈ sr.requests, other.id = id → other = req := by
        intro other otherPending otherId
        exact inv.same otherPending pending
          (otherId.trans sameId.symm)
      -- a request of the set has a report that is queued on the set
      have circles : ips req.ip → req.Expired sr.now ∧ ∃ packet ∈ req.packets, ∃ rtentry,
          srFindLPMentry net.routingTable (ipSrc packet.buf) = some rtentry ∧
          srArpcacheLookup sr rtentry.gw = none ∧ ips rtentry.gw := by
        intro inSet
        obtain ⟨other, otherPending, sameIp, expired, lands⟩ := endless.circular req.ip inSet
        rw [inv.unique pending otherPending sameIp] at expired lands
        exact ⟨expired, lands⟩
      split at returned
      · rename_i due
        split at returned
        · obtain ⟨middle, answered, destroyed⟩ := bind_eq_ok.mp returned
          obtain ⟨outside, middleEndless, one⟩ :=
            answerPackets_avoids inductionHypothesis endless answered
          have notInSet : ¬ips req.ip := by
            intro inSet
            obtain ⟨_, packet, waits, rtentry, route, unknown, inside⟩ := circles inSet
            exact outside packet waits rtentry route unknown inside
          have changes : Changes net (fun _ => True) sr middle :=
            answerPackets_changes (handleArpreq_changes depth) answered
          have outsideLater : ∀ other ∈ middle.requests, other.id = id → ¬ips other.ip := by
            intro other otherPending otherId
            have allocated : other.id < sr.nextReq := by
              rw [otherId, ← sameId]
              exact inv.allocated req pending
            obtain ⟨first, firstPending, firstId, firstIp, _⟩ :=
              changes.extends.2 other otherPending allocated
            rw [← firstIp, isReq first firstPending (firstId.trans otherId)]
            exact notInSet
          obtain ⟨later, nextEndless⟩ := destroy_avoids middleEndless destroyed outsideLater
          refine ⟨?_, nextEndless, one.trans later⟩
          intro other otherPending otherId
          rw [isReq other otherPending otherId]
          exact notInSet
        · rename_i notFailed
          have notInSet : ¬ips req.ip := fun inSet => notFailed (circles inSet).1.2
          have stays := resend_stays inv pending returned notInSet
          refine ⟨?_, ⟨sendArpRequest_inv (nextHop net) inv pending returned,
            endless.circular.stays stays⟩, stays⟩
          intro other otherPending otherId
          rw [isReq other otherPending otherId]
          exact notInSet
      · rename_i notDue
        cases returned
        refine ⟨?_, endless, .refl ips sr⟩
        intro other otherPending otherId inSet
        rw [isReq other otherPending otherId] at inSet
        exact notDue (circles inSet).1.1

/-- An expired request is handled completely when its chains of reports end: each of its packets is
reported once, and it is no longer pending.  When it belongs to a circular set, handling it never
returns. -/
theorem expired_request_handled {depth : Nat} {req : ArpReq} (moment : Moment net depth sr)
    (pending : req ∈ sr.requests) (expired : req.Expired sr.now) :
    (Answerable net sr req.ip →
      ∃ done, Returns (fun depth => srArpcacheHandleArpreq net depth req.id sr) done ∧
        (∀ about, reported req.id about done =
          reported req.id about sr + (req.packets.map fun packet => packet.buf).count about) ∧
        req.id ∉ done.requests.map fun other => other.id) ∧
    ∀ ips : IpAddr → Prop, ips req.ip → Circular net ips sr →
      ∀ depth done, srArpcacheHandleArpreq net depth req.id sr ≠ .ok done := by
  constructor
  · exact expired_request_reported moment pending expired
  · intro ips inSet circular depth done returned
    have endless : Endless net ips sr := ⟨moment.inv, circular⟩
    exact (handleArpreq_endless depth endless returned).1 req pending rfl inSet

/-- The frame arrives, and then nobody answers the ARP requests. -/
def unanswered (source dest : IpAddr) : List Event :=
  [.frame (ipFrame 64 17 source dest (List.replicate 8 1)), .clock 7, .sweep, .clock 9, .sweep,
    .clock 11, .sweep, .clock 13, .sweep, .clock 15]

/-- A packet from one application server to the other, which is not there, is reported once. -/
theorem expired_request_handled_once : ∃ sr req packet done,
    Run (step labNetwork 4) anyStep (srArpcacheInit 5) (unanswered 0xC0A80202 0xAC40030A) sr ∧
      sr.requests = [req] ∧ req.packets = [packet] ∧ req.Expired sr.now ∧
      Returns (fun depth => srArpcacheHandleArpreq labNetwork depth req.id sr) done ∧
      reported req.id packet.buf done = reported req.id packet.buf sr + 1 ∧
      req.id ∉ done.requests.map fun other => other.id := by
  have reached : ∃ sr,
      Run (step labNetwork 4) anyStep (srArpcacheInit 5) (unanswered 0xC0A80202 0xAC40030A) sr ∧
      ((∃ req ∈ sr.requests.head?, sr.requests = [req] ∧ req.ip = 0xAC40030A ∧
        req.Due sr.now ∧ req.Failed ∧ ∃ packet ∈ req.packets.head?, req.packets = [packet] ∧
          14 + icmpDataSize ≤ packet.buf.length ∧
          (srFindLPMentry labNetwork.routingTable (ipSrc packet.buf)).any
            fun rtentry => rtentry.gw ≠ 0xAC40030A)) :=
    exec_reaches _ (by decide +kernel)
  obtain ⟨sr, run, req, _, only, isIp, due, failed, packet, _, alone, long, routed⟩ := reached
  obtain ⟨rtentry, route, otherGateway⟩ := (Option.any_eq_true _ _).mp routed
  have answerable : Answerable labNetwork sr req.ip := by
    rw [isIp]
    apply answerable_of_apart (.of_check (by decide))
    · exact Option.isSome_iff_exists.mp (by decide +kernel)
    · intro other pending _
      rw [only] at pending
      obtain rfl := List.mem_singleton.mp pending
      refine ⟨isIp, ?_⟩
      intro waiting waits
      rw [alone] at waits
      obtain rfl := List.mem_singleton.mp waits
      exact ⟨long, rtentry, route, of_decide_eq_true otherGateway⟩
  have pending : req ∈ sr.requests := by
    rw [only]
    exact List.mem_singleton.mpr rfl
  obtain ⟨done, returns, counted, gone⟩ :=
    (expired_request_handled (.of_run run) pending ⟨due, failed⟩).1 answerable
  refine ⟨sr, req, packet, done, run, only, alone, ⟨due, failed⟩, returns, ?_, gone⟩
  have once := counted packet.buf
  rw [alone] at once
  simpa using once

/-- A host sends a packet to a neighbour through the router and then leaves.  The report about the
packet is queued on the request that makes it, and handling that request never returns. -/
theorem expiry_never_returns : ∃ sr req,
    Run (step labNetwork 4) anyStep (srArpcacheInit 5) (unanswered 0xAC40030A 0xAC40034D) sr ∧
      req ∈ sr.requests ∧ req.Expired sr.now ∧
      ∀ depth done, srArpcacheHandleArpreq labNetwork depth req.id sr ≠ .ok done := by
  have reached : ∃ sr,
      Run (step labNetwork 4) anyStep (srArpcacheInit 5) (unanswered 0xAC40030A 0xAC40034D) sr ∧
      ∃ req ∈ sr.requests, req.ip = 0xAC40030A ∧ (req.Due sr.now ∧ req.Failed) ∧
        ∃ packet ∈ req.packets,
          ((srFindLPMentry labNetwork.routingTable (ipSrc packet.buf)).any fun rtentry =>
            srArpcacheLookup sr rtentry.gw = none ∧ rtentry.gw = 0xAC40030A) = true :=
    exec_reaches _ (by decide +kernel)
  obtain ⟨sr, run, req, pending, isIp, expired, packet, waits, routed⟩ := reached
  obtain ⟨rtentry, route, lands⟩ := (Option.any_eq_true _ _).mp routed
  obtain ⟨unknown, isGateway⟩ := of_decide_eq_true lands
  have endless : Endless labNetwork (fun ip => ip = 0xAC40030A) sr := by
    refine ⟨(Moment.of_run run).inv, ?_⟩
    rintro ip rfl
    exact ⟨req, pending, isIp, expired, packet, waits, rtentry, route, unknown, isGateway⟩
  refine ⟨sr, req, run, pending, expired, ?_⟩
  intro depth done returned
  exact (handleArpreq_endless depth endless returned).1 req pending rfl isIp

end EE323.Router

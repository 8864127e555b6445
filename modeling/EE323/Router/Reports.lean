/-
Module: EE323.Router.Reports
Purpose: The packets that a request reports when it expires.  A report is a host unreachable message
  to the source of a packet; when it has to be queued on a request that has expired too, that request
  reports its own packets and the message itself.
Main exports: ArpReq.Expired, Routable, Lands, Reports, Below, Within, MayHandle, answerPacket_eq
-/
import EE323.Router.Waiting

namespace EE323.Router

open EE323.Lib

/-- The request was sent five times, the last time more than a second ago. -/
def ArpReq.Expired (req : ArpReq) (now : Nat) : Prop := req.Due now ∧ req.Failed

/-- Some route leads to the address. -/
def Routable (net : Network) (ip : IpAddr) : Prop :=
  ∃ rtentry, srFindLPMentry net.routingTable ip = some rtentry

/-- Every interface that the routing table uses exists, which `sr_verify_routing_table` checks. -/
def Verified (net : Network) : Prop :=
  ∀ route ∈ net.routingTable, ∃ ifc, srGetInterface net.ifList route.interface = some ifc

theorem Verified.of_check {net : Network} (checked : srVerifyRoutingTable net = 0) :
    Verified net := by
  unfold srVerifyRoutingTable at checked
  split at checked
  · exact absurd checked (by decide)
  · intro route member
    have noneMissing := List.length_eq_zero_iff.mp checked
    by_contra missing
    have isMissing : ∀ ifc ∈ net.ifList, ifc.name ≠ route.interface := by
      intro ifc isInterface sameName
      apply missing
      cases found : srGetInterface net.ifList route.interface with
      | some other => exact ⟨other, rfl⟩
      | none =>
          have notFound := List.find?_eq_none.mp found ifc isInterface
          exact absurd (by simpa using sameName) notFound
    have listed : route ∈ net.routingTable.filter fun route =>
        ∀ ifc ∈ net.ifList, ifc.name ≠ route.interface :=
      List.mem_filter.mpr ⟨member, decide_eq_true isMissing⟩
    rw [noneMissing] at listed
    cases listed

variable {net : Network}

theorem Routable.leads {ip : IpAddr} (verified : Verified net) (routable : Routable net ip) :
    ∃ rtentry ifc, Leads net ip rtentry ifc := by
  obtain ⟨rtentry, found⟩ := routable
  obtain ⟨ifc, isInterface⟩ := verified rtentry (srFindLPMentry_mem found).1
  exact ⟨rtentry, ifc, found, isInterface⟩

/-- A message to the address has to be queued on a request that has expired. -/
def Lands (net : Network) (sr : Instance) (dest : IpAddr) (req : ArpReq) : Prop :=
  ∃ rtentry, srFindLPMentry net.routingTable dest = some rtentry ∧
    srArpcacheLookup sr rtentry.gw = none ∧ req ∈ sr.requests ∧ req.ip = rtentry.gw ∧
    req.Expired sr.now

/-- The packets that are reported, with the address of the request that reports them, when the
expired requests among the roots are handled. -/
inductive Reports (net : Network) (sr : Instance) (root : IpAddr → Prop) :
    IpAddr → List Byte → Prop where
  | root {req : ArpReq} {packet : Packet} (pending : req ∈ sr.requests) (isRoot : root req.ip)
      (expired : req.Expired sr.now) (waits : packet ∈ req.packets) :
      Reports net sr root req.ip packet.buf
  | waiting {ip : IpAddr} {buf : List Byte} {req : ArpReq} {packet : Packet}
      (before : Reports net sr root ip buf) (lands : Lands net sr (ipSrc buf) req)
      (waits : packet ∈ req.packets) : Reports net sr root req.ip packet.buf
  | message {ip : IpAddr} {buf : List Byte} {req : ArpReq} {own other : Route}
      {ownIfc otherIfc : Interface} (before : Reports net sr root ip buf)
      (lands : Lands net sr (ipSrc buf) req) (leadsOwn : Leads net ip own ownIfc)
      (leadsOther : Leads net (ipSrc buf) other otherIfc) :
      Reports net sr root req.ip (hostUnreachable ownIfc.ip otherIfc.addr buf)

/-- The lookups for every report hit. -/
def ReportsHit (net : Network) (sr : Instance) (root : IpAddr → Prop) : Prop :=
  ∀ ip buf, Reports net sr root ip buf → Routable net ip ∧ Routable net (ipSrc buf)

/-- Nothing is reported when no request has expired. -/
theorem reportsHit_of_not_expired {sr : Instance} {root : IpAddr → Prop}
    (fresh : ∀ req ∈ sr.requests, ¬req.Expired sr.now) : ReportsHit net sr root := by
  intro ip buf reports
  exfalso
  cases reports with
  | root pending _ expired _ => exact fresh _ pending expired
  | waiting _ lands _ =>
      obtain ⟨_, _, _, pending, _, expired⟩ := lands
      exact fresh _ pending expired
  | message _ lands _ _ =>
      obtain ⟨_, _, _, pending, _, expired⟩ := lands
      exact fresh _ pending expired

/-- A report of the second request is queued on the first. -/
def Below (net : Network) (sr : Instance) (root : IpAddr → Prop) (below above : IpAddr) : Prop :=
  ∃ buf req, Reports net sr root above buf ∧ Lands net sr (ipSrc buf) req ∧ req.ip = below

/-! ### The states while expired requests are handled -/

/-- What handling expired requests keeps of the state that it starts in: the cache, the clock, and
of every request that is still expired the packets, to which only reported messages are added. -/
structure Within (net : Network) (start : Instance) (root : IpAddr → Prop) (sr : Instance) :
    Prop where
  inv : Inv (RoutedVia net) (FromInterface net) sr
  entries : sr.entries = start.entries
  now : sr.now = start.now
  expired : ∀ req ∈ sr.requests, req.Expired start.now → ∃ first ∈ start.requests,
    first.ip = req.ip ∧ first.Expired start.now ∧
      ∀ packet ∈ req.packets, packet ∈ first.packets ∨ Reports net start root req.ip packet.buf

variable {start sr next : Instance} {root : IpAddr → Prop}

theorem Within.refl (inv : Inv (RoutedVia net) (FromInterface net) start) :
    Within net start root start where
  inv := inv
  entries := rfl
  now := rfl
  expired := fun req pending expired => ⟨req, pending, rfl, expired, fun _ waits => .inl waits⟩

theorem srArpcacheLookup_congr (same : sr.entries = start.entries) (ip : IpAddr) :
    srArpcacheLookup sr ip = srArpcacheLookup start ip := by
  unfold srArpcacheLookup
  rw [same]

/-- The expired requests are among those before, with the same packets. -/
theorem Within.of_subset (within : Within net start root sr)
    (inv : Inv (RoutedVia net) (FromInterface net) next) (entries : next.entries = sr.entries)
    (now : next.now = sr.now)
    (fewer : ∀ req ∈ next.requests, req.Expired start.now → req ∈ sr.requests) :
    Within net start root next where
  inv := inv
  entries := entries.trans within.entries
  now := now.trans within.now
  expired := fun req pending expired => within.expired req (fewer req pending expired) expired

/-- The packets of an expired request are reported when the request is a root, or when a report is
queued on it. -/
theorem Within.ready (within : Within net start root sr) {req : ArpReq}
    (pending : req ∈ sr.requests) (expired : req.Expired start.now)
    (handled : root req.ip ∨ ∃ ip buf rtentry, Reports net start root ip buf ∧
      srFindLPMentry net.routingTable (ipSrc buf) = some rtentry ∧
      srArpcacheLookup start rtentry.gw = none ∧ rtentry.gw = req.ip) :
    ∀ packet ∈ req.packets, Reports net start root req.ip packet.buf := by
  intro packet waits
  obtain ⟨first, firstPending, sameIp, firstExpired, packets⟩ := within.expired req pending expired
  rcases packets packet waits with original | reported
  · rw [← sameIp] at handled ⊢
    rcases handled with isRoot | ⟨ip, buf, rtentry, before, route, unknown, gateway⟩
    · exact .root firstPending isRoot firstExpired original
    · exact .waiting before ⟨rtentry, route, unknown, firstPending, gateway.symm, firstExpired⟩
        original
  · exact reported

theorem srArpcacheQueuereq_entries (ip : IpAddr) (packet : Packet) (sr : Instance) :
    (srArpcacheQueuereq ip packet sr).2.entries = sr.entries ∧
      (srArpcacheQueuereq ip packet sr).2.now = sr.now ∧
      (srArpcacheQueuereq ip packet sr).2.handed = sr.handed ∧
      (srArpcacheQueuereq ip packet sr).2.queued = sr.queued ++ [packet] := by
  unfold srArpcacheQueuereq
  dsimp only
  split
  · exact ⟨rfl, rfl, rfl, rfl⟩
  · exact ⟨rfl, rfl, rfl, rfl⟩

/-- Queueing a packet leaves every request as it was, but for the one with the address, which gets
the packet in front, and may be new. -/
theorem mem_srArpcacheQueuereq {ip : IpAddr} {packet : Packet} {req : ArpReq}
    (inv : Inv (RoutedVia net) (FromInterface net) sr)
    (pending : req ∈ (srArpcacheQueuereq ip packet sr).2.requests) :
    (req.ip ≠ ip ∧ req ∈ sr.requests) ∨
      (req.ip = ip ∧ ∃ before ∈ sr.requests,
        req = { before with packets := packet :: before.packets }) ∨
      req = ⟨sr.nextReq, ip, 0, 0, [packet]⟩ := by
  unfold srArpcacheQueuereq at pending
  dsimp only at pending
  split at pending
  · rename_i found search
    have foundIp : found.ip = ip := by simpa using List.find?_some search
    have foundPending := List.mem_of_find?_eq_some search
    obtain ⟨before, known, rfl⟩ := List.mem_map.mp pending
    split
    · rename_i sameId
      have same : before = found :=
        inv.same known foundPending sameId
      exact .inr (.inl ⟨by rw [same]; exact foundIp, before, known, rfl⟩)
    · rename_i otherId
      refine .inl ⟨?_, known⟩
      intro sameIp
      exact otherId (by rw [inv.unique foundPending known (sameIp.trans foundIp.symm)])
  · rename_i search
    rcases List.mem_cons.mp pending with rfl | known
    · exact .inr (.inr rfl)
    · refine .inl ⟨?_, known⟩
      intro sameIp
      exact absurd (by simpa using sameIp) (List.find?_eq_none.mp search req known)

/-- Queueing a packet that is routed through the address, and reported when the request for the
address has expired. -/
theorem Within.queue (within : Within net start root sr) {ip : IpAddr} {packet : Packet}
    (routed : RoutedVia net ip packet)
    (reported : ∀ req ∈ start.requests, req.ip = ip → req.Expired start.now →
      Reports net start root ip packet.buf) :
    Within net start root (srArpcacheQueuereq ip packet sr).2 where
  inv := within.inv.queue routed
  entries := (srArpcacheQueuereq_entries _ _ _).1.trans within.entries
  now := (srArpcacheQueuereq_entries _ _ _).2.1.trans within.now
  expired := by
    intro req pending expired
    rcases mem_srArpcacheQueuereq within.inv pending with
      ⟨_, known⟩ | ⟨isTarget, before, known, rfl⟩ | rfl
    · exact within.expired req known expired
    · obtain ⟨first, firstPending, sameIp, firstExpired, packets⟩ :=
        within.expired before known expired
      refine ⟨first, firstPending, sameIp, firstExpired, ?_⟩
      intro other waits
      rcases List.mem_cons.mp waits with rfl | earlier
      · right
        rw [isTarget]
        exact reported first firstPending (sameIp.trans isTarget) firstExpired
      · exact packets other earlier
    · exact absurd expired.2 (by simp [ArpReq.Failed])

/-- The lookups for a report hit, and what is left is to send or queue the message. -/
theorem answerPacket_eq {handle : Nat → Instance → Except Fault Instance} {req : ArpReq}
    {walk : Packet} {own other : Route} {ownIfc otherIfc : Interface}
    (leadsOwn : Leads net req.ip own ownIfc)
    (leadsOther : Leads net (ipSrc walk.buf) other otherIfc) :
    answerPacket handle net req walk sr =
      if walk.buf.length < 14 + icmpDataSize then .error .overread
      else sendOrQueue handle net id other
        (hostUnreachable ownIfc.ip otherIfc.addr walk.buf) (.hostUnreachable req.id walk.buf) sr := by
  unfold answerPacket
  simp only [routeTo, interfaceOf, leadsOwn.1, leadsOwn.2, leadsOther.1, leadsOther.2, deref, bind,
    Except.bind]

/-- A pending request that has not failed can always be sent again. -/
theorem sendArpRequest_returns {req : ArpReq} (inv : Inv (RoutedVia net) (FromInterface net) sr)
    (pending : req ∈ sr.requests) : ∃ next, sendArpRequest net req sr = .ok next := by
  obtain ⟨head, rest, packets⟩ := List.exists_cons_of_ne_nil (inv.holds req pending)
  have waits : head ∈ req.packets := by rw [packets]; exact List.mem_cons_self
  obtain ⟨rtentry, ifc, ⟨route, isInterface⟩, _, name, _⟩ := inv.queued req pending head waits
  rw [name] at isInterface
  unfold sendArpRequest
  simp only [packets, List.head?_cons, deref, interfaceOf, isInterface, routeTo, route, bind,
    Except.bind]
  exact ⟨_, rfl⟩

/-- The requests that are expired after one has been sent again were pending before, and the one
sent is not among them. -/
theorem Within.resent (within : Within net start root sr) {req : ArpReq}
    (returned : sendArpRequest net req sr = .ok next) :
    ∀ later ∈ next.requests, later.Expired start.now → later ∈ sr.requests ∧ later.id ≠ req.id := by
  obtain ⟨head, ifc, rtentry, _, _, _, rfl⟩ := sendArpRequest_eq returned
  intro later pending expired
  obtain ⟨before, known, rfl⟩ := List.mem_map.mp pending
  rw [srSendPacket_requests] at known
  split at expired
  · -- the request was sent just now
    have due : sr.now + 1 < start.now := expired.1
    rw [within.now] at due
    omega
  · rename_i otherId
    rw [if_neg otherId]
    exact ⟨known, otherId⟩

/-- Sending a request again leaves the other requests alone, and it is not due any more. -/
theorem Within.request (within : Within net start root sr) {req : ArpReq}
    (pending : req ∈ sr.requests) (returned : sendArpRequest net req sr = .ok next) :
    Within net start root next := by
  have inv := sendArpRequest_inv (nextHop net) within.inv pending returned
  have resent := within.resent returned
  obtain ⟨head, ifc, rtentry, _, _, _, rfl⟩ := sendArpRequest_eq returned
  apply within.of_subset inv
  · exact srSendPacket_entries _ _
  · exact srSendPacket_now _ _
  · exact fun other otherPending expired => (resent other otherPending expired).1

/-! ### Messages -/

/-- The packets of the request behind a pointer are reported, if it has expired. -/
def MayHandle (net : Network) (start : Instance) (root : IpAddr → Prop) (id : Nat)
    (sr : Instance) : Prop :=
  ∀ req ∈ sr.requests, req.id = id → req.Expired start.now →
    ∀ packet ∈ req.packets, Reports net start root req.ip packet.buf

theorem Within.send (within : Within net start root sr) {frame : Packet}
    (own : FromInterface net frame) : Within net start root (srSendPacket net frame sr) := by
  apply within.of_subset (within.inv.send own)
  · exact srSendPacket_entries _ _
  · exact srSendPacket_now _ _
  · intro req pending _
    rw [srSendPacket_requests] at pending
    exact pending

/-- The message about a reported packet may be sent and queued. -/
theorem report_passes {other : Route} {otherIfc : Interface} {buf : List Byte} (ipSource : IpAddr)
    (req : Nat) (about : List Byte) (leadsOther : Leads net (ipSrc buf) other otherIfc) :
    Passes (RoutedVia net) (FromInterface net) id other
      (hostUnreachable ipSource otherIfc.addr buf) (.hostUnreachable req about) :=
  (nextHop net).error 3 1 icmpDataSize _ (.inr ⟨_, _, rfl⟩) (Nat.le_refl _) ipSource leadsOther

/-- Queueing the message about a reported packet. -/
theorem Within.queueReport (within : Within net start root sr) {ip : IpAddr} {buf : List Byte}
    {own other : Route} {ownIfc otherIfc : Interface} {message : Packet}
    (reports : Reports net start root ip buf) (leadsOwn : Leads net ip own ownIfc)
    (leadsOther : Leads net (ipSrc buf) other otherIfc)
    (unknown : srArpcacheLookup start other.gw = none) (routed : RoutedVia net other.gw message)
    (isMessage : message.buf = hostUnreachable ownIfc.ip otherIfc.addr buf) :
    Within net start root (srArpcacheQueuereq other.gw message sr).2 := by
  apply within.queue routed
  intro req pending sameIp expired
  rw [isMessage, ← sameIp]
  exact .message reports ⟨other, leadsOther.1, unknown, pending, sameIp, expired⟩ leadsOwn
    leadsOther

/-- The request that a report is queued on may be handled. -/
theorem mayHandle_queueReport {ip : IpAddr} {buf : List Byte} {other : Route}
    {otherIfc : Interface} {message : Packet} (reports : Reports net start root ip buf)
    (leadsOther : Leads net (ipSrc buf) other otherIfc)
    (unknown : srArpcacheLookup start other.gw = none) (within : Within net start root sr)
    (after : Within net start root (srArpcacheQueuereq other.gw message sr).2) :
    MayHandle net start root (srArpcacheQueuereq other.gw message sr).1
      (srArpcacheQueuereq other.gw message sr).2 := by
  intro req pending isTarget expired
  have sameIp := (queued_in_front within.inv.allocated within.inv.identified pending isTarget).1
  exact after.ready pending expired
    (.inr ⟨ip, buf, other, reports, leadsOther.1, unknown, sameIp.symm⟩)

end EE323.Router

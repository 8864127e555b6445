/-
Module: EE323.Router.ArpCache
Purpose: The state of the router and the ARP cache of `sr_arpcache.c`: lookups, the request queue,
  the requests that are sent again, answered with errors or destroyed, and the sweep.  A request is
  known by the number that it got when it was allocated, so a pointer that outlives its request is a
  number that no pending request has.  The clock does not move while an event is handled.
Main exports: Network, Origin, Packet, ArpReq, Instance, Fault, srSendPacket, srArpcacheLookup,
  srArpcacheQueuereq, srArpcacheInsert, srArpreqDestroy, srArpcacheHandleArpreq, srArpcacheTimeout
-/
import EE323.Lib.Ensures
import EE323.Router.Frame

namespace EE323.Router

open EE323.Lib

/-- The parts of `struct sr_instance` that are set up once. -/
structure Network where
  ifList : List Interface
  routingTable : List Route

/-- `sr_verify_routing_table`: 999 without interfaces or routes, else the number of routes whose
interface does not exist. -/
def srVerifyRoutingTable (net : Network) : Nat :=
  if net.ifList = [] ∨ net.routingTable = [] then 999
  else (net.routingTable.filter fun route =>
    ∀ ifc ∈ net.ifList, ifc.name ≠ route.interface).length

/-- What made the router produce a frame.  A host unreachable message names the request that reports
a packet, and an ARP request the request that it is sent for and the time. -/
inductive Origin where
  | forwarded
  | echoReply
  | icmpError
  | hostUnreachable (req : Nat) (about : List Byte)
  | arpRequest (req sent : Nat)
  | arpReply
deriving DecidableEq, Repr

/-- `struct sr_packet`, a frame and the interface that it leaves by.  The origin is not in the
source. -/
structure Packet where
  buf : List Byte
  iface : String
  origin : Origin
deriving DecidableEq, Repr

/-- `struct sr_arpentry`. -/
structure ArpEntry where
  mac : Mac
  ip : IpAddr
  added : Nat
  valid : Bool
deriving DecidableEq, Repr

/-- `struct sr_arpreq`.  The number stands for its address. -/
structure ArpReq where
  id : Nat
  ip : IpAddr
  sent : Nat
  timesSent : Nat
  packets : List Packet
deriving DecidableEq, Repr

/-- The state of the router.  `handed` lists the frames passed to `sr_send_packet`, `written` those
that it wrote to the server, and `queued` the packets that were put on a request. -/
structure Instance where
  entries : List ArpEntry
  requests : List ArpReq
  nextReq : Nat
  now : Nat
  handed : List Packet
  written : List Packet
  queued : List Packet
deriving DecidableEq, Repr

/-- What stops a handler. -/
inductive Fault where
  | nullRoute
  | nullInterface
  | nullPacket
  | useAfterFree
  | overread
  | stackOverflow
deriving DecidableEq, Repr

/-- Follow a pointer that may be null. -/
def deref {α : Type} (fault : Fault) : Option α → Except Fault α
  | some target => .ok target
  | none => .error fault

@[simp] theorem deref_eq_ok {α : Type} {fault : Fault} {pointer : Option α} {target : α} :
    deref fault pointer = .ok target ↔ pointer = some target := by
  cases pointer <;> simp [deref]

/-- `rtentry->interface` and `sr_get_interface`, without a check for null. -/
def interfaceOf (net : Network) (name : String) : Except Fault Interface :=
  deref .nullInterface (srGetInterface net.ifList name)

/-- `sr_findLPMentry` where the result is used without a check for null. -/
def routeTo (net : Network) (ip : IpAddr) : Except Fault Route :=
  deref .nullRoute (srFindLPMentry net.routingTable ip)

/-- `sr_ether_addrs_match_interface`. -/
def srEtherAddrsMatchInterface (net : Network) (packet : Packet) : Bool :=
  match srGetInterface net.ifList packet.iface with
  | some ifc => etherShost packet.buf = ifc.addr
  | none => false

/-- `sr_send_packet`. -/
def srSendPacket (net : Network) (packet : Packet) (sr : Instance) : Instance :=
  let handed := sr.handed ++ [packet]
  if packet.buf.length < 14 then { sr with handed }
  else if srEtherAddrsMatchInterface net packet then
    { sr with handed, written := sr.written ++ [packet] }
  else { sr with handed }

section SendPacket

variable {net : Network} (packet : Packet) (sr : Instance)

/-- Whatever it decides, the call changes nothing but the two lists of packets. -/
theorem srSendPacket_eq : ∃ written, srSendPacket net packet sr =
    { sr with handed := sr.handed ++ [packet], written } := by
  unfold srSendPacket
  dsimp only
  split
  · exact ⟨_, rfl⟩
  · split <;> exact ⟨_, rfl⟩

@[simp] theorem srSendPacket_requests :
    (srSendPacket net packet sr).requests = sr.requests := by
  obtain ⟨_, same⟩ := @srSendPacket_eq net packet sr
  rw [same]

@[simp] theorem srSendPacket_nextReq :
    (srSendPacket net packet sr).nextReq = sr.nextReq := by
  obtain ⟨_, same⟩ := @srSendPacket_eq net packet sr
  rw [same]

@[simp] theorem srSendPacket_handed :
    (srSendPacket net packet sr).handed = sr.handed ++ [packet] := by
  obtain ⟨_, same⟩ := @srSendPacket_eq net packet sr
  rw [same]

@[simp] theorem srSendPacket_queued :
    (srSendPacket net packet sr).queued = sr.queued := by
  obtain ⟨_, same⟩ := @srSendPacket_eq net packet sr
  rw [same]

@[simp] theorem srSendPacket_now :
    (srSendPacket net packet sr).now = sr.now := by
  obtain ⟨_, same⟩ := @srSendPacket_eq net packet sr
  rw [same]

@[simp] theorem srSendPacket_entries :
    (srSendPacket net packet sr).entries = sr.entries := by
  obtain ⟨_, same⟩ := @srSendPacket_eq net packet sr
  rw [same]

end SendPacket

/-- `sr_arpcache_lookup`: the last valid entry for the address. -/
def srArpcacheLookup (sr : Instance) (ip : IpAddr) : Option ArpEntry :=
  sr.entries.reverse.find? fun entry => entry.valid ∧ entry.ip = ip

/-- The pending request behind a pointer. -/
def findReq (sr : Instance) (id : Nat) : Option ArpReq :=
  sr.requests.find? fun req => req.id = id

/-- Update the pending request behind a pointer. -/
def updateReq (id : Nat) (change : ArpReq → ArpReq) (sr : Instance) : Instance :=
  { sr with requests := sr.requests.map fun req => if req.id = id then change req else req }

/-- `sr_arpcache_queuereq`, with the pointer that it returns. -/
def srArpcacheQueuereq (ip : IpAddr) (packet : Packet) (sr : Instance) : Nat × Instance :=
  let sr := { sr with queued := sr.queued ++ [packet] }
  match sr.requests.find? fun req => req.ip = ip with
  | some found =>
      (found.id, updateReq found.id (fun req => { req with packets := packet :: req.packets }) sr)
  | none =>
      (sr.nextReq,
        { sr with
          requests := ⟨sr.nextReq, ip, 0, 0, [packet]⟩ :: sr.requests
          nextReq := sr.nextReq + 1 })

/-- Fill the first entry that is not valid, if there is one. -/
def insertEntry (mac : Mac) (ip : IpAddr) (now : Nat) : List ArpEntry → List ArpEntry
  | [] => []
  | entry :: rest =>
      if entry.valid then entry :: insertEntry mac ip now rest
      else ⟨mac, ip, now, true⟩ :: rest

/-- `sr_arpcache_insert`, with the request that it takes off the queue. -/
def srArpcacheInsert (mac : Mac) (ip : IpAddr) (sr : Instance) : Option ArpReq × Instance :=
  let req := sr.requests.find? fun req => req.ip = ip
  (req,
    { sr with
      requests := sr.requests.eraseP fun req => req.ip = ip
      entries := insertEntry mac ip sr.now sr.entries })

/-- The search of `sr_arpreq_destroy`: the request is taken off the queue if it is there. -/
def unlinkReq (id : Nat) (sr : Instance) : Instance :=
  { sr with requests := sr.requests.eraseP fun req => req.id = id }

/-- `sr_arpreq_destroy` for a pending request. -/
def srArpreqDestroy (id : Nat) (sr : Instance) : Except Fault Instance :=
  match findReq sr id with
  | some _ => .ok { sr with requests := sr.requests.eraseP fun req => req.id = id }
  | none => .error .useAfterFree

/-- The end of every path that sends an IP packet: send it when the gateway's address is known, and
otherwise queue it on the request for the gateway and handle that request.  `edit` is what happens
to a packet that is sent at once. -/
def sendOrQueue (handle : Nat → Instance → Except Fault Instance) (net : Network)
    (edit : List Byte → List Byte) (rtentry : Route) (buf : List Byte) (origin : Origin)
    (sr : Instance) : Except Fault Instance :=
  match srArpcacheLookup sr rtentry.gw with
  | some arpentry =>
      .ok (srSendPacket net ⟨edit (setDhost buf arpentry.mac), rtentry.interface, origin⟩ sr)
  | none =>
      let (arpreq, sr) := srArpcacheQueuereq rtentry.gw ⟨buf, rtentry.interface, origin⟩ sr
      handle arpreq sr

/-- The host unreachable message about one packet of a request. -/
def answerPacket (handle : Nat → Instance → Except Fault Instance) (net : Network) (req : ArpReq)
    (walk : Packet) (sr : Instance) : Except Fault Instance := do
  let rtentry ← routeTo net req.ip
  let ifc ← interfaceOf net rtentry.interface
  let ipSource := ifc.ip
  let rtentry ← routeTo net (ipSrc walk.buf)
  let ifc ← interfaceOf net rtentry.interface
  if walk.buf.length < 14 + icmpDataSize then
    .error .overread
  else
    sendOrQueue handle net id rtentry (hostUnreachable ipSource ifc.addr walk.buf)
      (.hostUnreachable req.id walk.buf) sr

/-- The loop over the packets of an expired request.  Every round reads the request, whose address
never changes, and the link of the packet just answered. -/
def answerPackets (handle : Nat → Instance → Except Fault Instance) (net : Network)
    (req : ArpReq) : List Packet → Instance → Except Fault Instance
  | [], sr => .ok sr
  | walk :: rest, sr => do
      let _ ← deref .useAfterFree (findReq sr req.id)
      let sr ← answerPacket handle net req walk sr
      answerPackets handle net req rest sr

/-- The ARP request for the destination of a packet, from the interface that the packet
leaves by. -/
def arpRequestFor (ifc : Interface) (packet : Packet) : List Byte :=
  arpFrame broadcast ifc.addr arpOpRequest (etherShost packet.buf) ifc.ip zeroMac (ipDst packet.buf)

/-- The fields of a request that was just sent. -/
def ArpReq.resent (now : Nat) (req : ArpReq) : ArpReq :=
  { req with sent := now, timesSent := req.timesSent + 1 }

/-- Send the ARP request of a pending request again. -/
def sendArpRequest (net : Network) (req : ArpReq) (sr : Instance) : Except Fault Instance := do
  let head ← deref .nullPacket req.packets.head?
  let ifc ← interfaceOf net head.iface
  let rtentry ← routeTo net (ipDst head.buf)
  let sr :=
    srSendPacket net ⟨arpRequestFor ifc head, rtentry.interface, .arpRequest req.id sr.now⟩ sr
  .ok (updateReq req.id (ArpReq.resent sr.now) sr)

/-- More than a second has passed since the request was last sent. -/
def ArpReq.Due (req : ArpReq) (now : Nat) : Prop := req.sent + 1 < now

/-- Five requests were sent without an answer. -/
def ArpReq.Failed (req : ArpReq) : Prop := 5 ≤ req.timesSent

instance (req : ArpReq) (now : Nat) : Decidable (req.Due now) :=
  inferInstanceAs (Decidable (_ < _))

instance (req : ArpReq) : Decidable req.Failed := inferInstanceAs (Decidable (_ ≤ _))

/-- `sr_arpcache_handle_arpreq`.  It calls itself through the packets that it queues; the stack
holds `depth` calls. -/
def srArpcacheHandleArpreq (net : Network) : Nat → Nat → Instance → Except Fault Instance
  | 0, _, _ => .error .stackOverflow
  | depth + 1, id, sr => do
      let req ← deref .useAfterFree (findReq sr id)
      if req.Due sr.now then
        if req.Failed then do
          let sr ← answerPackets (srArpcacheHandleArpreq net depth) net req req.packets sr
          srArpreqDestroy id sr
        else sendArpRequest net req sr
      else .ok sr

/-- `req->next`. -/
def nextReq (id : Nat) (requests : List ArpReq) : Option Nat :=
  ((requests.dropWhile fun req => req.id ≠ id).drop 1).head?.map fun req => req.id

/-- The loop of `sr_arpcache_sweepreqs`.  New requests are put in front, so the pointer only moves
along the requests that were pending when the sweep began. -/
def sweepFrom (net : Network) (depth : Nat) :
    List Nat → Option Nat → Instance → Except Fault Instance
  | [], _, sr => .ok sr
  | id :: rest, next, sr =>
      if next = some id then do
        let _ ← deref .useAfterFree (findReq sr id)
        let next := nextReq id sr.requests
        let sr ← srArpcacheHandleArpreq net depth id sr
        sweepFrom net depth rest next sr
      else sweepFrom net depth rest next sr

/-- `sr_arpcache_sweepreqs`. -/
def srArpcacheSweepreqs (net : Network) (depth : Nat) (sr : Instance) : Except Fault Instance :=
  let ids := sr.requests.map fun req => req.id
  sweepFrom net depth ids ids.head? sr

/-- `SR_ARPCACHE_TO`, in seconds. -/
def srArpcacheTo : Nat := 15

/-- The cache after the entries that are too old were marked. -/
def timedOut (sr : Instance) : Instance :=
  { sr with
    entries := sr.entries.map fun entry =>
      if entry.valid ∧ entry.added + srArpcacheTo < sr.now then { entry with valid := false }
      else entry }

/-- One round of `sr_arpcache_timeout`. -/
def srArpcacheTimeout (net : Network) (depth : Nat) (sr : Instance) : Except Fault Instance :=
  srArpcacheSweepreqs net depth (timedOut sr)

/-- `SR_ARPCACHE_SZ`. -/
def srArpcacheSz : Nat := 100

/-- `sr_arpcache_init`. -/
def srArpcacheInit (now : Nat) : Instance where
  entries := List.replicate srArpcacheSz ⟨zeroMac, 0, 0, false⟩
  requests := []
  nextReq := 0
  now := now
  handed := []
  written := []
  queued := []

end EE323.Router

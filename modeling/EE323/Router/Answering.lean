/-
Module: EE323.Router.Answering
Purpose: ARP requests for the router's own addresses, from the filter of `sr_vns_comm.c` to the
  reply.  The filter compares the target with the receiving interface, but the handler replies on the
  interface that the routing table names for the target, and follows a null route.
Main exports: srArpReqNotForUs, srReadFromServer, ArpRequestFor, RequestAnswered, arp_request_answered
-/
import EE323.Router.NextHop
import EE323.Router.Reports

namespace EE323.Router

open EE323.Lib

/-- `sr_arp_req_not_for_us`, with its assertion that the interface exists. -/
def srArpReqNotForUs (net : Network) (packet : List Byte) (interface : String) :
    Except Fault Bool :=
  if packet.length < 14 + 28 then .ok false
  else do
    let iface ← interfaceOf net interface
    .ok (etherType packet = ethertypeArp ∧ arOp packet = arpOpRequest ∧ arTip packet ≠ iface.ip)

/-- The case `VNSPACKET` of `sr_read_from_server`: a frame received on an interface. -/
def srReadFromServer (net : Network) (depth : Nat) (packet : List Byte) (interface : String)
    (sr : Instance) : Except Fault Instance := do
  let notForUs ← srArpReqNotForUs net packet interface
  if notForUs then .ok sr else srHandlepacket net depth packet sr

/-- The frame is an ARP request for the address. -/
structure ArpRequestFor (packet : List Byte) (ip : IpAddr) : Prop where
  long : 14 + 28 ≤ packet.length
  etherType : etherType packet = ethertypeArp
  isRequest : arOp packet = arpOpRequest
  target : arTip packet = ip

instance (packet : List Byte) (ip : IpAddr) : Decidable (ArpRequestFor packet ip) :=
  decidable_of_iff
    (14 + 28 ≤ packet.length ∧ etherType packet = ethertypeArp ∧ arOp packet = arpOpRequest ∧
      arTip packet = ip)
    ⟨fun ⟨long, etherType, isRequest, target⟩ => ⟨long, etherType, isRequest, target⟩,
      fun ⟨long, etherType, isRequest, target⟩ => ⟨long, etherType, isRequest, target⟩⟩

/-- The reply of an interface to a request for its address, unicast to the requester. -/
def arpReplyFrom (ifc : Interface) (packet : List Byte) : List Byte :=
  arpFrame (arSha packet) ifc.addr arpOpReply ifc.addr ifc.ip (arSha packet) (arSip packet)

/-- The router returns having emitted that reply on that interface, and nothing else has changed. -/
def RequestAnswered (ifc : Interface) (name : String) (packet : List Byte) (sr : Instance)
    (outcome : Except Fault Instance) : Prop :=
  outcome = .ok
    { sr with
      handed := sr.handed ++ [⟨arpReplyFrom ifc packet, name, .arpReply⟩]
      written := sr.written ++ [⟨arpReplyFrom ifc packet, name, .arpReply⟩] }

section Request

variable {net : Network} {packet : List Byte} {ifc : Interface} {name : String}

/-- A request for the address of the receiving interface passes the filter and reaches the ARP
branch. -/
theorem srReadFromServer_request {depth : Nat} {sr : Instance}
    (request : ArpRequestFor packet ifc.ip) (own : srGetInterface net.ifList name = some ifc) :
    srReadFromServer net depth packet name sr = handleArp net packet sr := by
  have long := request.long
  have notForUs : srArpReqNotForUs net packet name = .ok false := by
    unfold srArpReqNotForUs
    rw [if_neg (Nat.not_lt_of_le long)]
    simp [interfaceOf, own, deref, bind, Except.bind, request.target]
  have notIp : etherType packet ≠ ethertypeIp := by
    rw [request.etherType]
    decide
  unfold srReadFromServer
  rw [notForUs]
  show srHandlepacket net depth packet sr = _
  unfold srHandlepacket
  rw [if_neg (by omega), if_neg notIp, if_pos request.etherType]

/-- What the ARP branch does with a request, by the interface that the routing table names. -/
theorem handleArp_request {ip : IpAddr} {sr : Instance} (request : ArpRequestFor packet ip) :
    handleArp net packet sr =
      (routeTo net ip >>= fun rtentry => interfaceOf net rtentry.interface >>= fun ifc =>
        if ip ≠ ifc.ip then .ok sr
        else .ok (srSendPacket net ⟨arpReplyFrom ifc packet, rtentry.interface, .arpReply⟩ sr)) := by
  unfold handleArp
  rw [if_neg (Nat.not_lt_of_le request.long), request.target]
  refine bind_congr fun rtentry => bind_congr fun other => ?_
  by_cases differs : ip = other.ip
  · rw [if_neg (not_not.mpr differs), if_neg (not_not.mpr differs), if_pos request.isRequest]
    unfold arpReplyFrom
    rw [differs]
  · rw [if_pos differs, if_pos differs]

/-- The reply that an interface sends from its own address is written to the server. -/
theorem srSendPacket_arpReply {sr : Instance} (own : srGetInterface net.ifList name = some ifc) :
    srSendPacket net ⟨arpReplyFrom ifc packet, name, .arpReply⟩ sr =
      { sr with
        handed := sr.handed ++ [⟨arpReplyFrom ifc packet, name, .arpReply⟩]
        written := sr.written ++ [⟨arpReplyFrom ifc packet, name, .arpReply⟩] } := by
  have accepted : srEtherAddrsMatchInterface net
      ⟨arpReplyFrom ifc packet, name, .arpReply⟩ = true :=
    FromInterface.accepted ⟨ifc, own, etherShost_arpFrame _ _ _ _ _ _ _⟩
  have length : (arpReplyFrom ifc packet).length = 42 := length_arpFrame _ _ _ _ _ _ _ rfl
  unfold srSendPacket
  rw [if_neg (by dsimp only; omega), if_pos accepted]

/-- For every verified configuration, an ARP request for the address of the interface that it is
received on is answered there exactly when the routing table leads that address to that
interface. -/
theorem arp_request_answered {depth : Nat} {sr : Instance} (_ : srVerifyRoutingTable net = 0)
    (own : srGetInterface net.ifList name = some ifc) (request : ArpRequestFor packet ifc.ip) :
    RequestAnswered ifc name packet sr (srReadFromServer net depth packet name sr) ↔
      ∃ rtentry, srFindLPMentry net.routingTable ifc.ip = some rtentry ∧
        rtentry.interface = name := by
  rw [srReadFromServer_request request own, handleArp_request request]
  constructor
  · intro answered
    obtain ⟨rtentry, found, answered⟩ := bind_eq_ok.mp answered
    obtain ⟨other, _, answered⟩ := bind_eq_ok.mp answered
    refine ⟨rtentry, deref_eq_ok.mp found, ?_⟩
    split at answered
    · have same := congrArg Instance.handed (Except.ok.inj answered)
      simp at same
    · have same := congrArg Instance.handed (Except.ok.inj answered)
      rw [srSendPacket_handed] at same
      have sameFrame := List.append_cancel_left same
      exact congrArg Packet.iface (List.cons.inj sameFrame).1
  · rintro ⟨rtentry, found, rfl⟩
    unfold RequestAnswered
    simp only [routeTo, found, interfaceOf, own, deref, bind, Except.bind]
    rw [if_neg (not_not.mpr rfl), srSendPacket_arpReply own]

end Request

/-! ### In the lab and outside it -/

/-- A request from a neighbour of `eth1` for its address. -/
private def whoHasEth1 : List Byte :=
  arpFrame broadcast neighbourMac arpOpRequest neighbourMac 0xC0A80202 zeroMac 0xC0A80201

theorem arp_request_answered_lab :
    RequestAnswered ⟨"eth1", routerMac 1, 0xC0A80201⟩ "eth1" whoHasEth1 (srArpcacheInit 0)
      (srReadFromServer labNetwork 4 whoHasEth1 "eth1" (srArpcacheInit 0)) :=
  (arp_request_answered (by decide) (by decide) (by decide)).mpr
    ⟨⟨0xC0A80202, 0xC0A80202, 0xFFFFFF00, "eth1"⟩, by decide, rfl⟩

/-- The lab with the route to `eth3` only. -/
private def oneRoute : Network :=
  { labNetwork with routingTable := [⟨0x0A000164, 0x0A000164, 0xFFFFFF00, "eth3"⟩] }

/-- Without a route to the address of the receiving interface the router follows a null pointer. -/
theorem arp_request_unanswered : srVerifyRoutingTable oneRoute = 0 ∧
    srGetInterface oneRoute.ifList "eth1" = some ⟨"eth1", routerMac 1, 0xC0A80201⟩ ∧
    ArpRequestFor whoHasEth1 0xC0A80201 ∧
    srReadFromServer oneRoute 4 whoHasEth1 "eth1" (srArpcacheInit 0) = .error .nullRoute ∧
    ¬RequestAnswered ⟨"eth1", routerMac 1, 0xC0A80201⟩ "eth1" whoHasEth1 (srArpcacheInit 0)
      (srReadFromServer oneRoute 4 whoHasEth1 "eth1" (srArpcacheInit 0)) := by
  have crashes : srReadFromServer oneRoute 4 whoHasEth1 "eth1" (srArpcacheInit 0) =
      .error .nullRoute := by decide
  refine ⟨by decide, by decide, by decide, crashes, ?_⟩
  rw [crashes]
  unfold RequestAnswered
  simp

end EE323.Router

/-
Module: EE323.Router.Resolution
Purpose: The address that an ARP request asks for.  The router queues a packet for the gateway of its
  route and asks for the destination of the packet in front, so the answer releases the queue exactly
  when that destination is the gateway itself.
Main exports: AsksFor, Closes, asksFor_iff, resolution_closes
-/
import EE323.Router.Waiting

namespace EE323.Router

open EE323.Lib

variable {net : Network} {depth : Nat} {sr next : Instance} {req : ArpReq}

/-- The last frame handed over asks for the address, and names the router's own address as the one
to answer. -/
def AsksFor (sr : Instance) (asked own : IpAddr) : Prop :=
  ∃ frame, sr.handed.getLast? = some frame ∧ etherType frame.buf = ethertypeArp ∧
    arOp frame.buf = arpOpRequest ∧ arTip frame.buf = asked ∧ arSip frame.buf = own

/-- From here on, a reply from the owner of the address to the router's address sends all the
packets of the request and removes it, as long as it is pending. -/
def Closes (net : Network) (depth : Nat) (sr : Instance) (id : Nat) (asked own : IpAddr) : Prop :=
  ∀ later reply, Changes net (fun _ => True) sr later → IsArpReply reply asked own →
    ∀ req ∈ later.requests, req.id = id →
      ∃ done, react net depth later (.frame reply) = .ok done ∧
        done.handed = later.handed ++ req.packets.map (released (arSha reply)) ∧
        id ∉ done.requests.map fun req => req.id

/-- What the router asks for on behalf of a request. -/
theorem asksFor_iff {asked own : IpAddr} (returned : sendArpRequest net req sr = .ok next) :
    AsksFor next asked own ↔ ∃ head ifc, req.packets.head? = some head ∧
      srGetInterface net.ifList head.iface = some ifc ∧ ipDst head.buf = asked ∧ ifc.ip = own := by
  obtain ⟨head, ifc, rtentry, isHead, isInterface, _, rfl⟩ := sendArpRequest_eq returned
  have isArp : etherType (arpRequestFor ifc head) = ethertypeArp := etherType_arpFrame ..
  have isRequest : arOp (arpRequestFor ifc head) = arpOpRequest := arOp_arpFrame _ _ _ _ _ _ _ rfl
  have tip : arTip (arpRequestFor ifc head) = ipDst head.buf := arTip_arpFrame _ _ _ _ _ _ _ rfl
  have sip : arSip (arpRequestFor ifc head) = ifc.ip := arSip_arpFrame _ _ _ _ _ _ _ rfl
  have last : (updateReq req.id (ArpReq.resent sr.now) (srSendPacket net
      ⟨arpRequestFor ifc head, rtentry.interface, .arpRequest req.id sr.now⟩ sr)).handed.getLast? =
      some ⟨arpRequestFor ifc head, rtentry.interface, .arpRequest req.id sr.now⟩ := by
    unfold updateReq
    dsimp only
    rw [srSendPacket_handed, List.getLast?_concat]
  unfold AsksFor
  rw [last]
  constructor
  · rintro ⟨frame, isLast, _, _, tipAsked, sipOwn⟩
    cases isLast
    exact ⟨head, ifc, isHead, isInterface, tip.symm.trans tipAsked, sip.symm.trans sipOwn⟩
  · rintro ⟨other, otherIfc, isOther, otherInterface, dest, ip⟩
    rw [isHead] at isOther
    cases isOther
    rw [isInterface] at otherInterface
    cases otherInterface
    exact ⟨_, rfl, isArp, isRequest, tip.trans dest, sip.trans ip⟩

/-- A reply to an address that does not lead to its own interface has no effect, if the handler
returns at all. -/
theorem react_unaccepted {reply : List Byte} {owner own : IpAddr}
    (isReply : IsArpReply reply owner own) (unaccepted : ¬Accepts net own)
    (returned : react net depth sr (.frame reply) = .ok next) : next = sr := by
  have notIp : etherType reply ≠ ethertypeIp := by
    rw [isReply.isArp]
    decide
  have long := isReply.long
  unfold react srHandlepacket handleArp at returned
  dsimp only at returned
  rw [if_neg (by omega), if_neg notIp, if_pos isReply.isArp, if_neg (by omega),
    isReply.target] at returned
  obtain ⟨rtentry, route, returned⟩ := bind_eq_ok.mp returned
  obtain ⟨ifc, isInterface, returned⟩ := bind_eq_ok.mp returned
  have leads := routeTo_interfaceOf route isInterface
  rw [if_pos (fun same => unaccepted ⟨rtentry, ifc, leads, same.symm⟩)] at returned
  exact (Except.ok.inj returned).symm

/-- A request that was just sent is still pending. -/
theorem sendArpRequest_pending (pending : req ∈ sr.requests)
    (returned : sendArpRequest net req sr = .ok next) : req.resent sr.now ∈ next.requests := by
  obtain ⟨head, ifc, rtentry, _, _, _, rfl⟩ := sendArpRequest_eq returned
  refine List.mem_map.mpr ⟨req, ?_, if_pos rfl⟩
  rw [srSendPacket_requests]
  exact pending

/-- An ARP request asks for the address of its request, and the answer sends the whole queue,
exactly when the packet in front is addressed to the request's own address and the address of its
interface leads back to an interface with that address. -/
theorem resolution_closes (moment : Moment net depth sr) (pending : req ∈ sr.requests)
    (returned : sendArpRequest net req sr = .ok next) :
    (∃ own, AsksFor next req.ip own ∧ Closes net depth next req.id req.ip own) ↔
      ∃ head ifc, req.packets.head? = some head ∧
        srGetInterface net.ifList head.iface = some ifc ∧ ipDst head.buf = req.ip ∧
        Accepts net ifc.ip := by
  constructor
  · rintro ⟨own, asks, closes⟩
    obtain ⟨head, ifc, isHead, isInterface, dest, rfl⟩ := (asksFor_iff returned).mp asks
    refine ⟨head, ifc, isHead, isInterface, dest, ?_⟩
    by_contra unaccepted
    -- a reply in the next instant would have to remove the request
    have isReply : IsArpReply (arpFrame zeroMac zeroMac arpOpReply zeroMac req.ip zeroMac ifc.ip)
        req.ip ifc.ip := by
      constructor
      · rw [length_arpFrame _ _ _ _ _ _ _ rfl]
      · exact etherType_arpFrame ..
      · exact arOp_arpFrame _ _ _ _ _ _ _ rfl
      · exact arSip_arpFrame _ _ _ _ _ _ _ rfl
      · exact arTip_arpFrame _ _ _ _ _ _ _ rfl
    have still := sendArpRequest_pending pending returned
    obtain ⟨done, answered, _, removed⟩ := closes next _ .refl isReply _ still rfl
    rw [react_unaccepted isReply unaccepted answered] at removed
    exact removed (List.mem_map.mpr ⟨_, still, rfl⟩)
  · rintro ⟨head, ifc, isHead, isInterface, dest, accepts⟩
    refine ⟨ifc.ip, (asksFor_iff returned).mpr ⟨head, ifc, isHead, isInterface, dest, rfl⟩, ?_⟩
    intro later reply meanwhile isReply waiting isPending sameId
    have inv := moment.inv
    have all : Changes net (fun _ => True) sr later :=
      .head (.request pending returned) meanwhile
    -- the request that waits later is the one that was asked for
    obtain ⟨start, startPending, startId, startIp, _⟩ :=
      (Changes.extends all).2 waiting isPending (by rw [sameId]; exact inv.allocated req pending)
    have same : start = req :=
      inv.same startPending pending (startId.trans sameId)
    rw [← same, startIp] at isReply
    rw [← sameId]
    obtain ⟨done, answered, handed, _, removed⟩ :=
      (moment.changes all).react_answer isPending isReply accepts
    exact ⟨done, answered, handed, removed⟩

/-! ### A neighbour and a network behind a gateway -/

/-- The network of the lab with a route to 8.8.8.0/24 through the second application server. -/
private def behindGateway : Network :=
  { labNetwork with
    routingTable := ⟨0x08080800, 0xAC40030A, 0xFFFFFF00, "eth2"⟩ :: labNetwork.routingTable }

/-- The state two seconds after the packet was queued has one request, which can be sent again and
whose first packet has the destination and leaves by the second interface. -/
private def Waits (net : Network) (dest : IpAddr) (sr : Instance) : Prop :=
  sr.requests.head?.any (fun req => req.ip = 0xAC40030A ∧
    req.packets.head?.any (fun head => ipDst head.buf = dest ∧ head.iface = "eth2") ∧
    (sendArpRequest net req sr).toOption.isSome) = true

private instance (net : Network) (dest : IpAddr) (sr : Instance) :
    Decidable (Waits net dest sr) := inferInstanceAs (Decidable (_ = _))

private theorem Waits.unpack {net : Network} {dest : IpAddr} {sr : Instance}
    (waits : Waits net dest sr) : ∃ req head next, req ∈ sr.requests ∧ req.ip = 0xAC40030A ∧
      req.packets.head? = some head ∧ ipDst head.buf = dest ∧ head.iface = "eth2" ∧
      sendArpRequest net req sr = .ok next := by
  obtain ⟨req, first, holds⟩ := (Option.any_eq_true _ _).mp waits
  obtain ⟨ip, front, returns⟩ := of_decide_eq_true holds
  obtain ⟨head, isHead, fields⟩ := (Option.any_eq_true _ _).mp front
  obtain ⟨isDest, iface⟩ := of_decide_eq_true fields
  obtain ⟨next, returned⟩ := Option.isSome_iff_exists.mp returns
  refine ⟨req, head, next, List.mem_of_mem_head? first, ip, isHead, isDest, iface, ?_⟩
  cases outcome : sendArpRequest net req sr with
  | error fault => rw [outcome] at returned; cases returned
  | ok other => rw [outcome] at returned; cases returned; rfl

/-- A packet for the second application server itself. -/
theorem resolution_closes_neighbour : ∃ sr req next,
    Moment labNetwork 4 sr ∧ req ∈ sr.requests ∧ sendArpRequest labNetwork req sr = .ok next ∧
      ∃ own, AsksFor next req.ip own ∧ Closes labNetwork 4 next req.id req.ip own := by
  have reached : ∃ sr, Run (step labNetwork 4) anyStep (srArpcacheInit 5)
      [.frame (ipFrame 64 17 0xC0A80202 0xAC40030A []), .clock 7] sr ∧
      Waits labNetwork 0xAC40030A sr :=
    exec_reaches _ (by decide +kernel)
  obtain ⟨sr, run, waits⟩ := reached
  obtain ⟨req, head, next, pending, ip, isHead, dest, iface, returned⟩ := waits.unpack
  have moment := Moment.of_run run
  have accepts : Accepts labNetwork 0xAC400301 :=
    ⟨⟨0xAC40030A, 0xAC40030A, 0xFFFFFF00, "eth2"⟩, ⟨"eth2", routerMac 2, 0xAC400301⟩,
      by decide +kernel, rfl⟩
  refine ⟨sr, req, next, moment, pending, returned,
    (resolution_closes moment pending returned).mpr
      ⟨head, ⟨"eth2", routerMac 2, 0xAC400301⟩, isHead, ?_, dest.trans ip.symm,
        accepts⟩⟩
  rw [iface]
  decide

/-- A packet for 8.8.8.8 waits for its gateway, and the router asks for 8.8.8.8. -/
theorem asks_for_destination : ∃ sr req next,
    Moment behindGateway 4 sr ∧ req ∈ sr.requests ∧ req.ip = 0xAC40030A ∧
      sendArpRequest behindGateway req sr = .ok next ∧ AsksFor next 0x08080808 0xAC400301 ∧
      ¬∃ own, AsksFor next req.ip own ∧ Closes behindGateway 4 next req.id req.ip own := by
  have reached : ∃ sr, Run (step behindGateway 4) anyStep (srArpcacheInit 5)
      [.frame (ipFrame 64 17 0xC0A80202 0x08080808 []), .clock 7] sr ∧
      Waits behindGateway 0x08080808 sr :=
    exec_reaches _ (by decide +kernel)
  obtain ⟨sr, run, waits⟩ := reached
  obtain ⟨req, head, next, pending, ip, isHead, dest, iface, returned⟩ := waits.unpack
  refine ⟨sr, req, next, .of_run run, pending, ip, returned, ?_, ?_⟩
  · apply (asksFor_iff returned).mpr
    refine ⟨head, ⟨"eth2", routerMac 2, 0xAC400301⟩, isHead, ?_, dest, rfl⟩
    rw [iface]
    decide
  · rintro ⟨own, asks, _⟩
    obtain ⟨other, _, isOther, _, otherDest, _⟩ := (asksFor_iff returned).mp asks
    rw [isHead] at isOther
    cases isOther
    rw [dest, ip] at otherDest
    exact absurd otherDest (by decide)

end EE323.Router

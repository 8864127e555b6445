/-
Module: EE323.Router.Handler
Purpose: `sr_handlepacket` of `sr_router.c`, branch by branch, and the router as a machine that takes
  received frames, sweeps and clock readings.  The interface that a frame arrives on is never read.
Main exports: ipBlackList, handleIp, handleArp, srHandlepacket, Event, react, step
-/
import EE323.Lib.Run
import EE323.Router.ArpCache

namespace EE323.Router

open EE323.Lib

/-- `ip_black_list`: the source is in 10.0.2.0/24. -/
def ipBlackList (packet : List Byte) : Bool :=
  0x0A000200 = (0xFFFFFF00 : IpAddr) &&& ipSrc packet

section Branches

variable (handle : Nat → Instance → Except Fault Instance) (net : Network)

/-- An ICMP error goes to the source of the packet that it is about, from the interface that leads
there.  Neither lookup is checked, and `ICMP_DATA_SIZE` bytes of the packet are copied. -/
def sendError (error : IpAddr → Mac → List Byte → List Byte) (packet : List Byte) (sr : Instance) :
    Except Fault Instance := do
  let rtentry ← routeTo net (ipSrc packet)
  let ifc ← interfaceOf net rtentry.interface
  if packet.length < 14 + icmpDataSize then
    .error .overread
  else
    sendOrQueue handle net id rtentry (error ifc.ip ifc.addr packet) .icmpError sr

/-- An echo request to a router interface. -/
def handleEcho (packet : List Byte) (sr : Instance) : Except Fault Instance :=
  if packet.length < 14 + 20 + 4 then .ok sr
  else if icmpType packet ≠ 8 then .ok sr
  else if ¬IcmpSumValid packet then .ok sr
  else
    let packet := echoReply packet
    match srFindLPMentry net.routingTable (ipDst packet) with
    | none => .ok sr
    | some rtentry => do
        let ifc ← interfaceOf net rtentry.interface
        sendOrQueue handle net id rtentry (setShost packet ifc.addr) .echoReply sr

/-- A packet to a router interface. -/
def handleLocal (packet : List Byte) (sr : Instance) : Except Fault Instance :=
  if ipP packet = 1 then handleEcho handle net packet sr
  else if ipP packet = 6 ∨ ipP packet = 17 then
    if packet.length < 14 + icmpDataSize then .ok sr
    else sendError handle net portUnreachable packet sr
  else .ok sr

/-- A packet to be forwarded. -/
def handleTransit (packet : List Byte) (sr : Instance) : Except Fault Instance :=
  match srFindLPMentry net.routingTable (ipDst packet) with
  | some rtentry =>
      if ipTtl packet = 1 then
        if packet.length < 14 + icmpDataSize then .ok sr
        else sendError handle net timeExceeded packet sr
      else do
        let ifc ← interfaceOf net rtentry.interface
        sendOrQueue handle net decrementTtl rtentry (setShost packet ifc.addr) .forwarded sr
  | none =>
      if packet.length < 14 + icmpDataSize then .ok sr
      else if ¬IcmpSumValid packet then .ok sr
      else sendError handle net netUnreachable packet sr

/-- The IP branch of `sr_handlepacket`. -/
def handleIp (packet : List Byte) (sr : Instance) : Except Fault Instance :=
  if packet.length < 14 + 20 then .ok sr
  else if ipV packet ≠ 4 then .ok sr
  else if ¬IpSumValid packet then .ok sr
  else if ipBlackList packet then .ok sr
  else if ∃ ifc ∈ net.ifList, ipDst packet = ifc.ip then handleLocal handle net packet sr
  else handleTransit handle net packet sr

end Branches

/-- A packet that leaves the queue.  The packets that the router generates start with `INIT_TTL`,
and only the others have their time to live decremented. -/
def released (mac : Mac) (walk : Packet) : Packet :=
  let buf := setDhost walk.buf mac
  { walk with buf := if ipTtl buf ≠ initTtl then decrementTtl buf else buf }

/-- Send one packet of an answered request.  The route is looked up and not used. -/
def releasePacket (net : Network) (mac : Mac) (walk : Packet) (sr : Instance) :
    Except Fault Instance := do
  let _ ← routeTo net (ipDst walk.buf)
  .ok (srSendPacket net (released mac walk) sr)

/-- Send the packets of an answered request. -/
def releasePackets (net : Network) (mac : Mac) : List Packet → Instance → Except Fault Instance
  | [], sr => .ok sr
  | walk :: rest, sr => do
      let sr ← releasePacket net mac walk sr
      releasePackets net mac rest sr

/-- The ARP branch of `sr_handlepacket`.  The request that is destroyed at the end was taken off the
queue before. -/
def handleArp (net : Network) (packet : List Byte) (sr : Instance) : Except Fault Instance :=
  if packet.length < 14 + 28 then .ok sr
  else do
    let rtentry ← routeTo net (arTip packet)
    let ifc ← interfaceOf net rtentry.interface
    if arTip packet ≠ ifc.ip then .ok sr
    else if arOp packet = arpOpRequest then
      let reply := arpFrame (arSha packet) ifc.addr arpOpReply ifc.addr (arTip packet)
        (arSha packet) (arSip packet)
      .ok (srSendPacket net ⟨reply, rtentry.interface, .arpReply⟩ sr)
    else if arOp packet = arpOpReply then
      match srArpcacheInsert (arSha packet) (arSip packet) sr with
      | (some arpreq, sr) => do
          let sr ← releasePackets net (arSha packet) arpreq.packets sr
          .ok (unlinkReq arpreq.id sr)
      | (none, sr) => .ok sr
    else .ok sr

/-- `sr_handlepacket`. -/
def srHandlepacket (net : Network) (depth : Nat) (packet : List Byte) (sr : Instance) :
    Except Fault Instance :=
  if packet.length < 14 then .ok sr
  else if etherType packet = ethertypeIp then
    handleIp (srArpcacheHandleArpreq net depth) net packet sr
  else if etherType packet = ethertypeArp then handleArp net packet sr
  else .ok sr

/-! ### The router as a machine -/

/-- What the router reacts to: a frame, a sweep or a new reading of the clock. -/
inductive Event where
  | frame (packet : List Byte)
  | sweep
  | clock (now : Nat)
deriving DecidableEq, Repr

/-- The reaction to an event on a stack that holds `depth` calls. -/
def react (net : Network) (depth : Nat) (sr : Instance) : Event → Except Fault Instance
  | .frame packet => srHandlepacket net depth packet sr
  | .sweep => srArpcacheTimeout net depth sr
  | .clock now => .ok { sr with now }

/-- A step is an event whose handler returns. -/
def step (net : Network) (depth : Nat) (sr : Instance) (event : Event) : Option Instance :=
  (react net depth sr event).toOption

theorem step_eq_some {net : Network} {depth : Nat} {sr next : Instance} {event : Event} :
    step net depth sr event = some next ↔ react net depth sr event = .ok next := by
  unfold step
  cases react net depth sr event with
  | error fault => simp [Except.toOption]
  | ok other => simp [Except.toOption]

/-! ### The network of the assignment -/

/-- The Ethernet address of a router interface. -/
def routerMac (last : Byte) : Mac := ⟨[2, 0, 0, 0, 0, last], rfl⟩

/-- The Ethernet address of a neighbour. -/
def neighbourMac : Mac := ⟨[6, 6, 6, 6, 6, 6], rfl⟩

/-- The four interfaces, and the routes of `rtable`. -/
def labNetwork : Network where
  ifList :=
    [⟨"eth1", routerMac 1, 0xC0A80201⟩,
      ⟨"eth2", routerMac 2, 0xAC400301⟩,
      ⟨"eth3", routerMac 3, 0x0A000101⟩,
      ⟨"eth4", routerMac 4, 0x0A000201⟩]
  routingTable :=
    [⟨0x0A000164, 0x0A000164, 0xFFFFFF00, "eth3"⟩,
      ⟨0x0A000264, 0x0A000264, 0xFFFFFF00, "eth4"⟩,
      ⟨0xC0A80202, 0xC0A80202, 0xFFFFFF00, "eth1"⟩,
      ⟨0xAC40030A, 0xAC40030A, 0xFFFFFF00, "eth2"⟩]

/-- An IP frame with a correct header checksum. -/
def ipFrame (ttl protocol : Byte) (source dest : IpAddr) (payload : List Byte) : List Byte :=
  setIpSum (List.replicate 12 0 ++ ethertypeIp ++ [0x45, 0] ++ be16 (20 + payload.length) ++
    be16 0 ++ be16 0 ++ [ttl, protocol] ++ be16 0 ++ be32 source ++ be32 dest ++ payload)

end EE323.Router

/-
Module: EE323.Router.Changes
Purpose: Everything that a handler can do to the state of the router, as a relation with one case for
  each kind of change.  A handler that returns has made a sequence of such changes, so a property of
  all runs is shown change by change and never again handler by handler.
Main exports: Leads, Checked, Path, Change, Changes, react_changes
-/
import Mathlib.Logic.Relation
import EE323.Router.Handler

namespace EE323.Router

open EE323.Lib

/-- A route with its interface, as a lookup returns them. -/
def Leads (net : Network) (ip : IpAddr) (rtentry : Route) (ifc : Interface) : Prop :=
  srFindLPMentry net.routingTable ip = some rtentry ∧
    srGetInterface net.ifList rtentry.interface = some ifc

instance (net : Network) (ip : IpAddr) (rtentry : Route) (ifc : Interface) :
    Decidable (Leads net ip rtentry ifc) := inferInstanceAs (Decidable (_ ∧ _))

/-- A received IP packet that passed the checks at the start of the IP branch. -/
def Checked (Received : List Byte → Prop) (packet : List Byte) : Prop :=
  Received packet ∧ etherType packet = ethertypeIp ∧ 34 ≤ packet.length ∧ ipV packet = 4 ∧
    IpSumValid packet

/-- A received packet that the router forwards by a route. -/
structure Forwarded (net : Network) (Received : List Byte → Prop) (packet : List Byte)
    (rtentry : Route) (ifc : Interface) : Prop where
  checked : Checked Received packet
  allowed : ipBlackList packet = false
  notLocal : ¬∃ ifc ∈ net.ifList, ipDst packet = ifc.ip
  hops : ipTtl packet ≠ 1
  leads : Leads net (ipDst packet) rtentry ifc

/-- The packets that the router sends to a gateway, with what it does to one that it sends at once
and the route that it takes. -/
inductive Path (net : Network) (Received : List Byte → Prop) :
    (List Byte → List Byte) → Route → List Byte → Origin → Prop where
  | forward {packet : List Byte} {rtentry : Route} {ifc : Interface}
      (forwarded : Forwarded net Received packet rtentry ifc) :
      Path net Received decrementTtl rtentry (setShost packet ifc.addr) .forwarded
  | echo {packet : List Byte} {rtentry : Route} {ifc : Interface}
      (checked : Checked Received packet) (long : 38 ≤ packet.length)
      (leads : Leads net (ipDst (echoReply packet)) rtentry ifc) :
      Path net Received id rtentry (setShost (echoReply packet) ifc.addr) .echoReply
  | error {packet : List Byte} {rtentry : Route} {ifc : Interface} {type code : Byte}
      {trailing : Nat} {source : IpAddr} {origin : Origin} (short : trailing ≤ icmpDataSize)
      (leads : Leads net (ipSrc packet) rtentry ifc)
      (isError : origin = .icmpError ∨ ∃ req about, origin = .hostUnreachable req about) :
      Path net Received id rtentry (icmpError type code trailing source ifc.addr packet) origin

/-- One change that a handler makes. -/
inductive Change (net : Network) (Received : List Byte → Prop) : Instance → Instance → Prop where
  | send {sr : Instance} {edit : List Byte → List Byte} {rtentry : Route} {buf : List Byte}
      {origin : Origin} (mac : Mac) (path : Path net Received edit rtentry buf origin) :
      Change net Received sr
        (srSendPacket net ⟨edit (setDhost buf mac), rtentry.interface, origin⟩ sr)
  | queue {sr : Instance} {edit : List Byte → List Byte} {rtentry : Route} {buf : List Byte}
      {origin : Origin} (path : Path net Received edit rtentry buf origin) :
      Change net Received sr
        (srArpcacheQueuereq rtentry.gw ⟨buf, rtentry.interface, origin⟩ sr).2
  | request {sr next : Instance} {req : ArpReq} (pending : req ∈ sr.requests)
      (returned : sendArpRequest net req sr = .ok next) : Change net Received sr next
  | destroy {sr : Instance} {id : Nat} :
      Change net Received sr
        { sr with requests := sr.requests.eraseP fun req => req.id = id }
  | reply {sr : Instance} {packet : List Byte} {rtentry : Route} {ifc : Interface}
      (leads : Leads net (arTip packet) rtentry ifc) :
      Change net Received sr
        (srSendPacket net ⟨arpFrame (arSha packet) ifc.addr arpOpReply ifc.addr (arTip packet)
          (arSha packet) (arSip packet), rtentry.interface, .arpReply⟩ sr)
  | learn {sr : Instance} (mac : Mac) (ip : IpAddr) (unasked : ∀ req ∈ sr.requests, req.ip ≠ ip) :
      Change net Received sr (srArpcacheInsert mac ip sr).2
  | release {sr next : Instance} {req : ArpReq} {mac : Mac} {ip : IpAddr}
      (found : (srArpcacheInsert mac ip sr).1 = some req)
      (returned : releasePackets net mac req.packets (srArpcacheInsert mac ip sr).2 = .ok next) :
      Change net Received sr next
  | timeout {sr : Instance} (entries : List ArpEntry) : Change net Received sr { sr with entries }
  | clock {sr : Instance} (now : Nat) : Change net Received sr { sr with now }

/-- A sequence of changes. -/
abbrev Changes (net : Network) (Received : List Byte → Prop) : Instance → Instance → Prop :=
  Relation.ReflTransGen (Change net Received)

section Handlers

variable {net : Network} {Received : List Byte → Prop} {sr next : Instance}

theorem findReq_eq_some {id : Nat} {req : ArpReq} (found : findReq sr id = some req) :
    req ∈ sr.requests ∧ req.id = id := by
  unfold findReq at found
  constructor
  · exact List.mem_of_find?_eq_some found
  · simpa using List.find?_some found

/-- A release sends the first packet and goes on with the others. -/
theorem releasePackets_cons {mac : Mac} {walk : Packet} {rest : List Packet}
    (returned : releasePackets net mac (walk :: rest) sr = .ok next) :
    releasePackets net mac rest (srSendPacket net (released mac walk) sr) = .ok next := by
  unfold releasePackets releasePacket at returned
  obtain ⟨middle, one, returned⟩ := bind_eq_ok.mp returned
  obtain ⟨_, _, one⟩ := bind_eq_ok.mp one
  cases one
  exact returned

theorem routeTo_interfaceOf {ip : IpAddr} {rtentry : Route} {ifc : Interface}
    (route : routeTo net ip = .ok rtentry)
    (isInterface : interfaceOf net rtentry.interface = .ok ifc) : Leads net ip rtentry ifc := by
  constructor
  · simpa [routeTo] using route
  · simpa [interfaceOf] using isInterface

/-- What sending an ARP request does. -/
theorem sendArpRequest_eq {req : ArpReq} (returned : sendArpRequest net req sr = .ok next) :
    ∃ head ifc rtentry, req.packets.head? = some head ∧
      srGetInterface net.ifList head.iface = some ifc ∧
      srFindLPMentry net.routingTable (ipDst head.buf) = some rtentry ∧
      next = updateReq req.id (ArpReq.resent sr.now)
        (srSendPacket net
          ⟨arpRequestFor ifc head, rtentry.interface, .arpRequest req.id sr.now⟩ sr) := by
  unfold sendArpRequest at returned
  obtain ⟨head, isHead, returned⟩ := bind_eq_ok.mp returned
  obtain ⟨ifc, isInterface, returned⟩ := bind_eq_ok.mp returned
  obtain ⟨rtentry, route, returned⟩ := bind_eq_ok.mp returned
  cases returned
  refine ⟨head, ifc, rtentry, ?_, ?_, ?_, ?_⟩
  · simpa using isHead
  · simpa [interfaceOf] using isInterface
  · simpa [routeTo] using route
  · rw [srSendPacket_now]

/-- A handler of requests that only makes changes. -/
def OnlyChanges (net : Network) (Received : List Byte → Prop)
    (handle : Nat → Instance → Except Fault Instance) : Prop :=
  ∀ {id sr next}, handle id sr = .ok next → Changes net Received sr next

variable {handle : Nat → Instance → Except Fault Instance}

theorem sendOrQueue_known {edit : List Byte → List Byte} {rtentry : Route} {buf : List Byte}
    {origin : Origin} {arpentry : ArpEntry} (known : srArpcacheLookup sr rtentry.gw = some arpentry) :
    sendOrQueue handle net edit rtentry buf origin sr =
      .ok (srSendPacket net ⟨edit (setDhost buf arpentry.mac), rtentry.interface, origin⟩ sr) := by
  unfold sendOrQueue
  rw [known]

theorem sendOrQueue_unknown {edit : List Byte → List Byte} {rtentry : Route} {buf : List Byte}
    {origin : Origin} (unknown : srArpcacheLookup sr rtentry.gw = none) :
    sendOrQueue handle net edit rtentry buf origin sr =
      handle (srArpcacheQueuereq rtentry.gw ⟨buf, rtentry.interface, origin⟩ sr).1
        (srArpcacheQueuereq rtentry.gw ⟨buf, rtentry.interface, origin⟩ sr).2 := by
  unfold sendOrQueue
  rw [unknown]

/-- The common end of the paths that send an IP packet. -/
theorem sendOrQueue_changes {edit : List Byte → List Byte} {rtentry : Route} {buf : List Byte}
    {origin : Origin} (only : OnlyChanges net Received handle)
    (path : Path net Received edit rtentry buf origin)
    (returned : sendOrQueue handle net edit rtentry buf origin sr = .ok next) :
    Changes net Received sr next := by
  unfold sendOrQueue at returned
  split at returned
  · cases returned
    exact .single (.send _ path)
  · exact .head (.queue path) (only returned)

theorem answerPacket_changes {req : ArpReq} {walk : Packet}
    (only : OnlyChanges net Received handle)
    (returned : answerPacket handle net req walk sr = .ok next) : Changes net Received sr next := by
  unfold answerPacket at returned
  obtain ⟨_, _, returned⟩ := bind_eq_ok.mp returned
  obtain ⟨_, _, returned⟩ := bind_eq_ok.mp returned
  obtain ⟨rtentry, route, returned⟩ := bind_eq_ok.mp returned
  obtain ⟨ifc, isInterface, returned⟩ := bind_eq_ok.mp returned
  split at returned
  · cases returned
  · apply sendOrQueue_changes only _ returned
    apply Path.error
    · exact Nat.le_refl _
    · exact routeTo_interfaceOf route isInterface
    · exact .inr ⟨_, _, rfl⟩

theorem answerPackets_changes {req : ArpReq} {packets : List Packet}
    (only : OnlyChanges net Received handle)
    (returned : answerPackets handle net req packets sr = .ok next) :
    Changes net Received sr next := by
  induction packets generalizing sr with
  | nil =>
      cases returned
      exact .refl
  | cons walk rest inductionHypothesis =>
      unfold answerPackets at returned
      obtain ⟨_, _, returned⟩ := bind_eq_ok.mp returned
      obtain ⟨middle, answered, returned⟩ := bind_eq_ok.mp returned
      exact (answerPacket_changes only answered).trans (inductionHypothesis returned)

/-- `sr_arpcache_handle_arpreq` only makes changes, however deep it calls itself. -/
theorem handleArpreq_changes (depth : Nat) :
    OnlyChanges net Received (srArpcacheHandleArpreq net depth) := by
  induction depth with
  | zero =>
      intro id sr next returned
      cases returned
  | succ depth inductionHypothesis =>
      intro id sr next returned
      unfold srArpcacheHandleArpreq at returned
      obtain ⟨req, found, returned⟩ := bind_eq_ok.mp returned
      obtain ⟨pending, _⟩ := findReq_eq_some (deref_eq_ok.mp found)
      split at returned
      · split at returned
        · obtain ⟨middle, answered, returned⟩ := bind_eq_ok.mp returned
          have before := answerPackets_changes inductionHypothesis answered
          unfold srArpreqDestroy at returned
          split at returned
          · cases returned
            exact before.tail .destroy
          · cases returned
        · exact .single (.request pending returned)
      · cases returned
        exact .refl

theorem sweepFrom_changes {depth : Nat} {ids : List Nat} {pointer : Option Nat}
    (returned : sweepFrom net depth ids pointer sr = .ok next) : Changes net Received sr next := by
  induction ids generalizing sr pointer with
  | nil =>
      cases returned
      exact .refl
  | cons id rest inductionHypothesis =>
      unfold sweepFrom at returned
      split at returned
      · obtain ⟨_, _, returned⟩ := bind_eq_ok.mp returned
        obtain ⟨middle, handled, returned⟩ := bind_eq_ok.mp returned
        exact (handleArpreq_changes depth handled).trans (inductionHypothesis returned)
      · exact inductionHypothesis returned

variable {packet : List Byte}

theorem sendError_changes {error : IpAddr → Mac → List Byte → List Byte} {type code : Byte}
    {trailing : Nat} (isError : error = icmpError type code trailing)
    (short : trailing ≤ icmpDataSize) (only : OnlyChanges net Received handle)
    (returned : sendError handle net error packet sr = .ok next) :
    Changes net Received sr next := by
  unfold sendError at returned
  obtain ⟨rtentry, route, returned⟩ := bind_eq_ok.mp returned
  obtain ⟨ifc, isInterface, returned⟩ := bind_eq_ok.mp returned
  split at returned
  · cases returned
  · apply sendOrQueue_changes only _ returned
    rw [isError]
    exact .error short (routeTo_interfaceOf route isInterface) (.inl rfl)

theorem handleEcho_changes (only : OnlyChanges net Received handle)
    (checked : Checked Received packet) (returned : handleEcho handle net packet sr = .ok next) :
    Changes net Received sr next := by
  unfold handleEcho at returned
  split at returned
  · cases returned
    exact .refl
  split at returned
  · cases returned
    exact .refl
  split at returned
  · cases returned
    exact .refl
  dsimp only at returned
  split at returned
  · cases returned
    exact .refl
  · rename_i long _ _ _ rtentry found
    obtain ⟨ifc, isInterface, returned⟩ := bind_eq_ok.mp returned
    apply sendOrQueue_changes only _ returned
    apply Path.echo checked (by omega)
    exact ⟨found, by simpa [interfaceOf] using isInterface⟩

theorem handleLocal_changes (only : OnlyChanges net Received handle)
    (checked : Checked Received packet) (returned : handleLocal handle net packet sr = .ok next) :
    Changes net Received sr next := by
  unfold handleLocal at returned
  split at returned
  · exact handleEcho_changes only checked returned
  split at returned
  · split at returned
    · cases returned
      exact .refl
    · exact sendError_changes rfl (Nat.le_refl _) only returned
  · cases returned
    exact .refl

theorem handleTransit_changes (only : OnlyChanges net Received handle)
    (checked : Checked Received packet) (allowed : ipBlackList packet = false)
    (notLocal : ¬∃ ifc ∈ net.ifList, ipDst packet = ifc.ip)
    (returned : handleTransit handle net packet sr = .ok next) : Changes net Received sr next := by
  unfold handleTransit at returned
  split at returned
  · rename_i rtentry found
    split at returned
    · split at returned
      · cases returned
        exact .refl
      · exact sendError_changes rfl (Nat.le_refl _) only returned
    · rename_i hops
      obtain ⟨ifc, isInterface, returned⟩ := bind_eq_ok.mp returned
      apply sendOrQueue_changes only _ returned
      exact .forward ⟨checked, allowed, notLocal, hops, found, by simpa [interfaceOf] using isInterface⟩
  · split at returned
    · cases returned
      exact .refl
    split at returned
    · cases returned
      exact .refl
    · exact sendError_changes rfl (Nat.zero_le _) only returned

theorem handleIp_changes (only : OnlyChanges net Received handle) (received : Received packet)
    (isIp : etherType packet = ethertypeIp) (returned : handleIp handle net packet sr = .ok next) :
    Changes net Received sr next := by
  unfold handleIp at returned
  split at returned
  · cases returned
    exact .refl
  split at returned
  · cases returned
    exact .refl
  split at returned
  · cases returned
    exact .refl
  split at returned
  · cases returned
    exact .refl
  rename_i long isV4 sumValid allowed
  have checked : Checked Received packet :=
    ⟨received, isIp, by omega, not_not.mp isV4, not_not.mp sumValid⟩
  split at returned
  · exact handleLocal_changes only checked returned
  · rename_i notLocal
    exact handleTransit_changes only checked (Bool.eq_false_iff.mpr allowed) notLocal returned

theorem handleArp_changes (returned : handleArp net packet sr = .ok next) :
    Changes net Received sr next := by
  unfold handleArp at returned
  split at returned
  · cases returned
    exact .refl
  obtain ⟨rtentry, route, returned⟩ := bind_eq_ok.mp returned
  obtain ⟨ifc, isInterface, returned⟩ := bind_eq_ok.mp returned
  split at returned
  · cases returned
    exact .refl
  split at returned
  · cases returned
    exact .single (.reply (routeTo_interfaceOf route isInterface))
  split at returned
  · split at returned
    · rename_i arpreq after inserted
      have found : (srArpcacheInsert (arSha packet) (arSip packet) sr).1 = some arpreq := by
        rw [inserted]
      have rest : (srArpcacheInsert (arSha packet) (arSip packet) sr).2 = after := by
        rw [inserted]
      obtain ⟨released, sent, returned⟩ := bind_eq_ok.mp returned
      cases returned
      rw [← rest] at sent
      exact .tail (.single (.release found sent)) .destroy
    · rename_i after inserted
      have rest : (srArpcacheInsert (arSha packet) (arSip packet) sr).2 = after := by
        rw [inserted]
      cases returned
      rw [← rest]
      apply Relation.ReflTransGen.single
      apply Change.learn
      intro req pending sameIp
      have nothing := List.find?_eq_none.mp (congrArg Prod.fst inserted) req pending
      exact nothing (by simpa using sameIp)
  · cases returned
    exact .refl

/-- The frames of an event are received frames. -/
def Event.Admits (Received : List Byte → Prop) : Event → Prop
  | .frame packet => Received packet
  | .sweep => True
  | .clock _ => True

instance {Received : List Byte → Prop} [DecidablePred Received] (event : Event) :
    Decidable (event.Admits Received) :=
  match event with
  | .frame packet => inferInstanceAs (Decidable (Received packet))
  | .sweep => inferInstanceAs (Decidable True)
  | .clock _ => inferInstanceAs (Decidable True)

/-- A reaction that returns has made a sequence of changes. -/
theorem react_changes {depth : Nat} {event : Event} (admitted : event.Admits Received)
    (returned : react net depth sr event = .ok next) : Changes net Received sr next := by
  cases event with
  | frame packet =>
      unfold react srHandlepacket at returned
      dsimp only at returned
      split at returned
      · cases returned
        exact .refl
      split at returned
      · rename_i isIp
        exact handleIp_changes (handleArpreq_changes depth) admitted isIp returned
      split at returned
      · exact handleArp_changes returned
      · cases returned
        exact .refl
  | sweep =>
      unfold react srArpcacheTimeout srArpcacheSweepreqs at returned
      exact .head (.timeout _) (sweepFrom_changes returned)
  | clock now =>
      cases returned
      exact .single (.clock now)

end Handlers

end EE323.Router

/-
Module: EE323.Router.Queue
Purpose: What every change of the router preserves.  A contract says which packets may be queued on a
  request and which frames may be sent, and that every construction of the router stays inside it.
  From a contract the shape of the queue, the packets on it and the frames handed to `sr_send_packet`
  are invariants of every run.
Main exports: Passes, Contract, Inv, Change.inv, Inv.of_run
-/
import Mathlib.Data.List.Nodup
import EE323.Router.Changes

namespace EE323.Router

open EE323.Lib

/-- A packet may be queued for the gateway of its route, and sent to the gateway's address whatever
that is. -/
def Passes (Queued : IpAddr → Packet → Prop) (Sent : Packet → Prop)
    (edit : List Byte → List Byte) (rtentry : Route) (buf : List Byte) (origin : Origin) : Prop :=
  Queued rtentry.gw ⟨buf, rtentry.interface, origin⟩ ∧
    ∀ mac, Sent ⟨edit (setDhost buf mac), rtentry.interface, origin⟩

/-- Every construction of the router yields packets that may be queued and frames that may be
sent. -/
structure Contract (net : Network) (Received : List Byte → Prop)
    (Queued : IpAddr → Packet → Prop) (Sent : Packet → Prop) : Prop where
  forward {packet rtentry ifc} (forwarded : Forwarded net Received packet rtentry ifc) :
    Passes Queued Sent decrementTtl rtentry (setShost packet ifc.addr) .forwarded
  echo {packet rtentry ifc} (checked : Checked Received packet) (long : 38 ≤ packet.length)
    (leads : Leads net (ipDst (echoReply packet)) rtentry ifc) :
    Passes Queued Sent id rtentry (setShost (echoReply packet) ifc.addr) .echoReply
  error {packet rtentry ifc} (type code : Byte) (trailing : Nat) (origin : Origin)
    (isError : origin = .icmpError ∨ ∃ req about, origin = .hostUnreachable req about)
    (short : trailing ≤ icmpDataSize) (source : IpAddr)
    (leads : Leads net (ipSrc packet) rtentry ifc) :
    Passes Queued Sent id rtentry (icmpError type code trailing source ifc.addr packet) origin
  request {ip head rtentry ifc} (id sent : Nat) (queued : Queued ip head)
    (found : srFindLPMentry net.routingTable (ipDst head.buf) = some rtentry)
    (isInterface : srGetInterface net.ifList head.iface = some ifc) :
    Sent ⟨arpRequestFor ifc head, rtentry.interface, .arpRequest id sent⟩
  reply {packet rtentry ifc} (leads : Leads net (arTip packet) rtentry ifc) :
    Sent ⟨arpFrame (arSha packet) ifc.addr arpOpReply ifc.addr (arTip packet) (arSha packet)
      (arSip packet), rtentry.interface, .arpReply⟩
  releaseEdited {ip walk} (mac : Mac) (queued : Queued ip walk) :
    Sent { walk with buf := decrementTtl (setDhost walk.buf mac) }
  releaseUnedited {ip walk} (mac : Mac) (queued : Queued ip walk)
    (generated : ipTtl (setDhost walk.buf mac) = initTtl) :
    Sent { walk with buf := setDhost walk.buf mac }

/-- The requests are distinct, each holds packets, and packets and frames keep the contract. -/
structure Inv (Queued : IpAddr → Packet → Prop) (Sent : Packet → Prop) (sr : Instance) :
    Prop where
  distinct : (sr.requests.map fun req => req.ip).Nodup
  identified : (sr.requests.map fun req => req.id).Nodup
  allocated : ∀ req ∈ sr.requests, req.id < sr.nextReq
  holds : ∀ req ∈ sr.requests, req.packets ≠ []
  queued : ∀ req ∈ sr.requests, ∀ packet ∈ req.packets, Queued req.ip packet
  sent : ∀ frame ∈ sr.handed, Sent frame

section Preservation

variable {net : Network} {Received : List Byte → Prop} {Queued : IpAddr → Packet → Prop}
  {Sent : Packet → Prop} {sr next : Instance}

/-- Sending a frame that may be sent. -/
theorem Inv.send {packet : Packet} (inv : Inv Queued Sent sr) (may : Sent packet) :
    Inv Queued Sent (srSendPacket net packet sr) where
  distinct := by simpa using inv.distinct
  identified := by simpa using inv.identified
  allocated := by simpa using inv.allocated
  holds := by simpa using inv.holds
  queued := by simpa using inv.queued
  sent := by
    intro frame member
    rw [srSendPacket_handed] at member
    rcases List.mem_append.mp member with earlier | last
    · exact inv.sent frame earlier
    · rw [List.mem_singleton.mp last]
      exact may

/-- Changing a request so that it keeps its number, its address and its contract. -/
theorem Inv.update {id : Nat} {change : ArpReq → ArpReq} (inv : Inv Queued Sent sr)
    (keepsId : ∀ req, (change req).id = req.id) (keepsIp : ∀ req, (change req).ip = req.ip)
    (keepsPackets : ∀ req ∈ sr.requests, req.id = id →
      (change req).packets ≠ [] ∧ ∀ packet ∈ (change req).packets, Queued req.ip packet) :
    Inv Queued Sent (updateReq id change sr) := by
  have ids : ((sr.requests.map fun req => if req.id = id then change req else req).map
      fun req => req.id) = sr.requests.map fun req => req.id := by
    rw [List.map_map]
    apply List.map_congr_left
    intro req _
    dsimp only [Function.comp]
    split
    · exact keepsId req
    · rfl
  have ips : ((sr.requests.map fun req => if req.id = id then change req else req).map
      fun req => req.ip) = sr.requests.map fun req => req.ip := by
    rw [List.map_map]
    apply List.map_congr_left
    intro req _
    dsimp only [Function.comp]
    split
    · exact keepsIp req
    · rfl
  have each : ∀ req ∈ (updateReq id change sr).requests, ∃ before ∈ sr.requests,
      req.id = before.id ∧ req.packets ≠ [] ∧
        ∀ packet ∈ req.packets, Queued req.ip packet := by
    intro req member
    obtain ⟨before, known, rfl⟩ := List.mem_map.mp member
    refine ⟨before, known, ?_⟩
    split
    · rename_i isTarget
      rw [keepsIp]
      exact ⟨keepsId before, keepsPackets before known isTarget⟩
    · exact ⟨rfl, inv.holds before known, inv.queued before known⟩
  constructor
  · exact ips ▸ inv.distinct
  · exact ids ▸ inv.identified
  · intro req member
    obtain ⟨before, known, same, _⟩ := each req member
    rw [same]
    exact inv.allocated before known
  · intro req member
    obtain ⟨_, _, _, holds, _⟩ := each req member
    exact holds
  · intro req member
    obtain ⟨_, _, _, _, queued⟩ := each req member
    exact queued
  · exact inv.sent

/-- Taking requests off the queue. -/
theorem Inv.remove {rest : List ArpReq} {entries : List ArpEntry} (inv : Inv Queued Sent sr)
    (fewer : rest.Sublist sr.requests) :
    Inv Queued Sent { sr with requests := rest, entries } where
  distinct := inv.distinct.sublist (fewer.map _)
  identified := inv.identified.sublist (fewer.map _)
  allocated := fun req member => inv.allocated req (fewer.subset member)
  holds := fun req member => inv.holds req (fewer.subset member)
  queued := fun req member => inv.queued req (fewer.subset member)
  sent := inv.sent

/-- One request for each address. -/
theorem Inv.unique {req other : ArpReq} (inv : Inv Queued Sent sr) (pending : req ∈ sr.requests)
    (otherPending : other ∈ sr.requests) (sameIp : other.ip = req.ip) : other = req :=
  List.inj_on_of_nodup_map inv.distinct otherPending pending sameIp

/-- One request for each pointer. -/
theorem Inv.same {req other : ArpReq} (inv : Inv Queued Sent sr) (pending : req ∈ sr.requests)
    (otherPending : other ∈ sr.requests) (sameId : req.id = other.id) : req = other :=
  List.inj_on_of_nodup_map inv.identified pending otherPending sameId

/-- Where keys are distinct, taking one request out leaves none with its key. -/
theorem ne_of_mem_eraseP {κ : Type} [DecidableEq κ] {key : ArpReq → κ} {value : κ}
    {requests : List ArpReq} (distinct : (requests.map key).Nodup) :
    ∀ req ∈ requests.eraseP (fun req => key req = value), key req ≠ value := by
  induction requests with
  | nil => simp
  | cons first rest inductionHypothesis =>
      obtain ⟨notLater, distinctRest⟩ := List.nodup_cons.mp distinct
      by_cases isFirst : key first = value
      · rw [List.eraseP_cons_of_pos (by simpa using isFirst)]
        intro req member sameKey
        apply notLater
        exact List.mem_map.mpr ⟨req, member, sameKey.trans isFirst.symm⟩
      · rw [List.eraseP_cons_of_neg (by simpa using isFirst)]
        intro req member
        rcases List.mem_cons.mp member with rfl | later
        · exact isFirst
        · exact inductionHypothesis distinctRest req later

/-- Where keys are distinct, taking one request out keeps those with other keys. -/
theorem eraseP_eq_filter {κ : Type} [DecidableEq κ] {key : ArpReq → κ} {value : κ}
    {requests : List ArpReq} (distinct : (requests.map key).Nodup) :
    requests.eraseP (fun req => key req = value) = requests.filter fun req => key req ≠ value := by
  induction requests with
  | nil => rfl
  | cons first rest inductionHypothesis =>
      obtain ⟨notLater, distinctRest⟩ := List.nodup_cons.mp distinct
      by_cases isFirst : key first = value
      · rw [List.eraseP_cons_of_pos (by simpa using isFirst),
          List.filter_cons_of_neg (by simpa using isFirst)]
        symm
        rw [List.filter_eq_self]
        intro req later
        have otherKey : key req ≠ value := fun sameKey =>
          notLater (List.mem_map.mpr ⟨req, later, sameKey.trans isFirst.symm⟩)
        simpa using otherKey
      · rw [List.eraseP_cons_of_neg (by simpa using isFirst),
          List.filter_cons_of_pos (by simpa using isFirst), inductionHypothesis distinctRest]

/-- Queueing a packet that may be queued. -/
theorem Inv.queue {ip : IpAddr} {packet : Packet} (inv : Inv Queued Sent sr)
    (may : Queued ip packet) : Inv Queued Sent (srArpcacheQueuereq ip packet sr).2 := by
  unfold srArpcacheQueuereq
  dsimp only
  split
  · rename_i found known
    have foundIp : found.ip = ip := by simpa using List.find?_some known
    have member := List.mem_of_find?_eq_some known
    have recorded : Inv Queued Sent { sr with queued := sr.queued ++ [packet] } := { inv with }
    apply recorded.update
    · exact fun _ => rfl
    · exact fun _ => rfl
    · intro req known sameId
      have sameReq : req = found :=
        inv.same known member sameId
      rw [sameReq, foundIp]
      constructor
      · exact List.cons_ne_nil _ _
      · intro other isPacket
        rcases List.mem_cons.mp isPacket with rfl | earlier
        · exact may
        · rw [← foundIp]
          exact inv.queued found member other earlier
  · rename_i unknown
    have noIp : ∀ req ∈ sr.requests, req.ip ≠ ip := by
      intro req member sameIp
      have notFound := List.find?_eq_none.mp unknown req member
      exact notFound (by simpa using sameIp)
    constructor
    · refine List.nodup_cons.mpr ⟨?_, inv.distinct⟩
      intro member
      obtain ⟨req, known, sameIp⟩ := List.mem_map.mp member
      exact noIp req known sameIp
    · refine List.nodup_cons.mpr ⟨?_, inv.identified⟩
      intro member
      obtain ⟨req, known, sameId⟩ := List.mem_map.mp member
      have below := inv.allocated req known
      rw [sameId] at below
      exact absurd below (Nat.lt_irrefl _)
    · intro req member
      rcases List.mem_cons.mp member with rfl | known
      · exact Nat.lt_succ_self _
      · exact Nat.lt_succ_of_lt (inv.allocated req known)
    · intro req member
      rcases List.mem_cons.mp member with rfl | known
      · exact List.cons_ne_nil _ _
      · exact inv.holds req known
    · intro req member
      rcases List.mem_cons.mp member with rfl | known
      · intro other isPacket
        rw [List.mem_singleton.mp isPacket]
        exact may
      · exact inv.queued req known
    · exact inv.sent

theorem Contract.passes {edit : List Byte → List Byte} {rtentry : Route} {buf : List Byte}
    {origin : Origin} (contract : Contract net Received Queued Sent)
    (path : Path net Received edit rtentry buf origin) :
    Passes Queued Sent edit rtentry buf origin := by
  cases path with
  | forward forwarded => exact contract.forward forwarded
  | echo checked long leads => exact contract.echo checked long leads
  | error short leads isError => exact contract.error _ _ _ _ isError short _ leads

theorem Contract.released {ip : IpAddr} {walk : Packet} (mac : Mac)
    (contract : Contract net Received Queued Sent) (queued : Queued ip walk) :
    Sent (released mac walk) := by
  unfold Router.released
  dsimp only
  split
  · exact contract.releaseEdited mac queued
  · rename_i generated
    exact contract.releaseUnedited mac queued (not_not.mp generated)

theorem sendArpRequest_inv {req : ArpReq} (contract : Contract net Received Queued Sent)
    (inv : Inv Queued Sent sr) (pending : req ∈ sr.requests)
    (returned : sendArpRequest net req sr = .ok next) : Inv Queued Sent next := by
  obtain ⟨head, ifc, rtentry, isHead, isInterface, route, rfl⟩ := sendArpRequest_eq returned
  have headQueued := inv.queued req pending head (List.mem_of_mem_head? isHead)
  apply Inv.update
  · exact inv.send (contract.request _ _ headQueued route isInterface)
  · exact fun _ => rfl
  · exact fun _ => rfl
  · intro other member _
    rw [srSendPacket_requests] at member
    exact ⟨inv.holds other member, inv.queued other member⟩

theorem releasePackets_inv {ip : IpAddr} {mac : Mac} {packets : List Packet}
    (contract : Contract net Received Queued Sent) (inv : Inv Queued Sent sr)
    (queued : ∀ walk ∈ packets, Queued ip walk)
    (returned : releasePackets net mac packets sr = .ok next) : Inv Queued Sent next := by
  induction packets generalizing sr with
  | nil =>
      cases returned
      exact inv
  | cons walk rest inductionHypothesis =>
      have sent : Inv Queued Sent (srSendPacket net (released mac walk) sr) :=
        inv.send (contract.released mac (queued walk List.mem_cons_self))
      exact inductionHypothesis sent
        (fun other later => queued other (List.mem_cons_of_mem _ later))
        (releasePackets_cons returned)

theorem Inv.insert {mac : Mac} {ip : IpAddr} (inv : Inv Queued Sent sr) :
    Inv Queued Sent (srArpcacheInsert mac ip sr).2 :=
  inv.remove List.eraseP_sublist

/-- Every change keeps the invariant. -/
theorem Change.inv (change : Change net Received sr next)
    (contract : Contract net Received Queued Sent) (inv : Inv Queued Sent sr) :
    Inv Queued Sent next := by
  cases change with
  | send mac path => exact inv.send ((contract.passes path).2 mac)
  | queue path => exact inv.queue (contract.passes path).1
  | request pending returned => exact sendArpRequest_inv contract inv pending returned
  | destroy => exact inv.remove List.eraseP_sublist
  | reply leads => exact inv.send (contract.reply leads)
  | learn mac ip unasked => exact inv.insert
  | release found returned =>
      have pending := List.mem_of_find?_eq_some found
      exact releasePackets_inv contract inv.insert (inv.queued _ pending) returned
  | timeout entries => exact inv.remove (List.Sublist.refl _)
  | clock now => exact { inv with }

/-- Every reaction keeps the invariant. -/
theorem react_inv {depth : Nat} {event : Event} (contract : Contract net Received Queued Sent)
    (inv : Inv Queued Sent sr) (admitted : event.Admits Received)
    (returned : react net depth sr event = .ok next) : Inv Queued Sent next := by
  have changes := react_changes admitted returned
  clear returned
  induction changes with
  | refl => exact inv
  | tail _ change inductionHypothesis => exact change.inv contract inductionHypothesis

/-- The invariant of every run that starts with an empty queue. -/
theorem Inv.of_run {depth now : Nat} {events : List Event}
    (contract : Contract net Received Queued Sent)
    (run : Run (step net depth) (fun _ event => event.Admits Received) (srArpcacheInit now) events
      sr) : Inv Queued Sent sr := by
  apply run.invariant
  · constructor <;> simp [srArpcacheInit]
  · intro before event after inv admitted stepped
    exact react_inv contract inv admitted (step_eq_some.mp stepped)

/-- The invariant of every run, where it needs nothing of the frames. -/
theorem Inv.of_any_run {depth now : Nat} {events : List Event}
    (contract : Contract net (fun _ => True) Queued Sent)
    (run : Run (step net depth) anyStep (srArpcacheInit now) events sr) : Inv Queued Sent sr := by
  apply Inv.of_run contract
  apply run.mono
  intro _ event _
  cases event <;> trivial

end Preservation

end EE323.Router

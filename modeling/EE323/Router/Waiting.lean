/-
Module: EE323.Router.Waiting
Purpose: How long a packet waits.  A pending request keeps its address and its packets, newer packets
  are put in front of older ones, and an ARP reply for the address of the request sends them all.
Main exports: Extends, Changes.extends, waitingFor, queued_in_front, Moment, IsArpReply, react_reply,
  Moment.react_answer
-/
import EE323.Router.NextHop

namespace EE323.Router

open EE323.Lib

variable {net : Network} {Received : List Byte → Prop} {sr middle next : Instance}

/-- Every request of the second state that was allocated by the first is there too, with the same
address and with the packets that have been waiting the longest. -/
def Extends (sr next : Instance) : Prop :=
  sr.nextReq ≤ next.nextReq ∧ ∀ later ∈ next.requests, later.id < sr.nextReq →
    ∃ req ∈ sr.requests, req.id = later.id ∧ req.ip = later.ip ∧
      ∃ newer, later.packets = newer ++ req.packets

theorem Extends.refl (sr : Instance) : Extends sr sr :=
  ⟨Nat.le_refl _, fun later member _ => ⟨later, member, rfl, rfl, [], rfl⟩⟩

theorem Extends.trans (one : Extends sr middle) (two : Extends middle next) : Extends sr next := by
  refine ⟨Nat.le_trans one.1 two.1, ?_⟩
  intro later member old
  obtain ⟨between, betweenMember, id, ip, newer, packets⟩ :=
    two.2 later member (Nat.lt_of_lt_of_le old one.1)
  obtain ⟨req, reqMember, reqId, reqIp, older, olderPackets⟩ :=
    one.2 between betweenMember (by rw [id]; exact old)
  refine ⟨req, reqMember, reqId.trans id, reqIp.trans ip, newer ++ older, ?_⟩
  rw [packets, olderPackets, List.append_assoc]

/-- Requests may go. -/
theorem Extends.of_subset (same : next.nextReq = sr.nextReq)
    (fewer : ∀ req ∈ next.requests, req ∈ sr.requests) : Extends sr next :=
  ⟨Nat.le_of_eq same.symm, fun later member _ => ⟨later, fewer later member, rfl, rfl, [], rfl⟩⟩

theorem Extends.send (packet : Packet) (sr : Instance) :
    Extends sr (srSendPacket net packet sr) := by
  apply Extends.of_subset (srSendPacket_nextReq packet sr)
  rw [srSendPacket_requests]
  exact fun _ member => member

/-- A request may change and get packets in front. -/
theorem Extends.update {id : Nat} {change : ArpReq → ArpReq}
    (keepsId : ∀ req, (change req).id = req.id) (keepsIp : ∀ req, (change req).ip = req.ip)
    (keepsPackets : ∀ req, ∃ newer, (change req).packets = newer ++ req.packets) :
    Extends sr (updateReq id change sr) := by
  refine ⟨Nat.le_refl _, ?_⟩
  intro later member _
  obtain ⟨req, known, rfl⟩ := List.mem_map.mp member
  refine ⟨req, known, ?_⟩
  split
  · obtain ⟨newer, packets⟩ := keepsPackets req
    exact ⟨(keepsId req).symm, (keepsIp req).symm, newer, packets⟩
  · exact ⟨rfl, rfl, [], rfl⟩

theorem Extends.queue (ip : IpAddr) (packet : Packet) (sr : Instance) :
    Extends sr (srArpcacheQueuereq ip packet sr).2 := by
  unfold srArpcacheQueuereq
  dsimp only
  split
  · have recorded : Extends sr { sr with queued := sr.queued ++ [packet] } :=
      .of_subset rfl fun _ member => member
    apply recorded.trans
    apply Extends.update
    · exact fun _ => rfl
    · exact fun _ => rfl
    · exact fun _ => ⟨[packet], rfl⟩
  · refine ⟨Nat.le_succ _, ?_⟩
    intro later member old
    rcases List.mem_cons.mp member with rfl | known
    · exact absurd old (Nat.lt_irrefl _)
    · exact ⟨later, known, rfl, rfl, [], rfl⟩

theorem Extends.insert (mac : Mac) (ip : IpAddr) (sr : Instance) :
    Extends sr (srArpcacheInsert mac ip sr).2 :=
  .of_subset rfl fun _ member => List.mem_of_mem_eraseP member

theorem releasePackets_keeps {mac : Mac} {packets : List Packet}
    (returned : releasePackets net mac packets sr = .ok next) :
    next.requests = sr.requests ∧ next.nextReq = sr.nextReq := by
  induction packets generalizing sr with
  | nil =>
      cases returned
      exact ⟨rfl, rfl⟩
  | cons walk rest inductionHypothesis =>
      have returned := releasePackets_cons returned
      simpa using inductionHypothesis returned

theorem Change.extends (change : Change net Received sr next) : Extends sr next := by
  cases change with
  | send mac path => exact .send _ _
  | queue path => exact .queue _ _ _
  | request pending returned =>
      obtain ⟨head, ifc, rtentry, _, _, _, rfl⟩ := sendArpRequest_eq returned
      apply (Extends.send _ sr).trans
      apply Extends.update
      · exact fun _ => rfl
      · exact fun _ => rfl
      · exact fun _ => ⟨[], rfl⟩
  | destroy => exact .of_subset rfl fun _ member => List.mem_of_mem_eraseP member
  | reply leads => exact .send _ _
  | learn mac ip unasked => exact .insert mac ip sr
  | release found returned =>
      obtain ⟨requests, nextReq⟩ := releasePackets_keeps returned
      apply (Extends.insert _ _ sr).trans
      apply Extends.of_subset nextReq
      rw [requests]
      exact fun _ member => member
  | timeout entries => exact .of_subset rfl fun _ member => member
  | clock now => exact .of_subset rfl fun _ member => member

theorem Changes.extends (changes : Changes net Received sr next) : Extends sr next := by
  induction changes with
  | refl => exact .refl sr
  | tail _ change inductionHypothesis => exact inductionHypothesis.trans change.extends

/-! ### The packet in front -/

/-- The packets that wait for an address. -/
def waitingFor (sr : Instance) (ip : IpAddr) : List Packet :=
  match sr.requests.find? fun req => req.ip = ip with
  | some req => req.packets
  | none => []

/-- The request that a packet is queued on holds it in front of the packets that waited before. -/
theorem queued_in_front {ip : IpAddr} {packet : Packet} (allocated : ∀ req ∈ sr.requests,
      req.id < sr.nextReq) (identified : (sr.requests.map fun req => req.id).Nodup) {req : ArpReq}
    (pending : req ∈ (srArpcacheQueuereq ip packet sr).2.requests)
    (isTarget : req.id = (srArpcacheQueuereq ip packet sr).1) :
    req.ip = ip ∧ req.packets = packet :: waitingFor sr ip := by
  unfold srArpcacheQueuereq at pending isTarget
  unfold waitingFor
  dsimp only at pending isTarget
  cases search : sr.requests.find? fun req => req.ip = ip with
  | some found =>
      rw [search] at pending isTarget
      obtain ⟨before, known, rfl⟩ := List.mem_map.mp pending
      have foundIp : found.ip = ip := by simpa using List.find?_some search
      have sameId : before.id = found.id := by
        split at isTarget <;> exact isTarget
      have same : before = found :=
        List.inj_on_of_nodup_map identified known (List.mem_of_find?_eq_some search) sameId
      rw [if_pos sameId, same]
      exact ⟨foundIp, rfl⟩
  | none =>
      rw [search] at pending isTarget
      rcases List.mem_cons.mp pending with rfl | known
      · exact ⟨rfl, rfl⟩
      · have below := allocated req known
        rw [isTarget] at below
        exact absurd below (Nat.lt_irrefl _)

theorem queued_allocated {ip : IpAddr} {packet : Packet}
    (allocated : ∀ req ∈ sr.requests, req.id < sr.nextReq) :
    (srArpcacheQueuereq ip packet sr).1 < (srArpcacheQueuereq ip packet sr).2.nextReq := by
  unfold srArpcacheQueuereq
  dsimp only
  split
  · rename_i found search
    exact allocated found (List.mem_of_find?_eq_some search)
  · exact Nat.lt_succ_self _

/-! ### Moments of a run -/

/-- A run is a sequence of changes. -/
theorem changes_of_run {depth : Nat} {events : List Event}
    (run : Run (step net depth) anyStep sr events next) :
    Changes net (fun _ => True) sr next := by
  induction run with
  | refl => exact .refl
  | snoc before admitted stepped inductionHypothesis =>
      rename_i event
      have admitted : event.Admits fun _ => True := by cases event <;> trivial
      exact inductionHypothesis.trans (react_changes admitted (step_eq_some.mp stepped))

/-- A state that a router with an empty cache passes through: one that a run reaches, or one between
two changes of a handler that runs there. -/
def Moment (net : Network) (depth : Nat) (sr : Instance) : Prop :=
  ∃ now events start, Run (step net depth) anyStep (srArpcacheInit now) events start ∧
    Changes net (fun _ => True) start sr

theorem Moment.of_run {depth now : Nat} {events : List Event}
    (run : Run (step net depth) anyStep (srArpcacheInit now) events sr) : Moment net depth sr :=
  ⟨now, events, sr, run, .refl⟩

theorem Moment.changes {depth : Nat} (moment : Moment net depth sr)
    (changes : Changes net (fun _ => True) sr next) : Moment net depth next := by
  obtain ⟨now, events, start, run, before⟩ := moment
  exact ⟨now, events, start, run, before.trans changes⟩

/-- The queue invariant holds at every moment. -/
theorem Moment.inv {depth : Nat} (moment : Moment net depth sr) :
    Inv (RoutedVia net) (FromInterface net) sr := by
  obtain ⟨now, events, start, run, changes⟩ := moment
  have initially : Inv (RoutedVia net) (FromInterface net) (srArpcacheInit now) := by
    constructor <;> simp [srArpcacheInit]
  have all := (changes_of_run run).trans changes
  clear run changes
  induction all with
  | refl => exact initially
  | tail _ change inductionHypothesis => exact change.inv (nextHop net) inductionHypothesis

/-! ### Answers -/

/-- An ARP reply from the owner of an address to an address of the router. -/
structure IsArpReply (reply : List Byte) (owner own : IpAddr) : Prop where
  long : 42 ≤ reply.length
  isArp : etherType reply = ethertypeArp
  isReply : arOp reply = arpOpReply
  sender : arSip reply = owner
  target : arTip reply = own

/-- The router takes a reply that is addressed to the interface that leads to that address. -/
def Accepts (net : Network) (own : IpAddr) : Prop :=
  ∃ rtentry ifc, Leads net own rtentry ifc ∧ ifc.ip = own

/-- The packets of an answered request are all sent, in the order of the list. -/
theorem releasePackets_eq {mac : Mac} {packets : List Packet} {gateway : IpAddr}
    (routed : ∀ walk ∈ packets, RoutedVia net gateway walk) :
    ∃ done, releasePackets net mac packets sr = .ok done ∧
      done.handed = sr.handed ++ packets.map (released mac) := by
  induction packets generalizing sr with
  | nil => exact ⟨sr, rfl, by simp⟩
  | cons walk rest inductionHypothesis =>
      obtain ⟨rtentry, ifc, ⟨route, _⟩, _⟩ := routed walk List.mem_cons_self
      obtain ⟨done, returned, handed⟩ := @inductionHypothesis
        (srSendPacket net (released mac walk) sr)
        (fun other later => routed other (List.mem_cons_of_mem _ later))
      refine ⟨done, ?_, ?_⟩
      · unfold releasePackets releasePacket
        apply bind_eq_ok.mpr
        refine ⟨_, bind_eq_ok.mpr ⟨rtentry, ?_, rfl⟩, returned⟩
        simpa [routeTo] using route
      · rw [handed, srSendPacket_handed, List.append_assoc]
        rfl

/-- What an accepted reply does. -/
theorem react_reply {depth : Nat} {reply : List Byte} {owner own : IpAddr}
    (isReply : IsArpReply reply owner own) (accepts : Accepts net own) :
    react net depth sr (.frame reply) =
      match srArpcacheInsert (arSha reply) owner sr with
      | (some arpreq, sr) => do
          let sr ← releasePackets net (arSha reply) arpreq.packets sr
          .ok (unlinkReq arpreq.id sr)
      | (none, sr) => .ok sr := by
  obtain ⟨rtentry, ifc, ⟨route, isInterface⟩, own_eq⟩ := accepts
  have notIp : etherType reply ≠ ethertypeIp := by
    rw [isReply.isArp]
    decide
  have notRequest : arOp reply ≠ arpOpRequest := by
    rw [isReply.isReply]
    decide
  have long := isReply.long
  unfold react srHandlepacket handleArp
  dsimp only
  rw [if_neg (by omega), if_neg notIp, if_pos isReply.isArp, if_neg (by omega), isReply.target,
    isReply.sender]
  simp only [routeTo, route, deref, interfaceOf, isInterface, bind, Except.bind]
  have addressed : ¬own ≠ ifc.ip := not_not.mpr own_eq.symm
  exact (if_neg addressed).trans ((if_neg notRequest).trans (if_pos isReply.isReply))

/-- The pending request for an address is the one that an insertion takes off the queue. -/
theorem srArpcacheInsert_found {req : ArpReq} {mac : Mac}
    (inv : Inv (RoutedVia net) (FromInterface net) sr) (pending : req ∈ sr.requests) :
    (srArpcacheInsert mac req.ip sr).1 = some req := by
  unfold srArpcacheInsert
  dsimp only
  cases search : sr.requests.find? fun other => other.ip = req.ip with
  | none =>
      have missing := List.find?_eq_none.mp search req pending
      exact absurd (decide_eq_true rfl) missing
  | some other =>
      have otherIp : other.ip = req.ip := by simpa using List.find?_some search
      rw [inv.unique pending (List.mem_of_find?_eq_some search) otherIp]

/-- A request that was taken off the queue is not found there a second time. -/
theorem srArpcacheInsert_gone {req : ArpReq} {mac : Mac}
    (inv : Inv (RoutedVia net) (FromInterface net) sr) (pending : req ∈ sr.requests) :
    ∀ other ∈ (srArpcacheInsert mac req.ip sr).2.requests, other.id ≠ req.id := by
  intro other member sameId
  have otherPending : other ∈ sr.requests := List.mem_of_mem_eraseP member
  have same : other = req := inv.same otherPending pending sameId
  rw [same] at member
  exact ne_of_mem_eraseP inv.distinct req member rfl

theorem unlinkReq_eq_self {id : Nat} (gone : ∀ req ∈ sr.requests, req.id ≠ id) :
    unlinkReq id sr = sr := by
  unfold unlinkReq
  rw [List.eraseP_of_forall_not]
  intro req member
  simpa using gone req member

/-- An accepted reply for the address of a pending request sends all its packets and removes it, and
the other requests stay. -/
theorem Moment.react_answer {depth : Nat} {reply : List Byte} {own : IpAddr} {req : ArpReq}
    (moment : Moment net depth sr) (pending : req ∈ sr.requests)
    (isReply : IsArpReply reply req.ip own) (accepts : Accepts net own) :
    ∃ done, react net depth sr (.frame reply) = .ok done ∧
      done.handed = sr.handed ++ req.packets.map (released (arSha reply)) ∧
      done.requests = sr.requests.eraseP (fun other => other.ip = req.ip) ∧
      req.id ∉ done.requests.map fun req => req.id := by
  have inv := moment.inv
  obtain ⟨done, returned, handed⟩ := @releasePackets_eq net
    (srArpcacheInsert (arSha reply) req.ip sr).2 (arSha reply) req.packets req.ip
    (inv.queued req pending)
  have requests := (releasePackets_keeps returned).1
  have gone : ∀ other ∈ done.requests, other.id ≠ req.id := by
    rw [requests]
    exact srArpcacheInsert_gone inv pending
  refine ⟨done, ?_, handed, requests, ?_⟩
  · rw [react_reply isReply accepts, ← Prod.mk.eta (p := srArpcacheInsert (arSha reply) req.ip sr),
      srArpcacheInsert_found inv pending]
    apply bind_eq_ok.mpr
    exact ⟨done, returned, by rw [unlinkReq_eq_self gone]⟩
  · intro member
    obtain ⟨other, otherMember, sameId⟩ := List.mem_map.mp member
    exact gone other otherMember sameId

/-! ### A reply of the lab -/

/-- A packet from one application server to the other. -/
def labPacket (ttl : Byte) : List Byte := ipFrame ttl 17 0xC0A80202 0xAC40030A []

def labRoute : Route := ⟨0xAC40030A, 0xAC40030A, 0xFFFFFF00, "eth2"⟩

def labInterface : Interface := ⟨"eth2", routerMac 2, 0xAC400301⟩

/-- The reply of the second application server. -/
def labReply : List Byte :=
  arpFrame labInterface.addr neighbourMac arpOpReply neighbourMac
    0xAC40030A labInterface.addr 0xAC400301

theorem labReply_isArpReply : IsArpReply labReply 0xAC40030A 0xAC400301 := by
  constructor <;> decide +kernel

theorem lab_accepts : Accepts labNetwork 0xAC400301 :=
  ⟨labRoute, labInterface, by constructor <;> decide +kernel, by decide⟩

end EE323.Router

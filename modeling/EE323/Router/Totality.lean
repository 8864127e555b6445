/-
Module: EE323.Router.Totality
Purpose: The lookups that are used without a check.  A reaction dereferences no missing route,
  interface or packet when the source of a packet that is reported, the target of an ARP frame and
  the addresses of the reports of expired requests are routable.
Main exports: NonNull, LookupsHit, handleArpreq_safe, no_null_dereference
-/
import EE323.Router.Dispatch

namespace EE323.Router

open EE323.Lib

/-- The faults that are not null dereferences. -/
def NonNull : Fault → Prop
  | .nullRoute => False
  | .nullInterface => False
  | .nullPacket => False
  | .useAfterFree => True
  | .overread => True
  | .stackOverflow => True

/-- An operation on the state that dereferences nothing that is missing. -/
abbrev Safe (post : Instance → Prop) : Except Fault Instance → Prop := Ensures NonNull post

variable {net : Network} {start sr next : Instance} {root : IpAddr → Prop}

section Reporting

variable {handle : Nat → Instance → Except Fault Instance}

/-- A handler that is safe on every request that may be handled. -/
def Handles (net : Network) (start : Instance) (root : IpAddr → Prop)
    (handle : Nat → Instance → Except Fault Instance) : Prop :=
  ∀ {id sr}, Within net start root sr → MayHandle net start root id sr →
    Safe (Within net start root) (handle id sr)

theorem answerPacket_safe (handles : Handles net start root handle) (verified : Verified net)
    (hit : ReportsHit net start root) (within : Within net start root sr) {req : ArpReq}
    {walk : Packet} (reports : Reports net start root req.ip walk.buf) :
    Safe (Within net start root) (answerPacket handle net req walk sr) := by
  obtain ⟨ownRoutable, otherRoutable⟩ := hit _ _ reports
  obtain ⟨own, ownIfc, leadsOwn⟩ := ownRoutable.leads verified
  obtain ⟨other, otherIfc, leadsOther⟩ := otherRoutable.leads verified
  rw [answerPacket_eq leadsOwn leadsOther]
  split
  · exact .error trivial
  have sameLookup := srArpcacheLookup_congr within.entries other.gw
  cases known : srArpcacheLookup sr other.gw with
  | some arpentry =>
      rw [sendOrQueue_known known]
      have passes := report_passes ownIfc.ip req.id walk.buf leadsOther
      exact .ok (within.send (passes.2 arpentry.mac))
  | none =>
      rw [sendOrQueue_unknown known]
      have unknown := sameLookup.symm.trans known
      have passes := report_passes ownIfc.ip req.id walk.buf leadsOther
      have after := within.queueReport reports leadsOwn leadsOther unknown passes.1
        (by dsimp only)
      exact handles after (mayHandle_queueReport reports leadsOther unknown within after)

theorem answerPackets_safe (handles : Handles net start root handle) (verified : Verified net)
    (hit : ReportsHit net start root) {req : ArpReq} {packets : List Packet}
    (within : Within net start root sr)
    (reports : ∀ walk ∈ packets, Reports net start root req.ip walk.buf) :
    Safe (Within net start root) (answerPackets handle net req packets sr) := by
  induction packets generalizing sr with
  | nil => exact .ok within
  | cons walk rest inductionHypothesis =>
      unfold answerPackets
      cases findReq sr req.id with
      | none => exact .error trivial
      | some found =>
          apply Ensures.bind (answerPacket_safe handles verified hit within
            (reports walk List.mem_cons_self))
          intro middle middleWithin
          exact inductionHypothesis middleWithin
            (fun other later => reports other (List.mem_cons_of_mem _ later))

end Reporting

theorem destroy_safe {id : Nat} (within : Within net start root sr) :
    Safe (Within net start root) (srArpreqDestroy id sr) := by
  unfold srArpreqDestroy
  split
  · apply Ensures.ok
    apply within.of_subset (within.inv.remove List.eraseP_sublist)
    · rfl
    · rfl
    · exact fun _ member _ => List.mem_of_mem_eraseP member
  · exact .error trivial

/-- `sr_arpcache_handle_arpreq` dereferences nothing that is missing. -/
theorem handleArpreq_safe (verified : Verified net) (hit : ReportsHit net start root)
    (depth : Nat) : Handles net start root (srArpcacheHandleArpreq net depth) := by
  induction depth with
  | zero =>
      intro id sr within mayHandle
      exact .error trivial
  | succ depth inductionHypothesis =>
      intro id sr within mayHandle
      unfold srArpcacheHandleArpreq
      cases found : findReq sr id with
      | none => exact .error trivial
      | some req =>
          obtain ⟨pending, sameId⟩ := findReq_eq_some found
          show Safe _ (if req.Due sr.now then _ else _)
          split
          · rename_i due
            split
            · rename_i failed
              have expired : req.Expired start.now := by
                rw [← within.now]
                exact ⟨due, failed⟩
              apply Ensures.bind (answerPackets_safe inductionHypothesis verified hit within
                (mayHandle req pending sameId expired))
              exact fun answered afterWithin => destroy_safe afterWithin
            · obtain ⟨next, returned⟩ := sendArpRequest_returns within.inv pending
              rw [returned]
              exact .ok (within.request pending returned)
          · exact .ok within

/-- Every request may be handled when all requests are roots. -/
theorem sweepFrom_safe {depth : Nat} {ids : List Nat} {pointer : Option Nat}
    (verified : Verified net) (hit : ReportsHit net start fun _ => True)
    (within : Within net start (fun _ => True) sr) :
    Safe (Within net start fun _ => True) (sweepFrom net depth ids pointer sr) := by
  induction ids generalizing sr pointer with
  | nil => exact .ok within
  | cons id rest inductionHypothesis =>
      unfold sweepFrom
      split
      · cases findReq sr id with
        | none => exact .error trivial
        | some found =>
            have mayHandle : MayHandle net start (fun _ => True) id sr :=
              fun req pending _ expired => within.ready pending expired (.inl trivial)
            show Safe _ (srArpcacheHandleArpreq net depth id sr >>= _)
            apply Ensures.bind (handleArpreq_safe verified hit depth within mayHandle)
            exact fun middle middleWithin => inductionHypothesis middleWithin
      · exact inductionHypothesis within

/-! ### Events -/

/-- The addresses that the reaction to an event looks up without a check are routable: the source of
a packet that is reported, the target of an ARP frame, and those of the reports that expired
requests make, which are the request that the packet is queued on or all requests in a sweep. -/
def LookupsHit (net : Network) (sr : Instance) : Event → Prop
  | .frame packet =>
      (etherType packet = ethertypeIp →
        (NeedsReport net packet → Routable net (ipSrc packet)) ∧
        ∀ job, ipJob net packet = .ok (some job) → srArpcacheLookup sr job.rtentry.gw = none →
          ReportsHit net
            (srArpcacheQueuereq job.rtentry.gw ⟨job.buf, job.rtentry.interface, job.origin⟩ sr).2
            fun ip => ip = job.rtentry.gw) ∧
      (etherType packet = ethertypeArp → 42 ≤ packet.length → Routable net (arTip packet))
  | .sweep => ReportsHit net (timedOut sr) fun _ => True
  | .clock _ => True

theorem releasePackets_safe {mac : Mac} {packets : List Packet} {gateway : IpAddr}
    (routed : ∀ walk ∈ packets, RoutedVia net gateway walk) :
    Safe (fun _ => True) (releasePackets net mac packets sr) := by
  obtain ⟨done, returned, _⟩ := @releasePackets_eq net sr mac packets gateway routed
  rw [returned]
  exact .ok trivial

theorem handleArp_safe {packet : List Byte} (inv : Inv (RoutedVia net) (FromInterface net) sr)
    (verified : Verified net) (hit : 42 ≤ packet.length → Routable net (arTip packet)) :
    Safe (fun _ => True) (handleArp net packet sr) := by
  unfold handleArp
  split
  · exact .ok trivial
  · obtain ⟨rtentry, ifc, route, isInterface⟩ := (hit (by omega)).leads verified
    simp only [routeTo, route, interfaceOf, isInterface, deref, bind, Except.bind]
    split
    · exact .ok trivial
    split
    · exact .ok trivial
    split
    · split
      · rename_i arpreq after inserted
        obtain ⟨found, rfl⟩ := Prod.mk.inj inserted
        have safe := @releasePackets_safe net
          (srArpcacheInsert (arSha packet) (arSip packet) sr).2 (arSha packet) _ _
          (inv.queued arpreq (List.mem_of_find?_eq_some found))
        exact safe.bind fun released _ => .ok trivial
      · exact .ok trivial
    · exact .ok trivial

theorem handleIp_safe {packet : List Byte} {depth : Nat}
    (inv : Inv (RoutedVia net) (FromInterface net) sr) (verified : Verified net)
    (isIp : etherType packet = ethertypeIp)
    (reported : NeedsReport net packet → Routable net (ipSrc packet))
    (hit : ∀ job, ipJob net packet = .ok (some job) → srArpcacheLookup sr job.rtentry.gw = none →
      ReportsHit net
        (srArpcacheQueuereq job.rtentry.gw ⟨job.buf, job.rtentry.interface, job.origin⟩ sr).2
        fun ip => ip = job.rtentry.gw) :
    Safe (fun _ => True) (handleIp (srArpcacheHandleArpreq net depth) net packet sr) := by
  rw [handleIp_eq]
  have decides := ipJob_decides verified isIp reported
  cases decision : ipJob net packet with
  | error fault =>
      rw [decision] at decides
      exact absurd decides.allowed_of_error id
  | ok outcome =>
      rw [decision] at decides
      cases outcome with
      | none => exact .ok trivial
      | some job =>
          have passes := (nextHop net).passes (decides.post_of_ok job rfl)
          show Safe _ (sendOrQueue _ net job.edit job.rtentry job.buf job.origin sr)
          cases known : srArpcacheLookup sr job.rtentry.gw with
          | some arpentry =>
              rw [sendOrQueue_known known]
              exact .ok trivial
          | none =>
              rw [sendOrQueue_unknown known]
              have within : Within net _ (fun ip => ip = job.rtentry.gw) _ :=
                .refl (inv.queue passes.1)
              apply (handleArpreq_safe verified (hit job decision known) depth within ?_).mono
                (fun _ isAllowed => isAllowed) (fun _ _ => trivial)
              intro req pending isTarget expired
              have sameIp := (queued_in_front inv.allocated inv.identified pending isTarget).1
              exact within.ready pending expired (.inl sameIp)

/-- A router whose tables were verified dereferences no missing route, interface or packet in its
reaction to an event, in any state that it reaches, if the lookups that it does not check hit. -/
theorem no_null_dereference {depth now : Nat} {events : List Event} {event : Event}
    (checked : srVerifyRoutingTable net = 0)
    (run : Run (step net depth) anyStep (srArpcacheInit now) events sr)
    (hits : LookupsHit net sr event) :
    react net depth sr event ≠ .error .nullRoute ∧
      react net depth sr event ≠ .error .nullInterface ∧
      react net depth sr event ≠ .error .nullPacket := by
  have verified := Verified.of_check checked
  have inv := (Moment.of_run run).inv
  have safe : Safe (fun _ => True) (react net depth sr event) := by
    cases event with
    | frame packet =>
        unfold react srHandlepacket
        dsimp only
        split
        · exact .ok trivial
        split
        · rename_i isIp
          obtain ⟨reported, hit⟩ := hits.1 isIp
          exact handleIp_safe inv verified isIp reported hit
        split
        · rename_i isArp
          exact handleArp_safe inv verified (hits.2 isArp)
        · exact .ok trivial
    | sweep =>
        have within : Within net (timedOut sr) (fun _ => True) (timedOut sr) :=
          .refl (inv.remove (List.Sublist.refl _))
        exact (sweepFrom_safe verified hits within).mono (fun _ isAllowed => isAllowed)
          (fun _ _ => trivial)
    | clock now => exact .ok trivial
  refine ⟨?_, ?_, ?_⟩
  · intro failed
    rw [failed] at safe
    exact safe.allowed_of_error
  · intro failed
    rw [failed] at safe
    exact safe.allowed_of_error
  · intro failed
    rw [failed] at safe
    exact safe.allowed_of_error

/-- A datagram with eight bytes of data from the host to the router's first interface. -/
def datagramFrom (source : IpAddr) : List Byte :=
  ipFrame 64 17 source 0xC0A80201 (List.replicate 8 1)

/-- The port unreachable message about a datagram from a neighbour dereferences nothing missing. -/
theorem no_null_dereference_neighbour :
    react labNetwork 4 (srArpcacheInit 5) (.frame (datagramFrom 0xC0A80202)) ≠ .error .nullRoute ∧
      react labNetwork 4 (srArpcacheInit 5) (.frame (datagramFrom 0xC0A80202)) ≠
        .error .nullInterface ∧
      react labNetwork 4 (srArpcacheInit 5) (.frame (datagramFrom 0xC0A80202)) ≠
        .error .nullPacket := by
  have routable : Routable labNetwork (ipSrc (datagramFrom 0xC0A80202)) :=
    Option.isSome_iff_exists.mp (by decide +kernel)
  have notArp : etherType (datagramFrom 0xC0A80202) ≠ ethertypeArp := by decide +kernel
  apply no_null_dereference (by decide) (.refl (srArpcacheInit 5))
  constructor
  · intro isIp
    constructor
    · exact fun _ => routable
    · intro job decided unknown
      apply reportsHit_of_not_expired
      intro req pending
      obtain rfl := List.mem_singleton.mp pending
      exact fun expired => absurd expired.2 (Nat.not_succ_le_zero 4)
  · exact fun isArp => absurd isArp notArp

/-- A datagram from a host that no route leads to stops the router. -/
theorem null_route_dereferenced :
    srVerifyRoutingTable labNetwork = 0 ∧
      Run (step labNetwork 4) anyStep (srArpcacheInit 5) [] (srArpcacheInit 5) ∧
      react labNetwork 4 (srArpcacheInit 5) (.frame (datagramFrom 0x08080808)) =
        .error .nullRoute := by
  constructor
  · decide
  constructor
  · exact .refl _
  · decide +kernel

end EE323.Router

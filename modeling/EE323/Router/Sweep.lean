/-
Module: EE323.Router.Sweep
Purpose: The loop of `sr_arpcache_sweepreqs`, which saves the pointer to the next request before it
  handles one.  A call destroys other requests than its own when a report of an expired request has
  to be queued on another expired one, and the loop is safe when that never is the next.
Main exports: pendingIds, Ordered, Reaches, handleArpreq_kept, Sweeping, SweepSafe, sweep_safe,
  next_destroyed
-/
import EE323.Lib.Successor
import EE323.Router.Expiry

namespace EE323.Router

open EE323.Lib

variable {net : Network} {Received : List Byte → Prop} {depth : Nat}
  {start sr middle next : Instance} {root : IpAddr → Prop}

/-! ### The order of the queue -/

/-- The pending requests, in the order of the list. -/
def pendingIds (sr : Instance) : List Nat := sr.requests.map fun req => req.id

theorem mem_pendingIds {id : Nat} : id ∈ pendingIds sr ↔ ∃ req ∈ sr.requests, req.id = id :=
  List.mem_map

/-- No request is in the list twice, and each has been allocated. -/
theorem pendingIds_settled {Queued : IpAddr → Packet → Prop} {Sent : Packet → Prop}
    (inv : Inv Queued Sent sr) :
    (pendingIds sr).Nodup ∧ ∀ id ∈ pendingIds sr, ¬sr.nextReq ≤ id := by
  refine ⟨inv.identified, ?_⟩
  intro id member
  obtain ⟨req, pending, rfl⟩ := mem_pendingIds.mp member
  exact Nat.not_le_of_lt (inv.allocated req pending)

/-- The requests that were there before and are left are in the same order, behind new ones. -/
def Ordered (sr next : Instance) : Prop :=
  sr.nextReq ≤ next.nextReq ∧ Kept (fun id => sr.nextReq ≤ id) (pendingIds sr) (pendingIds next)

theorem Ordered.refl (sr : Instance) : Ordered sr sr := ⟨Nat.le_refl _, .refl _⟩

theorem Ordered.trans (one : Ordered sr middle) (two : Ordered middle next) : Ordered sr next :=
  ⟨Nat.le_trans one.1 two.1, one.2.trans two.2 fun _ fresh => Nat.le_trans one.1 fresh⟩

theorem Ordered.of_eq (requests : pendingIds next = pendingIds sr)
    (nextReq : next.nextReq = sr.nextReq) : Ordered sr next :=
  ⟨Nat.le_of_eq nextReq.symm, requests ▸ .refl _⟩

theorem Ordered.of_sublist (fewer : next.requests.Sublist sr.requests)
    (nextReq : next.nextReq = sr.nextReq) : Ordered sr next :=
  ⟨Nat.le_of_eq nextReq.symm, .of_sublist (fewer.map _)⟩

theorem pendingIds_updateReq {id : Nat} {change : ArpReq → ArpReq}
    (keepsId : ∀ req, (change req).id = req.id) :
    pendingIds (updateReq id change sr) = pendingIds sr := by
  unfold pendingIds updateReq
  rw [List.map_map]
  apply List.map_congr_left
  intro req _
  dsimp only [Function.comp]
  split
  · exact keepsId req
  · rfl

theorem Ordered.send (packet : Packet) (sr : Instance) :
    Ordered sr (srSendPacket net packet sr) := by
  apply Ordered.of_eq
  · unfold pendingIds
    rw [srSendPacket_requests]
  · exact srSendPacket_nextReq _ _

theorem Ordered.queue (ip : IpAddr) (packet : Packet) (sr : Instance) :
    Ordered sr (srArpcacheQueuereq ip packet sr).2 := by
  unfold srArpcacheQueuereq
  dsimp only
  split
  · apply Ordered.of_eq
    · apply pendingIds_updateReq
      exact fun _ => rfl
    · rfl
  · exact ⟨Nat.le_succ _, .cons (Nat.le_refl _) _⟩

theorem Change.ordered (change : Change net Received sr next) : Ordered sr next := by
  cases change with
  | send mac path => exact .send _ _
  | queue path => exact .queue _ _ _
  | request pending returned =>
      obtain ⟨head, ifc, rtentry, _, _, _, rfl⟩ := sendArpRequest_eq returned
      apply (Ordered.send _ sr).trans
      apply Ordered.of_eq
      · apply pendingIds_updateReq
        exact fun _ => rfl
      · rfl
  | destroy => exact .of_sublist List.eraseP_sublist rfl
  | reply leads => exact .send _ _
  | learn mac ip unasked => exact .of_sublist List.eraseP_sublist rfl
  | release found returned =>
      obtain ⟨requests, nextReq⟩ := releasePackets_keeps returned
      apply Ordered.of_sublist
      · rw [requests]
        exact List.eraseP_sublist
      · exact nextReq
  | timeout entries => exact .of_eq rfl rfl
  | clock now => exact .of_eq rfl rfl

theorem Changes.ordered (changes : Changes net Received sr next) : Ordered sr next := by
  induction changes with
  | refl => exact .refl sr
  | tail _ change inductionHypothesis => exact inductionHypothesis.trans change.ordered

/-! ### What a call destroys -/

/-- No report has to be queued on an expired request for the address. -/
def Spared (net : Network) (start : Instance) (root : IpAddr → Prop) (ip : IpAddr) : Prop :=
  ∀ source buf req, Reports net start root source buf → Lands net start (ipSrc buf) req →
    req.ip ≠ ip

/-- What a call that handles a request, or a report, leaves: expired requests as they were, and
every request that is spared. -/
structure Leaves (net : Network) (start : Instance) (root : IpAddr → Prop) (handled : Option Nat)
    (sr next : Instance) : Prop where
  within : Within net start root next
  expired : ∀ req ∈ next.requests, req.Expired start.now → req ∈ sr.requests ∧ handled ≠ some req.id
  spared : ∀ req ∈ sr.requests, (handled = some req.id → ¬req.Expired start.now) →
    Spared net start root req.ip → ∃ later ∈ next.requests, later.id = req.id ∧ later.ip = req.ip

theorem Leaves.refl (within : Within net start root sr) : Leaves net start root none sr sr where
  within := within
  expired := fun _ pending _ => ⟨pending, Option.some_ne_none _ |>.symm⟩
  spared := fun req pending _ _ => ⟨req, pending, rfl, rfl⟩

theorem Leaves.trans (one : Leaves net start root none sr middle)
    (two : Leaves net start root none middle next) : Leaves net start root none sr next where
  within := two.within
  expired := by
    intro req pending expired
    exact one.expired req (two.expired req pending expired).1 expired
  spared := by
    intro req pending _ spared
    obtain ⟨between, betweenPending, id, ip⟩ := one.spared req pending (fun same => nomatch same) spared
    obtain ⟨later, laterPending, laterId, laterIp⟩ :=
      two.spared between betweenPending (fun same => nomatch same) (ip ▸ spared)
    exact ⟨later, laterPending, laterId.trans id, laterIp.trans ip⟩

/-- A frame that is sent leaves every request. -/
theorem Leaves.send {frame : Packet} (within : Within net start root sr)
    (own : FromInterface net frame) :
    Leaves net start root none sr (srSendPacket net frame sr) where
  within := within.send own
  expired := by
    rw [srSendPacket_requests]
    exact fun _ pending _ => ⟨pending, nofun⟩
  spared := by
    rw [srSendPacket_requests]
    exact fun other pending _ _ => ⟨other, pending, rfl, rfl⟩

/-- Every request is still there after a packet was queued. -/
theorem queueing_stays {req : ArpReq} (ip : IpAddr) (packet : Packet) (pending : req ∈ sr.requests) :
    ∃ later ∈ (srArpcacheQueuereq ip packet sr).2.requests, later.id = req.id ∧ later.ip = req.ip := by
  unfold srArpcacheQueuereq
  dsimp only
  split
  · refine ⟨_, List.mem_map_of_mem pending, ?_⟩
    split
    · exact ⟨rfl, rfl⟩
    · exact ⟨rfl, rfl⟩
  · exact ⟨req, List.mem_cons_of_mem _ pending, rfl, rfl⟩

/-- Only the request that a packet is queued on changes. -/
theorem queueing_others {ip : IpAddr} {packet : Packet} {req : ArpReq}
    (pending : req ∈ (srArpcacheQueuereq ip packet sr).2.requests)
    (other : req.id ≠ (srArpcacheQueuereq ip packet sr).1) : req ∈ sr.requests := by
  unfold srArpcacheQueuereq at pending other
  dsimp only at pending other
  split at pending
  · rename_i found search
    rw [search] at other
    obtain ⟨before, known, rfl⟩ := List.mem_map.mp pending
    by_cases same : before.id = found.id
    · rw [if_pos same] at other
      exact absurd same other
    · rw [if_neg same]
      exact known
  · rename_i search
    rw [search] at other
    rcases List.mem_cons.mp pending with rfl | known
    · exact absurd rfl other
    · exact known

variable {handle : Nat → Instance → Except Fault Instance}

/-- A handler of requests that leaves the others. -/
def LeavesOthers (net : Network) (start : Instance) (root : IpAddr → Prop)
    (handle : Nat → Instance → Except Fault Instance) : Prop :=
  ∀ {id sr next}, Within net start root sr → MayHandle net start root id sr →
    handle id sr = .ok next → Leaves net start root (some id) sr next

/-- A report that was queued. -/
theorem landing_leaves {gateway : IpAddr} {message : Packet} {buf : List Byte} {source : IpAddr}
    (leaves : LeavesOthers net start root handle) (within : Within net start root sr)
    (after : Within net start root (srArpcacheQueuereq gateway message sr).2)
    (reports : Reports net start root source buf)
    (lands : ∀ first ∈ start.requests, first.ip = gateway → first.Expired start.now →
      Lands net start (ipSrc buf) first)
    (mayHandle : MayHandle net start root (srArpcacheQueuereq gateway message sr).1
      (srArpcacheQueuereq gateway message sr).2)
    (returned : handle (srArpcacheQueuereq gateway message sr).1
      (srArpcacheQueuereq gateway message sr).2 = .ok next) :
    Leaves net start root none sr next := by
  have handled := leaves after mayHandle returned
  refine ⟨handled.within, ?_, ?_⟩
  · intro later pending expired
    obtain ⟨inAfter, notTarget⟩ := handled.expired later pending expired
    exact ⟨queueing_others inAfter fun isTarget => notTarget (congrArg some isTarget).symm, nofun⟩
  · intro req pending _ spared
    obtain ⟨between, inAfter, id, ip⟩ := queueing_stays gateway message pending
    have unexpired : some (srArpcacheQueuereq gateway message sr).1 = some between.id →
        ¬between.Expired start.now := by
      intro isTarget expired
      have targetIp := (queued_in_front within.inv.allocated within.inv.identified inAfter
        (Option.some.inj isTarget).symm).1
      obtain ⟨first, firstPending, sameIp, firstExpired, _⟩ := after.expired between inAfter expired
      have landed := lands first firstPending (sameIp.trans targetIp) firstExpired
      exact spared _ _ first reports landed (sameIp.trans ip)
    obtain ⟨later, laterPending, laterId, laterIp⟩ :=
      handled.spared between inAfter unexpired (ip ▸ spared)
    exact ⟨later, laterPending, laterId.trans id, laterIp.trans ip⟩

theorem answerPacket_leaves {req : ArpReq} {walk : Packet}
    (leaves : LeavesOthers net start root handle) (within : Within net start root sr)
    (reports : Reports net start root req.ip walk.buf)
    (returned : answerPacket handle net req walk sr = .ok next) :
    Leaves net start root none sr next := by
  unfold answerPacket at returned
  obtain ⟨own, ownRoute, returned⟩ := bind_eq_ok.mp returned
  obtain ⟨ownIfc, ownInterface, returned⟩ := bind_eq_ok.mp returned
  obtain ⟨other, route, returned⟩ := bind_eq_ok.mp returned
  obtain ⟨otherIfc, isInterface, returned⟩ := bind_eq_ok.mp returned
  have leadsOwn := routeTo_interfaceOf ownRoute ownInterface
  have leadsOther := routeTo_interfaceOf route isInterface
  have passes := report_passes ownIfc.ip req.id walk.buf leadsOther
  split at returned
  · cases returned
  cases known : srArpcacheLookup sr other.gw with
  | some arpentry =>
      rw [sendOrQueue_known known] at returned
      rw [← Except.ok.inj returned]
      exact .send within (passes.2 arpentry.mac)
  | none =>
      rw [sendOrQueue_unknown known] at returned
      have unknown := (srArpcacheLookup_congr within.entries other.gw).symm.trans known
      have after := within.queueReport reports leadsOwn leadsOther unknown passes.1
        (by dsimp only)
      have mayHandle := mayHandle_queueReport reports leadsOther unknown within after
      apply landing_leaves leaves within after reports _ mayHandle returned
      intro first firstPending isGateway expired
      exact ⟨other, leadsOther.1, unknown, firstPending, isGateway, expired⟩

theorem answerPackets_leaves {req : ArpReq} {packets : List Packet}
    (leaves : LeavesOthers net start root handle) (within : Within net start root sr)
    (reports : ∀ walk ∈ packets, Reports net start root req.ip walk.buf)
    (returned : answerPackets handle net req packets sr = .ok next) :
    Leaves net start root none sr next := by
  induction packets generalizing sr with
  | nil =>
      cases returned
      exact .refl within
  | cons walk rest inductionHypothesis =>
      unfold answerPackets at returned
      obtain ⟨_, _, returned⟩ := bind_eq_ok.mp returned
      obtain ⟨middle, answered, returned⟩ := bind_eq_ok.mp returned
      have one := answerPacket_leaves leaves within (reports walk List.mem_cons_self) answered
      exact one.trans (inductionHypothesis one.within
        (fun other later => reports other (List.mem_cons_of_mem _ later)) returned)

/-- Sending a request again leaves the requests that are expired, and it is not one of them. -/
theorem sendArpRequest_leaves {req : ArpReq} (within : Within net start root sr)
    (pending : req ∈ sr.requests) (returned : sendArpRequest net req sr = .ok next) :
    Leaves net start root (some req.id) sr next := by
  refine ⟨within.request pending returned, ?_, ?_⟩
  · intro later member expired
    obtain ⟨known, otherId⟩ := within.resent returned later member expired
    exact ⟨known, fun same => otherId (Option.some.inj same).symm⟩
  · obtain ⟨head, ifc, rtentry, _, _, _, rfl⟩ := sendArpRequest_eq returned
    intro other known _ _
    refine ⟨_, List.mem_map_of_mem ((srSendPacket_requests _ _).symm ▸ known), ?_⟩
    split
    · exact ⟨rfl, rfl⟩
    · exact ⟨rfl, rfl⟩

/-- Destroying the request that has expired leaves the others. -/
theorem Leaves.destroy {req : ArpReq} (leaves : Leaves net start root none sr middle)
    (inv : Inv (RoutedVia net) (FromInterface net) sr) (pending : req ∈ sr.requests)
    (expired : req.Expired start.now) (returned : srArpreqDestroy req.id middle = .ok next) :
    Leaves net start root (some req.id) sr next := by
  unfold srArpreqDestroy at returned
  split at returned
  · cases returned
    refine ⟨?_, ?_, ?_⟩
    · apply leaves.within.of_subset (leaves.within.inv.remove List.eraseP_sublist)
      · rfl
      · rfl
      · exact fun _ member _ => List.mem_of_mem_eraseP member
    · intro later member isExpired
      have known := List.mem_of_mem_eraseP member
      have other := ne_of_mem_eraseP leaves.within.inv.identified later member
      exact ⟨(leaves.expired later known isExpired).1,
        fun same => other (Option.some.inj same).symm⟩
    · intro other otherPending apart spared
      obtain ⟨later, known, id, ip⟩ := leaves.spared other otherPending
        (fun impossible => absurd impossible (Option.some_ne_none other.id).symm) spared
      refine ⟨later, (List.mem_eraseP_of_neg ?_).mpr known, id, ip⟩
      intro isHandled
      have sameId : other.id = req.id := id.symm.trans (by simpa using isHandled)
      have same := inv.same otherPending pending sameId
      exact apart (congrArg some sameId.symm) (same ▸ expired)
  · cases returned

/-- `sr_arpcache_handle_arpreq` leaves every request that is spared, but the expired one that it
handles. -/
theorem handleArpreq_leaves (depth : Nat) :
    LeavesOthers net start root (srArpcacheHandleArpreq net depth) := by
  induction depth with
  | zero =>
      intro id sr next _ _ returned
      cases returned
  | succ depth inductionHypothesis =>
      intro id sr next within mayHandle returned
      unfold srArpcacheHandleArpreq at returned
      obtain ⟨req, found, returned⟩ := bind_eq_ok.mp returned
      obtain ⟨pending, rfl⟩ := findReq_eq_some (deref_eq_ok.mp found)
      split at returned
      · rename_i due
        split at returned
        · rename_i failed
          have expired : req.Expired start.now := ⟨within.now ▸ due, failed⟩
          obtain ⟨middle, answered, returned⟩ := bind_eq_ok.mp returned
          have before := answerPackets_leaves inductionHypothesis within
            (mayHandle req pending rfl expired) answered
          exact before.destroy within.inv pending expired returned
        · exact sendArpRequest_leaves within pending returned
      · rename_i notDue
        cases returned
        refine ⟨within, ?_, ?_⟩
        · intro later member expired
          refine ⟨member, fun sameId => ?_⟩
          have same := within.inv.same pending member
            (Option.some.inj sameId)
          exact notDue (within.now ▸ same ▸ expired.1)
        · exact fun other member _ _ => ⟨other, member, rfl, rfl⟩

/-! ### The reports of one request -/

/-- A report of the first request, or of one that it makes report, has to be queued on the second,
which has expired. -/
def Reaches (net : Network) (sr : Instance) (req other : ArpReq) : Prop :=
  ∃ source buf, Reports net sr (fun ip => ip = req.ip) source buf ∧ Lands net sr (ipSrc buf) other

/-- Handling a request leaves the requests that it does not reach. -/
theorem handleArpreq_kept {req : ArpReq} (inv : Inv (RoutedVia net) (FromInterface net) sr)
    (pending : req ∈ sr.requests)
    (returned : srArpcacheHandleArpreq net depth req.id sr = .ok next) :
    Within net sr (fun ip => ip = req.ip) next ∧
      (∀ later ∈ next.requests, later.Expired sr.now → later ∈ sr.requests) ∧
      ∀ other ∈ sr.requests, other.id ∉ pendingIds next → other = req ∨ Reaches net sr req other := by
  have within : Within net sr (fun ip => ip = req.ip) sr := .refl inv
  have mayHandle : MayHandle net sr (fun ip => ip = req.ip) req.id sr := by
    intro other otherPending sameId expired
    have same := inv.same otherPending pending sameId
    exact within.ready otherPending expired (.inl (by rw [same]))
  have leaves := handleArpreq_leaves depth within mayHandle returned
  refine ⟨leaves.within, fun later member expired => (leaves.expired later member expired).1, ?_⟩
  intro other otherPending gone
  by_contra neither
  obtain ⟨notSame, notReached⟩ := not_or.mp neither
  have spared : Spared net sr (fun ip => ip = req.ip) other.ip := by
    intro source buf landed reports lands sameIp
    have landedPending : landed ∈ sr.requests := by
      obtain ⟨_, _, _, landedPending, _⟩ := lands
      exact landedPending
    have same := inv.unique otherPending landedPending sameIp
    exact notReached ⟨source, buf, reports, same ▸ lands⟩
  have apart : some req.id = some other.id → ¬other.Expired sr.now := by
    intro sameId _
    exact notSame (inv.same otherPending pending
      (Option.some.inj sameId).symm)
  obtain ⟨later, member, id, _⟩ := leaves.spared other otherPending apart spared
  exact gone (mem_pendingIds.mpr ⟨later, member, id⟩)

theorem Reports.expired {ip source : IpAddr} {buf : List Byte}
    (reports : Reports net sr (fun root => root = ip) source buf) :
    ∃ req ∈ sr.requests, req.ip = ip ∧ req.Expired sr.now := by
  induction reports with
  | root pending isRoot expired waits => exact ⟨_, pending, isRoot, expired⟩
  | waiting before lands waits inductionHypothesis => exact inductionHypothesis
  | message before lands own other inductionHypothesis => exact inductionHypothesis

section Fewer

variable (entries : sr.entries = start.entries) (now : sr.now = start.now)
  (fewer : ∀ req ∈ sr.requests, req.Expired start.now → req ∈ start.requests)

include entries now fewer

theorem Lands.of_fewer {dest : IpAddr} {req : ArpReq} (lands : Lands net sr dest req) :
    Lands net start dest req := by
  obtain ⟨rtentry, route, unknown, pending, isGateway, expired⟩ := lands
  rw [now] at expired
  exact ⟨rtentry, route, (srArpcacheLookup_congr entries _).symm.trans unknown,
    fewer req pending expired, isGateway, expired⟩

theorem Reports.of_fewer {source : IpAddr} {buf : List Byte} (reports : Reports net sr root source buf) :
    Reports net start root source buf := by
  induction reports with
  | root pending isRoot expired waits =>
      rw [now] at expired
      exact .root (fewer _ pending expired) isRoot expired waits
  | waiting before lands waits inductionHypothesis =>
      exact .waiting inductionHypothesis (lands.of_fewer entries now fewer) waits
  | message before lands own other inductionHypothesis =>
      exact .message inductionHypothesis (lands.of_fewer entries now fewer) own other

/-- What a request reaches when fewer requests have expired, it reaches when more have, and both
were there. -/
theorem Reaches.of_fewer {req other : ArpReq} (inv : Inv (RoutedVia net) (FromInterface net) sr)
    (pending : req ∈ sr.requests) (reaches : Reaches net sr req other) :
    req ∈ start.requests ∧ other ∈ start.requests ∧ Reaches net start req other := by
  obtain ⟨source, buf, reports, lands⟩ := reaches
  obtain ⟨root, rootPending, sameIp, expired⟩ := reports.expired
  have same := inv.unique pending rootPending sameIp
  rw [now, same] at expired
  have landed := lands.of_fewer entries now fewer
  have otherPending : other ∈ start.requests := by
    obtain ⟨_, _, _, otherPending, _⟩ := landed
    exact otherPending
  exact ⟨fewer req pending expired, otherPending, source, buf, reports.of_fewer entries now fewer,
    landed⟩

end Fewer

/-! ### The loop -/

/-- The head of the loop of `sr_arpcache_sweepreqs`: the requests handled so far, the pointer and
the state.  The pointer was saved before the last call. -/
inductive Sweeping (net : Network) (depth : Nat) (start : Instance) :
    List Nat → Option Nat → Instance → Prop where
  | first : Sweeping net depth start [] (pendingIds start).head? start
  | next {visited : List Nat} {req : ArpReq} {before after : Instance}
      (here : Sweeping net depth start visited (some req.id) before)
      (pending : req ∈ before.requests)
      (returned : srArpcacheHandleArpreq net depth req.id before = .ok after) :
      Sweeping net depth start (visited ++ [req.id]) (nextReq req.id before.requests) after

theorem nextReq_eq (id : Nat) (sr : Instance) :
    nextReq id sr.requests = successor id (pendingIds sr) := by
  unfold nextReq successor pendingIds
  rw [List.dropWhile_map, ← List.map_drop, List.head?_map]
  rfl

/-- The requests that the loop has not passed. -/
def ahead (pointer : Option Nat) (sr : Instance) : List Nat :=
  match pointer with
  | none => []
  | some id => (pendingIds sr).dropWhile fun other => other ≠ id

/-- No request reaches the one that follows it when its turn comes: a request between the two is
there, which no request before them reaches. -/
def SweepSafe (net : Network) (sr : Instance) : Prop :=
  ∀ before req between other after, sr.requests = before ++ req :: (between ++ other :: after) →
    Reaches net sr req other → ∃ left ∈ between, ∀ earlier ∈ before, ¬Reaches net sr earlier left

/-- Where the loop stands in the list that it started with. -/
structure Position (net : Network) (start : Instance) (visited : List Nat) (pointer : Option Nat)
    (sr : Instance) : Prop where
  inv : Inv (RoutedVia net) (FromInterface net) sr
  entries : sr.entries = start.entries
  now : sr.now = start.now
  fewer : ∀ req ∈ sr.requests, req.Expired start.now → req ∈ start.requests
  ordered : Ordered start sr
  here : ∀ id, pointer = some id → id ∈ pendingIds sr
  split : ∃ passed rest, start.requests = passed ++ rest ∧
    pointer = rest.head?.map (fun req => req.id) ∧
    (∀ id ∈ visited, ∃ req ∈ passed, req.id = id) ∧
    ∀ req ∈ passed, req.id ∈ pendingIds sr → req.id ∈ visited
  gone : ∀ req ∈ start.requests, req.id ∉ pendingIds sr → req.id ∈ visited ∨
    ∃ earlier ∈ start.requests, earlier.id ∈ visited ∧ Reaches net start earlier req

theorem Position.first (inv : Inv (RoutedVia net) (FromInterface net) start) :
    Position net start [] (pendingIds start).head? start where
  inv := inv
  entries := rfl
  now := rfl
  fewer := fun _ pending _ => pending
  ordered := .refl start
  here := fun _ isHead => List.mem_of_mem_head? isHead
  split := ⟨[], start.requests, rfl, List.head?_map, nofun, nofun⟩
  gone := fun _ pending notPending => absurd (mem_pendingIds.mpr ⟨_, pending, rfl⟩) notPending

section Step

variable {visited : List Nat} {req : ArpReq} {before after : Instance}

/-- What a call of the loop leaves of the first list. -/
theorem Position.left {pointer : Option Nat} {other : ArpReq}
    (inv : Inv (RoutedVia net) (FromInterface net) start)
    (position : Position net start visited pointer before) (ordered : Ordered before after)
    (pending : other ∈ start.requests) (left : other.id ∈ pendingIds after) :
    other.id ∈ pendingIds before := by
  apply ordered.2.mem_of_old left
  exact Nat.not_le_of_lt (Nat.lt_of_lt_of_le (inv.allocated other pending) position.ordered.1)

/-- A request that a call of the loop destroys is its own or one that its own reaches. -/
theorem Position.destroyed {pointer : Option Nat} {other : ArpReq}
    (inv : Inv (RoutedVia net) (FromInterface net) start)
    (position : Position net start visited pointer before) (pending : req ∈ before.requests)
    (returned : srArpcacheHandleArpreq net depth req.id before = .ok after)
    (otherPending : other ∈ start.requests) (there : other.id ∈ pendingIds before)
    (gone : other.id ∉ pendingIds after) :
    other.id = req.id ∨ req ∈ start.requests ∧ Reaches net start req other := by
  obtain ⟨current, currentPending, sameId⟩ := mem_pendingIds.mp there
  obtain ⟨_, _, kept⟩ := handleArpreq_kept position.inv pending returned
  rw [← sameId] at gone
  rcases kept current currentPending gone with same | reaches
  · exact .inl (sameId.symm.trans (congrArg ArpReq.id same))
  · obtain ⟨reqPending, inStart, reached⟩ :=
      reaches.of_fewer position.entries position.now position.fewer position.inv pending
    have same := inv.same inStart otherPending sameId
    exact .inr ⟨reqPending, same ▸ reached⟩

/-- The request that the saved pointer leads to is not destroyed. -/
theorem Position.keeps_next {pointer : Option Nat} {passed between behind : List ArpReq}
    {first other : ArpReq} (inv : Inv (RoutedVia net) (FromInterface net) start)
    (safe : SweepSafe net start) (position : Position net start visited pointer before)
    (pending : req ∈ before.requests)
    (returned : srArpcacheHandleArpreq net depth req.id before = .ok after)
    (list : start.requests = passed ++ first :: (between ++ other :: behind))
    (firstId : req.id = first.id) (onlyPassed : ∀ id ∈ visited, ∃ req ∈ passed, req.id = id)
    (absent : ∀ left ∈ between, left.id ∉ pendingIds before)
    (there : other.id ∈ pendingIds before) : other.id ∈ pendingIds after := by
  have same : ∀ one ∈ start.requests, ∀ two ∈ start.requests, one.id = two.id → one = two :=
    fun one isOne two isTwo => inv.same isOne isTwo
  have known : ∀ one ∈ passed ++ first :: (between ++ other :: behind), one ∈ start.requests := by
    rw [list]
    exact fun one member => member
  have nodup : (passed ++ first :: (between ++ other :: behind)).Nodup := by
    rw [← list]
    exact List.Nodup.of_map _ inv.identified
  obtain ⟨_, nodupRest, apart⟩ := List.nodup_append'.mp nodup
  by_contra gone
  rcases position.destroyed inv pending returned (known other (by simp)) there gone with
    sameId | ⟨inStart, reaches⟩
  · have isFirst := same other (known other (by simp)) first (known first (by simp))
      (sameId.trans firstId)
    exact (List.nodup_cons.mp nodupRest).1 (by simp [isFirst])
  · rw [same req inStart first (known first (by simp)) firstId] at reaches
    obtain ⟨left, isBetween, unreached⟩ := safe passed first between other behind list reaches
    have leftKnown := known left (by simp [isBetween])
    -- nothing took the request between them off the queue
    rcases position.gone left leftKnown (absent left isBetween) with
      isVisited | ⟨earlier, earlierKnown, isVisited, reached⟩
    · obtain ⟨done, isPassed, sameId⟩ := onlyPassed _ isVisited
      have isDone := same done (known done (by simp [isPassed])) left leftKnown sameId
      exact apart isPassed (by simp [isDone, isBetween])
    · obtain ⟨done, isPassed, sameId⟩ := onlyPassed _ isVisited
      have isDone := same done (known done (by simp [isPassed])) earlier earlierKnown sameId
      exact unreached done isPassed (isDone ▸ reached)

/-- What a call of the loop destroys is its own request or one that a passed request reaches. -/
theorem Position.round_gone {pointer : Option Nat}
    (inv : Inv (RoutedVia net) (FromInterface net) start)
    (position : Position net start visited pointer before) (pending : req ∈ before.requests)
    (returned : srArpcacheHandleArpreq net depth req.id before = .ok after) :
    ∀ other ∈ start.requests, other.id ∉ pendingIds after →
      other.id ∈ visited ++ [req.id] ∨ ∃ earlier ∈ start.requests,
        earlier.id ∈ visited ++ [req.id] ∧ Reaches net start earlier other := by
  intro other otherPending isGone
  by_cases there : other.id ∈ pendingIds before
  · rcases position.destroyed inv pending returned otherPending there isGone with
      same | ⟨inStart, reaches⟩
    · exact .inl (by simp [same])
    · exact .inr ⟨req, inStart, by simp, reaches⟩
  · rcases position.gone other otherPending there with
      isVisited | ⟨earlier, known, isVisited, reaches⟩
    · exact .inl (List.mem_append_left _ isVisited)
    · exact .inr ⟨earlier, known, List.mem_append_left _ isVisited, reaches⟩

/-- The next request of the first list that is still pending is the one the pointer saves. -/
theorem Position.saves {passed rest : List ArpReq} {first : ArpReq}
    (inv : Inv (RoutedVia net) (FromInterface net) start)
    (position : Position net start visited (some req.id) before)
    (list : start.requests = passed ++ first :: rest) (firstId : req.id = first.id) :
    nextReq req.id before.requests = none ∧ (∀ left ∈ rest, left.id ∉ pendingIds before) ∨
      ∃ skipped other behind, rest = skipped ++ other :: behind ∧
        nextReq req.id before.requests = some other.id ∧ other.id ∈ pendingIds before ∧
        ∀ left ∈ skipped, left.id ∉ pendingIds before := by
  have ids : pendingIds start = (passed.map fun req => req.id) ++
      req.id :: rest.map fun req => req.id := by
    unfold pendingIds
    rw [list, List.map_append, List.map_cons, firstId]
  obtain ⟨nodup, old⟩ := pendingIds_settled inv
  have kept := position.ordered.2
  rw [ids] at nodup old kept
  rw [nextReq_eq]
  rcases kept.successor nodup old (position.here req.id rfl) with
    ⟨isLast, absent⟩ | ⟨between, id, others, behind, isNext, there, absent⟩
  · exact .inl ⟨isLast, fun left member => absent left.id (List.mem_map_of_mem member)⟩
  · obtain ⟨skipped, tail, rfl, rfl, tailIds⟩ := List.map_eq_append_iff.mp behind
    obtain ⟨other, others, rfl, rfl, rfl⟩ := List.map_eq_cons_iff.mp tailIds
    exact .inr ⟨skipped, other, others, rfl, isNext, there,
      fun left member => absent left.id (List.mem_map_of_mem member)⟩

/-- After the call every request up to there is handled or gone. -/
theorem Position.passes {pointer : Option Nat} {passed skipped behind : List ArpReq}
    {first : ArpReq} (inv : Inv (RoutedVia net) (FromInterface net) start)
    (position : Position net start visited pointer before) (ordered : Ordered before after)
    (list : start.requests = passed ++ first :: (skipped ++ behind)) (firstId : req.id = first.id)
    (onlyPassed : ∀ id ∈ visited, ∃ req ∈ passed, req.id = id)
    (noneLeft : ∀ req ∈ passed, req.id ∈ pendingIds before → req.id ∈ visited)
    (absent : ∀ left ∈ skipped, left.id ∉ pendingIds before) :
    (∀ id ∈ visited ++ [req.id], ∃ other ∈ passed ++ first :: skipped, other.id = id) ∧
      ∀ other ∈ passed ++ first :: skipped, other.id ∈ pendingIds after →
        other.id ∈ visited ++ [req.id] := by
  constructor
  · intro id member
    rcases List.mem_append.mp member with earlier | isReq
    · obtain ⟨other, isPassed, same⟩ := onlyPassed id earlier
      exact ⟨other, List.mem_append_left _ isPassed, same⟩
    · exact ⟨first, by simp, firstId.symm.trans (List.mem_singleton.mp isReq).symm⟩
  · intro other member isLeft
    have known : other ∈ start.requests := by
      have whole : start.requests = (passed ++ first :: skipped) ++ behind := by simp [list]
      rw [whole]
      exact List.mem_append_left _ member
    have there := position.left inv ordered known isLeft
    rcases List.mem_append.mp member with isPassed | isNext
    · exact List.mem_append_left _ (noneLeft other isPassed there)
    · rcases List.mem_cons.mp isNext with rfl | isSkipped
      · simp [firstId]
      · exact absurd there (absent other isSkipped)

/-- One round of the loop. -/
theorem Position.round (inv : Inv (RoutedVia net) (FromInterface net) start)
    (safe : SweepSafe net start) (position : Position net start visited (some req.id) before)
    (pending : req ∈ before.requests)
    (returned : srArpcacheHandleArpreq net depth req.id before = .ok after) :
    Position net start (visited ++ [req.id]) (nextReq req.id before.requests) after := by
  obtain ⟨within, expired, _⟩ := handleArpreq_kept position.inv pending returned
  have changes : Changes net (fun _ => True) before after := handleArpreq_changes depth returned
  have ordered := changes.ordered
  have gone := position.round_gone inv pending returned
  have entries := within.entries.trans position.entries
  have now := within.now.trans position.now
  have fewer : ∀ later ∈ after.requests, later.Expired start.now → later ∈ start.requests := by
    intro later member isExpired
    rw [← position.now] at isExpired
    have known := expired later member isExpired
    rw [position.now] at isExpired
    exact position.fewer later known isExpired
  obtain ⟨passed, rest, list, isHead, onlyPassed, noneLeft⟩ := position.split
  cases rest with
  | nil => cases isHead
  | cons first rest =>
  have firstId : req.id = first.id := Option.some.inj isHead
  rcases position.saves inv list firstId with
    ⟨isLast, absent⟩ | ⟨skipped, other, behind, rfl, isNext, there, absent⟩
  · rw [isLast]
    have all : start.requests = passed ++ first :: (rest ++ []) := by rw [List.append_nil, list]
    have passes := position.passes inv ordered all firstId onlyPassed noneLeft absent
    exact ⟨within.inv, entries, now, fewer, position.ordered.trans ordered, nofun,
      ⟨passed ++ first :: rest, [], by rw [list, List.append_nil], rfl, passes⟩, gone⟩
  · rw [isNext]
    have passes := position.passes inv ordered list firstId onlyPassed noneLeft absent
    refine ⟨within.inv, entries, now, fewer, position.ordered.trans ordered, ?_,
      ⟨passed ++ first :: skipped, other :: behind, by rw [list]; simp, rfl, passes⟩, gone⟩
    rintro _ ⟨⟩
    exact position.keeps_next inv safe pending returned list firstId onlyPassed absent there

end Step

section Loop

variable {visited : List Nat} {pointer : Option Nat}

theorem Sweeping.position (inv : Inv (RoutedVia net) (FromInterface net) start)
    (safe : SweepSafe net start) (loop : Sweeping net depth start visited pointer sr) :
    Position net start visited pointer sr := by
  induction loop with
  | first => exact .first inv
  | next here pending returned inductionHypothesis =>
      exact inductionHypothesis.round inv safe pending returned

/-- No pending request is passed. -/
theorem Position.ahead (inv : Inv (RoutedVia net) (FromInterface net) start)
    (position : Position net start visited pointer sr) {id : Nat} (known : id ∈ pendingIds start)
    (left : id ∈ pendingIds sr) : id ∈ visited ∨ id ∈ ahead pointer sr := by
  obtain ⟨req, pending, rfl⟩ := mem_pendingIds.mp known
  obtain ⟨passed, rest, list, isHead, _, noneLeft⟩ := position.split
  rw [list] at pending
  rcases List.mem_append.mp pending with isPassed | isRest
  · exact .inl (noneLeft req isPassed left)
  right
  cases rest with
  | nil => exact absurd isRest List.not_mem_nil
  | cons first rest =>
      have ids : pendingIds start = (passed.map fun req => req.id) ++
          first.id :: rest.map fun req => req.id := by
        unfold pendingIds
        rw [list, List.map_append, List.map_cons]
      obtain ⟨nodup, old⟩ := pendingIds_settled inv
      have kept := position.ordered.2
      rw [ids] at nodup old kept
      obtain ⟨front, behind, split, notFront, _, complete⟩ :=
        kept.split nodup old (position.here first.id isHead)
      unfold Router.ahead
      rw [isHead]
      dsimp only [List.head?_cons, Option.map_some]
      rw [split, dropWhile_split notFront]
      rcases List.mem_cons.mp isRest with rfl | isLater
      · exact List.mem_cons_self
      · exact List.mem_cons_of_mem _ (complete req.id (List.mem_map_of_mem isLater) left)

/-- A sweep that returns has walked the loop to its end. -/
theorem sweepFrom_loop {ids : List Nat} (inv : Inv (RoutedVia net) (FromInterface net) start)
    (safe : SweepSafe net start) (suffix : ids <:+ pendingIds start)
    (loop : Sweeping net depth start visited pointer sr)
    (inside : ∀ id, pointer = some id → id ∈ ids)
    (returned : sweepFrom net depth ids pointer sr = .ok next) :
    ∃ visited, Sweeping net depth start visited none next := by
  induction ids generalizing visited pointer sr with
  | nil =>
      cases returned
      cases pointer with
      | none => exact ⟨visited, loop⟩
      | some id => exact absurd (inside id rfl) List.not_mem_nil
  | cons id rest inductionHypothesis =>
      obtain ⟨before, list⟩ := suffix
      have restSuffix : rest <:+ pendingIds start := ⟨before ++ [id], by simpa using list⟩
      unfold sweepFrom at returned
      split at returned
      · rename_i isNext
        obtain ⟨req, found, returned⟩ := bind_eq_ok.mp returned
        obtain ⟨after, handled, returned⟩ := bind_eq_ok.mp returned
        obtain ⟨pending, rfl⟩ := findReq_eq_some (deref_eq_ok.mp found)
        rw [isNext] at loop
        apply inductionHypothesis restSuffix (loop.next pending handled) _ returned
        have position := loop.position inv safe
        obtain ⟨nodup, old⟩ := pendingIds_settled inv
        have kept := position.ordered.2
        rw [← list] at nodup old kept
        intro other isOther
        rw [nextReq_eq] at isOther
        rcases kept.successor nodup old (position.here req.id rfl) with
          ⟨isLast, _⟩ | ⟨between, following, others, rfl, isFollowing, _⟩
        · rw [isLast] at isOther
          cases isOther
        · rw [isFollowing] at isOther
          cases isOther
          simp
      · rename_i notNext
        apply inductionHypothesis restSuffix loop _ returned
        intro other isOther
        rcases List.mem_cons.mp (inside other isOther) with rfl | isRest
        · exact absurd isOther notNext
        · exact isRest

end Loop

/-- In every reachable state a sweep in which no request reaches the one that follows it when its
turn comes is safe: whenever a call returns, the saved pointer leads to a pending request or is
null, no request is passed while it is pending, and a sweep that returns has come to the end. -/
theorem sweep_safe {now : Nat} {events : List Event}
    (run : Run (step net depth) anyStep (srArpcacheInit now) events sr)
    (safe : SweepSafe net (timedOut sr)) :
    (∀ visited pointer current, Sweeping net depth (timedOut sr) visited pointer current →
      (∀ id, pointer = some id → id ∈ pendingIds current) ∧
        ∀ id ∈ pendingIds (timedOut sr), id ∈ pendingIds current →
          id ∈ visited ∨ id ∈ ahead pointer current) ∧
      ∀ next, react net depth sr .sweep = .ok next →
        ∃ visited, Sweeping net depth (timedOut sr) visited none next := by
  have inv : Inv (RoutedVia net) (FromInterface net) (timedOut sr) :=
    (Moment.of_run run).inv.remove (List.Sublist.refl _)
  constructor
  · intro visited pointer current loop
    have position := loop.position inv safe
    exact ⟨position.here, fun id known left => position.ahead inv known left⟩
  · intro next returned
    apply sweepFrom_loop inv safe (List.suffix_refl _) .first _ returned
    exact fun id isHead => List.mem_of_mem_head? isHead

/-- One expired request reaches no other. -/
theorem sweepSafe_of_one (inv : Inv (RoutedVia net) (FromInterface net) sr)
    (one : ∀ req ∈ sr.requests, ∀ other ∈ sr.requests, req.Expired sr.now → other.Expired sr.now →
      req = other) : SweepSafe net sr := by
  intro before req between other after list reaches
  exfalso
  have known : ∀ known ∈ before ++ req :: (between ++ other :: after), known ∈ sr.requests := by
    rw [list]
    exact fun known member => member
  have nodup : (before ++ req :: (between ++ other :: after)).Nodup := by
    rw [← list]
    exact List.Nodup.of_map _ inv.identified
  obtain ⟨source, buf, reports, rtentry, _, _, otherPending, _, otherExpired⟩ := reaches
  obtain ⟨root, rootPending, sameIp, expired⟩ := reports.expired
  rw [inv.unique (known req (by simp)) rootPending sameIp] at expired
  have same := one req (known req (by simp)) other otherPending expired otherExpired
  exact (List.nodup_cons.mp (List.nodup_append'.mp nodup).2.1).1 (by simp [same])

/-- One datagram has waited for too long, and one has just come. -/
private def oneExpired : List Event :=
  [.frame (ipFrame 64 17 0xC0A80202 0xAC40030A (List.replicate 8 1)), .clock 7, .sweep, .clock 9,
    .sweep, .clock 11, .sweep, .clock 13, .sweep, .clock 15,
    .frame (ipFrame 64 17 0xC0A80202 0x0A000164 (List.replicate 8 1))]

theorem sweep_safe_one_expired : ∃ sr,
    Run (step labNetwork 4) anyStep (srArpcacheInit 5) oneExpired sr ∧
    (∃ req ∈ sr.requests, req.Expired sr.now) ∧
    (∀ visited pointer current, Sweeping labNetwork 4 (timedOut sr) visited pointer current →
      (∀ id, pointer = some id → id ∈ pendingIds current) ∧
        ∀ id ∈ pendingIds (timedOut sr), id ∈ pendingIds current →
          id ∈ visited ∨ id ∈ ahead pointer current) ∧
      ∀ next, react labNetwork 4 sr .sweep = .ok next →
        ∃ visited, Sweeping labNetwork 4 (timedOut sr) visited none next := by
  have reached : ∃ sr, Run (step labNetwork 4) anyStep (srArpcacheInit 5) oneExpired sr ∧
      (∃ req ∈ sr.requests, req.Due sr.now ∧ req.Failed) ∧
      ∀ req ∈ sr.requests, ∀ other ∈ sr.requests, (req.Due sr.now ∧ req.Failed) →
        (other.Due sr.now ∧ other.Failed) → req = other :=
    exec_reaches _ (by decide +kernel)
  obtain ⟨sr, run, expired, one⟩ := reached
  have inv : Inv (RoutedVia labNetwork) (FromInterface labNetwork) (timedOut sr) :=
    (Moment.of_run run).inv.remove (List.Sublist.refl _)
  exact ⟨sr, run, expired, sweep_safe run (sweepSafe_of_one inv one)⟩

/-- Two hosts with routes of their own, and a gateway for the rest of their networks. -/
def crossedNetwork : Network where
  ifList := labNetwork.ifList
  routingTable :=
    [⟨0x0A000164, 0x0A000164, 0xFFFFFFFF, "eth3"⟩,
      ⟨0xAC40030A, 0xAC40030A, 0xFFFFFFFF, "eth2"⟩,
      ⟨0xC0A80202, 0xC0A80202, 0xFFFFFF00, "eth1"⟩,
      ⟨0x0A000100, 0xC0A80202, 0xFFFFFF00, "eth1"⟩,
      ⟨0xAC400300, 0xC0A80202, 0xFFFFFF00, "eth1"⟩]

/-- The gateway is known, a datagram waits for each host, and that for the second comes from the
first. -/
private def crossedWaits : List Event :=
  [.frame (arpFrame (routerMac 1) neighbourMac arpOpReply neighbourMac 0xC0A80202 (routerMac 1)
      0xC0A80201),
    .frame (ipFrame 64 17 0xC0A80202 0x0A000164 (List.replicate 8 1)),
    .frame (ipFrame 64 17 0x0A000164 0xAC40030A (List.replicate 8 1)), .clock 7, .sweep, .clock 9,
    .sweep, .clock 11, .sweep, .clock 13, .sweep, .clock 15]

/-- The call for the first request of the list destroys the next one, to which the loop goes on. -/
theorem next_destroyed : ∃ sr,
    Run (step crossedNetwork 4) anyStep (srArpcacheInit 5) crossedWaits sr ∧
      (∃ visited id current, Sweeping crossedNetwork 4 (timedOut sr) visited (some id) current ∧
        id ∉ pendingIds current) ∧
      react crossedNetwork 4 sr .sweep = .error .useAfterFree := by
  have reached : ∃ sr, Run (step crossedNetwork 4) anyStep (srArpcacheInit 5) crossedWaits sr ∧
      (∃ req ∈ (timedOut sr).requests, (pendingIds (timedOut sr)).head? = some req.id ∧
        (srArpcacheHandleArpreq crossedNetwork 4 req.id (timedOut sr)).toOption.any (fun current =>
          (nextReq req.id (timedOut sr).requests).any fun id =>
            decide (id ∉ pendingIds current)) = true) ∧
      react crossedNetwork 4 sr .sweep = .error .useAfterFree :=
    exec_reaches _ (by decide +kernel)
  obtain ⟨sr, run, ⟨req, pending, isHead, destroyed⟩, fault⟩ := reached
  refine ⟨sr, run, ?_, fault⟩
  obtain ⟨current, isCurrent, destroyed⟩ := (Option.any_eq_true _ _).mp destroyed
  obtain ⟨id, isNext, gone⟩ := (Option.any_eq_true _ _).mp destroyed
  have returned : srArpcacheHandleArpreq crossedNetwork 4 req.id (timedOut sr) = .ok current := by
    cases outcome : srArpcacheHandleArpreq crossedNetwork 4 req.id (timedOut sr) with
    | error fault => simp [outcome, Except.toOption] at isCurrent
    | ok other => simpa [outcome, Except.toOption] using isCurrent
  have begins : Sweeping crossedNetwork 4 (timedOut sr) [] (some req.id) (timedOut sr) :=
    isHead ▸ .first
  refine ⟨[req.id], id, current, ?_, by simpa using gone⟩
  rw [← isNext]
  exact begins.next pending returned

end EE323.Router

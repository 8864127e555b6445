/-
Module: EE323.Router.Expiry
Purpose: The end of an expired request.  When no chain of reports leads back to a request that is
  being handled, the recursion ends, every packet of the request is reported once to its source, and
  the request is destroyed.
Main exports: IsHostUnreachable, reported, Answerable, Settled, expired_request_reported,
  answerable_of_apart
-/
import EE323.Lib.Returns
import EE323.Router.Reports

namespace EE323.Router

open EE323.Lib Relation

/-- An ICMP host unreachable message to the source of a packet. -/
def IsHostUnreachable (about message : List Byte) : Prop :=
  ipP message = 1 ∧ field message 34 2 = [3, 1] ∧ ipDst message = ipSrc about

instance (about message : List Byte) : Decidable (IsHostUnreachable about message) :=
  inferInstanceAs (Decidable (_ ∧ _ ∧ _))

theorem isHostUnreachable (source : IpAddr) (shost : Mac) (about : List Byte) :
    IsHostUnreachable about (hostUnreachable source shost about) :=
  ⟨ipP_icmpError _ _ _ _ _ _, icmpHead_icmpError _ _ _ _ _ _, ipDst_icmpError _ _ _ _ _ _⟩

theorem IsHostUnreachable.setDhost {about message : List Byte} (mac : Mac)
    (report : IsHostUnreachable about message) :
    IsHostUnreachable about (setDhost message mac) := by
  obtain ⟨protocol, head, dest⟩ := report
  constructor
  · exact (getD_patch_other (.inr (by simp))).trans protocol
  constructor
  · rw [field_setDhost _ _ _ (by decide)]
    exact head
  · rw [ipDst_setDhost]
    exact dest

/-- How many host unreachable messages about a packet a request has sent or queued. -/
def reported (id : Nat) (about : List Byte) (sr : Instance) : Nat :=
  (sr.handed ++ sr.queued).countP fun message =>
    message.origin = .hostUnreachable id about ∧ IsHostUnreachable about message.buf

/-- One message was sent or queued. -/
def Emits (message : Packet) (sr next : Instance) : Prop :=
  (next.handed = sr.handed ++ [message] ∧ next.queued = sr.queued) ∨
    (next.handed = sr.handed ∧ next.queued = sr.queued ++ [message])

section Counting

variable {net : Network} {message : Packet} {sr next : Instance}

theorem emits_send : Emits message sr (srSendPacket net message sr) :=
  .inl ⟨srSendPacket_handed _ _, srSendPacket_queued _ _⟩

theorem emits_queue (ip : IpAddr) : Emits message sr (srArpcacheQueuereq ip message sr).2 :=
  .inr (srArpcacheQueuereq_entries ip message sr).2.2

theorem Emits.reported_eq (emits : Emits message sr next) (id : Nat) (about : List Byte) :
    reported id about next = reported id about sr +
      if message.origin = .hostUnreachable id about ∧ IsHostUnreachable about message.buf then 1
      else 0 := by
  unfold reported
  rcases emits with ⟨handed, queued⟩ | ⟨handed, queued⟩
  · rw [handed, queued]
    simp only [List.countP_append, List.countP_singleton, decide_eq_true_eq]
    omega
  · rw [handed, queued]
    simp only [List.countP_append, List.countP_singleton, decide_eq_true_eq]
    omega

/-- A message about a packet counts for its request and that packet. -/
theorem Emits.counted {id : Nat} {buf : List Byte} (emits : Emits message sr next)
    (origin : message.origin = .hostUnreachable id buf)
    (report : IsHostUnreachable buf message.buf) (about : List Byte) :
    reported id about next = reported id about sr + [buf].count about := by
  rw [emits.reported_eq]
  congr 1
  rw [List.count_singleton]
  by_cases same : buf = about
  · subst same
    rw [if_pos ⟨origin, report⟩, if_pos (beq_self_eq_true buf)]
  · rw [if_neg, if_neg]
    · simpa using same
    · rintro ⟨other, _⟩
      rw [origin] at other
      cases other
      exact same rfl

/-- A message does not count for requests that it does not come from. -/
theorem Emits.uncounted {id : Nat} (emits : Emits message sr next)
    (foreign : ∀ about, message.origin ≠ .hostUnreachable id about) (about : List Byte) :
    reported id about next = reported id about sr := by
  rw [emits.reported_eq, if_neg fun both => foreign about both.1, Nat.add_zero]

end Counting

/-- What makes the recursion over the reports of a request end: the lookups hit, the packets are
long enough to be quoted, and no chain of reports, each queued on an expired request that reports
its own packets, goes on for ever. -/
structure Answerable (net : Network) (sr : Instance) (ip : IpAddr) : Prop where
  verified : Verified net
  hit : ReportsHit net sr fun root => root = ip
  long : ∀ above buf, Reports net sr (fun root => root = ip) above buf →
    14 + icmpDataSize ≤ buf.length
  ends : Acc (Below net sr fun root => root = ip) ip

section Settling

variable {net : Network} {start sr middle next : Instance} {root : IpAddr → Prop}

/-- Requests that are expired and not touched stay as they are, and so do their reports. -/
def Untouched (start : Instance) (touched : IpAddr → Prop) (sr next : Instance) : Prop :=
  ∀ other ∈ sr.requests, other.Expired start.now → ¬touched other.ip →
    other ∈ next.requests ∧ ∀ about, reported other.id about next = reported other.id about sr

theorem Untouched.refl (touched : IpAddr → Prop) (sr : Instance) :
    Untouched start touched sr sr :=
  fun _ pending _ _ => ⟨pending, fun _ => rfl⟩

theorem Untouched.trans {touched : IpAddr → Prop} (one : Untouched start touched sr middle)
    (two : Untouched start touched middle next) : Untouched start touched sr next := by
  intro other pending expired untouched
  obtain ⟨between, first⟩ := one other pending expired untouched
  obtain ⟨after, second⟩ := two other between expired untouched
  exact ⟨after, fun about => (second about).trans (first about)⟩

theorem Untouched.mono {touched more : IpAddr → Prop} (untouched : Untouched start touched sr next)
    (weaken : ∀ ip, touched ip → more ip) : Untouched start more sr next :=
  fun other pending expired apart =>
    untouched other pending expired fun isTouched => apart (weaken _ isTouched)

/-- The request was reported and destroyed. -/
structure Settled (net : Network) (start : Instance) (root : IpAddr → Prop) (req : ArpReq)
    (sr done : Instance) : Prop where
  within : Within net start root done
  gone : req.id ∉ done.requests.map fun req => req.id
  untouched : Untouched start
    (fun ip => ReflTransGen (Below net start root) ip req.ip) sr done
  counted : ∀ about, reported req.id about done =
    reported req.id about sr + (req.packets.map fun packet => packet.buf).count about

/-- Handling an expired request for the address settles it. -/
def Settles (net : Network) (start : Instance) (root : IpAddr → Prop) (ip : IpAddr) : Prop :=
  ∀ {sr req}, Within net start root sr → req ∈ sr.requests → req.ip = ip →
    req.Expired start.now → MayHandle net start root req.id sr →
      ∃ done, Returns (fun depth => srArpcacheHandleArpreq net depth req.id sr) done ∧
        Settled net start root req sr done

theorem findReq_of_mem {req : ArpReq} (inv : Inv (RoutedVia net) (FromInterface net) sr)
    (pending : req ∈ sr.requests) : findReq sr req.id = some req := by
  unfold findReq
  cases search : sr.requests.find? fun other => other.id = req.id with
  | none =>
      have missing := List.find?_eq_none.mp search req pending
      exact absurd (decide_eq_true rfl) missing
  | some other =>
      have sameId : other.id = req.id := by simpa using List.find?_some search
      rw [inv.same (List.mem_of_find?_eq_some search) pending sameId]

/-- Requests with other addresses stay when a packet is queued. -/
theorem queueing_keeps {ip : IpAddr} {message : Packet} {other : ArpReq}
    (inv : Inv (RoutedVia net) (FromInterface net) sr) (pending : other ∈ sr.requests)
    (apart : other.ip ≠ ip) : other ∈ (srArpcacheQueuereq ip message sr).2.requests := by
  unfold srArpcacheQueuereq
  dsimp only
  cases search : sr.requests.find? fun req => req.ip = ip with
  | none => exact List.mem_cons_of_mem _ pending
  | some found =>
      have foundIp : found.ip = ip := by simpa using List.find?_some search
      refine List.mem_map.mpr ⟨other, pending, if_neg ?_⟩
      intro sameId
      have same : other = found := inv.same pending
        (List.mem_of_find?_eq_some search) sameId
      exact apart (by rw [same]; exact foundIp)

/-- The request that a packet is queued on is pending. -/
theorem queueing_pending (ip : IpAddr) (message : Packet) (sr : Instance) :
    ∃ target ∈ (srArpcacheQueuereq ip message sr).2.requests,
      target.id = (srArpcacheQueuereq ip message sr).1 := by
  unfold srArpcacheQueuereq
  dsimp only
  cases search : sr.requests.find? fun req => req.ip = ip with
  | none => exact ⟨_, List.mem_cons_self, rfl⟩
  | some found =>
      have pending := List.mem_of_find?_eq_some search
      exact ⟨_, List.mem_map_of_mem pending, by dsimp only; rw [if_pos rfl]⟩

/-- A request that has not expired is sent again, or left alone. -/
theorem handle_unexpired {req : ArpReq} (within : Within net start root sr)
    (pending : req ∈ sr.requests) (unexpired : ¬req.Expired start.now) :
    ∃ next, Returns (fun depth => srArpcacheHandleArpreq net depth req.id sr) next ∧
      Within net start root next ∧ Untouched start (fun _ => False) sr next := by
  have found := findReq_of_mem within.inv pending
  by_cases due : req.Due sr.now
  · have notFailed : ¬req.Failed := fun failed => unexpired ⟨within.now ▸ due, failed⟩
    obtain ⟨next, returned⟩ := sendArpRequest_returns within.inv pending
    refine ⟨next, ?_, within.request pending returned, ?_⟩
    · apply Returns.deeper _ (.always fun _ => returned)
      intro depth
      unfold srArpcacheHandleArpreq
      rw [found]
      exact (if_pos due).trans (if_neg notFailed)
    · intro other otherPending expired _
      obtain ⟨head, ifc, rtentry, _, _, _, rfl⟩ := sendArpRequest_eq returned
      have otherId : other.id ≠ req.id := by
        intro sameId
        have same := within.inv.same otherPending pending sameId
        exact unexpired (same ▸ expired)
      constructor
      · refine List.mem_map.mpr ⟨other, ?_, if_neg otherId⟩
        rw [srSendPacket_requests]
        exact otherPending
      · exact emits_send.uncounted fun _ isReport => Origin.noConfusion isReport
  · refine ⟨sr, ?_, within, .refl _ sr⟩
    apply Returns.deeper _ (.always fun _ => rfl)
    intro depth
    unfold srArpcacheHandleArpreq
    rw [found]
    exact if_neg due

/-- A report that was queued is handled without touching requests that are not below. -/
theorem landing_settles {ip gateway : IpAddr} {message : Packet}
    (settles : ∀ below, Below net start root below ip → Settles net start root below)
    (within : Within net start root sr)
    (after : Within net start root (srArpcacheQueuereq gateway message sr).2)
    (lands : ∀ first ∈ start.requests, first.ip = gateway → first.Expired start.now →
      Below net start root gateway ip)
    (mayHandle : MayHandle net start root (srArpcacheQueuereq gateway message sr).1
      (srArpcacheQueuereq gateway message sr).2) :
    ∃ next, Returns (fun depth => srArpcacheHandleArpreq net depth
        (srArpcacheQueuereq gateway message sr).1 (srArpcacheQueuereq gateway message sr).2) next ∧
      Within net start root next ∧
      Untouched start (fun other => TransGen (Below net start root) other ip)
        (srArpcacheQueuereq gateway message sr).2 next := by
  obtain ⟨target, pending, isTarget⟩ := queueing_pending gateway message sr
  have targetIp := (queued_in_front within.inv.allocated within.inv.identified pending isTarget).1
  rw [← isTarget] at mayHandle ⊢
  by_cases expired : target.Expired start.now
  · obtain ⟨first, firstPending, sameIp, firstExpired, _⟩ := after.expired target pending expired
    have below := lands first firstPending (sameIp.trans targetIp) firstExpired
    obtain ⟨next, returns, settled⟩ := settles gateway below after pending targetIp expired mayHandle
    refine ⟨next, returns, settled.within, settled.untouched.mono ?_⟩
    intro other reaches
    rw [targetIp] at reaches
    exact TransGen.tail' reaches below
  · obtain ⟨next, returns, nextWithin, untouched⟩ := handle_unexpired after pending expired
    exact ⟨next, returns, nextWithin, untouched.mono fun _ isTouched => isTouched.elim⟩

/-- What one report of an expired request does to the others, and that it counts. -/
structure Answered (net : Network) (start : Instance) (root : IpAddr → Prop) (req : ArpReq)
    (bufs : List (List Byte)) (sr next : Instance) : Prop where
  within : Within net start root next
  pending : req ∈ next.requests
  untouched : Untouched start (fun ip => ReflTransGen (Below net start root) ip req.ip) sr next
  counted : ∀ about, reported req.id about next = reported req.id about sr + bufs.count about

variable {req : ArpReq}

/-- A message of the request leaves the reports of every other request alone. -/
theorem Emits.untouched {message : Packet} {buf : List Byte} (emits : Emits message sr next)
    (inv : Inv (RoutedVia net) (FromInterface net) sr) (pending : req ∈ sr.requests)
    (origin : message.origin = .hostUnreachable req.id buf)
    (keeps : ∀ other ∈ sr.requests, other.Expired start.now →
      ¬ReflTransGen (Below net start root) other.ip req.ip → other ∈ next.requests) :
    Untouched start (fun ip => ReflTransGen (Below net start root) ip req.ip) sr next := by
  intro other otherPending expired apart
  have otherId : other.id ≠ req.id := by
    intro sameId
    apply apart
    rw [inv.same otherPending pending sameId]
  constructor
  · exact keeps other otherPending expired apart
  · apply emits.uncounted
    intro about isReport
    rw [origin] at isReport
    obtain ⟨sameId, _⟩ := Origin.hostUnreachable.inj isReport
    exact otherId sameId.symm

/-- A report that is sent. -/
theorem answered_send {frame : Packet} {buf : List Byte} (within : Within net start root sr)
    (pending : req ∈ sr.requests) (own : FromInterface net frame)
    (origin : frame.origin = .hostUnreachable req.id buf)
    (report : IsHostUnreachable buf frame.buf) :
    Answered net start root req [buf] sr (srSendPacket net frame sr) where
  within := within.send own
  pending := by
    rw [srSendPacket_requests]
    exact pending
  untouched := by
    apply emits_send.untouched within.inv pending origin
    intro other otherPending _ _
    rw [srSendPacket_requests]
    exact otherPending
  counted := emits_send.counted origin report

/-- A report that is queued. -/
theorem answered_queue {gateway : IpAddr} {message : Packet} {buf : List Byte}
    (settles : ∀ below, Below net start root below req.ip → Settles net start root below)
    (noLoop : ¬TransGen (Below net start root) req.ip req.ip) (within : Within net start root sr)
    (after : Within net start root (srArpcacheQueuereq gateway message sr).2)
    (pending : req ∈ sr.requests) (expired : req.Expired start.now)
    (lands : ∀ first ∈ start.requests, first.ip = gateway → first.Expired start.now →
      Below net start root gateway req.ip)
    (mayHandle : MayHandle net start root (srArpcacheQueuereq gateway message sr).1
      (srArpcacheQueuereq gateway message sr).2)
    (origin : message.origin = .hostUnreachable req.id buf)
    (report : IsHostUnreachable buf message.buf) :
    ∃ next, Returns (fun depth => srArpcacheHandleArpreq net depth
        (srArpcacheQueuereq gateway message sr).1 (srArpcacheQueuereq gateway message sr).2) next ∧
      Answered net start root req [buf] sr next := by
  have stays : ∀ other ∈ sr.requests, other.Expired start.now →
      ¬TransGen (Below net start root) other.ip req.ip →
      other ∈ (srArpcacheQueuereq gateway message sr).2.requests := by
    intro other otherPending otherExpired notBelow
    apply queueing_keeps within.inv otherPending
    intro isGateway
    obtain ⟨first, firstPending, sameIp, firstExpired, _⟩ :=
      within.expired other otherPending otherExpired
    apply notBelow
    rw [isGateway]
    exact .single (lands first firstPending (sameIp.trans isGateway) firstExpired)
  have emits := @emits_queue message sr gateway
  obtain ⟨next, returns, nextWithin, untouched⟩ :=
    landing_settles settles within after lands mayHandle
  obtain ⟨nextPending, sameReports⟩ :=
    untouched req (stays req pending expired noLoop) expired noLoop
  refine ⟨next, returns, nextWithin, nextPending, ?_, ?_⟩
  · have queued : Untouched start (fun ip => ReflTransGen (Below net start root) ip req.ip) sr
        (srArpcacheQueuereq gateway message sr).2 := by
      apply emits.untouched within.inv pending origin
      intro other otherPending otherExpired apart
      exact stays other otherPending otherExpired fun below => apart below.to_reflTransGen
    exact queued.trans (untouched.mono fun _ below => below.to_reflTransGen)
  · intro about
    rw [sameReports about, emits.counted origin report]

/-- One packet of an expired request is reported. -/
theorem answerPacket_settles {walk : Packet} (verified : Verified net)
    (hit : ReportsHit net start root)
    (long : ∀ above buf, Reports net start root above buf → 14 + icmpDataSize ≤ buf.length)
    (settles : ∀ below, Below net start root below req.ip → Settles net start root below)
    (noLoop : ¬TransGen (Below net start root) req.ip req.ip) (within : Within net start root sr)
    (pending : req ∈ sr.requests) (expired : req.Expired start.now)
    (reports : Reports net start root req.ip walk.buf) :
    ∃ next, Returns (fun depth => answerPacket (srArpcacheHandleArpreq net depth) net req walk sr)
        next ∧ Answered net start root req [walk.buf] sr next := by
  obtain ⟨ownRoutable, otherRoutable⟩ := hit _ _ reports
  obtain ⟨own, ownIfc, leadsOwn⟩ := ownRoutable.leads verified
  obtain ⟨other, otherIfc, leadsOther⟩ := otherRoutable.leads verified
  have passes := report_passes ownIfc.ip req.id walk.buf leadsOther
  have isReport := isHostUnreachable ownIfc.ip otherIfc.addr walk.buf
  have fits : ¬walk.buf.length < 14 + icmpDataSize := Nat.not_lt_of_le (long _ _ reports)
  simp only [answerPacket_eq leadsOwn leadsOther, if_neg fits]
  cases known : srArpcacheLookup sr other.gw with
  | some arpentry =>
      simp only [sendOrQueue_known known]
      refine ⟨_, .always fun _ => rfl, ?_⟩
      apply answered_send within pending (passes.2 arpentry.mac)
      · dsimp only
      · dsimp only [id]
        exact isReport.setDhost arpentry.mac
  | none =>
      simp only [sendOrQueue_unknown known]
      have unknown := (srArpcacheLookup_congr within.entries other.gw).symm.trans known
      have after := within.queueReport reports leadsOwn leadsOther unknown passes.1
        (by dsimp only)
      have mayHandle := mayHandle_queueReport reports leadsOther unknown within after
      apply answered_queue settles noLoop within after pending expired _ mayHandle
      · dsimp only
      · dsimp only
        exact isReport
      · intro first firstPending isGateway firstExpired
        exact ⟨walk.buf, first, reports,
          ⟨other, leadsOther.1, unknown, firstPending, isGateway, firstExpired⟩, isGateway⟩

/-- The packets of an expired request are reported one by one. -/
theorem answerPackets_settles {packets : List Packet} (verified : Verified net)
    (hit : ReportsHit net start root)
    (long : ∀ above buf, Reports net start root above buf → 14 + icmpDataSize ≤ buf.length)
    (settles : ∀ below, Below net start root below req.ip → Settles net start root below)
    (noLoop : ¬TransGen (Below net start root) req.ip req.ip) (within : Within net start root sr)
    (pending : req ∈ sr.requests) (expired : req.Expired start.now)
    (reports : ∀ walk ∈ packets, Reports net start root req.ip walk.buf) :
    ∃ next,
      Returns (fun depth => answerPackets (srArpcacheHandleArpreq net depth) net req packets sr)
        next ∧ Answered net start root req (packets.map fun packet => packet.buf) sr next := by
  induction packets generalizing sr with
  | nil => exact ⟨sr, .always fun _ => rfl, within, pending, .refl _ sr, fun _ => rfl⟩
  | cons walk rest inductionHypothesis =>
      obtain ⟨middle, returnsOne, one⟩ := answerPacket_settles verified hit long settles noLoop
        within pending expired (reports walk List.mem_cons_self)
      obtain ⟨next, returnsRest, later⟩ := inductionHypothesis one.within one.pending
        (fun other isLater => reports other (List.mem_cons_of_mem _ isLater))
      refine ⟨next, ?_, later.within, later.pending, one.untouched.trans later.untouched, ?_⟩
      · unfold answerPackets
        simp only [findReq_of_mem within.inv pending]
        exact returnsOne.bind returnsRest
      · intro about
        have split := @List.count_append _ _ about [walk.buf] (rest.map fun packet => packet.buf)
        rw [later.counted, one.counted, Nat.add_assoc, ← split]
        rfl

/-- The request is destroyed after its packets were reported. -/
theorem srArpreqDestroy_settles (within : Within net start root sr) (pending : req ∈ sr.requests) :
    ∃ done, srArpreqDestroy req.id sr = .ok done ∧ Within net start root done ∧
      (req.id ∉ done.requests.map fun other => other.id) ∧
      Untouched start (fun ip => ip = req.ip) sr done ∧
      ∀ about, reported req.id about done = reported req.id about sr := by
  have inv := within.inv
  refine ⟨{ sr with requests := sr.requests.eraseP fun other => other.id = req.id }, ?_, ?_, ?_, ?_,
    fun _ => rfl⟩
  · unfold srArpreqDestroy
    rw [findReq_of_mem inv pending]
  · apply within.of_subset (inv.remove List.eraseP_sublist)
    · rfl
    · rfl
    · exact fun _ member _ => List.mem_of_mem_eraseP member
  · intro member
    obtain ⟨other, otherPending, sameId⟩ := List.mem_map.mp member
    exact ne_of_mem_eraseP inv.identified other otherPending sameId
  · intro other otherPending _ otherIp
    refine ⟨(List.mem_eraseP_of_neg ?_).mpr otherPending, fun _ => rfl⟩
    intro sameId
    apply otherIp
    rw [inv.same otherPending pending (by simpa using sameId)]

/-- The first steps on an expired request. -/
theorem handleArpreq_expired (within : Within net start root sr) (pending : req ∈ sr.requests)
    (expired : req.Expired start.now) (depth : Nat) :
    srArpcacheHandleArpreq net (depth + 1) req.id sr =
      answerPackets (srArpcacheHandleArpreq net depth) net req req.packets sr >>=
        srArpreqDestroy req.id := by
  have due : req.Due sr.now := by
    rw [within.now]
    exact expired.1
  rw [srArpcacheHandleArpreq, findReq_of_mem within.inv pending]
  exact (if_pos due).trans (if_pos expired.2)

private theorem not_transGen_self {α : Type} {relation : α → α → Prop} {value : α}
    (accessible : Acc relation value) : ¬TransGen relation value value := by
  induction accessible with
  | intro value _ inductionHypothesis =>
      intro loop
      obtain ⟨last, reaches, related⟩ := TransGen.tail'_iff.mp loop
      exact inductionHypothesis last related (TransGen.head'_iff.mpr ⟨value, related, reaches⟩)

/-- Expired requests are settled when the chains of reports end. -/
theorem settles_of_acc {ip : IpAddr} (verified : Verified net) (hit : ReportsHit net start root)
    (long : ∀ above buf, Reports net start root above buf → 14 + icmpDataSize ≤ buf.length)
    (ends : Acc (Below net start root) ip) : Settles net start root ip := by
  induction ends with
  | intro ip accessible inductionHypothesis =>
      intro sr req within pending isIp expired mayHandle
      subst isIp
      have noLoop := not_transGen_self (Acc.intro req.ip accessible)
      obtain ⟨middle, returns, answered⟩ := answerPackets_settles verified hit long
        inductionHypothesis noLoop within pending expired (mayHandle req pending rfl expired)
      obtain ⟨done, destroyed, doneWithin, gone, kept, sameReports⟩ :=
        srArpreqDestroy_settles answered.within answered.pending
      refine ⟨done, ?_, doneWithin, gone, ?_, ?_⟩
      · exact .deeper (handleArpreq_expired within pending expired)
          (returns.bind (.always fun _ => destroyed))
      · apply answered.untouched.trans
        apply kept.mono
        rintro _ rfl
        exact .refl
      · intro about
        rw [sameReports, answered.counted]

end Settling

/-- An expired request whose chains of reports end is handled completely at every sufficient depth
of the stack: each of its packets is reported to its source by exactly one more message that is sent
or queued, and it is no longer pending. -/
theorem expired_request_reported {net : Network} {depth : Nat} {sr : Instance} {req : ArpReq}
    (moment : Moment net depth sr) (pending : req ∈ sr.requests) (expired : req.Expired sr.now)
    (answerable : Answerable net sr req.ip) :
    ∃ done, Returns (fun depth => srArpcacheHandleArpreq net depth req.id sr) done ∧
      (∀ about, reported req.id about done =
        reported req.id about sr + (req.packets.map fun packet => packet.buf).count about) ∧
      req.id ∉ done.requests.map fun other => other.id := by
  have within : Within net sr (fun root => root = req.ip) sr := .refl moment.inv
  have mayHandle : MayHandle net sr (fun root => root = req.ip) req.id sr := by
    intro other otherPending sameId otherExpired
    have same := moment.inv.same otherPending pending sameId
    exact within.ready otherPending otherExpired (.inl (by rw [same]))
  obtain ⟨done, returns, settled⟩ := settles_of_acc answerable.verified answerable.hit
    answerable.long answerable.ends within pending rfl expired mayHandle
  exact ⟨done, returns, settled.counted, settled.gone⟩

/-- A request is answerable when it is the only one that has expired and the sources of its packets
are routed through other gateways. -/
theorem answerable_of_apart {net : Network} {sr : Instance} {ip : IpAddr} (verified : Verified net)
    (routable : Routable net ip)
    (apart : ∀ req ∈ sr.requests, req.Expired sr.now → req.ip = ip ∧
      ∀ packet ∈ req.packets, 14 + icmpDataSize ≤ packet.buf.length ∧
        ∃ rtentry, srFindLPMentry net.routingTable (ipSrc packet.buf) = some rtentry ∧
          rtentry.gw ≠ ip) : Answerable net sr ip := by
  have reports : ∀ above buf, Reports net sr (fun root => root = ip) above buf → above = ip ∧
      14 + icmpDataSize ≤ buf.length ∧
      ∃ rtentry, srFindLPMentry net.routingTable (ipSrc buf) = some rtentry ∧ rtentry.gw ≠ ip := by
    intro above buf reports
    induction reports with
    | root pending isRoot expired waits =>
        exact ⟨isRoot, (apart _ pending expired).2 _ waits⟩
    | waiting before lands waits inductionHypothesis =>
        obtain ⟨rtentry, route, _, pending, isGateway, expired⟩ := lands
        obtain ⟨_, _, other, otherRoute, notIp⟩ := inductionHypothesis
        cases Option.some.inj (route.symm.trans otherRoute)
        exact absurd (isGateway.symm.trans (apart _ pending expired).1) notIp
    | message before lands leadsOwn leadsOther inductionHypothesis =>
        obtain ⟨rtentry, route, _, pending, isGateway, expired⟩ := lands
        obtain ⟨_, _, other, otherRoute, notIp⟩ := inductionHypothesis
        cases Option.some.inj (route.symm.trans otherRoute)
        exact absurd (isGateway.symm.trans (apart _ pending expired).1) notIp
  constructor
  · exact verified
  · intro above buf isReported
    obtain ⟨isIp, _, rtentry, route, _⟩ := reports above buf isReported
    rw [isIp]
    exact ⟨routable, rtentry, route⟩
  · exact fun above buf isReported => (reports above buf isReported).2.1
  · constructor
    rintro below ⟨buf, req, isReported, ⟨rtentry, route, _, pending, isGateway, expired⟩, _⟩
    obtain ⟨_, _, other, otherRoute, notIp⟩ := reports ip buf isReported
    cases Option.some.inj (route.symm.trans otherRoute)
    exact absurd (isGateway.symm.trans (apart _ pending expired).1) notIp

end EE323.Router

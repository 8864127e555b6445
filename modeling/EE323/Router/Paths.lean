/-
Module: EE323.Router.Paths
Purpose: The two ways through the router.  A transit packet whose next hop is known is edited and
  sent at once, and one whose next hop is not known is queued as it is and edited when the ARP reply
  releases it.
Main exports: Transit, react_transit, waitingFor, paths_agree
-/
import EE323.Router.Waiting

namespace EE323.Router

open EE323.Lib

/-- A packet to be forwarded: it passes the checks, its source is not blacklisted, it is not for the
router, its time to live allows another hop, and it has a route. -/
structure Transit (net : Network) (packet : List Byte) (rtentry : Route) (ifc : Interface) :
    Prop where
  isIp : etherType packet = ethertypeIp
  long : 34 ≤ packet.length
  version : ipV packet = 4
  sumValid : IpSumValid packet
  allowed : ipBlackList packet = false
  notLocal : ¬∃ ifc ∈ net.ifList, ipDst packet = ifc.ip
  ttl : 2 ≤ (ipTtl packet).toNat
  leads : Leads net (ipDst packet) rtentry ifc

/-- The packet as it is queued. -/
def transitPacket (packet : List Byte) (rtentry : Route) (ifc : Interface) : Packet :=
  ⟨setShost packet ifc.addr, rtentry.interface, .forwarded⟩

/-- The packet's request is still pending. -/
def StillWaiting (sr later : Instance) (ip : IpAddr) (packet : Packet) : Prop :=
  (srArpcacheQueuereq ip packet sr).1 ∈ later.requests.map fun req => req.id

instance (sr later : Instance) (ip : IpAddr) (packet : Packet) :
    Decidable (StillWaiting sr later ip packet) := inferInstanceAs (Decidable (_ ∈ _))

variable {net : Network} {depth : Nat} {sr next : Instance} {packet : List Byte} {rtentry : Route}
  {ifc : Interface}

/-- A transit packet takes the forwarding branch. -/
theorem react_transit (transit : Transit net packet rtentry ifc) :
    react net depth sr (.frame packet) =
      sendOrQueue (srArpcacheHandleArpreq net depth) net decrementTtl rtentry
        (setShost packet ifc.addr) .forwarded sr := by
  have long := transit.long
  have notOne : ipTtl packet ≠ 1 := by
    intro one
    have ttl := transit.ttl
    rw [one] at ttl
    exact absurd ttl (by decide)
  unfold react srHandlepacket handleIp handleTransit
  dsimp only
  rw [if_neg (by omega), if_pos transit.isIp, if_neg (by omega),
    if_neg (not_not.mpr transit.version), if_neg (not_not.mpr transit.sumValid),
    if_neg (by rw [transit.allowed]; decide), if_neg transit.notLocal, transit.leads.1]
  dsimp only
  rw [if_neg notOne]
  simp only [interfaceOf, transit.leads.2, deref, bind, Except.bind]

/-- A transit packet leaves the queue as it would have left at once, unless its time to live is the
one by which the router knows its own packets. -/
theorem released_eq_iff (transit : Transit net packet rtentry ifc) (mac : Mac) :
    released mac (transitPacket packet rtentry ifc) =
        ⟨decrementTtl (setDhost (setShost packet ifc.addr) mac), rtentry.interface, .forwarded⟩ ↔
      ipTtl packet ≠ initTtl := by
  have ttl : ipTtl (setDhost (setShost packet ifc.addr) mac) = ipTtl packet := by
    rw [ipTtl_setDhost, ipTtl_setShost]
  unfold released transitPacket
  dsimp only
  rw [ttl]
  constructor
  · intro same isInit
    rw [if_neg (not_not.mpr isInit)] at same
    have bufs := congrArg (fun frame : Packet => ipTtl frame.buf) same
    dsimp only at bufs
    rw [ipTtl_decrementTtl (by simpa using transit.long), ttl, isInit] at bufs
    exact absurd bufs (by decide)
  · intro notInit
    rw [if_pos notInit]

/-- A transit packet whose next hop is known leaves in the reaction to its arrival. -/
theorem fast_path (transit : Transit net packet rtentry ifc) {arpentry : ArpEntry}
    (known : srArpcacheLookup sr rtentry.gw = some arpentry)
    (sent : react net depth sr (.frame packet) = .ok next) :
    next.handed = sr.handed ++
      [⟨decrementTtl (setDhost (setShost packet ifc.addr) arpentry.mac), rtentry.interface,
        .forwarded⟩] := by
  rw [react_transit transit, sendOrQueue_known known] at sent
  have sent := Except.ok.inj sent
  rw [← sent, srSendPacket_handed]

/-- A transit packet whose next hop is not known waits on its request, and an accepted reply sends
it in front of the packets that waited before it. -/
theorem slow_path {now : Nat} (transit : Transit net packet rtentry ifc)
    {before during : List Event} {slow queued later done : Instance}
    (reached : Run (step net depth) anyStep (srArpcacheInit now) before slow)
    (unknown : srArpcacheLookup slow rtentry.gw = none)
    (received : react net depth slow (.frame packet) = .ok queued)
    (meanwhile : Run (step net depth) anyStep queued during later)
    (waiting : StillWaiting slow later rtentry.gw (transitPacket packet rtentry ifc))
    {reply : List Byte} {own : IpAddr} (isReply : IsArpReply reply rtentry.gw own)
    (accepts : Accepts net own) (answered : react net depth later (.frame reply) = .ok done) :
    ∃ newer, done.handed = later.handed ++ (newer ++
      released (arSha reply) (transitPacket packet rtentry ifc) ::
        (waitingFor slow rtentry.gw).map (released (arSha reply))) := by
  have inv := (Moment.of_run reached).inv
  have laterMoment : Moment net depth later := by
    apply Moment.of_run
    exact (reached.snoc trivial (step_eq_some.mpr received)).trans meanwhile
  rw [react_transit transit, sendOrQueue_unknown unknown] at received
  have handled : Changes net (fun _ => True)
      (srArpcacheQueuereq rtentry.gw (transitPacket packet rtentry ifc) slow).2 later :=
    (handleArpreq_changes depth received).trans (changes_of_run meanwhile)
  -- the request is the one that the packet was queued on, with newer packets in front
  obtain ⟨req, pending, sameId⟩ := List.mem_map.mp waiting
  obtain ⟨start, startPending, startId, startIp, newer, packets⟩ :=
    (Changes.extends handled).2 req pending (by rw [sameId]; exact queued_allocated inv.allocated)
  obtain ⟨ip, front⟩ := queued_in_front inv.allocated inv.identified startPending
    (startId.trans sameId)
  rw [front] at packets
  rw [← ip, startIp] at isReply
  obtain ⟨finish, returned, handed, _⟩ := laterMoment.react_answer pending isReply accepts
  rw [answered] at returned
  have returned := Except.ok.inj returned
  refine ⟨newer.map (released (arSha reply)), ?_⟩
  rw [returned, handed, packets, List.map_append, List.map_cons]

/-- The frame that a transit packet becomes when its next hop is known on arrival, and the frame
that it becomes when it has to wait for an accepted reply with the same address, are the same
exactly when its time to live is not `INIT_TTL`.  The second frame is the one in front of the
packets that waited before it. -/
theorem paths_agree {now : Nat} (transit : Transit net packet rtentry ifc)
    {fast fastDone : Instance} {arpentry : ArpEntry}
    (known : srArpcacheLookup fast rtentry.gw = some arpentry)
    (sent : react net depth fast (.frame packet) = .ok fastDone)
    {before during : List Event} {slow queued later done : Instance}
    (reached : Run (step net depth) anyStep (srArpcacheInit now) before slow)
    (unknown : srArpcacheLookup slow rtentry.gw = none)
    (received : react net depth slow (.frame packet) = .ok queued)
    (meanwhile : Run (step net depth) anyStep queued during later)
    (waiting : StillWaiting slow later rtentry.gw (transitPacket packet rtentry ifc))
    {reply : List Byte} {own : IpAddr} (isReply : IsArpReply reply rtentry.gw own)
    (accepts : Accepts net own) (sameMac : arSha reply = arpentry.mac)
    (answered : react net depth later (.frame reply) = .ok done) :
    ∃ fastFrame slowFrame newer, fastDone.handed = fast.handed ++ [fastFrame] ∧
      done.handed = later.handed ++
        (newer ++ slowFrame :: (waitingFor slow rtentry.gw).map (released arpentry.mac)) ∧
      (slowFrame = fastFrame ↔ ipTtl packet ≠ initTtl) := by
  obtain ⟨newer, handed⟩ := slow_path transit reached unknown received meanwhile waiting isReply
    accepts answered
  rw [sameMac] at handed
  exact ⟨_, _, newer, fast_path transit known sent, handed, released_eq_iff transit arpentry.mac⟩

/-! ### Two packets of the lab -/

private theorem labPacket_transit {ttl : Byte} (isTested : ttl = 64 ∨ ttl = 255) :
    Transit labNetwork (labPacket ttl) labRoute labInterface := by
  rcases isTested with rfl | rfl
  · constructor <;> decide +kernel
  · constructor <;> decide +kernel

/-- The reply comes first, and then the packet is sent at once. -/
private theorem lab_fast {ttl : Byte} (isTested : ttl = 64 ∨ ttl = 255) :
    ∃ arpentry fast fastDone, srArpcacheLookup fast labRoute.gw = some arpentry ∧
      react labNetwork 4 fast (.frame (labPacket ttl)) = .ok fastDone ∧
      arSha labReply = arpentry.mac := by
  have reached : ∃ fast, Run (step labNetwork 4) anyStep (srArpcacheInit 5) [.frame labReply] fast ∧
      (srArpcacheLookup fast labRoute.gw).any (fun arpentry => arSha labReply = arpentry.mac) ∧
      (step labNetwork 4 fast (.frame (labPacket ttl))).isSome := by
    rcases isTested with rfl | rfl
    · exact exec_reaches _ (by decide +kernel)
    · exact exec_reaches _ (by decide +kernel)
  obtain ⟨fast, _, found, returns⟩ := reached
  obtain ⟨arpentry, known, sameMac⟩ := (Option.any_eq_true _ _).mp found
  obtain ⟨fastDone, sent⟩ := Option.isSome_iff_exists.mp returns
  exact ⟨arpentry, fast, fastDone, known, step_eq_some.mp sent, of_decide_eq_true sameMac⟩

/-- The packet comes first, and waits for the reply. -/
private theorem lab_slow {ttl : Byte} (isTested : ttl = 64 ∨ ttl = 255) :
    ∃ queued done, react labNetwork 4 (srArpcacheInit 5) (.frame (labPacket ttl)) = .ok queued ∧
      StillWaiting (srArpcacheInit 5) queued labRoute.gw
        (transitPacket (labPacket ttl) labRoute labInterface) ∧
      react labNetwork 4 queued (.frame labReply) = .ok done := by
  have returns : (step labNetwork 4 (srArpcacheInit 5) (.frame (labPacket ttl))).any
      (fun queued => decide (StillWaiting (srArpcacheInit 5) queued labRoute.gw
        (transitPacket (labPacket ttl) labRoute labInterface)) &&
          (step labNetwork 4 queued (.frame labReply)).isSome) = true := by
    rcases isTested with rfl | rfl
    · decide +kernel
    · decide +kernel
  obtain ⟨queued, received, later⟩ := (Option.any_eq_true _ _).mp returns
  obtain ⟨waiting, answers⟩ := Bool.and_eq_true_iff.mp later
  obtain ⟨done, answered⟩ := Option.isSome_iff_exists.mp answers
  exact ⟨queued, done, step_eq_some.mp received, of_decide_eq_true waiting,
    step_eq_some.mp answered⟩

/-- With a time to live of 64 the two frames are the same. -/
theorem paths_agree_sixty_four : ∃ (fast fastDone queued done : Instance)
    (fastFrame slowFrame : Packet) (newer older : List Packet),
    fastDone.handed = fast.handed ++ [fastFrame] ∧
      done.handed = queued.handed ++ (newer ++ slowFrame :: older) ∧ slowFrame = fastFrame := by
  have transit := @labPacket_transit 64 (.inl rfl)
  obtain ⟨arpentry, fast, fastDone, known, sent, sameMac⟩ := @lab_fast 64 (.inl rfl)
  obtain ⟨queued, done, received, waiting, answered⟩ := @lab_slow 64 (.inl rfl)
  obtain ⟨fastFrame, slowFrame, newer, fastHanded, slowHanded, same⟩ :=
    paths_agree transit known sent (.refl (srArpcacheInit 5)) (by decide) received (.refl queued)
      waiting labReply_isArpReply lab_accepts sameMac answered
  have notInit : ipTtl (labPacket 64) ≠ initTtl := by decide +kernel
  exact ⟨fast, fastDone, queued, done, fastFrame, slowFrame, newer, _, fastHanded, slowHanded,
    same.mpr notInit⟩

/-- With a time to live of 255 the queued packet leaves undecremented. -/
theorem queued_ttl_kept : ∃ (packet : List Byte) (rtentry : Route) (ifc : Interface)
    (arpentry : ArpEntry) (fast fastDone slow queued done : Instance) (reply : List Byte)
    (fastFrame slowFrame : Packet) (newer : List Packet),
    Transit labNetwork packet rtentry ifc ∧ ipTtl packet = 255 ∧
      srArpcacheLookup fast rtentry.gw = some arpentry ∧
      react labNetwork 4 fast (.frame packet) = .ok fastDone ∧
      slow = srArpcacheInit 5 ∧ srArpcacheLookup slow rtentry.gw = none ∧
      react labNetwork 4 slow (.frame packet) = .ok queued ∧
      IsArpReply reply rtentry.gw 0xAC400301 ∧ arSha reply = arpentry.mac ∧
      react labNetwork 4 queued (.frame reply) = .ok done ∧
      fastDone.handed = fast.handed ++ [fastFrame] ∧
      done.handed = queued.handed ++ (newer ++ [slowFrame]) ∧ slowFrame ≠ fastFrame := by
  have transit := @labPacket_transit 255 (.inr rfl)
  obtain ⟨arpentry, fast, fastDone, known, sent, sameMac⟩ := @lab_fast 255 (.inr rfl)
  obtain ⟨queued, done, received, waiting, answered⟩ := @lab_slow 255 (.inr rfl)
  have unknown : srArpcacheLookup (srArpcacheInit 5) labRoute.gw = none := by decide
  obtain ⟨newer, slowHanded⟩ := slow_path transit (.refl (srArpcacheInit 5)) unknown received
    (.refl queued) waiting labReply_isArpReply lab_accepts answered
  have isInit : ipTtl (labPacket 255) = initTtl := by decide +kernel
  have differ := mt (released_eq_iff transit arpentry.mac).mp (not_not.mpr isInit)
  rw [sameMac] at slowHanded
  exact ⟨_, _, _, arpentry, fast, fastDone, _, queued, done, labReply, _, _, newer, transit, isInit,
    known, sent, rfl, unknown, received, labReply_isArpReply, sameMac, answered,
    fast_path transit known sent, slowHanded, differ⟩

end EE323.Router

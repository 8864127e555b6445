/-
Module: EE323.Router.Unroutable
Purpose: Destinations that no route matches.  The branch that should report them first compares bytes
  36 and 37 with an ICMP checksum, whatever the protocol of the packet, and drops the packet silently
  when they differ.
Main exports: IsNetUnreachable, netUnreachables, ReportsNet, unroutable_reported, udp_not_reported
-/
import EE323.Router.Dispatch
import EE323.Router.Messages

namespace EE323.Router

open EE323.Lib

/-- An ICMP net unreachable message to the source of a packet. -/
def IsNetUnreachable (about message : List Byte) : Prop :=
  etherType message = ethertypeIp ∧ ipP message = 1 ∧ field message 34 2 = [3, 0] ∧
    ipDst message = ipSrc about

instance (about message : List Byte) : Decidable (IsNetUnreachable about message) :=
  inferInstanceAs (Decidable (_ ∧ _))

/-- How many net unreachable messages to the source of a packet were sent or queued. -/
def netUnreachables (about : List Byte) (sr : Instance) : Nat :=
  (sr.handed ++ sr.queued).countP fun message => IsNetUnreachable about message.buf

/-- The router sends the net unreachable message about a packet, or queues it and handles the
request that it is queued on, and when it returns it has sent or queued this one and no other. -/
structure ReportsNet (net : Network) (depth : Nat) (sr : Instance) (packet : List Byte)
    (rtentry : Route) (ifc : Interface) : Prop where
  message : react net depth sr (.frame packet) =
    sendOrQueue (srArpcacheHandleArpreq net depth) net id rtentry
      (netUnreachable ifc.ip ifc.addr packet) .icmpError sr
  once : ∀ next, react net depth sr (.frame packet) = .ok next →
    netUnreachables packet next = netUnreachables packet sr + 1

section Reporting

variable {net : Network} {packet : List Byte} {sr next : Instance}

theorem etherType_icmpError (type code : Byte) (trailing : Nat) (source : IpAddr) (shost : Mac)
    (original : List Byte) :
    etherType (icmpError type code trailing source shost original) = ethertypeIp := by
  unfold etherType
  rw [field_icmpError _ _ _ _ _ _ (by decide)]
  simp only [icmpErrorRaw, List.append_assoc]
  iterate 2 rw [field_append_right _ _ (by simp)]
  rw [field_append_left _ (by simp [ethertypeIp]), field_whole (by simp) (by simp [ethertypeIp])]

theorem isNetUnreachable (source : IpAddr) (shost : Mac) (about : List Byte) :
    IsNetUnreachable about (netUnreachable source shost about) :=
  ⟨etherType_icmpError _ _ _ _ _ _, ipP_icmpError _ _ _ _ _ _, icmpHead_icmpError _ _ _ _ _ _,
    ipDst_icmpError _ _ _ _ _ _⟩

theorem IsNetUnreachable.setDhost {about message : List Byte} (mac : Mac)
    (report : IsNetUnreachable about message) : IsNetUnreachable about (setDhost message mac) := by
  obtain ⟨isIp, protocol, head, dest⟩ := report
  refine ⟨?_, (getD_patch_other (.inr (by simp))).trans protocol, ?_, ?_⟩
  · unfold etherType
    rw [field_setDhost _ _ _ (by decide)]
    exact isIp
  · rw [field_setDhost _ _ _ (by decide)]
    exact head
  · rw [ipDst_setDhost]
    exact dest

/-- The first bytes of the ICMP header of an error. -/
theorem ErrorAbout.head {type code : Byte} {about buf : List Byte}
    (isError : ErrorAbout type code about buf) : field buf 34 2 = [type, code] := by
  obtain ⟨trailing, _, source, shost, raw | ⟨mac, addressed⟩⟩ := isError
  · rw [raw]
    exact icmpHead_icmpError _ _ _ _ _ _
  · rw [addressed, field_setDhost _ _ _ (by decide)]
    exact icmpHead_icmpError _ _ _ _ _ _

/-- Notices are no net unreachable messages. -/
theorem Notice.not_netUnreachable {Waits : Packet → Prop} {message : Packet} (about : List Byte)
    (notice : Notice Waits message) : ¬IsNetUnreachable about message.buf := by
  rintro ⟨isIp, _, head, _⟩
  rcases notice with ⟨walk, req, _, _, isError⟩ | ⟨_, isArp⟩
  · rw [isError.head] at head
    exact absurd head (by decide)
  · rw [isArp] at isIp
    exact absurd isIp (by decide)

/-- New messages that are no net unreachable messages are not counted. -/
theorem Spread.netUnreachables_eq {Waits New : Packet → Prop} {about : List Byte}
    (spread : Spread Waits New sr next)
    (other : ∀ message, New message → ¬IsNetUnreachable about message.buf) :
    netUnreachables about next = netUnreachables about sr := by
  obtain ⟨_, ⟨queued, isQueued, allQueued⟩, handed, isHanded, allHanded⟩ := spread
  have none {messages : List Packet} (all : ∀ message ∈ messages, New message) :
      messages.countP (fun message => IsNetUnreachable about message.buf) = 0 := by
    refine List.countP_eq_zero.mpr fun message member => ?_
    simpa using other message (all message member)
  unfold netUnreachables
  rw [isQueued, isHanded]
  simp only [List.countP_append, none allQueued, none allHanded, Nat.add_zero]

/-- Every packet, as far as a statement about one event is concerned. -/
private def anyPacket (_ : Packet) : Prop := True

/-- Sending or queueing one net unreachable message counts for one, whatever the handling of the
request adds. -/
theorem sendOrQueue_netUnreachables {depth : Nat} {rtentry : Route} {buf : List Byte}
    {origin : Origin} (isReport : IsNetUnreachable packet buf)
    (returned : sendOrQueue (srArpcacheHandleArpreq net depth) net id rtentry buf origin sr =
      .ok next) : netUnreachables packet next = netUnreachables packet sr + 1 := by
  cases lookup : srArpcacheLookup sr rtentry.gw with
  | some arpentry =>
      rw [sendOrQueue_known lookup] at returned
      cases returned
      have counts := isReport.setDhost arpentry.mac
      unfold netUnreachables
      rw [srSendPacket_handed, srSendPacket_queued]
      simp only [List.countP_append, List.countP_singleton, decide_eq_true_eq, id_eq,
        if_pos counts]
      omega
  | none =>
      rw [sendOrQueue_unknown lookup] at returned
      obtain ⟨_, _, handed, queued⟩ :=
        srArpcacheQueuereq_entries rtentry.gw ⟨buf, rtentry.interface, origin⟩ sr
      have closed : ClosedUnderReports anyPacket := fun _ _ => trivial
      have handled := handleArpreq_spread closed depth (fun _ _ _ _ => trivial) returned
      rw [handled.netUnreachables_eq fun message notice => notice.not_netUnreachable packet]
      unfold netUnreachables
      rw [handed, queued]
      simp only [List.countP_append, List.countP_singleton, decide_eq_true_eq, if_pos isReport]
      omega

/-- What the router does with an IP packet is what its decision says. -/
theorem react_ip {depth : Nat} (isIp : etherType packet = ethertypeIp)
    (long : 14 ≤ packet.length) : react net depth sr (.frame packet) =
      ipJob net packet >>= runJob (srArpcacheHandleArpreq net depth) net sr := by
  show srHandlepacket net depth packet sr = _
  unfold srHandlepacket
  rw [if_neg (Nat.not_lt_of_le long), if_pos isIp, handleIp_eq]

/-- No entry of the table matches, so the scan finds none. -/
theorem srFindLPMentry_none {rtable : List Route} {ipDst : IpAddr}
    (unmatched : ∀ entry ∈ rtable, ¬entry.Matches ipDst) : srFindLPMentry rtable ipDst = none := by
  cases found : srFindLPMentry rtable ipDst with
  | none => rfl
  | some entry =>
      obtain ⟨member, isMatch⟩ := srFindLPMentry_mem found
      exact absurd isMatch (unmatched entry member)

/-- In every state, a packet that no route matches is reported exactly when the two bytes after the
first two of its payload are the ICMP checksum of the payload. -/
theorem unroutable_reported {depth : Nat} {rtentry : Route} {ifc : Interface}
    (isIp : etherType packet = ethertypeIp) (admitted : Admitted packet)
    (notLocal : ¬IsLocal net packet) (long : 14 + icmpDataSize ≤ packet.length)
    (leads : Leads net (ipSrc packet) rtentry ifc)
    (unmatched : ∀ entry ∈ net.routingTable, ¬entry.Matches (ipDst packet)) :
    ReportsNet net depth sr packet rtentry ifc ↔ IcmpSumValid packet := by
  have decided : ipJob net packet =
      if 14 + icmpDataSize ≤ packet.length ∧ IcmpSumValid packet then
        reportJob net netUnreachable packet
      else .ok none := by
    unfold ipJob
    rw [if_neg (not_not.mpr admitted), if_neg notLocal]
    unfold transitJob
    rw [srFindLPMentry_none unmatched]
  have reacts : react net depth sr (.frame packet) = _ :=
    react_ip isIp (Nat.le_trans (by decide) long)
  rw [decided] at reacts
  constructor
  · intro reports
    by_contra invalid
    rw [if_neg fun both => invalid both.2] at reacts
    have unchanged := reports.once sr reacts
    omega
  · intro valid
    rw [if_pos ⟨long, valid⟩, reportJob_eq _ leads long, bind_runJob] at reacts
    dsimp only at reacts
    refine ⟨reacts, fun next returned => ?_⟩
    rw [reacts] at returned
    exact sendOrQueue_netUnreachables (isNetUnreachable _ _ _) returned

end Reporting

/-! ### Two packets to an address outside the lab -/

/-- An echo request of eight bytes with its checksum. -/
private def pingOutside : List Byte :=
  ipFrame 64 1 0xC0A80202 0x08080808 [8, 0, 0xf7, 0xff, 0, 0, 0, 0]

/-- A UDP datagram of eight bytes. -/
private def udpOutside : List Byte :=
  ipFrame 64 17 0xC0A80202 0x08080808 [0x13, 0x88, 0, 53, 0, 8, 0, 0]

private def eth1Route : Route := ⟨0xC0A80202, 0xC0A80202, 0xFFFFFF00, "eth1"⟩

private def eth1 : Interface := ⟨"eth1", routerMac 1, 0xC0A80201⟩

theorem unroutable_reported_ping :
    ReportsNet labNetwork 4 (srArpcacheInit 0) pingOutside eth1Route eth1 :=
  (unroutable_reported (by decide) (by decide) (by decide) (by decide) (by decide)
    (by decide)).mpr (by decide)

/-- The datagram meets every condition, and the router does nothing. -/
theorem udp_not_reported :
    etherType udpOutside = ethertypeIp ∧ Admitted udpOutside ∧ ¬IsLocal labNetwork udpOutside ∧
      14 + icmpDataSize ≤ udpOutside.length ∧ ipP udpOutside = 17 ∧
      Leads labNetwork (ipSrc udpOutside) eth1Route eth1 ∧
      (∀ entry ∈ labNetwork.routingTable, ¬entry.Matches (ipDst udpOutside)) ∧
      react labNetwork 4 (srArpcacheInit 0) (.frame udpOutside) = .ok (srArpcacheInit 0) ∧
      ¬ReportsNet labNetwork 4 (srArpcacheInit 0) udpOutside eth1Route eth1 := by
  have silent : react labNetwork 4 (srArpcacheInit 0) (.frame udpOutside) =
      .ok (srArpcacheInit 0) := by decide +kernel
  refine ⟨by decide, by decide, by decide, by decide, by decide, by decide, by decide, silent, ?_⟩
  intro reports
  have counted := reports.once _ silent
  omega

end EE323.Router

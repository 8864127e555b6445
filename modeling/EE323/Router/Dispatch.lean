/-
Module: EE323.Router.Dispatch
Purpose: What the IP branch decides before it touches the state.  The received frame and the two
  tables alone determine the packet that is to be sent and its route, and only the report about a
  packet needs a lookup that is not checked.
Main exports: Job, ipJob, handleIp_eq, NeedsReport, ipJob_ensures
-/
import Mathlib.Tactic.Tauto
import EE323.Router.Reports

namespace EE323.Router

open EE323.Lib

/-- A packet that is to be sent, with its route and with what happens to it when it is sent at
once. -/
structure Job where
  edit : List Byte → List Byte
  rtentry : Route
  buf : List Byte
  origin : Origin

/-- Send or queue the packet of a job. -/
def runJob (handle : Nat → Instance → Except Fault Instance) (net : Network) (sr : Instance) :
    Option Job → Except Fault Instance
  | none => .ok sr
  | some job => sendOrQueue handle net job.edit job.rtentry job.buf job.origin sr

/-- The report about a packet. -/
def reportJob (net : Network) (error : IpAddr → Mac → List Byte → List Byte)
    (packet : List Byte) : Except Fault (Option Job) := do
  let rtentry ← routeTo net (ipSrc packet)
  let ifc ← interfaceOf net rtentry.interface
  if packet.length < 14 + icmpDataSize then .error .overread
  else .ok (some ⟨id, rtentry, error ifc.ip ifc.addr packet, .icmpError⟩)

/-- A packet that takes a route, with the Ethernet address of the route's interface. -/
def routeJob (net : Network) (edit : List Byte → List Byte) (rtentry : Route) (packet : List Byte)
    (origin : Origin) : Except Fault (Option Job) := do
  let ifc ← interfaceOf net rtentry.interface
  .ok (some ⟨edit, rtentry, setShost packet ifc.addr, origin⟩)

/-- The job of an echo request. -/
def echoJob (net : Network) (packet : List Byte) : Except Fault (Option Job) :=
  if packet.length < 14 + 20 + 4 ∨ icmpType packet ≠ 8 ∨ ¬IcmpSumValid packet then .ok none
  else
    match srFindLPMentry net.routingTable (ipDst (echoReply packet)) with
    | none => .ok none
    | some rtentry => routeJob net id rtentry (echoReply packet) .echoReply

/-- The job of a packet to a router interface. -/
def localJob (net : Network) (packet : List Byte) : Except Fault (Option Job) :=
  if ipP packet = 1 then echoJob net packet
  else if (ipP packet = 6 ∨ ipP packet = 17) ∧ 14 + icmpDataSize ≤ packet.length then
    reportJob net portUnreachable packet
  else .ok none

/-- The job of a packet to be forwarded. -/
def transitJob (net : Network) (packet : List Byte) : Except Fault (Option Job) :=
  match srFindLPMentry net.routingTable (ipDst packet) with
  | some rtentry =>
      if ipTtl packet = 1 then
        if 14 + icmpDataSize ≤ packet.length then reportJob net timeExceeded packet else .ok none
      else routeJob net decrementTtl rtentry packet .forwarded
  | none =>
      if 14 + icmpDataSize ≤ packet.length ∧ IcmpSumValid packet then
        reportJob net netUnreachable packet
      else .ok none

/-- The packet is for the router. -/
def IsLocal (net : Network) (packet : List Byte) : Prop := ∃ ifc ∈ net.ifList, ipDst packet = ifc.ip

instance (net : Network) (packet : List Byte) : Decidable (IsLocal net packet) :=
  inferInstanceAs (Decidable (∃ ifc ∈ net.ifList, _))

/-- The packet passes the checks of the IP branch and the blacklist. -/
def Admitted (packet : List Byte) : Prop :=
  14 + 20 ≤ packet.length ∧ ipV packet = 4 ∧ IpSumValid packet ∧ ipBlackList packet = false

instance (packet : List Byte) : Decidable (Admitted packet) :=
  inferInstanceAs (Decidable (_ ∧ _))

/-- The job of a received IP packet. -/
def ipJob (net : Network) (packet : List Byte) : Except Fault (Option Job) :=
  if ¬Admitted packet then .ok none
  else if IsLocal net packet then localJob net packet
  else transitJob net packet

/-- The packet makes the router report an error to its source. -/
def NeedsReport (net : Network) (packet : List Byte) : Prop :=
  Admitted packet ∧ 14 + icmpDataSize ≤ packet.length ∧
    ((IsLocal net packet ∧ (ipP packet = 6 ∨ ipP packet = 17)) ∨
      (¬IsLocal net packet ∧
        ((Routable net (ipDst packet) ∧ ipTtl packet = 1) ∨
          (¬Routable net (ipDst packet) ∧ IcmpSumValid packet))))

section Equations

variable {handle : Nat → Instance → Except Fault Instance} {net : Network} {packet : List Byte}
  {sr : Instance}

private theorem sendError_eq (error : IpAddr → Mac → List Byte → List Byte) :
    sendError handle net error packet sr = reportJob net error packet >>= runJob handle net sr := by
  unfold sendError reportJob
  cases routeTo net (ipSrc packet) with
  | error fault => rfl
  | ok rtentry =>
      simp only [bind, Except.bind]
      cases interfaceOf net rtentry.interface with
      | error fault => rfl
      | ok ifc =>
          dsimp only
          split
          · rfl
          · rfl

private theorem routeJob_eq (edit : List Byte → List Byte) (rtentry : Route) (origin : Origin) :
    (interfaceOf net rtentry.interface >>= fun ifc =>
      sendOrQueue handle net edit rtentry (setShost packet ifc.addr) origin sr) =
      routeJob net edit rtentry packet origin >>= runJob handle net sr := by
  unfold routeJob
  cases interfaceOf net rtentry.interface <;> rfl

private theorem handleEcho_eq :
    handleEcho handle net packet sr = echoJob net packet >>= runJob handle net sr := by
  unfold handleEcho echoJob
  by_cases short : packet.length < 14 + 20 + 4
  · rw [if_pos short, if_pos (.inl short)]
    rfl
  by_cases otherType : icmpType packet ≠ 8
  · rw [if_neg short, if_pos otherType, if_pos (.inr (.inl otherType))]
    rfl
  by_cases badSum : ¬IcmpSumValid packet
  · rw [if_neg short, if_neg otherType, if_pos badSum, if_pos (.inr (.inr badSum))]
    rfl
  rw [if_neg short, if_neg otherType, if_neg badSum, if_neg (by tauto)]
  dsimp only
  cases srFindLPMentry net.routingTable (ipDst (echoReply packet)) with
  | none => rfl
  | some rtentry => exact routeJob_eq _ _ _

private theorem handleLocal_eq :
    handleLocal handle net packet sr = localJob net packet >>= runJob handle net sr := by
  unfold handleLocal localJob
  by_cases icmp : ipP packet = 1
  · rw [if_pos icmp, if_pos icmp]
    exact handleEcho_eq
  rw [if_neg icmp, if_neg icmp]
  by_cases transport : ipP packet = 6 ∨ ipP packet = 17
  · rw [if_pos transport]
    by_cases short : packet.length < 14 + icmpDataSize
    · rw [if_pos short, if_neg (fun both => absurd both.2 (Nat.not_le_of_lt short))]
      rfl
    · rw [if_neg short, if_pos ⟨transport, Nat.le_of_not_lt short⟩]
      exact sendError_eq _
  · rw [if_neg transport, if_neg (fun both => transport both.1)]
    rfl

private theorem handleTransit_eq :
    handleTransit handle net packet sr = transitJob net packet >>= runJob handle net sr := by
  unfold handleTransit transitJob
  cases srFindLPMentry net.routingTable (ipDst packet) with
  | some rtentry =>
      dsimp only
      by_cases last : ipTtl packet = 1
      · rw [if_pos last, if_pos last]
        by_cases short : packet.length < 14 + icmpDataSize
        · rw [if_pos short, if_neg (Nat.not_le_of_lt short)]
          rfl
        · rw [if_neg short, if_pos (Nat.le_of_not_lt short)]
          exact sendError_eq _
      · rw [if_neg last, if_neg last]
        exact routeJob_eq _ _ _
  | none =>
      dsimp only
      by_cases short : packet.length < 14 + icmpDataSize
      · rw [if_pos short, if_neg (fun both => absurd both.1 (Nat.not_le_of_lt short))]
        rfl
      rw [if_neg short]
      by_cases sumValid : IcmpSumValid packet
      · rw [if_neg (not_not.mpr sumValid), if_pos ⟨Nat.le_of_not_lt short, sumValid⟩]
        exact sendError_eq _
      · rw [if_pos sumValid, if_neg (fun both => sumValid both.2)]
        rfl

/-- The IP branch decides on a job and runs it. -/
theorem handleIp_eq :
    handleIp handle net packet sr = ipJob net packet >>= runJob handle net sr := by
  unfold handleIp ipJob
  by_cases admitted : Admitted packet
  · obtain ⟨long, version, sumValid, allowed⟩ := admitted
    rw [if_neg (by omega), if_neg (not_not.mpr version), if_neg (not_not.mpr sumValid),
      if_neg (by rw [allowed]; decide), if_neg (not_not.mpr ⟨long, version, sumValid, allowed⟩)]
    by_cases isLocal : IsLocal net packet
    · rw [if_pos isLocal]
      exact (if_pos isLocal).trans handleLocal_eq
    · rw [if_neg isLocal]
      exact (if_neg isLocal).trans handleTransit_eq
  · rw [if_pos admitted]
    unfold Admitted at admitted
    split
    · rfl
    split
    · rfl
    split
    · rfl
    split
    · rfl
    · rename_i long version sumValid allowed
      exact absurd ⟨by omega, not_not.mp version, not_not.mp sumValid,
        Bool.eq_false_iff.mpr allowed⟩ admitted

/-- A decided job is sent or queued. -/
theorem bind_runJob (job : Job) :
    ((.ok (some job) : Except Fault (Option Job)) >>= runJob handle net sr) =
      sendOrQueue handle net job.edit job.rtentry job.buf job.origin sr := rfl

/-- The report about a packet that is long enough to be quoted, when its source is routable. -/
theorem reportJob_eq {rtentry : Route} {ifc : Interface}
    (error : IpAddr → Mac → List Byte → List Byte) (leads : Leads net (ipSrc packet) rtentry ifc)
    (long : 14 + icmpDataSize ≤ packet.length) :
    reportJob net error packet =
      .ok (some ⟨id, rtentry, error ifc.ip ifc.addr packet, .icmpError⟩) := by
  simp only [reportJob, routeTo, leads.1, interfaceOf, leads.2, deref, bind, Except.bind]
  exact if_neg (Nat.not_lt_of_le long)

end Equations

section Inversion

variable {net : Network} {packet : List Byte} {job : Job}

/-- The job reports an error of the given type and code about a packet. -/
def Job.Reports (packet : List Byte) (type code : Byte) (job : Job) : Prop :=
  ∃ trailing ≤ icmpDataSize, ∃ rtentry source shost,
    job = ⟨id, rtentry, icmpError type code trailing source shost packet, .icmpError⟩

/-- The job sends a packet with its own Ethernet address. -/
def Job.Routes (edit : List Byte → List Byte) (packet : List Byte) (origin : Origin) (job : Job) :
    Prop :=
  ∃ rtentry shost, job = ⟨edit, rtentry, setShost packet shost, origin⟩

private theorem reportJob_inv {error : IpAddr → Mac → List Byte → List Byte} {type code : Byte}
    {trailing : Nat} (isError : error = icmpError type code trailing)
    (short : trailing ≤ icmpDataSize) (decided : reportJob net error packet = .ok (some job)) :
    job.Reports packet type code := by
  unfold reportJob at decided
  obtain ⟨rtentry, _, decided⟩ := bind_eq_ok.mp decided
  obtain ⟨ifc, _, decided⟩ := bind_eq_ok.mp decided
  rw [isError] at decided
  split at decided
  · cases decided
  · exact ⟨trailing, short, rtentry, ifc.ip, ifc.addr,
      (Option.some.inj (Except.ok.inj decided)).symm⟩

private theorem routeJob_inv {edit : List Byte → List Byte} {rtentry : Route} {origin : Origin}
    (decided : routeJob net edit rtentry packet origin = .ok (some job)) :
    job.Routes edit packet origin := by
  unfold routeJob at decided
  obtain ⟨ifc, _, decided⟩ := bind_eq_ok.mp decided
  exact ⟨rtentry, ifc.addr, (Option.some.inj (Except.ok.inj decided)).symm⟩

private theorem none_inv {goal : Prop} (decided : (.ok none : Except Fault (Option Job)) =
    .ok (some job)) : goal := by
  cases decided

/-- What the IP branch can decide to send: a report, an echo reply or the packet itself. -/
theorem ipJob_cases (decided : ipJob net packet = .ok (some job)) :
    job.Reports packet 3 3 ∨ job.Reports packet 11 0 ∨ job.Reports packet 3 0 ∨
      job.Routes id (echoReply packet) .echoReply ∨
      job.Routes decrementTtl packet .forwarded := by
  unfold ipJob at decided
  split at decided
  · exact none_inv decided
  split at decided
  · unfold localJob at decided
    split at decided
    · unfold echoJob at decided
      split at decided
      · exact none_inv decided
      split at decided
      · exact none_inv decided
      · exact .inr (.inr (.inr (.inl (routeJob_inv decided))))
    split at decided
    · exact .inl (reportJob_inv rfl (Nat.le_refl _) decided)
    · exact none_inv decided
  · unfold transitJob at decided
    split at decided
    · split at decided
      · split at decided
        · exact .inr (.inl (reportJob_inv rfl (Nat.le_refl _) decided))
        · exact none_inv decided
      · exact .inr (.inr (.inr (.inr (routeJob_inv decided))))
    · split at decided
      · exact .inr (.inr (.inl (reportJob_inv rfl (Nat.zero_le _) decided)))
      · exact none_inv decided

end Inversion

section Outcome

variable {net : Network} {packet : List Byte}

/-- The job is one of the packets that the router sends to a gateway. -/
def Job.OnPath (net : Network) (job : Job) : Prop :=
  Path net (fun _ => True) job.edit job.rtentry job.buf job.origin

/-- The outcome of a decision that does not fail: nothing, or a job on a path. -/
abbrev Decides (net : Network) : Except Fault (Option Job) → Prop :=
  Ensures (fun _ => False) fun decision => ∀ job ∈ decision, Job.OnPath net job

private theorem decides_none : Decides net (.ok none) := by
  apply Ensures.ok
  intro job isSome
  cases isSome

private theorem decides_some {job : Job} (onPath : job.OnPath net) :
    Decides net (.ok (some job)) := by
  apply Ensures.ok
  intro other isSome
  cases isSome
  exact onPath

private theorem reportJob_decides {error : IpAddr → Mac → List Byte → List Byte} {type code : Byte}
    {trailing : Nat} (verified : Verified net) (isError : error = icmpError type code trailing)
    (short : trailing ≤ icmpDataSize) (long : 14 + icmpDataSize ≤ packet.length)
    (routable : Routable net (ipSrc packet)) : Decides net (reportJob net error packet) := by
  obtain ⟨rtentry, ifc, leads⟩ := routable.leads verified
  have onPath : Job.OnPath net
      ⟨id, rtentry, icmpError type code trailing ifc.ip ifc.addr packet, .icmpError⟩ := by
    unfold Job.OnPath
    dsimp only
    exact .error short leads (.inl rfl)
  rw [reportJob_eq error leads long, isError]
  exact decides_some onPath

private theorem routeJob_decides {edit : List Byte → List Byte} {rtentry : Route}
    {buf : List Byte} {origin : Origin} (verified : Verified net)
    (found : srFindLPMentry net.routingTable (ipDst buf) = some rtentry)
    (path : ∀ {ifc}, Leads net (ipDst buf) rtentry ifc →
      Path net (fun _ => True) edit rtentry (setShost buf ifc.addr) origin) :
    Decides net (routeJob net edit rtentry buf origin) := by
  obtain ⟨ifc, isInterface⟩ := verified rtentry (srFindLPMentry_mem found).1
  have decided : routeJob net edit rtentry buf origin =
      .ok (some ⟨edit, rtentry, setShost buf ifc.addr, origin⟩) := by
    simp only [routeJob, interfaceOf, isInterface, deref, bind, Except.bind]
  rw [decided]
  exact decides_some (path ⟨found, isInterface⟩)

private theorem echoJob_decides (verified : Verified net)
    (checked : Checked (fun _ => True) packet) : Decides net (echoJob net packet) := by
  unfold echoJob
  split
  · exact decides_none
  · rename_i accepted
    cases found : srFindLPMentry net.routingTable (ipDst (echoReply packet)) with
    | none => exact decides_none
    | some rtentry =>
        apply routeJob_decides verified found
        intro ifc leads
        exact .echo checked (by omega) leads

/-- The decision about an IP packet does not fail when the source of a packet that is reported is
routable. -/
theorem ipJob_decides (verified : Verified net) (isIp : etherType packet = ethertypeIp)
    (hit : NeedsReport net packet → Routable net (ipSrc packet)) : Decides net (ipJob net packet) := by
  unfold ipJob
  by_cases admitted : Admitted packet
  swap
  · rw [if_pos admitted]
    exact decides_none
  rw [if_neg (not_not.mpr admitted)]
  obtain ⟨long, version, sumValid, allowed⟩ := id admitted
  have checked : Checked (fun _ => True) packet := ⟨trivial, isIp, long, version, sumValid⟩
  by_cases isLocal : IsLocal net packet
  · rw [if_pos isLocal]
    unfold localJob
    split
    · exact echoJob_decides verified checked
    split
    · rename_i both
      apply reportJob_decides verified rfl (Nat.le_refl _) both.2
      exact hit ⟨admitted, both.2, .inl ⟨isLocal, both.1⟩⟩
    · exact decides_none
  · rw [if_neg isLocal]
    unfold transitJob
    cases found : srFindLPMentry net.routingTable (ipDst packet) with
    | some rtentry =>
        dsimp only
        split
        · rename_i last
          split
          · rename_i longEnough
            apply reportJob_decides verified rfl (Nat.le_refl _) longEnough
            exact hit ⟨admitted, longEnough, .inr ⟨isLocal, .inl ⟨⟨rtentry, found⟩, last⟩⟩⟩
          · exact decides_none
        · rename_i hops
          apply routeJob_decides verified found
          intro ifc leads
          exact .forward ⟨checked, allowed, isLocal, hops, leads⟩
    | none =>
        dsimp only
        split
        · rename_i both
          have unroutable : ¬Routable net (ipDst packet) := by
            rintro ⟨rtentry, isFound⟩
            rw [found] at isFound
            cases isFound
          apply reportJob_decides verified rfl (Nat.zero_le _) both.1
          exact hit ⟨admitted, both.1, .inr ⟨isLocal, .inr ⟨unroutable, both.2⟩⟩⟩
        · exact decides_none

end Outcome

end EE323.Router

/-
Module: EE323.Router.Forwarding
Purpose: The time to live of forwarded packets.  A packet that arrives with one hop left is reported
  and never forwarded; one that arrives with none left is not looked for, and its time to live wraps.
Main exports: IsForwardOf, Live, forwarding, no_expired_forwarded, dead_packet_forwarded
-/
import EE323.Router.Waiting

namespace EE323.Router

open EE323.Lib

/-- The frame is the packet with other Ethernet addresses and, unless it left the queue with the
time to live of the router's own packets, one hop less. -/
def IsForwardOf (packet frame : List Byte) : Prop :=
  ∃ shost dhost, frame = decrementTtl (setDhost (setShost packet shost) dhost) ∨
    ipTtl packet = initTtl ∧ frame = setDhost (setShost packet shost) dhost

/-- The packet is not one that would be forwarded with no hops left. -/
def Live (net : Network) (packet : List Byte) : Prop :=
  ∀ rtentry ifc, Forwarded net (fun _ => True) packet rtentry ifc → ipTtl packet ≠ 0

/-- A packet that arrived with hops left. -/
def Arrived (events : List Event) (packet : List Byte) : Prop :=
  .frame packet ∈ events ∧ 34 ≤ packet.length ∧ 2 ≤ (ipTtl packet).toNat

/-- A packet with the origin of forwarded packets that waits is one that arrived with hops left. -/
def WaitsLive (events : List Event) (packet : Packet) : Prop :=
  packet.origin = .forwarded →
    ∃ original shost, Arrived events original ∧ packet.buf = setShost original shost

/-- A frame with the origin of forwarded packets is the forward of one that arrived with
hops left. -/
def LeavesLive (events : List Event) (frame : Packet) : Prop :=
  frame.origin = .forwarded →
    ∃ original, Arrived events original ∧ IsForwardOf original frame.buf

variable {net : Network} {events : List Event}

private theorem passes_live {edit : List Byte → List Byte} {rtentry : Route} {buf : List Byte}
    {origin : Origin} (other : origin ≠ .forwarded) :
    Passes (fun _ => WaitsLive events) (LeavesLive events) edit rtentry buf origin :=
  ⟨fun isForwarded => absurd isForwarded other, fun _ isForwarded => absurd isForwarded other⟩

private theorem arrived_of_forwarded {packet : List Byte} {rtentry : Route} {ifc : Interface}
    (forwarded : Forwarded net (fun packet => Live net packet ∧ .frame packet ∈ events) packet
      rtentry ifc) : Arrived events packet := by
  obtain ⟨⟨live, arrives⟩, isIp, long, version, sumValid⟩ := forwarded.checked
  have some : ipTtl packet ≠ 0 := live rtentry ifc
    ⟨⟨trivial, isIp, long, version, sumValid⟩, forwarded.allowed, forwarded.notLocal,
      forwarded.hops, forwarded.leads⟩
  have one := forwarded.hops
  refine ⟨arrives, long, ?_⟩
  have notZero : (ipTtl packet).toNat ≠ 0 := fun zero => some (UInt8.toNat_inj.mp zero)
  have notOne : (ipTtl packet).toNat ≠ 1 := fun same => one (UInt8.toNat_inj.mp same)
  omega

/-- The router forwards what arrived with hops left. -/
theorem forwarding (net : Network) (events : List Event) :
    Contract net (fun packet => Live net packet ∧ .frame packet ∈ events)
      (fun _ => WaitsLive events) (LeavesLive events) where
  forward := by
    intro packet rtentry ifc forwarded
    have arrived := arrived_of_forwarded forwarded
    constructor
    · exact fun _ => ⟨packet, ifc.addr, arrived, rfl⟩
    · exact fun mac _ => ⟨packet, arrived, ifc.addr, mac, .inl rfl⟩
  echo := by
    intro packet rtentry ifc _ _ _
    exact passes_live (by simp)
  error := by
    intro packet rtentry ifc type code trailing origin isError _ source _
    apply passes_live
    rcases isError with rfl | ⟨req, about, rfl⟩
    · simp
    · simp
  request := by
    intro ip head rtentry ifc _ _ _ _ _ isForwarded
    cases isForwarded
  reply := by
    intro packet rtentry ifc _ isForwarded
    cases isForwarded
  releaseEdited := by
    intro ip walk mac waits isForwarded
    obtain ⟨original, shost, arrived, rfl_buf⟩ := waits isForwarded
    refine ⟨original, arrived, shost, mac, .inl ?_⟩
    dsimp only
    rw [rfl_buf]
  releaseUnedited := by
    intro ip walk mac waits generated isForwarded
    obtain ⟨original, shost, arrived, rfl_buf⟩ := waits isForwarded
    rw [ipTtl_setDhost, rfl_buf, ipTtl_setShost] at generated
    refine ⟨original, arrived, shost, mac, .inr ⟨generated, ?_⟩⟩
    dsimp only
    rw [rfl_buf]

/-- The hops that a forward has left. -/
theorem IsForwardOf.hops {packet frame : List Byte} (isForward : IsForwardOf packet frame)
    (long : 34 ≤ packet.length) (some : 2 ≤ (ipTtl packet).toNat) :
    (ipTtl frame).toNat + 1 = (ipTtl packet).toNat ∨
      ipTtl packet = initTtl ∧ ipTtl frame = initTtl := by
  obtain ⟨shost, dhost, rfl | ⟨generated, rfl⟩⟩ := isForward
  · left
    rw [ipTtl_decrementTtl (by simpa using long), ipTtl_setDhost, ipTtl_setShost]
    have least : (1 : Byte) ≤ ipTtl packet := by
      rw [UInt8.le_iff_toNat_le]
      exact Nat.le_of_succ_le some
    rw [UInt8.toNat_sub_of_le _ _ least]
    exact Nat.sub_add_cancel (Nat.le_of_succ_le some)
  · right
    rw [ipTtl_setDhost, ipTtl_setShost]
    exact ⟨generated, generated⟩

/-- In every run in which no packet arrives that would be forwarded with no hops left, every
forwarded frame is the forward of a packet that arrived with at least two, and its own count is one
less, or kept at the initial one: it never wraps and is never zero. -/
theorem no_expired_forwarded {depth now : Nat} {sr : Instance}
    (run : Run (step net depth) (fun _ event => event.Admits (Live net)) (srArpcacheInit now) events
      sr) :
    ∀ frame ∈ sr.handed, frame.origin = .forwarded →
      ∃ packet, .frame packet ∈ events ∧ 2 ≤ (ipTtl packet).toNat ∧
        IsForwardOf packet frame.buf ∧ ipTtl frame.buf ≠ 0 ∧
        ((ipTtl frame.buf).toNat + 1 = (ipTtl packet).toNat ∨
          ipTtl packet = initTtl ∧ ipTtl frame.buf = initTtl) := by
  have received : Run (step net depth)
      (fun _ event => event.Admits fun packet => Live net packet ∧ .frame packet ∈ events)
      (srArpcacheInit now) events sr := by
    apply run.labelled.mono
    rintro _ event ⟨live, isEvent⟩
    cases event with
    | frame packet => exact ⟨live, isEvent⟩
    | sweep => trivial
    | clock now => trivial
  intro frame member isForwarded
  obtain ⟨packet, ⟨arrives, long, some⟩, isForward⟩ :=
    (Inv.of_run (forwarding net events) received).sent frame member isForwarded
  have hops := isForward.hops long some
  refine ⟨packet, arrives, some, isForward, ?_, hops⟩
  intro zero
  rcases hops with less | ⟨_, kept⟩
  · rw [zero] at less
    have one : (0 : Byte).toNat = 0 := rfl
    omega
  · rw [kept] at zero
    exact absurd zero (by decide)

theorem no_expired_forwarded_lab : ∃ sr,
    Run (step labNetwork 4) (fun _ event => event.Admits (Live labNetwork)) (srArpcacheInit 5)
      [.frame labReply, .frame (labPacket 2)] sr ∧
    (∃ frame ∈ sr.handed, frame.origin = .forwarded) ∧
    ∀ frame ∈ sr.handed, frame.origin = .forwarded →
      ∃ packet, .frame packet ∈ [Event.frame labReply, .frame (labPacket 2)] ∧
        2 ≤ (ipTtl packet).toNat ∧ IsForwardOf packet frame.buf ∧ ipTtl frame.buf ≠ 0 ∧
        ((ipTtl frame.buf).toNat + 1 = (ipTtl packet).toNat ∨
          ipTtl packet = initTtl ∧ ipTtl frame.buf = initTtl) := by
  have reached : ∃ sr,
      Run (step labNetwork 4) (fun _ event => event.Admits fun packet => ipTtl packet ≠ 0)
        (srArpcacheInit 5) [.frame labReply, .frame (labPacket 2)] sr ∧
      ∃ frame ∈ sr.handed, frame.origin = .forwarded :=
    exec_reaches _ (by decide +kernel)
  obtain ⟨sr, run, sent⟩ := reached
  have live : Run (step labNetwork 4) (fun _ event => event.Admits (Live labNetwork))
      (srArpcacheInit 5) [.frame labReply, .frame (labPacket 2)] sr := by
    apply run.mono
    rintro _ event admitted
    cases event with
    | frame packet => exact fun _ _ _ => admitted
    | sweep => trivial
    | clock now => trivial
  exact ⟨sr, live, sent, no_expired_forwarded live⟩

/-- A packet that arrives with no hops left is forwarded, with 255. -/
theorem dead_packet_forwarded : ∃ sr,
    Run (step labNetwork 4) anyStep (srArpcacheInit 5) [.frame labReply, .frame (labPacket 0)] sr ∧
      ipTtl (labPacket 0) = 0 ∧
      ∃ frame ∈ sr.written, frame.origin = .forwarded ∧ ipTtl frame.buf = 255 ∧
        frame.buf = decrementTtl (setDhost (setShost (labPacket 0) labInterface.addr)
          neighbourMac) := by
  have reached : ∃ sr,
      Run (step labNetwork 4) anyStep (srArpcacheInit 5)
        [.frame labReply, .frame (labPacket 0)] sr ∧
      ∃ frame ∈ sr.written, frame.origin = .forwarded ∧ ipTtl frame.buf = 255 ∧
        frame.buf = decrementTtl (setDhost (setShost (labPacket 0) labInterface.addr)
          neighbourMac) :=
    exec_reaches _ (by decide +kernel)
  obtain ⟨sr, run, frame⟩ := reached
  exact ⟨sr, run, by decide +kernel, frame⟩

end EE323.Router

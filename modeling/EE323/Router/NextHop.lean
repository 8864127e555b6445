/-
Module: EE323.Router.NextHop
Purpose: The queue of the ARP cache at every moment of every run.  Requests have distinct addresses
  and hold packets, and a packet waits on the request for the gateway of its own destination, with
  the interface of that route and its Ethernet address.  No frame that the router sends is refused.
Main exports: RoutedVia, nextHop, queue_invariant
-/
import EE323.Router.Queue

namespace EE323.Router

open EE323.Lib

/-- The packet's destination is routed through the gateway, and the packet names the interface of
that route and carries its Ethernet address. -/
def RoutedVia (net : Network) (gateway : IpAddr) (packet : Packet) : Prop :=
  ∃ rtentry ifc, Leads net (ipDst packet.buf) rtentry ifc ∧ rtentry.gw = gateway ∧
    rtentry.interface = packet.iface ∧ etherShost packet.buf = ifc.addr

/-- The frame carries the Ethernet address of the interface that it leaves by. -/
def FromInterface (net : Network) (frame : Packet) : Prop :=
  ∃ ifc, srGetInterface net.ifList frame.iface = some ifc ∧ etherShost frame.buf = ifc.addr

theorem FromInterface.accepted {net : Network} {frame : Packet} (own : FromInterface net frame) :
    srEtherAddrsMatchInterface net frame = true := by
  obtain ⟨ifc, found, same⟩ := own
  simp [srEtherAddrsMatchInterface, found, same]

variable {net : Network}

theorem RoutedVia.fromInterface {gateway : IpAddr} {packet : Packet} {buf : List Byte}
    (routed : RoutedVia net gateway packet) (same : etherShost buf = etherShost packet.buf) :
    FromInterface net { packet with buf } := by
  obtain ⟨rtentry, ifc, ⟨_, isInterface⟩, _, name, shost⟩ := routed
  refine ⟨ifc, ?_, same.trans shost⟩
  rw [← name]
  exact isInterface

/-- A packet with the Ethernet address of its route's interface may be queued and sent. -/
private theorem passes {edit : List Byte → List Byte} {rtentry : Route} {ifc : Interface}
    {buf : List Byte} {origin : Origin} (leads : Leads net (ipDst buf) rtentry ifc)
    (shost : etherShost buf = ifc.addr) (keeps : ∀ buf, etherShost (edit buf) = etherShost buf) :
    Passes (RoutedVia net) (FromInterface net) edit rtentry buf origin := by
  have routed : RoutedVia net rtentry.gw ⟨buf, rtentry.interface, origin⟩ :=
    ⟨rtentry, ifc, leads, rfl, rfl, shost⟩
  constructor
  · exact routed
  · intro mac
    apply routed.fromInterface
    rw [keeps, etherShost_setDhost]

/-- The router only builds packets that are routed through the request they are queued on. -/
theorem nextHop (net : Network) :
    Contract net (fun _ => True) (RoutedVia net) (FromInterface net) where
  forward := by
    intro packet rtentry ifc ⟨⟨_, _, long, _⟩, _, _, _, leads⟩
    apply passes
    · rw [ipDst_setShost]
      exact leads
    · exact etherShost_setShost _ (by omega)
    · exact etherShost_decrementTtl
  echo := by
    intro packet rtentry ifc _ long leads
    apply passes
    · rw [ipDst_setShost]
      exact leads
    · apply etherShost_setShost
      rw [length_echoReply]
      omega
    · exact fun _ => rfl
  error := by
    intro packet rtentry ifc type code trailing origin _ _ source leads
    apply passes
    · rw [ipDst_icmpError]
      exact leads
    · exact etherShost_icmpError _ _ _ _ _ _
    · exact fun _ => rfl
  request := by
    intro ip head rtentry ifc _ _ queued found isInterface
    obtain ⟨other, _, ⟨otherFound, otherInterface⟩, _, name, _⟩ := queued
    rw [found] at otherFound
    cases otherFound
    refine ⟨ifc, ?_, etherShost_arpFrame _ _ _ _ _ _ _⟩
    dsimp only
    rw [name]
    exact isInterface
  reply := by
    intro packet rtentry ifc leads
    exact ⟨ifc, leads.2, etherShost_arpFrame _ _ _ _ _ _ _⟩
  releaseEdited := by
    intro ip walk mac queued
    apply queued.fromInterface
    rw [etherShost_decrementTtl, etherShost_setDhost]
  releaseUnedited := by
    intro ip walk mac queued _
    apply queued.fromInterface
    rw [etherShost_setDhost]

/-- In every state that a router with an empty cache reaches, the pending requests have distinct
addresses and hold packets, every packet is routed through the request that it waits on, and every
frame handed to `sr_send_packet` carries the address of its interface and is accepted. -/
theorem queue_invariant {depth now : Nat} {events : List Event} {sr : Instance}
    (run : Run (step net depth) anyStep (srArpcacheInit now) events sr) :
    (sr.requests.map fun req => req.ip).Nodup ∧
      (∀ req ∈ sr.requests, req.packets ≠ []) ∧
      (∀ req ∈ sr.requests, ∀ packet ∈ req.packets, RoutedVia net req.ip packet) ∧
      ∀ frame ∈ sr.handed,
        FromInterface net frame ∧ srEtherAddrsMatchInterface net frame = true := by
  have inv := Inv.of_any_run (nextHop net) run
  refine ⟨inv.distinct, inv.holds, inv.queued, ?_⟩
  intro frame member
  exact ⟨inv.sent frame member, (inv.sent frame member).accepted⟩

/-- A frame of the lab that has to wait for its next hop, and a sweep two seconds later. -/
private def waiting : List Event :=
  [.frame (ipFrame 64 17 0xC0A80202 0xAC40030A (List.replicate 8 1)), .clock 7, .sweep]

/-- A packet waits for its next hop while the router asks for it twice. -/
theorem queue_invariant_one_packet : ∃ sr,
    Run (step labNetwork 4) anyStep (srArpcacheInit 5) waiting sr ∧
    (sr.handed.length = 2 ∧ sr.requests.length = 1) ∧
    (sr.requests.map fun req => req.ip).Nodup ∧
    (∀ req ∈ sr.requests, req.packets ≠ []) ∧
    (∀ req ∈ sr.requests, ∀ packet ∈ req.packets, RoutedVia labNetwork req.ip packet) ∧
    ∀ frame ∈ sr.handed,
      FromInterface labNetwork frame ∧ srEtherAddrsMatchInterface labNetwork frame = true := by
  have reached : ∃ sr, Run (step labNetwork 4) anyStep (srArpcacheInit 5) waiting sr ∧
      (sr.handed.length = 2 ∧ sr.requests.length = 1) :=
    exec_reaches _ (by decide +kernel)
  obtain ⟨sr, run, asked⟩ := reached
  exact ⟨sr, run, asked, queue_invariant run⟩

end EE323.Router

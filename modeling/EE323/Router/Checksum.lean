/-
Module: EE323.Router.Checksum
Purpose: `cksum` completes the one's complement sum of its data to all ones, and every IP frame that
  the router sends is sealed: its header and the ICMP message it carries, when the router wrote that,
  sum to all ones, and the length field of an error is right.
Main exports: cksum_eq, Sealed, sealing, emitted_checksums
-/
import EE323.Router.Queue

namespace EE323.Router

open EE323.Lib

/-! ### The arithmetic of `cksum` -/

theorem cksumWords_eq (data : List Byte) {sum : Nat} (small : sum < 2 ^ 32) :
    cksumWords data sum = (sum + wordSum data) % 2 ^ 32 := by
  induction data, sum using cksumWords.induct with
  | case1 sum =>
      rw [cksumWords, wordSum, wordsOf, List.sum_nil, Nat.add_zero, Nat.mod_eq_of_lt small]
  | case2 high sum =>
      rw [cksumWords, wordSum, wordsOf, List.sum_cons, List.sum_nil, Nat.add_zero]
  | case3 high low rest sum inductionHypothesis =>
      rw [cksumWords, inductionHypothesis (Nat.mod_lt _ (by decide)), Nat.mod_add_mod]
      rw [wordSum, wordSum, wordsOf, List.sum_cons, Nat.add_assoc]

/-- Two rounds fold a 32-bit sum into a word. -/
theorem foldCarries_eq {sum : Nat} (small : sum < 2 ^ 32) : foldCarries 2 sum = endAround sum := by
  unfold foldCarries
  split
  · rw [← endAround_carry sum]
    unfold foldCarries
    split
    · rw [← endAround_carry, foldCarries]
      exact (endAround_of_le (by omega)).symm
    · exact (endAround_of_le (by omega)).symm
  · exact (endAround_of_le (by omega)).symm

/-- On data whose words cannot overflow the 32-bit sum, `cksum` is the completing value. -/
theorem cksum_eq {data : List Byte} (short : data.length ≤ 10000) :
    cksum data = complete (wordSum data) := by
  have bound := wordSum_le data
  have noOverflow : cksumWords data 0 = wordSum data := by
    rw [cksumWords_eq data (by decide), Nat.zero_add, Nat.mod_eq_of_lt (by omega)]
  unfold cksum complete
  dsimp only
  rw [noOverflow, foldCarries_eq (by omega)]

/-- Zeroing the checksum and storing `cksum` there makes the covered field sum to all ones. -/
private theorem onesSum_stored {buf : List Byte} {start count inner : Nat}
    (even : inner % 2 = 0) (fits : inner + 2 ≤ count) (inside : start + count ≤ buf.length)
    (short : count ≤ 10000) :
    let zeroed := patch buf (start + inner) (be16 0)
    onesSum (field (patch zeroed (start + inner) (be16 (cksum (field zeroed start count))))
      start count) = 0xffff := by
  intro zeroed
  have zeroedField : field zeroed start count = patch (field buf start count) inner (be16 0) := by
    rw [field_patch_inside (Nat.le_add_right _ _) inside, Nat.add_sub_cancel_left]
  rw [field_patch_inside (Nat.le_add_right _ _) (by simpa [zeroed] using inside),
    Nat.add_sub_cancel_left, zeroedField, patch_patch_same (by simp),
    cksum_eq (by simpa using short)]
  exact onesSum_patch_complete even (by simpa using fits)

theorem onesSum_setIpSum {buf : List Byte} (long : 34 ≤ buf.length) :
    onesSum (field (setIpSum buf) 14 20) = 0xffff :=
  @onesSum_stored buf 14 20 10 rfl (by decide) long (by decide)

theorem onesSum_setIcmpSum {buf : List Byte} (long : 38 ≤ buf.length)
    (short : buf.length ≤ 10000) :
    onesSum (field (setIcmpSum buf) 34 (buf.length - 34)) = 0xffff := by
  have sum := @onesSum_stored buf 34 (buf.length - 34) 2 rfl (by omega) (by omega) (by omega)
  dsimp only at sum
  unfold setIcmpSum
  simpa using sum

/-- A header that passes the router's check sums to all ones. -/
theorem IpSumValid.onesSum {buf : List Byte} (valid : IpSumValid buf) (long : 34 ≤ buf.length) :
    onesSum (field buf 14 20) = 0xffff := by
  have unchanged : setIpSum buf = buf := by
    unfold setIpSum
    unfold IpSumValid at valid
    dsimp only
    rw [← valid, patch_patch_same (by simp), patch_field]
  rw [← unchanged]
  exact onesSum_setIpSum long

/-! ### Sealed frames -/

/-- The router wrote the ICMP message that the frame carries. -/
def Origin.Originated : Origin → Prop
  | .forwarded => False
  | .echoReply => True
  | .icmpError => True
  | .hostUnreachable _ _ => True
  | .arpRequest _ _ => False
  | .arpReply => False

/-- The frame carries an ICMP error. -/
def Origin.IsError : Origin → Prop
  | .forwarded => False
  | .echoReply => False
  | .icmpError => True
  | .hostUnreachable _ _ => True
  | .arpRequest _ _ => False
  | .arpReply => False

/-- The frame has an IP header and an ICMP message, if the router wrote one, that sum to all ones,
and an ICMP error has the length that its header says. -/
structure Sealed (packet : Packet) : Prop where
  long : 34 ≤ packet.buf.length
  short : packet.buf.length ≤ 10000
  header : onesSum (field packet.buf 14 20) = 0xffff
  message : packet.origin.Originated →
    38 ≤ packet.buf.length ∧ onesSum (field packet.buf 34 (packet.buf.length - 34)) = 0xffff
  total : packet.origin.IsError → field packet.buf 16 2 = be16 (packet.buf.length - 14)

/-- Changes to the header keep the seal when they compute the header checksum again, and changes in
front of the header keep it anyway. -/
theorem Sealed.edit {packet : Packet} {buf : List Byte} (intact : Sealed packet)
    (length_eq : buf.length = packet.buf.length) (header : onesSum (field buf 14 20) = 0xffff)
    (message : ∀ count, field buf 34 count = field packet.buf 34 count)
    (total : field buf 16 2 = field packet.buf 16 2) : Sealed { packet with buf } where
  long := length_eq ▸ intact.long
  short := length_eq ▸ intact.short
  header := header
  message := by
    intro originated
    dsimp only
    rw [length_eq, message]
    exact intact.message originated
  total := by
    intro isError
    dsimp only
    rw [length_eq, total]
    exact intact.total isError

theorem Sealed.setDhost {packet : Packet} (intact : Sealed packet) (mac : Mac) :
    Sealed { packet with buf := setDhost packet.buf mac } := by
  apply intact.edit
  · exact length_setDhost _ _
  · rw [field_setDhost _ _ _ (by decide)]
    exact intact.header
  · exact fun count => field_setDhost _ _ count (by decide)
  · exact field_setDhost _ _ _ (by decide)

theorem Sealed.decrementTtl {packet : Packet} (intact : Sealed packet) :
    Sealed { packet with buf := decrementTtl packet.buf } := by
  apply intact.edit
  · exact length_decrementTtl _
  · apply onesSum_setIpSum
    simpa [setIpTtl] using intact.long
  · exact fun count => field_decrementTtl _ (by omega)
  · exact field_decrementTtl _ (by decide)

/-- The frames of the type IP are sealed. -/
def SealedIfIp (packet : Packet) : Prop := etherType packet.buf = ethertypeIp → Sealed packet

private theorem passes_sealed {rtentry : Route} {buf : List Byte} {origin : Origin}
    (intact : Sealed ⟨buf, rtentry.interface, origin⟩) :
    Passes (fun _ => Sealed) SealedIfIp id rtentry buf origin := by
  constructor
  · exact intact
  · intro mac _
    exact intact.setDhost mac

theorem sealed_icmpError {type code : Byte} {trailing : Nat} {source : IpAddr} {shost : Mac}
    {original : List Byte} {iface : String} {origin : Origin} (small : trailing ≤ icmpDataSize) :
    Sealed ⟨icmpError type code trailing source shost original, iface, origin⟩ := by
  unfold icmpDataSize at small
  constructor
  · rw [length_icmpError]
    omega
  · rw [length_icmpError]
    omega
  · unfold icmpError
    rw [field_setIcmpSum _ (by decide)]
    apply onesSum_setIpSum
    rw [length_icmpErrorRaw]
    omega
  · intro _
    dsimp only
    rw [length_icmpError]
    refine ⟨by omega, ?_⟩
    have sum := @onesSum_setIcmpSum
      (setIpSum (icmpErrorRaw type code trailing source shost original)) (by simp; omega)
      (by simp; omega)
    simpa [icmpError] using sum
  · intro _
    dsimp only
    rw [length_icmpError, field_icmpError _ _ _ _ _ _ (by decide)]
    simp only [icmpErrorRaw, List.append_assoc, ethertypeIp]
    iterate 5 rw [field_append_right _ _ (by simp)]
    rw [field_append_left _ (by simp), field_whole (by simp) (by simp)]
    congr 1
    omega

/-- `sr_read_from_server` refuses longer commands, and so longer frames. -/
def ReadFromServer (packet : List Byte) : Prop := packet.length ≤ 10000

instance (event : Event) : Decidable (event.Admits ReadFromServer) :=
  match event with
  | .frame packet => inferInstanceAs (Decidable (packet.length ≤ 10000))
  | .sweep => inferInstanceAs (Decidable True)
  | .clock _ => inferInstanceAs (Decidable True)

/-- The router only queues and sends sealed IP packets. -/
theorem sealing (net : Network) : Contract net ReadFromServer (fun _ => Sealed) SealedIfIp where
  forward := by
    intro packet rtentry ifc forwarded
    obtain ⟨short, _, long, _, valid⟩ := forwarded.checked
    have intact : Sealed ⟨setShost packet ifc.addr, rtentry.interface, .forwarded⟩ := by
      constructor
      · rw [length_setShost]
        exact long
      · rw [length_setShost]
        exact short
      · dsimp only
        rw [field_setShost _ _ _ (by decide)]
        exact valid.onesSum long
      · exact fun originated => originated.elim
      · exact fun isError => isError.elim
    constructor
    · exact intact
    · intro mac _
      exact (intact.setDhost mac).decrementTtl
  echo := by
    intro packet rtentry ifc checked long _
    obtain ⟨short, _⟩ := checked
    apply passes_sealed
    constructor
    · rw [length_setShost, length_echoReply]
      omega
    · rw [length_setShost, length_echoReply]
      exact short
    · dsimp only
      rw [field_setShost _ _ _ (by decide)]
      unfold echoReply
      dsimp only
      rw [field_setIcmpSum _ (by decide), field_patch_other (by simp)]
      apply onesSum_setIpSum
      simp [setIpTtl]
      omega
    · intro _
      dsimp only
      rw [length_setShost, length_echoReply, field_setShost _ _ _ (by decide)]
      refine ⟨long, ?_⟩
      unfold echoReply
      dsimp only
      have sum := @onesSum_setIcmpSum
        (patch (setIpSum (patch (setIpTtl packet initTtl) 26 (field (setIpTtl packet initTtl) 30 4 ++
          field (setIpTtl packet initTtl) 26 4))) 34 [0]) (by simpa [setIpTtl] using long)
        (by simpa [setIpTtl, ReadFromServer] using short)
      simpa [setIpTtl] using sum
    · exact fun isError => isError.elim
  error := by
    intro packet rtentry ifc type code trailing origin _ small source _
    exact passes_sealed (sealed_icmpError small)
  request := by
    intro ip head rtentry ifc _ _ _ _ _ isIp
    unfold arpRequestFor at isIp
    rw [etherType_arpFrame] at isIp
    exact absurd isIp (by decide)
  reply := by
    intro packet rtentry ifc _ isIp
    rw [etherType_arpFrame] at isIp
    exact absurd isIp (by decide)
  releaseEdited := by
    intro ip walk mac intact _
    exact (intact.setDhost mac).decrementTtl
  releaseUnedited := by
    intro ip walk mac intact _ _
    exact intact.setDhost mac

/-- In every run on frames that the server connection delivers, every IP frame handed to
`sr_send_packet` has a header that sums to all ones, every ICMP message that the router wrote sums
to all ones, and every ICMP error has the right length field. -/
theorem emitted_checksums {net : Network} {depth now : Nat} {events : List Event} {sr : Instance}
    (run : Run (step net depth) (fun _ event => event.Admits ReadFromServer)
      (srArpcacheInit now) events sr) :
    ∀ frame ∈ sr.handed, etherType frame.buf = ethertypeIp →
      34 ≤ frame.buf.length ∧ onesSum (field frame.buf 14 20) = 0xffff ∧
      (frame.origin.Originated →
        onesSum (field frame.buf 34 (frame.buf.length - 34)) = 0xffff) ∧
      (frame.origin.IsError → field frame.buf 16 2 = be16 (frame.buf.length - 14)) := by
  intro frame member isIp
  have intact := (Inv.of_run (sealing net) run).sent frame member isIp
  exact ⟨intact.long, intact.header, fun originated => (intact.message originated).2,
    intact.total⟩

/-- A packet whose time to live runs out, and the reply that lets the router report it. -/
private def expiring : List Event :=
  [.frame (ipFrame 1 17 0xC0A80202 0xAC40030A (List.replicate 8 1)),
    .frame (arpFrame (routerMac 1) neighbourMac arpOpReply
      neighbourMac 0xC0A80202 (routerMac 1) 0xC0A80201)]

/-- The router reports an expired packet in a sealed frame. -/
theorem emitted_checksums_time_exceeded : ∃ sr,
    Run (step labNetwork 4) (fun _ event => event.Admits ReadFromServer) (srArpcacheInit 5) expiring
      sr ∧
    (∃ frame ∈ sr.handed, frame.origin = .icmpError ∧ etherType frame.buf = ethertypeIp) ∧
    ∀ frame ∈ sr.handed, etherType frame.buf = ethertypeIp →
      34 ≤ frame.buf.length ∧ onesSum (field frame.buf 14 20) = 0xffff ∧
      (frame.origin.Originated →
        onesSum (field frame.buf 34 (frame.buf.length - 34)) = 0xffff) ∧
      (frame.origin.IsError → field frame.buf 16 2 = be16 (frame.buf.length - 14)) := by
  have reached : ∃ sr, Run (step labNetwork 4) (fun _ event => event.Admits ReadFromServer)
      (srArpcacheInit 5) expiring sr ∧
      ∃ frame ∈ sr.handed, frame.origin = .icmpError ∧ etherType frame.buf = ethertypeIp :=
    exec_reaches _ (by decide +kernel)
  obtain ⟨sr, run, reported⟩ := reached
  exact ⟨sr, run, reported, emitted_checksums run⟩

end EE323.Router

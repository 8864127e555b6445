/-
Module: EE323.Router.Padding
Purpose: Echo requests with bytes behind the datagram.  The checksum of the request and that of the
  reply are taken over the rest of the frame, so padding can turn a correct checksum into a wrong one
  and a wrong one into a correct one.  Padding that adds nothing in one's complement changes nothing.
Main exports: EchoRequest, EchoReplyTo, Neutral, answer, react_answer, echo_ignores_padding
-/
import EE323.Router.Checksum
import EE323.Router.Dispatch

namespace EE323.Router

open EE323.Lib

/-- An ICMP echo request to a router interface, without anything behind the datagram. -/
structure EchoRequest (net : Network) (datagram : List Byte) : Prop where
  isIp : etherType datagram = ethertypeIp
  long : 14 + 20 + 8 ≤ datagram.length
  total : field datagram 16 2 = be16 (datagram.length - 14)
  isLocal : IsLocal net datagram
  protocol : ipP datagram = 1
  type : icmpType datagram = 8

instance (net : Network) (datagram : List Byte) : Decidable (EchoRequest net datagram) :=
  decidable_of_iff
    (etherType datagram = ethertypeIp ∧ 14 + 20 + 8 ≤ datagram.length ∧
      field datagram 16 2 = be16 (datagram.length - 14) ∧ IsLocal net datagram ∧
      ipP datagram = 1 ∧ icmpType datagram = 8)
    ⟨fun ⟨isIp, long, total, isLocal, protocol, type⟩ =>
        ⟨isIp, long, total, isLocal, protocol, type⟩,
      fun ⟨isIp, long, total, isLocal, protocol, type⟩ =>
        ⟨isIp, long, total, isLocal, protocol, type⟩⟩

/-- The IP datagram in a frame, as many bytes of it as asked for. -/
def datagramOf (total : Nat) (frame : List Byte) : List Byte := field frame 14 total

/-- The datagram of the reply to an echo request: addresses swapped, type 0, time to live 255, the
rest of the message as it was, and checksums over exactly the datagram. -/
structure EchoReplyTo (request reply : List Byte) : Prop where
  length : reply.length = request.length - 14
  source : field reply 12 4 = field request 30 4
  dest : field reply 16 4 = field request 26 4
  ttl : field reply 8 1 = [255]
  type : field reply 20 1 = [0]
  rest : field reply 24 (request.length - 38) = field request 38 (request.length - 38)
  header : onesSum (field reply 0 20) = 0xffff
  message : onesSum (field reply 20 (request.length - 34)) = 0xffff

/-- The bytes add nothing to the checksum of what precedes them. -/
def Neutral (datagram padding : List Byte) : Prop :=
  wordSum (List.replicate (datagram.length % 2) 0 ++ padding) % 0xffff = 0

instance (datagram padding : List Byte) : Decidable (Neutral datagram padding) :=
  inferInstanceAs (Decidable (_ = _))

/-! ### The answer of the router in a state -/

/-- The packet that is passed to `sr_send_packet` or put on a request for a job. -/
def Job.message (sr : Instance) (job : Job) : Packet :=
  match srArpcacheLookup sr job.rtentry.gw with
  | some arpentry => ⟨job.edit (setDhost job.buf arpentry.mac), job.rtentry.interface, job.origin⟩
  | none => ⟨job.buf, job.rtentry.interface, job.origin⟩

/-- Send the message of a job, or put it on the request for the gateway and handle that. -/
def deliver (net : Network) (depth : Nat) (sr : Instance) : Option Job → Except Fault Instance
  | none => .ok sr
  | some job =>
      match srArpcacheLookup sr job.rtentry.gw with
      | some _ => .ok (srSendPacket net (job.message sr) sr)
      | none =>
          let (arpreq, sr) := srArpcacheQueuereq job.rtentry.gw (job.message sr) sr
          srArpcacheHandleArpreq net depth arpreq sr

/-- The decision about a frame: no answer, or the interface that the answer leaves by, its gateway
and its IP datagram. -/
def answer (net : Network) (sr : Instance) (total : Nat) (frame : List Byte) :
    Except Fault (Option (String × IpAddr × List Byte)) :=
  (ipJob net frame).map fun decision => decision.map fun job =>
    ((job.message sr).iface, job.rtentry.gw, datagramOf total (job.message sr).buf)

section Padded

variable {net : Network} {datagram : List Byte} (padding : List Byte)

/-- The reaction to an IP frame is the delivery of what was decided. -/
theorem react_answer {depth : Nat} {sr : Instance} {frame : List Byte}
    (isIp : etherType frame = ethertypeIp) (long : 14 ≤ frame.length) :
    react net depth sr (.frame frame) = ipJob net frame >>= deliver net depth sr := by
  show srHandlepacket net depth frame sr = _
  unfold srHandlepacket
  rw [if_neg (Nat.not_lt_of_le long), if_pos isIp, handleIp_eq]
  refine bind_congr fun decision => ?_
  cases decision with
  | none => rfl
  | some job =>
      cases lookup : srArpcacheLookup sr job.rtentry.gw with
      | some arpentry => simp only [runJob, deliver, Job.message, sendOrQueue, lookup]
      | none => simp only [runJob, deliver, Job.message, sendOrQueue, lookup]

/-! ### What padding leaves alone -/

theorem setIpSum_append (long : 34 ≤ datagram.length) :
    setIpSum (datagram ++ padding) = setIpSum datagram ++ padding := by
  unfold setIpSum
  dsimp only
  rw [patch_append _ (by simp; omega), field_append_left _ (by simp; omega),
    patch_append _ (by simp; omega)]

theorem ipSumValid_append (long : 34 ≤ datagram.length) :
    IpSumValid (datagram ++ padding) ↔ IpSumValid datagram := by
  unfold IpSumValid
  rw [field_append_left _ (by omega), patch_append _ (by simp; omega),
    field_append_left _ (by simp; omega)]

theorem getD_append_padding {i : Nat} (inside : i < datagram.length) :
    (datagram ++ padding).getD i 0 = datagram.getD i 0 := List.getD_append _ _ _ _ inside

/-- An echo reply before its ICMP checksum is computed. -/
def echoHeader (packet : List Byte) : List Byte :=
  let packet := setIpTtl packet initTtl
  let packet := patch packet 26 (field packet 30 4 ++ field packet 26 4)
  patch (setIpSum packet) 34 [0]

theorem echoReply_eq (packet : List Byte) : echoReply packet = setIcmpSum (echoHeader packet) := rfl

theorem length_echoHeader (packet : List Byte) : (echoHeader packet).length = packet.length := by
  simp [echoHeader, setIpTtl]

theorem echoHeader_append (long : 42 ≤ datagram.length) :
    echoHeader (datagram ++ padding) = echoHeader datagram ++ padding := by
  unfold echoHeader setIpTtl
  dsimp only
  rw [patch_append _ (by simp; omega), field_append_left _ (by simp; omega),
    field_append_left _ (by simp; omega), patch_append _ (by simp; omega),
    setIpSum_append _ (by simp; omega), patch_append _ (by simp; omega)]

/-- The checksum of the padded message is the completing value of both sums. -/
theorem cksum_padded (long : 42 ≤ datagram.length)
    (short : (datagram ++ padding).length ≤ 10000) :
    cksum (field (patch (datagram ++ padding) 36 (be16 0)) 34 ((datagram ++ padding).length - 34)) =
      complete (wordSum (field (patch datagram 36 (be16 0)) 34 (datagram.length - 34)) +
        wordSum (List.replicate (datagram.length % 2) 0 ++ padding)) := by
  have zeroed : patch (datagram ++ padding) 36 (be16 0) = patch datagram 36 (be16 0) ++ padding :=
    patch_append _ (by simp; omega)
  have message := @field_append_rest (patch datagram 36 (be16 0)) 34 padding (by simp; omega)
  rw [← zeroed, length_patch, length_patch] at message
  have parity : (datagram.length - 34) % 2 = datagram.length % 2 := by omega
  rw [message, cksum_eq (by simp at short ⊢; omega), wordSum_append_shift, length_field, parity]

theorem cksum_unpadded (long : 42 ≤ datagram.length) (short : datagram.length ≤ 10000) :
    cksum (field (patch datagram 36 (be16 0)) 34 (datagram.length - 34)) =
      complete (wordSum (field (patch datagram 36 (be16 0)) 34 (datagram.length - 34))) :=
  cksum_eq (by simp; omega)

/-- Neutral padding leaves every checksum of the message as it is. -/
theorem Neutral.cksum_eq {packet : List Byte} (neutral : Neutral datagram padding)
    (same : packet.length = datagram.length) (long : 42 ≤ datagram.length)
    (short : (datagram ++ padding).length ≤ 10000) :
    cksum (field (patch (packet ++ padding) 36 (be16 0)) 34 ((packet ++ padding).length - 34)) =
      cksum (field (patch packet 36 (be16 0)) 34 (packet.length - 34)) := by
  have sizes : datagram.length + padding.length ≤ 10000 := by simpa using short
  rw [cksum_padded _ (by omega) (by simp; omega), cksum_unpadded (by omega) (by omega), same]
  exact complete_add_eq_iff.mpr neutral

/-- With a correct checksum, the padded checksum is correct exactly when the padding is neutral. -/
theorem icmpSumValid_append (valid : IcmpSumValid datagram) (long : 42 ≤ datagram.length)
    (short : (datagram ++ padding).length ≤ 10000) :
    IcmpSumValid (datagram ++ padding) ↔ Neutral datagram padding := by
  have sizes : datagram.length + padding.length ≤ 10000 := by simpa using short
  unfold IcmpSumValid at valid ⊢
  rw [cksum_unpadded long (by omega)] at valid
  rw [field_append_left _ (by omega), valid, cksum_padded _ long short,
    be16_inj (complete_le _) (complete_le _), eq_comm]
  exact complete_add_eq_iff

theorem Neutral.icmpSumValid_iff (neutral : Neutral datagram padding) (long : 42 ≤ datagram.length)
    (short : (datagram ++ padding).length ≤ 10000) :
    IcmpSumValid (datagram ++ padding) ↔ IcmpSumValid datagram := by
  unfold IcmpSumValid
  rw [field_append_left _ (by omega), neutral.cksum_eq _ rfl long short]

theorem Neutral.echoReply_append (neutral : Neutral datagram padding)
    (long : 42 ≤ datagram.length) (short : (datagram ++ padding).length ≤ 10000) :
    echoReply (datagram ++ padding) = echoReply datagram ++ padding := by
  have length := length_echoHeader datagram
  rw [echoReply_eq, echoReply_eq, echoHeader_append _ long]
  unfold setIcmpSum
  dsimp only
  rw [length_patch, length_patch, neutral.cksum_eq _ length long short,
    patch_append _ (by simp; omega), patch_append _ (by simp; omega)]

end Padded

/-! ### The reply -/

section Reply

variable {net : Network} {packet : List Byte}

private theorem field_echoReply {offset count : Nat} (apart : 38 ≤ offset) :
    field (echoReply packet) offset count = field packet offset count := by
  unfold echoReply
  dsimp only
  rw [field_setIcmpSum _ (by omega), field_patch_other (by simp; omega),
    field_setIpSum _ (by omega), field_patch_other (by simp; omega), field_setIpTtl _ _ (by omega)]

private theorem addresses_echoReply (long : 42 ≤ packet.length) :
    field (echoReply packet) 26 8 = field packet 30 4 ++ field packet 26 4 := by
  unfold echoReply
  dsimp only
  rw [field_setIcmpSum _ (by decide), field_patch_other (by simp), field_setIpSum _ (by decide),
    field_setIpTtl _ _ (by decide), field_setIpTtl _ _ (by decide)]
  exact @field_patch_same (setIpTtl packet initTtl) (field packet 30 4 ++ field packet 26 4) 26
    (by simp [setIpTtl]; omega)

private theorem type_echoReply (long : 42 ≤ packet.length) :
    field (echoReply packet) 34 1 = [0] := by
  unfold echoReply
  dsimp only
  rw [field_setIcmpSum _ (by decide)]
  exact field_patch_same (by simp [setIpTtl]; omega)

private theorem ttl_echoReply (long : 42 ≤ packet.length) :
    field (echoReply packet) 22 1 = [255] := by
  unfold echoReply
  dsimp only
  rw [field_setIcmpSum _ (by decide), field_patch_other (by simp), field_setIpSum _ (by decide),
    field_patch_other (by simp)]
  exact field_patch_same (by simp; omega)

private theorem header_echoReply (long : 42 ≤ packet.length) :
    onesSum (field (echoReply packet) 14 20) = 0xffff := by
  unfold echoReply
  dsimp only
  rw [field_setIcmpSum _ (by decide), field_patch_other (by simp)]
  apply onesSum_setIpSum
  simp [setIpTtl]
  omega

private theorem message_echoReply (long : 42 ≤ packet.length) (short : packet.length ≤ 10000) :
    onesSum (field (echoReply packet) 34 (packet.length - 34)) = 0xffff := by
  have length := length_echoHeader packet
  have sum := @onesSum_setIcmpSum (echoHeader packet) (by omega) (by omega)
  rwa [length] at sum

theorem ipDst_echoReply (long : 42 ≤ packet.length) : ipDst (echoReply packet) = ipSrc packet := by
  have swapped := addresses_echoReply long
  have second : field (echoReply packet) 30 4 = field packet 26 4 := by
    have inner := @field_field (echoReply packet) 26 8 4 4 (by decide)
    rw [← inner, swapped, field_append_right _ _ (by simp), field_whole (by simp) (by simp)]
  unfold ipDst ipSrc
  rw [second]

/-- The IP datagram of an echo reply. -/
theorem echoReplyTo (long : 42 ≤ packet.length) (short : packet.length ≤ 10000) :
    EchoReplyTo packet (datagramOf (packet.length - 14) (echoReply packet)) := by
  have swapped := addresses_echoReply long
  unfold datagramOf
  constructor
  · exact length_field _ _ _
  · have inner := @field_field (echoReply packet) 26 8 0 4 (by decide)
    rw [field_field (by omega), ← inner, swapped, field_append_left _ (by simp),
      field_whole (by simp) (by simp)]
  · have inner := @field_field (echoReply packet) 26 8 4 4 (by decide)
    rw [field_field (by omega), ← inner, swapped, field_append_right _ _ (by simp),
      field_whole (by simp) (by simp)]
  · rw [field_field (by omega)]
    exact ttl_echoReply long
  · rw [field_field (by omega)]
    exact type_echoReply long
  · rw [field_field (by omega)]
    exact field_echoReply (by decide)
  · rw [field_field (by omega)]
    exact header_echoReply long
  · rw [field_field (by omega)]
    exact message_echoReply long short

end Reply

/-! ### The answer with padding and without -/

section Answers

variable {net : Network} {sr : Instance} {frame datagram padding : List Byte} {total : Nat}

/-- The frame is one that the IP branch takes for an echo request to a router interface. -/
structure TakenForEcho (net : Network) (frame : List Byte) : Prop where
  long : 42 ≤ frame.length
  isLocal : IsLocal net frame
  protocol : ipP frame = 1
  type : icmpType frame = 8

theorem EchoRequest.taken (request : EchoRequest net datagram) : TakenForEcho net datagram :=
  ⟨request.long, request.isLocal, request.protocol, request.type⟩

theorem TakenForEcho.append (taken : TakenForEcho net datagram) (padding : List Byte) :
    TakenForEcho net (datagram ++ padding) := by
  have long := taken.long
  constructor
  · rw [List.length_append]
    omega
  · have dest : ipDst (datagram ++ padding) = ipDst datagram := by
      unfold ipDst
      rw [field_append_left _ (by omega)]
    have isLocal := taken.isLocal
    unfold IsLocal at isLocal ⊢
    rwa [dest]
  · exact (getD_append_padding padding (by omega)).trans taken.protocol
  · exact (getD_append_padding padding (by omega)).trans taken.type

/-- The datagram of the message of a job that sends a reply with its own Ethernet address. -/
private theorem datagramOf_message {rtentry : Route} {shost : Mac} {origin : Origin} :
    datagramOf total
        ((⟨id, rtentry, setShost frame shost, origin⟩ : Job).message sr).buf =
      datagramOf total frame := by
  unfold Job.message datagramOf
  dsimp only [id_eq]
  split
  · rw [field_setDhost _ _ _ (by decide), field_setShost _ _ _ (by decide)]
  · rw [field_setShost _ _ _ (by decide)]

private theorem iface_message (job : Job) : (job.message sr).iface = job.rtentry.interface := by
  unfold Job.message
  split <;> rfl

/-- The answer to a frame that is taken for an echo request. -/
theorem answer_echo (taken : TakenForEcho net frame) :
    answer net sr total frame =
      if Admitted frame ∧ IcmpSumValid frame then
        match srFindLPMentry net.routingTable (ipSrc frame) with
        | none => .ok none
        | some rtentry =>
            (interfaceOf net rtentry.interface).map fun _ =>
              some (rtentry.interface, rtentry.gw, datagramOf total (echoReply frame))
      else .ok none := by
  have long := taken.long
  unfold answer ipJob
  by_cases admitted : Admitted frame
  swap
  · rw [if_pos admitted, if_neg fun both => admitted both.1]
    rfl
  rw [if_neg (not_not.mpr admitted), if_pos taken.isLocal]
  unfold localJob echoJob
  rw [if_pos taken.protocol, ipDst_echoReply long]
  by_cases valid : IcmpSumValid frame
  swap
  · rw [if_pos (.inr (.inr valid)), if_neg fun both => valid both.2]
    rfl
  have proceeds : ¬(frame.length < 14 + 20 + 4 ∨ icmpType frame ≠ 8 ∨ ¬IcmpSumValid frame) := by
    rintro (isShort | other | invalid)
    · omega
    · exact other taken.type
    · exact invalid valid
  rw [if_neg proceeds, if_pos ⟨admitted, valid⟩]
  cases srFindLPMentry net.routingTable (ipSrc frame) with
  | none => rfl
  | some rtentry =>
      unfold routeJob
      cases isInterface : interfaceOf net rtentry.interface with
      | error fault => simp only [isInterface, bind, Except.bind, Except.map]
      | ok ifc =>
          simp only [isInterface, bind, Except.bind, Except.map, Option.map_some]
          rw [datagramOf_message, iface_message]

/-- A request that passes both checks and has a route back gets an answer, or the router fails. -/
private theorem answer_ne_none (taken : TakenForEcho net frame) (admitted : Admitted frame)
    (valid : IcmpSumValid frame) (routable : Routable net (ipSrc frame)) :
    answer net sr total frame ≠ .ok none := by
  obtain ⟨rtentry, found⟩ := routable
  rw [answer_echo taken, if_pos ⟨admitted, valid⟩, found]
  dsimp only
  cases interfaceOf net rtentry.interface with
  | error fault => exact fun isNone => absurd isNone (by simp [Except.map])
  | ok ifc => exact fun isNone => absurd isNone (by simp [Except.map])

private theorem answer_none (taken : TakenForEcho net frame)
    (refused : Admitted frame → IcmpSumValid frame → ¬Routable net (ipSrc frame)) :
    answer net sr total frame = .ok none := by
  rw [answer_echo taken]
  split
  · rename_i both
    cases found : srFindLPMentry net.routingTable (ipSrc frame) with
    | none => rfl
    | some rtentry => exact absurd ⟨rtentry, found⟩ (refused both.1 both.2)
  · rfl

theorem admitted_append (long : 42 ≤ datagram.length) (padding : List Byte) :
    Admitted (datagram ++ padding) ↔ Admitted datagram := by
  have version : ipV (datagram ++ padding) = ipV datagram := by
    unfold ipV
    rw [getD_append_padding padding (by omega)]
  have source : ipSrc (datagram ++ padding) = ipSrc datagram := by
    unfold ipSrc
    rw [field_append_left _ (by omega)]
  unfold Admitted ipBlackList
  rw [version, source, ipSumValid_append padding (by omega), List.length_append]
  constructor
  · rintro ⟨_, rest⟩
    exact ⟨by omega, rest⟩
  · rintro ⟨_, rest⟩
    exact ⟨by omega, rest⟩

/-- In every state, an echo request to a router interface is answered as its datagram alone decides,
exactly when the padding behind the datagram is neutral, or the checksum of the message is wrong
with the padding and without it, or the request is refused before the checksum is looked at or has
no route back. -/
theorem echo_ignores_padding {depth : Nat} (request : EchoRequest net datagram)
    (short : (datagram ++ padding).length ≤ 10000) :
    (∀ frame ∈ [datagram, datagram ++ padding], react net depth sr (.frame frame) =
      ipJob net frame >>= deliver net depth sr) ∧
    (∀ interface gateway reply,
      answer net sr (datagram.length - 14) datagram = .ok (some (interface, gateway, reply)) →
        EchoReplyTo datagram reply) ∧
    (answer net sr (datagram.length - 14) (datagram ++ padding) =
        answer net sr (datagram.length - 14) datagram ↔
      (Admitted datagram → Routable net (ipSrc datagram) →
        Neutral datagram padding ∨
          ¬IcmpSumValid datagram ∧ ¬IcmpSumValid (datagram ++ padding))) := by
  have long : 42 ≤ datagram.length := request.long
  have sizes : datagram.length + padding.length ≤ 10000 := by simpa using short
  have taken := request.taken
  have takenToo := taken.append padding
  have admittedToo := admitted_append long padding
  have source : ipSrc (datagram ++ padding) = ipSrc datagram := by
    unfold ipSrc
    rw [field_append_left _ (by omega)]
  refine ⟨?_, ?_, ?_⟩
  · have isIp : etherType (datagram ++ padding) = ethertypeIp := by
      unfold etherType
      rw [field_append_left _ (by omega)]
      exact request.isIp
    intro frame member
    rcases List.mem_cons.mp member with rfl | member
    · exact react_answer request.isIp (by omega)
    · rw [List.mem_singleton.mp member]
      exact react_answer isIp (by rw [List.length_append]; omega)
  · intro interface gateway reply answered
    rw [answer_echo taken] at answered
    split at answered
    · split at answered
      · cases answered
      · rename_i rtentry _
        cases isInterface : interfaceOf net rtentry.interface with
        | error fault => simp [isInterface, Except.map] at answered
        | ok ifc =>
            simp only [isInterface, Except.map, Except.ok.injEq, Option.some.injEq,
              Prod.mk.injEq] at answered
            rw [← answered.2.2]
            exact echoReplyTo long (by omega)
    · cases answered
  · constructor
    · intro same admitted routable
      by_cases valid : IcmpSumValid datagram
      · left
        by_contra notNeutral
        have invalid : ¬IcmpSumValid (datagram ++ padding) :=
          fun validToo => notNeutral ((icmpSumValid_append padding valid long short).mp validToo)
        rw [answer_none takenToo fun _ validToo => absurd validToo invalid] at same
        exact answer_ne_none taken admitted valid routable same.symm
      · right
        refine ⟨valid, fun validToo => ?_⟩
        rw [answer_none taken fun _ isValid => absurd isValid valid] at same
        rw [← source] at routable
        exact answer_ne_none takenToo (admittedToo.mpr admitted) validToo routable same
    · intro condition
      by_cases passes : Admitted datagram ∧ Routable net (ipSrc datagram)
      · rcases condition passes.1 passes.2 with neutral | ⟨invalid, invalidToo⟩
        · have inside : datagramOf (datagram.length - 14) (echoReply datagram ++ padding) =
              datagramOf (datagram.length - 14) (echoReply datagram) := by
            unfold datagramOf
            rw [field_append_left _ (by rw [length_echoReply]; omega)]
          have both : Admitted (datagram ++ padding) ∧ IcmpSumValid (datagram ++ padding) ↔
              Admitted datagram ∧ IcmpSumValid datagram :=
            and_congr admittedToo (neutral.icmpSumValid_iff _ long short)
          rw [answer_echo takenToo, answer_echo taken, source,
            neutral.echoReply_append _ long short, inside]
          exact if_congr both rfl rfl
        · rw [answer_none takenToo fun _ valid => absurd valid invalidToo,
            answer_none taken fun _ valid => absurd valid invalid]
      · have refused : ∀ {frame}, ipSrc frame = ipSrc datagram →
            (Admitted frame ↔ Admitted datagram) → Admitted frame → IcmpSumValid frame →
              ¬Routable net (ipSrc frame) := by
          intro frame sameSource sameAdmitted admitted _ routable
          rw [sameSource] at routable
          exact passes ⟨sameAdmitted.mp admitted, routable⟩
        rw [answer_none takenToo (refused source admittedToo),
          answer_none taken (refused rfl Iff.rfl)]

end Answers

/-! ### A ping to `eth1` -/

/-- An echo request with its checksum. -/
private def pingEth1 : List Byte :=
  ipFrame 64 1 0xC0A80202 0xC0A80201 [8, 0, 0xf7, 0xfd, 0, 1, 0, 1]

/-- Zeros up to the shortest Ethernet frame change nothing. -/
theorem echo_ignores_padding_zeros :
    answer labNetwork (srArpcacheInit 0) 28 (pingEth1 ++ List.replicate 18 0) =
      answer labNetwork (srArpcacheInit 0) 28 pingEth1 := by
  have request : EchoRequest labNetwork pingEth1 := by decide
  have ignored := @echo_ignores_padding labNetwork (srArpcacheInit 0) pingEth1
    (List.replicate 18 0) 4 request (by decide)
  exact ignored.2.2.mpr fun _ _ => .inl (by decide)

/-- One byte behind a correct request makes the router drop it. -/
theorem padded_echo_dropped : EchoRequest labNetwork pingEth1 ∧
    answer labNetwork (srArpcacheInit 0) 28 (pingEth1 ++ [1]) ≠
      answer labNetwork (srArpcacheInit 0) 28 pingEth1 ∧
    react labNetwork 4 (srArpcacheInit 0) (.frame (pingEth1 ++ [1])) = .ok (srArpcacheInit 0) := by
  have dropped : answer labNetwork (srArpcacheInit 0) 28 (pingEth1 ++ [1]) = .ok none := by
    decide +kernel
  refine ⟨by decide, ?_, by decide +kernel⟩
  rw [dropped]
  decide +kernel

end EE323.Router

/-
Module: EE323.Router.Errors
Purpose: The ICMP errors of every run.  Each is addressed to the source of the packet that it is about
  and quotes its first 28 bytes, but its fragment word is copied from that packet, so the error about
  a fragment is a fragment too.
Main exports: Whole, Concerns, CompleteError, react_messages, errors_complete, fragment_error
-/
import EE323.Router.Dispatch
import EE323.Router.Messages

namespace EE323.Router

open EE323.Lib

/-- `ip_off`: the flags and the fragment offset. -/
def ipOff (buf : List Byte) : Nat := (buf.getD 20 0).toNat * 256 + (buf.getD 21 0).toNat

/-- The datagram is no fragment: its offset is zero and `IP_MF` is clear. -/
def Whole (buf : List Byte) : Prop := ipOff buf % 0x2000 = 0 ∧ ipOff buf / 0x2000 % 2 = 0

instance (buf : List Byte) : Decidable (Whole buf) := inferInstanceAs (Decidable (_ ∧ _))

/-- The message goes to the source of the packet that it is about, quotes its first bytes, and is no
fragment. -/
structure CompleteError (about message : List Byte) : Prop where
  addressed : ipDst message = ipSrc about
  quotes : field message 42 icmpDataSize = field about 14 icmpDataSize
  whole : Whole message

/-! ### One message -/

section Message

variable {type code : Byte} {about buf : List Byte}

theorem ipOff_eq {one two : List Byte} (same : field one 20 2 = field two 20 2) :
    ipOff one = ipOff two := by
  unfold ipOff
  rw [← @getD_field one 20 2 0 (by decide), ← @getD_field one 20 2 1 (by decide), same,
    @getD_field two 20 2 0 (by decide), @getD_field two 20 2 1 (by decide)]

private theorem off_icmpError (trailing : Nat) (source : IpAddr) (shost : Mac) :
    field (icmpError type code trailing source shost about) 20 2 = field about 20 2 := by
  rw [field_icmpError _ _ _ _ _ _ (by decide)]
  simp only [icmpErrorRaw, List.append_assoc, ethertypeIp]
  iterate 7 rw [field_append_right _ _ (by simp)]
  rw [field_append_left _ (by simp), field_whole (by simp) (by simp)]

private theorem data_icmpError (trailing : Nat) (source : IpAddr) (shost : Mac) :
    field (icmpError type code trailing source shost about) 42 icmpDataSize =
      field about 14 icmpDataSize := by
  rw [field_icmpError _ _ _ _ _ _ (by decide)]
  simp only [icmpErrorRaw, List.append_assoc, ethertypeIp]
  iterate 16 rw [field_append_right _ _ (by simp)]
  rw [field_append_left _ (by simp), field_whole (by simp) (by simp)]

private theorem ttl_icmpError (trailing : Nat) (source : IpAddr) (shost : Mac) :
    ipTtl (icmpError type code trailing source shost about) = initTtl := by
  have word : field (icmpError type code trailing source shost about) 22 2 = [initTtl, 1] := by
    rw [field_icmpError _ _ _ _ _ _ (by decide)]
    simp only [icmpErrorRaw, List.append_assoc, ethertypeIp]
    iterate 8 rw [field_append_right _ _ (by simp)]
    rw [field_append_left _ (by simp), field_whole (by simp) (by simp)]
  unfold ipTtl
  rw [← @getD_field _ 22 2 0 (by decide), word]
  rfl

/-- Behind the Ethernet destination an error is what `icmpError` built. -/
theorem ErrorAbout.same {offset count : Nat} (isError : ErrorAbout type code about buf)
    (after : 6 ≤ offset) : ∃ trailing ≤ icmpDataSize, ∃ source shost, field buf offset count =
      field (icmpError type code trailing source shost about) offset count := by
  obtain ⟨trailing, short, source, shost, raw | ⟨mac, addressed⟩⟩ := isError
  · exact ⟨trailing, short, source, shost, by rw [raw]⟩
  · exact ⟨trailing, short, source, shost, by rw [addressed, field_setDhost _ _ _ after]⟩

theorem ErrorAbout.ipDst_eq (isError : ErrorAbout type code about buf) :
    ipDst buf = ipSrc about := by
  obtain ⟨trailing, _, source, shost, same⟩ := isError.same (show 6 ≤ 30 by decide)
  have built : ipDst (icmpError type code trailing source shost about) = ipSrc about :=
    ipDst_icmpError _ _ _ _ _ _
  unfold ipDst at built ⊢
  rw [same]
  exact built

theorem ErrorAbout.data_eq (isError : ErrorAbout type code about buf) :
    field buf 42 icmpDataSize = field about 14 icmpDataSize := by
  obtain ⟨trailing, _, source, shost, same⟩ := isError.same (show 6 ≤ 42 by decide)
  rw [same]
  exact data_icmpError _ _ _

theorem ErrorAbout.ipOff_eq (isError : ErrorAbout type code about buf) :
    ipOff buf = ipOff about := by
  obtain ⟨trailing, _, source, shost, same⟩ := isError.same (show 6 ≤ 20 by decide)
  exact Router.ipOff_eq (same.trans (off_icmpError _ _ _))

/-- An error keeps its time to live on the queue, so its release only writes the destination. -/
theorem ErrorAbout.released {walk : Packet} (isError : ErrorAbout type code about walk.buf)
    (mac : Mac) : ErrorAbout type code about (released mac walk).buf := by
  obtain ⟨trailing, short, source, shost, raw⟩ := isError
  have addressed : setDhost walk.buf mac =
      setDhost (icmpError type code trailing source shost about) mac := by
    rcases raw with raw | ⟨other, raw⟩
    · rw [raw]
    · rw [raw]
      unfold setDhost
      exact patch_patch_same (by simp)
  have ttl : ipTtl (setDhost walk.buf mac) = initTtl := by
    rw [addressed, ipTtl_setDhost]
    exact ttl_icmpError _ _ _
  refine ⟨trailing, short, source, shost, .inr ⟨mac, ?_⟩⟩
  unfold Router.released
  dsimp only
  rw [if_neg (not_not.mpr ttl), addressed]

/-- An error is complete exactly when the packet that it is about is no fragment. -/
theorem ErrorAbout.complete_iff (isError : ErrorAbout type code about buf) :
    CompleteError about buf ↔ Whole about := by
  have off := isError.ipOff_eq
  constructor
  · intro complete
    have whole := complete.whole
    unfold Whole at whole ⊢
    rwa [off] at whole
  · intro whole
    refine ⟨isError.ipDst_eq, isError.data_eq, ?_⟩
    unfold Whole at whole ⊢
    rwa [off]

end Message

/-! ### The messages of a run -/

/-- A packet that waits to be forwarded is a received one, but for its Ethernet source. -/
def AsReceived (Received : List Byte → Prop) (walk : Packet) : Prop :=
  walk.origin = .forwarded → ∃ received, Received received ∧
    ∃ shost, walk.buf = setShost received shost

/-- The packets that an error may be about: a received frame, or a packet whose next hop did not
answer. -/
inductive Concerns (Received : List Byte → Prop) : Origin → Byte → Byte → List Byte → Prop where
  | portUnreachable {packet : List Byte} (received : Received packet) :
      Concerns Received .icmpError 3 3 packet
  | timeExceeded {packet : List Byte} (received : Received packet) :
      Concerns Received .icmpError 11 0 packet
  | netUnreachable {packet : List Byte} (received : Received packet) :
      Concerns Received .icmpError 3 0 packet
  | hostUnreachable {walk : Packet} {req : Nat} (waited : AsReceived Received walk) :
      Concerns Received (.hostUnreachable req walk.buf) 3 1 walk.buf

/-- The router made the message to report an error. -/
def IsErrorOrigin (origin : Origin) : Prop :=
  origin = .icmpError ∨ ∃ req about, origin = .hostUnreachable req about

/-- If the message reports an error, it is an error about a packet that it may be about. -/
def Message (Received : List Byte → Prop) (message : Packet) : Prop :=
  IsErrorOrigin message.origin → ∃ type code about,
    Concerns Received message.origin type code about ∧ ErrorAbout type code about message.buf

/-- What the packets on requests are. -/
def Awaits (Received : List Byte → Prop) (walk : Packet) : Prop :=
  Message Received walk ∧ AsReceived Received walk

section Runs

variable {net : Network} {Received : List Byte → Prop} {sr next : Instance}

theorem Message.of_other {message : Packet} (other : ¬IsErrorOrigin message.origin) :
    Message Received message := fun isError => absurd isError other

theorem message_of_report {message : Packet} (report : Report (Awaits Received) message) :
    Message Received message := by
  obtain ⟨walk, req, ⟨_, waited⟩, origin, isError⟩ := report
  intro _
  rw [origin]
  exact ⟨3, 1, walk.buf, .hostUnreachable waited, isError⟩

theorem closedUnderReports : ClosedUnderReports (Awaits Received) := by
  intro message report
  refine ⟨message_of_report report, ?_⟩
  obtain ⟨walk, req, _, origin, _⟩ := report
  intro forwarded
  rw [origin] at forwarded
  cases forwarded

/-- A notice is a message; an ARP request reports nothing. -/
theorem message_of_notice {message : Packet} (notice : Notice (Awaits Received) message) :
    Message Received message := by
  rcases notice with report | ⟨⟨req, sent, origin⟩, _⟩
  · exact message_of_report report
  · apply Message.of_other
    rw [origin]
    rintro (isError | ⟨_, _, isReport⟩)
    · cases isError
    · cases isReport

theorem handleArpreq_messages (depth : Nat) :
    Spreads (Awaits Received) (Message Received) (srArpcacheHandleArpreq net depth) :=
  fun waits returned =>
    (handleArpreq_spread closedUnderReports depth waits returned).mono fun _ => message_of_notice

private theorem not_error_of_eq {origin : Origin} (other : origin = .forwarded ∨
    origin = .echoReply ∨ origin = .arpReply) : ¬IsErrorOrigin origin := by
  rintro (isError | ⟨_, _, isReport⟩) <;> rcases other with rfl | rfl | rfl <;> contradiction

theorem runJob_messages {depth : Nat} {job : Job} (waits : AllWait (Awaits Received) sr)
    (may : Awaits Received ⟨job.buf, job.rtentry.interface, job.origin⟩)
    (sent : ∀ mac, Message Received
      ⟨job.edit (setDhost job.buf mac), job.rtentry.interface, job.origin⟩)
    (returned : runJob (srArpcacheHandleArpreq net depth) net sr (some job) = .ok next) :
    Spread (Awaits Received) (Message Received) sr next :=
  sendOrQueue_spread (handleArpreq_messages depth) waits may may.1 sent returned

/-- A report about a received frame is sent or queued as a message about it. -/
private theorem reports_messages {depth : Nat} {packet : List Byte} {job : Job} {type code : Byte}
    (concerns : Concerns Received .icmpError type code packet)
    (reports : job.Reports packet type code) (waits : AllWait (Awaits Received) sr)
    (returned : runJob (srArpcacheHandleArpreq net depth) net sr (some job) = .ok next) :
    Spread (Awaits Received) (Message Received) sr next := by
  obtain ⟨trailing, short, rtentry, source, shost, isJob⟩ := reports
  have message (buf : List Byte) (isError : ErrorAbout type code packet buf) :
      Message Received ⟨buf, rtentry.interface, .icmpError⟩ :=
    fun _ => ⟨type, code, packet, concerns, isError⟩
  refine runJob_messages waits ?_ ?_ returned
  · rw [isJob]
    dsimp only
    refine ⟨message _ ⟨trailing, short, source, shost, .inl rfl⟩, ?_⟩
    exact fun forwarded => absurd forwarded (by simp)
  · intro mac
    rw [isJob]
    dsimp only [id_eq]
    exact message _ ⟨trailing, short, source, shost, .inr ⟨mac, rfl⟩⟩

/-- The packet itself and an echo reply report nothing. -/
private theorem routes_messages {depth : Nat} {packet : List Byte} {job : Job}
    {edit : List Byte → List Byte} {origin : Origin} (routes : job.Routes edit packet origin)
    (other : origin = .forwarded ∧ Received packet ∨ origin = .echoReply)
    (waits : AllWait (Awaits Received) sr)
    (returned : runJob (srArpcacheHandleArpreq net depth) net sr (some job) = .ok next) :
    Spread (Awaits Received) (Message Received) sr next := by
  obtain ⟨rtentry, shost, isJob⟩ := routes
  have message (buf : List Byte) : Message Received ⟨buf, rtentry.interface, origin⟩ :=
    .of_other (not_error_of_eq (by tauto))
  refine runJob_messages waits ?_ ?_ returned
  · rw [isJob]
    refine ⟨message _, fun forwarded => ?_⟩
    rcases other with ⟨_, received⟩ | echo
    · exact ⟨packet, received, shost, rfl⟩
    · exact absurd (forwarded.symm.trans echo) (by simp)
  · intro mac
    rw [isJob]
    exact message _

theorem handleIp_messages {depth : Nat} {packet : List Byte} (received : Received packet)
    (waits : AllWait (Awaits Received) sr)
    (returned : handleIp (srArpcacheHandleArpreq net depth) net packet sr = .ok next) :
    Spread (Awaits Received) (Message Received) sr next := by
  rw [handleIp_eq] at returned
  obtain ⟨decision, decided, returned⟩ := bind_eq_ok.mp returned
  cases decision with
  | none =>
      cases returned
      exact .refl waits
  | some job =>
      rcases ipJob_cases decided with port | time | netUnreach | echo | forward
      · exact reports_messages (.portUnreachable received) port waits returned
      · exact reports_messages (.timeExceeded received) time waits returned
      · exact reports_messages (.netUnreachable received) netUnreach waits returned
      · exact routes_messages echo (.inr rfl) waits returned
      · exact routes_messages forward (.inl ⟨rfl, received⟩) waits returned

theorem releasePackets_messages {mac : Mac} {packets : List Packet}
    (waits : AllWait (Awaits Received) sr) (described : ∀ walk ∈ packets, Awaits Received walk)
    (returned : releasePackets net mac packets sr = .ok next) :
    Spread (Awaits Received) (Message Received) sr next := by
  induction packets generalizing sr with
  | nil =>
      cases returned
      exact .refl waits
  | cons walk rest inductionHypothesis =>
      have returned := releasePackets_cons returned
      have message : Message Received (released mac walk) := by
        intro isError
        obtain ⟨type, code, about, concerns, isAbout⟩ :=
          (described walk List.mem_cons_self).1 isError
        exact ⟨type, code, about, concerns, isAbout.released mac⟩
      have sent : Spread (Awaits Received) (Message Received) sr
          (srSendPacket net (released mac walk) sr) := .send waits message
      exact sent.trans (inductionHypothesis sent.waits
        (fun other later => described other (List.mem_cons_of_mem _ later)) returned)

theorem handleArp_messages {packet : List Byte} (waits : AllWait (Awaits Received) sr)
    (returned : handleArp net packet sr = .ok next) :
    Spread (Awaits Received) (Message Received) sr next := by
  unfold handleArp at returned
  split at returned
  · cases returned
    exact .refl waits
  obtain ⟨rtentry, _, returned⟩ := bind_eq_ok.mp returned
  obtain ⟨ifc, _, returned⟩ := bind_eq_ok.mp returned
  split at returned
  · cases returned
    exact .refl waits
  split at returned
  · cases returned
    exact .send waits (.of_other (not_error_of_eq (.inr (.inr rfl))))
  split at returned
  · have inserted : Spread (Awaits Received) (Message Received) sr
        (srArpcacheInsert (arSha packet) (arSip packet) sr).2 :=
      .keep waits rfl rfl fun req member => ⟨req, List.mem_of_mem_eraseP member, rfl⟩
    split at returned
    · rename_i arpreq after isInserted
      have found : (srArpcacheInsert (arSha packet) (arSip packet) sr).1 = some arpreq := by
        rw [isInserted]
      rw [isInserted] at inserted
      obtain ⟨middle, sent, returned⟩ := bind_eq_ok.mp returned
      cases returned
      have described := waits arpreq (List.mem_of_find?_eq_some found)
      have sent := releasePackets_messages inserted.waits described sent
      refine (inserted.trans sent).trans (.keep sent.waits rfl rfl ?_)
      exact fun req member => ⟨req, List.mem_of_mem_eraseP member, rfl⟩
    · rename_i after isInserted
      rw [isInserted] at inserted
      cases returned
      exact inserted
  · cases returned
    exact .refl waits

/-- A reaction only adds messages, and leaves packets that are as described on the requests. -/
theorem react_messages {depth : Nat} {event : Event} (admitted : event.Admits Received)
    (waits : AllWait (Awaits Received) sr) (returned : react net depth sr event = .ok next) :
    Spread (Awaits Received) (Message Received) sr next := by
  cases event with
  | frame packet =>
      unfold react srHandlepacket at returned
      dsimp only at returned
      split at returned
      · cases returned
        exact .refl waits
      split at returned
      · exact handleIp_messages admitted waits returned
      split at returned
      · exact handleArp_messages waits returned
      · cases returned
        exact .refl waits
  | sweep =>
      have marked (entries : List ArpEntry) : Spread (Awaits Received) (Message Received) sr
          { sr with entries } := .keep waits rfl rfl fun req member => ⟨req, member, rfl⟩
      unfold react srArpcacheTimeout srArpcacheSweepreqs at returned
      have swept := sweepFrom_spread closedUnderReports (marked _).waits returned
      exact (marked _).trans (swept.mono fun _ => message_of_notice)
  | clock now =>
      cases returned
      exact .keep waits rfl rfl fun req member => ⟨req, member, rfl⟩

/-- A run only adds messages about what it received. -/
theorem run_messages {depth now : Nat} {events : List Event}
    (run : Run (step net depth) anyStep (srArpcacheInit now) events sr) :
    Spread (Awaits fun packet => .frame packet ∈ events)
      (Message fun packet => .frame packet ∈ events) (srArpcacheInit now) sr := by
  have start : Spread (Awaits fun packet => .frame packet ∈ events)
      (Message fun packet => .frame packet ∈ events) (srArpcacheInit now) (srArpcacheInit now) :=
    .refl fun req pending => absurd pending (by simp [srArpcacheInit])
  refine run.labelled.invariant start ?_
  intro before event after spread labelled stepped
  have admitted : event.Admits fun packet => .frame packet ∈ events := by
    cases event with
    | frame packet => exact labelled.2
    | sweep => trivial
    | clock now => trivial
  exact spread.trans (react_messages admitted spread.waits (step_eq_some.mp stepped))

/-- In every run, every error that was sent or queued is about a packet that the run received or
tried to forward, and it is complete exactly when that packet is no fragment. -/
theorem errors_complete {depth now : Nat} {events : List Event} {message : Packet}
    (run : Run (step net depth) anyStep (srArpcacheInit now) events sr)
    (added : message ∈ sr.handed ++ sr.queued) (isError : IsErrorOrigin message.origin) :
    ∃ type code about,
      Concerns (fun packet => .frame packet ∈ events) message.origin type code about ∧
        ErrorAbout type code about message.buf ∧
        (CompleteError about message.buf ↔ Whole about) := by
  obtain ⟨_, ⟨queued, isQueued, allQueued⟩, handed, isHanded, allHanded⟩ := run_messages run
  have isMessage : Message (fun packet => .frame packet ∈ events) message := by
    rcases List.mem_append.mp added with isSent | waits
    · rw [isHanded] at isSent
      exact allHanded message isSent
    · rw [isQueued] at waits
      exact allQueued message waits
  obtain ⟨type, code, about, concerns, isAbout⟩ := isMessage isError
  exact ⟨type, code, about, concerns, isAbout, isAbout.complete_iff⟩

end Runs

/-! ### Two datagrams at the end of their way -/

/-- A datagram to `eth2` with time to live 1. -/
private def lastHop : List Byte :=
  ipFrame 1 17 0xC0A80202 0xAC40030A (List.replicate 8 1)

/-- The same datagram as a first fragment. -/
private def firstFragment : List Byte := setIpSum (patch lastHop 20 [0x20, 0])

/-- An error of a router that received one frame is about that frame. -/
private theorem about_frame {frame : List Byte} {type code : Byte} {about : List Byte}
    (concerns : Concerns (fun packet => Event.frame packet ∈ [Event.frame frame]) .icmpError type
      code about) : about = frame := by
  cases concerns with
  | portUnreachable received => simpa using received
  | timeExceeded received => simpa using received
  | netUnreachable received => simpa using received

/-- The lab reports the end of the way of each. -/
private theorem lab_reports {frame : List Byte} (isTested : frame = lastHop ∨ frame = firstFragment) :
    ∃ sr, Run (step labNetwork 4) anyStep (srArpcacheInit 0) [.frame frame] sr ∧
      ∃ message ∈ sr.handed ++ sr.queued, message.origin = .icmpError ∧
        field message.buf 34 2 = [11, 0] ∧ field message.buf 20 2 = field frame 20 2 := by
  rcases isTested with rfl | rfl
  · exact exec_reaches _ (by decide +kernel)
  · exact exec_reaches _ (by decide +kernel)

theorem errors_complete_last_hop : ∃ sr,
    Run (step labNetwork 4) anyStep (srArpcacheInit 0) [.frame lastHop] sr ∧
      ∃ message ∈ sr.handed ++ sr.queued, CompleteError lastHop message.buf := by
  obtain ⟨sr, run, message, added, origin, _⟩ := lab_reports (.inl rfl)
  obtain ⟨type, code, about, concerns, _, complete⟩ := errors_complete run added (.inl origin)
  rw [origin] at concerns
  rw [about_frame concerns] at complete
  exact ⟨sr, run, message, added, complete.mpr (by decide)⟩

/-- The error about a fragment is itself one. -/
theorem fragment_error : ∃ sr,
    Run (step labNetwork 4) anyStep (srArpcacheInit 0) [.frame firstFragment] sr ∧
      ∃ message ∈ sr.handed ++ sr.queued, message.origin = .icmpError ∧
        field message.buf 34 2 = [11, 0] ∧ field message.buf 20 2 = [0x20, 0] ∧
        ¬CompleteError firstFragment message.buf := by
  obtain ⟨sr, run, message, added, origin, head, off⟩ := lab_reports (.inr rfl)
  have fragment : field message.buf 20 2 = field firstFragment 20 2 := off
  refine ⟨sr, run, message, added, origin, head, fragment.trans (by decide), ?_⟩
  intro complete
  have whole := complete.whole
  unfold Whole at whole
  rw [ipOff_eq fragment] at whole
  exact absurd whole (by decide)

end EE323.Router

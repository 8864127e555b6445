/-
Module: EE323.Router.Quoting
Purpose: The bytes of a packet that an ICMP error quotes.  Three of the four places that quote look at
  the length of the frame first, and the fourth takes what waits on a request, so it stays inside the
  packet when no frame that has to wait is too short.
Main exports: NoOverread, Quotable, handleArpreq_quotes, quotes_inside, short_packet_quoted
-/
import EE323.Router.Dispatch

namespace EE323.Router

open EE323.Lib

/-- An operation that reads no byte past the end of a packet. -/
abbrev NoOverread {α : Type} (post : α → Prop) : Except Fault α → Prop :=
  Ensures (fun fault => fault ≠ .overread) post

/-- A packet long enough to be quoted. -/
def LongEnough (buf : List Byte) : Prop := 14 + icmpDataSize ≤ buf.length

instance (buf : List Byte) : Decidable (LongEnough buf) := inferInstanceAs (Decidable (_ ≤ _))

/-- The packets that wait are long enough to be quoted. -/
abbrev LongQueue : Instance → Prop := Inv (fun _ packet => LongEnough packet.buf) fun _ => True

/-- A frame that has to wait for the address of its next hop is long enough to be quoted. -/
def Quotable (net : Network) (sr : Instance) : Event → Prop
  | .frame packet => etherType packet = ethertypeIp →
      ∀ job, ipJob net packet = .ok (some job) → srArpcacheLookup sr job.rtentry.gw = none →
        LongEnough packet
  | .sweep => True
  | .clock _ => True

variable {net : Network} {depth : Nat} {sr next : Instance}

/-- Frames that are long enough meet the condition wherever they go. -/
theorem Quotable.of_long {event : Event} (long : event.Admits LongEnough) :
    Quotable net sr event := by
  cases event with
  | frame packet => exact fun _ _ _ _ => long
  | sweep => trivial
  | clock now => trivial

theorem longEnough_icmpError (type code : Byte) (trailing : Nat) (source : IpAddr) (shost : Mac)
    (original : List Byte) : LongEnough (icmpError type code trailing source shost original) := by
  unfold LongEnough
  rw [length_icmpError]
  unfold icmpDataSize
  omega

/-- The errors that the router generates are long enough themselves. -/
theorem longErrors (net : Network) : Contract net (fun _ => False)
    (fun _ packet => LongEnough packet.buf) (fun _ => True) where
  forward := fun forwarded => absurd forwarded.checked.1 id
  echo := fun checked => absurd checked.1 id
  error := by
    intro packet rtentry ifc type code trailing origin _ _ source _
    unfold Passes
    dsimp only
    exact ⟨longEnough_icmpError _ _ _ _ _ _, fun _ => trivial⟩
  request := fun _ _ _ _ _ => trivial
  reply := fun _ => trivial
  releaseEdited := fun _ _ => trivial
  releaseUnedited := fun _ _ _ => trivial

theorem LongQueue.changes (long : LongQueue sr) (changes : Changes net (fun _ => False) sr next) :
    LongQueue next := by
  induction changes with
  | refl => exact long
  | tail _ change inductionHypothesis => exact change.inv (longErrors net) inductionHypothesis

/-! ### The requests that expire -/

/-- A handler of requests that quotes no packet that is too short. -/
def QuotesInside (handle : Nat → Instance → Except Fault Instance) : Prop :=
  ∀ id sr, LongQueue sr → NoOverread LongQueue (handle id sr)

theorem deref_quotes {α : Type} {fault : Fault} {pointer : Option α} (other : fault ≠ .overread) :
    NoOverread (fun target => pointer = some target) (deref fault pointer) := by
  cases pointer with
  | none => exact .error other
  | some target => exact .ok rfl

variable {handle : Nat → Instance → Except Fault Instance}

/-- Sending or queueing reads no packet. -/
theorem sendOrQueue_quotes {edit : List Byte → List Byte} {rtentry : Route} {buf : List Byte}
    {origin : Origin} (quotes : QuotesInside handle) (long : LongQueue sr)
    (fits : srArpcacheLookup sr rtentry.gw = none → LongEnough buf) :
    NoOverread LongQueue (sendOrQueue handle net edit rtentry buf origin sr) := by
  cases known : srArpcacheLookup sr rtentry.gw with
  | some arpentry =>
      rw [sendOrQueue_known known]
      exact .ok (long.send trivial)
  | none =>
      rw [sendOrQueue_unknown known]
      exact quotes _ _ (long.queue (fits known))

theorem answerPacket_quotes {req : ArpReq} {walk : Packet} (quotes : QuotesInside handle)
    (long : LongQueue sr) (fits : LongEnough walk.buf) :
    NoOverread LongQueue (answerPacket handle net req walk sr) := by
  unfold answerPacket routeTo interfaceOf
  refine (deref_quotes (by decide)).bind fun own _ => ?_
  refine (deref_quotes (by decide)).bind fun ownIfc _ => ?_
  refine (deref_quotes (by decide)).bind fun other _ => ?_
  refine (deref_quotes (by decide)).bind fun otherIfc _ => ?_
  rw [if_neg (Nat.not_lt_of_le fits)]
  apply sendOrQueue_quotes quotes long
  exact fun _ => longEnough_icmpError _ _ _ _ _ _

theorem answerPackets_quotes {req : ArpReq} {packets : List Packet} (quotes : QuotesInside handle)
    (long : LongQueue sr) (fits : ∀ walk ∈ packets, LongEnough walk.buf) :
    NoOverread LongQueue (answerPackets handle net req packets sr) := by
  induction packets generalizing sr with
  | nil => exact .ok long
  | cons walk rest inductionHypothesis =>
      unfold answerPackets
      refine (deref_quotes (by decide)).bind fun _ _ => ?_
      apply (answerPacket_quotes quotes long (fits walk List.mem_cons_self)).bind
      intro middle middleLong
      exact inductionHypothesis middleLong fun other later => fits other (List.mem_cons_of_mem _ later)

theorem sendArpRequest_quotes {req : ArpReq} (long : LongQueue sr) (pending : req ∈ sr.requests) :
    NoOverread LongQueue (sendArpRequest net req sr) := by
  have quotes : NoOverread (fun _ => True) (sendArpRequest net req sr) := by
    unfold sendArpRequest routeTo interfaceOf
    refine (deref_quotes (by decide)).bind fun head _ => ?_
    refine (deref_quotes (by decide)).bind fun ifc _ => ?_
    refine (deref_quotes (by decide)).bind fun rtentry _ => ?_
    exact .ok trivial
  exact quotes.strengthen fun _ returned => sendArpRequest_inv (longErrors net) long pending returned

/-- `sr_arpcache_handle_arpreq` quotes no packet that is too short. -/
theorem handleArpreq_quotes (depth : Nat) : QuotesInside (srArpcacheHandleArpreq net depth) := by
  induction depth with
  | zero =>
      intro id sr long
      exact .error (by decide)
  | succ depth inductionHypothesis =>
      intro id sr long
      unfold srArpcacheHandleArpreq
      refine (deref_quotes (by decide)).bind fun req found => ?_
      obtain ⟨pending, _⟩ := findReq_eq_some found
      split
      · split
        · apply (answerPackets_quotes inductionHypothesis long (long.queued req pending)).bind
          intro middle middleLong
          unfold srArpreqDestroy
          split
          · exact .ok (middleLong.remove List.eraseP_sublist)
          · exact .error (by decide)
        · exact sendArpRequest_quotes long pending
      · exact .ok long

theorem sweepFrom_quotes {ids : List Nat} {pointer : Option Nat} (long : LongQueue sr) :
    NoOverread LongQueue (sweepFrom net depth ids pointer sr) := by
  induction ids generalizing sr pointer with
  | nil => exact .ok long
  | cons id rest inductionHypothesis =>
      unfold sweepFrom
      split
      · refine (deref_quotes (by decide)).bind fun _ _ => ?_
        apply (handleArpreq_quotes depth id sr long).bind
        exact fun middle middleLong => inductionHypothesis middleLong
      · exact inductionHypothesis long

/-! ### The frames that arrive -/

/-- The three errors about a frame that has just arrived are built after a look at its length, and a
packet that is sent for it is long when it is. -/
theorem reportJob_quotes {error : IpAddr → Mac → List Byte → List Byte} {type code : Byte}
    {trailing : Nat} {packet : List Byte} (isError : error = icmpError type code trailing)
    (fits : LongEnough packet) :
    NoOverread (fun decision => ∀ job ∈ decision, LongEnough packet → LongEnough job.buf)
      (reportJob net error packet) := by
  unfold reportJob routeTo interfaceOf
  refine (deref_quotes (by decide)).bind fun rtentry _ => ?_
  refine (deref_quotes (by decide)).bind fun ifc _ => ?_
  rw [if_neg (Nat.not_lt_of_le fits)]
  apply Ensures.ok
  rintro _ ⟨⟩ _
  dsimp only
  rw [isError]
  exact longEnough_icmpError _ _ _ _ _ _

theorem routeJob_quotes {edit : List Byte → List Byte} {rtentry : Route} {packet buf : List Byte}
    {origin : Origin} (same : buf.length = packet.length) :
    NoOverread (fun decision => ∀ job ∈ decision, LongEnough packet → LongEnough job.buf)
      (routeJob net edit rtentry buf origin) := by
  unfold routeJob interfaceOf
  refine (deref_quotes (by decide)).bind fun ifc _ => ?_
  apply Ensures.ok
  rintro _ ⟨⟩ long
  unfold LongEnough at long ⊢
  rw [length_setShost, same]
  exact long

theorem ipJob_quotes (packet : List Byte) :
    NoOverread (fun decision => ∀ job ∈ decision, LongEnough packet → LongEnough job.buf)
      (ipJob net packet) := by
  have nothing : NoOverread
      (fun decision : Option Job => ∀ job ∈ decision, LongEnough packet → LongEnough job.buf)
      (.ok none) := by
    apply Ensures.ok
    rintro _ ⟨⟩
  unfold ipJob
  split
  · exact nothing
  split
  · unfold localJob
    split
    · unfold echoJob
      split
      · exact nothing
      split
      · exact nothing
      · exact routeJob_quotes (length_echoReply packet)
    split
    · rename_i both
      exact reportJob_quotes rfl both.2
    · exact nothing
  · unfold transitJob
    split
    · split
      · split
        · rename_i fits
          exact reportJob_quotes rfl fits
        · exact nothing
      · exact routeJob_quotes rfl
    · split
      · rename_i both
        exact reportJob_quotes rfl both.1
      · exact nothing

theorem releasePackets_quotes (mac : Mac) (packets : List Packet) (sr : Instance) :
    NoOverread (fun _ => True) (releasePackets net mac packets sr) := by
  induction packets generalizing sr with
  | nil => exact .ok trivial
  | cons walk rest inductionHypothesis =>
      unfold releasePackets releasePacket routeTo
      have one : NoOverread (fun _ => True) (deref .nullRoute
          (srFindLPMentry net.routingTable (ipDst walk.buf)) >>= fun _ =>
            .ok (srSendPacket net (released mac walk) sr)) :=
        (deref_quotes (by decide)).bind fun _ _ => .ok trivial
      exact one.bind fun middle _ => inductionHypothesis middle

/-- A reaction to an event that meets the condition quotes no packet that is too short and leaves
none on the queue. -/
theorem react_quotes {event : Event} (long : LongQueue sr) (quotable : Quotable net sr event) :
    NoOverread LongQueue (react net depth sr event) := by
  cases event with
  | frame packet =>
      unfold react srHandlepacket
      dsimp only
      split
      · exact .ok long
      split
      · rename_i isIp
        rw [handleIp_eq]
        have decides := @ipJob_quotes net packet
        cases decision : ipJob net packet with
        | error fault =>
            rw [decision] at decides
            exact .error decides.allowed_of_error
        | ok outcome =>
            rw [decision] at decides
            cases outcome with
            | none => exact .ok long
            | some job =>
                apply sendOrQueue_quotes (handleArpreq_quotes depth) long
                intro unknown
                exact decides.post_of_ok job rfl (quotable isIp job decision unknown)
      split
      · have quotes : NoOverread (fun _ => True) (handleArp net packet sr) := by
          unfold handleArp routeTo interfaceOf
          split
          · exact .ok trivial
          refine (deref_quotes (by decide)).bind fun rtentry _ => ?_
          refine (deref_quotes (by decide)).bind fun ifc _ => ?_
          split
          · exact .ok trivial
          split
          · exact .ok trivial
          split
          · split
            · exact (releasePackets_quotes _ _ _).bind fun _ _ => .ok trivial
            · exact .ok trivial
          · exact .ok trivial
        exact quotes.strengthen fun _ returned => long.changes (handleArp_changes returned)
      · exact .ok long
  | sweep => exact sweepFrom_quotes (long.remove (List.Sublist.refl _))
  | clock now => exact .ok { long with }

/-- In every run in which each frame that has to wait is at least 42 bytes long, so is every packet
on the queue, and no reaction reads past the end of the packet that it quotes. -/
theorem quotes_inside {now : Nat} {events : List Event}
    (run : Run (step net depth) (Quotable net) (srArpcacheInit now) events sr) :
    (∀ req ∈ sr.requests, ∀ packet ∈ req.packets, 14 + icmpDataSize ≤ packet.buf.length) ∧
      ∀ event, Quotable net sr event → react net depth sr event ≠ .error .overread := by
  have long : LongQueue sr := by
    apply run.invariant
    · constructor <;> simp [srArpcacheInit]
    · intro before event after beforeLong quotable stepped
      have quotes : NoOverread LongQueue (react net depth before event) :=
        react_quotes beforeLong quotable
      rw [step_eq_some.mp stepped] at quotes
      exact quotes.post_of_ok
  refine ⟨long.queued, ?_⟩
  intro event quotable overread
  have quotes : NoOverread LongQueue (react net depth sr event) := react_quotes long quotable
  rw [overread] at quotes
  exact quotes.allowed_of_error rfl

/-- A frame with eight bytes of data has to wait, and may. -/
private def longFrame : List Byte := ipFrame 64 17 0xC0A80202 0xAC40030A (List.replicate 8 1)

theorem quotes_inside_long_frame : ∃ sr,
    Run (step labNetwork 4) (Quotable labNetwork) (srArpcacheInit 5) [.frame longFrame, .clock 7] sr ∧
      (∃ req ∈ sr.requests, req.packets ≠ []) ∧
      (∀ req ∈ sr.requests, ∀ packet ∈ req.packets, 14 + icmpDataSize ≤ packet.buf.length) ∧
      react labNetwork 4 sr .sweep ≠ .error .overread := by
  have reached : ∃ sr, Run (step labNetwork 4) (fun _ event => event.Admits LongEnough)
      (srArpcacheInit 5) [.frame longFrame, .clock 7] sr ∧ ∃ req ∈ sr.requests, req.packets ≠ [] :=
    exec_reaches _ (by decide +kernel)
  obtain ⟨sr, run, waits⟩ := reached
  have quotable : Run (step labNetwork 4) (Quotable labNetwork) (srArpcacheInit 5)
      [.frame longFrame, .clock 7] sr := run.mono Quotable.of_long
  obtain ⟨long, inside⟩ := quotes_inside quotable
  exact ⟨sr, quotable, waits, long, inside .sweep trivial⟩

/-- The datagram of the lab without data waits for its next hop until its request expires. -/
private def unansweredShort : List Event :=
  [.frame (ipFrame 64 17 0xC0A80202 0xAC40030A []), .clock 7, .sweep, .clock 9, .sweep, .clock 11,
    .sweep, .clock 13, .sweep, .clock 15]

/-- Eight bytes past the end of a frame of 34 bytes are quoted. -/
theorem short_packet_quoted : ∃ sr,
    Run (step labNetwork 4) anyStep (srArpcacheInit 5) unansweredShort sr ∧
      (∃ req ∈ sr.requests, ∃ packet ∈ req.packets, packet.buf.length = 34) ∧
      react labNetwork 4 sr .sweep = .error .overread :=
  exec_reaches _ (by decide +kernel)

end EE323.Router

/-
Module: EE323.Stcp.NextByte
Purpose: What an acknowledgement number names.  The answers to data segments and FINs carry the
  number of the next segment of the peer; the answers to a SYN do not, because the SYN is counted in
  the handshake and forgotten when the window is set up.
Main exports: sentBy, Context.upcoming, ack_names_next_byte, syn_ack_names_second_byte
-/
import EE323.Stcp.Numbers

namespace EE323.Stcp

open EE323.Lib

/-! ### The segments a side sends -/

/-- The segments that a side hands to its network when the actions are taken one after the other
over the reliable network, first one first. -/
def sentBy (side : Side) : System → List Action → List Segment
  | _, [] => []
  | s, action :: rest =>
      match System.step true s action with
      | some t => (s.sends side action).toList ++ sentBy side t rest
      | none => []

/-- The segments that take up sequence numbers. -/
def Segment.Counts (segment : Segment) : Prop := segment.IsData ∨ segment.IsFin

instance (segment : Segment) : Decidable segment.Counts :=
  inferInstanceAs (Decidable (_ ∨ _))

theorem Segment.span_of_not_counts {segment : Segment} (idle : ¬segment.Counts) :
    segment.span = 0 := by
  unfold Segment.Counts at idle
  unfold Segment.span
  rw [if_neg fun isData => idle (.inl isData), if_neg fun isFin => idle (.inr isFin)]

/-! ### The number of the next segment -/

instance (ctx : Context) : Decidable ctx.Opening := by
  unfold Context.Opening
  cases ctx.connectionState <;> infer_instance

/-- The number that the next data segment or FIN of this end will carry. -/
def Context.upcoming (ctx : Context) : Nat :=
  if ctx.Opening then trunc32 ctx.initialSequenceNum else trunc32 ctx.nextSeqnum

private theorem trunc32_trunc32 (a : Nat) : trunc32 (trunc32 a) = trunc32 a := by
  unfold trunc32
  omega

namespace Context

theorem upcoming_opening {ctx : Context} (opening : ctx.Opening) :
    ctx.upcoming = trunc32 ctx.initialSequenceNum := if_pos opening

theorem trunc32_upcoming (ctx : Context) : trunc32 ctx.upcoming = ctx.upcoming := by
  unfold upcoming
  split <;> exact trunc32_trunc32 _

theorem upcoming_running {ctx : Context} (running : ¬ctx.Opening) :
    ctx.upcoming = trunc32 ctx.nextSeqnum := if_neg running

end Context

private theorem sizeAdd_trunc32 (a b : Nat) : trunc32 (sizeAdd a b) = trunc32 (trunc32 a + b) := by
  unfold trunc32 sizeAdd
  omega

/-- What a step does to the number of the next segment, and the number it sends. -/
private structure Advances (ctx ctx' : Context) (sent : Option Segment) : Prop where
  isn : ctx'.initialSequenceNum = ctx.initialSequenceNum
  next : ctx'.upcoming = trunc32 (ctx.upcoming + span sent.toList)
  numbered : ∀ segment, sent = some segment → segment.Counts → segment.thSeq = ctx.upcoming

namespace Advances

variable {ctx ctx' : Context} {segment : Segment}

/-- A step that sends nothing that counts. -/
private theorem idle {sent : Option Segment} (isn : ctx'.initialSequenceNum = ctx.initialSequenceNum)
    (next : ctx'.upcoming = ctx.upcoming) (idle : ∀ segment, sent = some segment → ¬segment.Counts) :
    Advances ctx ctx' sent where
  isn := isn
  next := by
    have truncated := ctx.trunc32_upcoming
    cases sent with
    | none => simpa [truncated] using next
    | some segment =>
        simp only [Option.toList_some, span_cons, span_nil,
          Segment.span_of_not_counts (idle segment rfl), Nat.add_zero, truncated]
        exact next
  numbered := fun segment isSent counts => absurd counts (idle segment isSent)

/-- A step that keeps the phase and both numbers. -/
private theorem still {sent : Option Segment} (same : Context.SamePhase ctx ctx')
    (isn : ctx'.initialSequenceNum = ctx.initialSequenceNum)
    (next : ctx'.nextSeqnum = ctx.nextSeqnum)
    (notCounted : ∀ segment, sent = some segment → ¬segment.Counts) : Advances ctx ctx' sent := by
  refine idle isn ?_ notCounted
  unfold Context.upcoming
  simp only [same.opening, isn, next]

/-- The end sends a segment that counts. -/
private theorem send (running : ¬ctx.Opening) (running' : ¬ctx'.Opening)
    (isn : ctx'.initialSequenceNum = ctx.initialSequenceNum)
    (next : ctx'.nextSeqnum = sizeAdd ctx.nextSeqnum segment.span)
    (thSeq : segment.thSeq = trunc32 ctx.nextSeqnum) : Advances ctx ctx' (some segment) where
  isn := isn
  next := by
    rw [Context.upcoming_running running, Context.upcoming_running running', next]
    exact sizeAdd_trunc32 _ _
  numbered := by
    rintro _ ⟨⟩ _
    rw [Context.upcoming_running running]
    exact thSeq

end Advances

private theorem IsSyn.not_counts {segment : Segment} (isSyn : segment.IsSyn) : ¬segment.Counts := by
  rintro (isData | isFin)
  · exact isSyn.not_isData isData
  · exact isSyn.not_isFin isFin

private theorem IsAck.not_counts {segment : Segment} (isAck : segment.IsAck) : ¬segment.Counts := by
  rintro (isData | isFin)
  · exact isAck.not_isData isData
  · exact isAck.not_isFin isFin

private theorem advances_opening {link : Link} {e' : Endpoint} {taken sent : Option Segment}
    {inc : List Segment} (view : View link) (opening : link.self.ctx.Opening)
    (incoming : link.inc = taken.toList ++ inc) (moved : ThreadStep link.self taken sent e') :
    Advances link.self.ctx e'.ctx sent := by
  have head := (view.opening opening).1
  have step := view.near.opening_step opening moved
  generalize e'.ctx = ctx' at step
  have establish : (link.self.ctx.establish link.self.isActive).upcoming =
      link.self.ctx.upcoming := by
    rw [Context.upcoming_opening opening,
      Context.upcoming_running (Context.establish_not_opening _ _)]
    rfl
  have stillOpening : ∀ {ctx' : Context}, ctx'.Opening →
      ctx'.initialSequenceNum = link.self.ctx.initialSequenceNum →
      ctx'.upcoming = link.self.ctx.upcoming := by
    intro ctx' opening' isn
    rw [Context.upcoming_opening opening, Context.upcoming_opening opening', isn]
  cases step with
  | sendSyn =>
      refine .idle rfl (stillOpening (Context.opening_of_synSent rfl) rfl) ?_
      rintro _ ⟨⟩
      exact IsSyn.not_counts link.self.ctx.synSegment_isSyn
  | connect =>
      refine .idle rfl establish ?_
      rintro _ ⟨⟩
      exact IsSyn.not_counts ((head _ _ incoming).1.echo _ _)
  | accept =>
      refine .idle rfl (stillOpening (Context.opening_of_synRcvd rfl) rfl) ?_
      rintro _ ⟨⟩
      exact IsSyn.not_counts ((head _ _ incoming).1.echo _ _)
  | accepted => exact .idle rfl establish (by simp)
  | overread => exact .idle rfl rfl (by simp)

private theorem advances_running {e e' : Endpoint} {taken sent : Option Segment}
    (near : Coherent e) (running : ¬e.ctx.Opening) (moved : ThreadStep e taken sent e') :
    Advances e.ctx e'.ctx sent := by
  have unsent : ∀ segment : Segment, none = some segment → ¬segment.Counts := by simp
  have running' := near.stays_open running moved
  cases moved with
  | sendSyn pc =>
      exact absurd (near.opening_of_start pc) running
  | connect pc => exact absurd (near.handshake pc).1 running
  | accept pc => exact absurd (near.handshake pc).1 running
  | accepted pc => exact absurd (near.handshake pc).1 running
  | appSend pc ready room dequeued stored =>
      rename_i event data buffer left
      have isData := e.ctx.dataSegment_isData data
      refine .send running running' rfl ?_ rfl
      rw [isData.span]
      rfl
  | ack => exact .still (Context.samePhase_acked _ _ _) rfl rfl unsent
  | fin =>
      refine .idle ?_ ?_ ?_
      · simp only [Context.receivedFin]
        split <;> rfl
      · rw [Context.upcoming_running running, Context.upcoming_running running']
        simp only [Context.receivedFin]
        split <;> rfl
      · rintro _ ⟨⟩
        exact IsAck.not_counts (Context.ackSegment_isAck _ _)
  | data =>
      refine .still (Context.samePhase_recvBase _ _) rfl rfl ?_
      rintro _ ⟨⟩
      exact IsAck.not_counts (Context.ackSegment_isAck _ _)
  | finAcked =>
      rw [Endpoint.loopEnd_ctx] at running' ⊢
      refine .idle ?_ ?_ unsent
      · simp only [Context.finAcked]
        split <;> rfl
      · rw [Context.upcoming_running running, Context.upcoming_running running']
        simp only [Context.finAcked]
        split <;> rfl
  | sendFin =>
      rw [Endpoint.loopEnd_ctx] at running' ⊢
      refine .send running running' rfl ?_ rfl
      rw [e.ctx.finSegment_isFin.span]
      rfl
  | stalled => exact .still (Context.samePhase_refl _) rfl rfl unsent
  | overread => exact .still (Context.samePhase_refl _) rfl rfl unsent
  | oversized => exact .still (Context.samePhase_refl _) rfl rfl unsent
  | dispatch => exact .still (Context.samePhase_refl _) rfl rfl unsent
  | appSkip => exact .still (Context.samePhase_refl _) rfl rfl unsent
  | appOverflow => exact .still (Context.samePhase_refl _) rfl rfl unsent
  | networkSkip => exact .still (Context.samePhase_refl _) rfl rfl unsent
  | ackOverflow => exact .still (Context.samePhase_refl _) rfl rfl unsent
  | ignored =>
      rw [Endpoint.loopEnd_ctx]
      exact .still (Context.samePhase_refl _) rfl rfl unsent
  | noClose =>
      rw [Endpoint.loopEnd_ctx]
      exact .still (Context.samePhase_refl _) rfl rfl unsent
  | forget =>
      rw [Endpoint.loopEnd_ctx]
      exact .still (Context.samePhase_refl _) rfl rfl unsent

private theorem advances {link : Link} {e' : Endpoint} {taken sent : Option Segment}
    {inc : List Segment} (view : View link) (incoming : link.inc = taken.toList ++ inc)
    (moved : ThreadStep link.self taken sent e') : Advances link.self.ctx e'.ctx sent := by
  by_cases opening : link.self.ctx.Opening
  · exact advances_opening view opening incoming moved
  · exact advances_running view.near opening moved

/-! ### The segments in flight -/

/-- The first segment of a list that counts carries the first number. -/
theorem Sequenced.first {base : Nat} {segments : List Segment} {next : Segment}
    (sequenced : Sequenced base segments)
    (found : segments.find? (fun segment => segment.Counts) = some next) :
    next.thSeq = trunc32 base := by
  induction segments generalizing base with
  | nil => cases found
  | cons segment rest inductionHypothesis =>
      obtain ⟨numbered, later⟩ := sequenced
      by_cases counts : segment.Counts
      · simp only [List.find?_cons, counts, decide_true, Option.some.injEq] at found
        rw [← found]
        exact numbered counts
      · simp only [List.find?_cons, counts, decide_false] at found
        have same := inductionHypothesis later found
        rwa [Segment.span_of_not_counts counts, Nat.add_zero] at same

theorem span_of_no_counts {segments : List Segment}
    (none : segments.find? (fun segment => segment.Counts) = none) : span segments = 0 := by
  induction segments with
  | nil => rfl
  | cons segment rest inductionHypothesis =>
      by_cases counts : segment.Counts
      · simp [counts] at none
      · simp only [List.find?_cons, counts, decide_false] at none
        rw [span_cons, Segment.span_of_not_counts counts, inductionHypothesis none]

/-- The segments in flight that count are numbered up to the number of the next one. -/
structure Consecutive (link : Link) : Prop where
  consecutive : ∃ base, Sequenced base link.out ∧
    trunc32 (base + span link.out) = link.self.ctx.upcoming

namespace Consecutive

variable {link : Link} {e' : Endpoint} {taken sent : Option Segment} {inc : List Segment}

private theorem self_step (consecutive : Consecutive link)
    (advances : Advances link.self.ctx e'.ctx sent) :
    Consecutive { self := e', peer := link.peer, out := link.out ++ sent.toList, inc := inc } := by
  obtain ⟨base, sequenced, top⟩ := consecutive
  refine ⟨base, ?_, ?_⟩
  · cases sent with
    | none => simpa using sequenced
    | some segment =>
        refine sequenced.snoc fun counts => ?_
        rw [top]
        exact advances.numbered segment rfl counts
  · show trunc32 (base + span (link.out ++ sent.toList)) = e'.ctx.upcoming
    rw [advances.next, ← top, trunc32_add_trunc32, span_append, Nat.add_assoc]

private theorem peer_step (consecutive : Consecutive link.swap)
    (incoming : link.inc = taken.toList ++ inc) :
    Consecutive
      { self := link.peer, peer := e', out := inc, inc := link.out ++ sent.toList } := by
  obtain ⟨base, sequenced, top⟩ := consecutive
  simp only [Link.swap, incoming] at sequenced top
  cases taken with
  | none => exact ⟨base, sequenced, top⟩
  | some packet =>
      refine ⟨base + packet.span, sequenced.2, ?_⟩
      rw [Nat.add_assoc]
      exact top

end Consecutive

theorem consecutive_of_run {guard : System → Action → Prop} {labels : List Action} {s : System}
    (run : ReliableRun guard labels s) (side : Side) : Consecutive (s.link side) := by
  induction run generalizing side with
  | refl =>
      refine ⟨1, ?_, ?_⟩ <;> cases side <;>
        simp [System.link, System.init, System.inFlight, Endpoint.init, MysockContext.init,
          Sequenced, Context.init, Context.upcoming, Context.Opening]
  | @snoc s t labels action before admitted stepped inductionHypothesis =>
      refine links_preserved inductionHypothesis stepped ?_ side
      intro actor link own other moved
      have view := Protocol.view_of_run before actor
      cases moved with
      | thread moved incoming =>
          exact ⟨own.self_step (advances view incoming moved), other.peer_step incoming⟩
      | receive packet => exact ⟨⟨own.consecutive⟩, ⟨other.consecutive⟩⟩
      | app called =>
          refine ⟨⟨?_⟩, ⟨other.consecutive⟩⟩
          rw [called.ctx]
          exact own.consecutive

/-- The step of a transport thread, with what it takes from the network and what it sends. -/
theorem thread_of_sends {s t : System} {side : Side} {rand : Nat} {overread : Bool}
    (stepped : System.step true s (.thread side rand overread) = some t) :
    ∃ taken, ThreadStep (s.endpoint side) taken (s.sends side (.thread side rand overread))
        (t.endpoint side) ∧
      (s.link side).inc = taken.toList ++ (t.link side).inc := by
  simp only [System.step, Option.map_eq_some_iff] at stepped
  obtain ⟨⟨self, sent⟩, threadStepped, rfl⟩ := stepped
  obtain ⟨taken, moved⟩ := Endpoint.threadStep_sound threadStepped
  have sends : s.sends side (.thread side rand overread) = sent := by
    simp [System.sends, threadStepped]
  rw [sends, transmit_endpoint, if_pos rfl]
  refine ⟨taken, moved, ?_⟩
  have wire : (s.transmit true rand side (self, sent)).wire side.peer = s.wire side.peer := by
    cases sent <;> simp [System.transmit, System.update]
  simp [System.link, System.inFlight, moved.queue, wire, transmit_endpoint]

private theorem advances_of_step {guard : System → Action → Prop} {labels : List Action}
    {s t : System} {action : Action} (run : ReliableRun guard labels s)
    (stepped : System.step true s action = some t) (side : Side) :
    Advances (s.endpoint side).ctx (t.endpoint side).ctx (s.sends side action) := by
  by_cases acts : ∃ rand overread, action = .thread side rand overread
  · obtain ⟨rand, overread, rfl⟩ := acts
    obtain ⟨taken, moved, incoming⟩ := thread_of_sends stepped
    exact advances (Protocol.view_of_run run side) incoming moved
  · have idle : s.sends side action = none := by
      cases action with
      | thread actor rand overread =>
          have other : actor ≠ side := fun same => acts ⟨rand, overread, by rw [same]⟩
          simp [System.sends, other]
      | _ => rfl
    rcases ctx_or_thread stepped side with same | thread
    · rw [idle, same]
      exact .still (Context.samePhase_refl _) rfl rfl (by simp)
    · exact absurd thread acts

/-- The next segment that counts carries the number announced. -/
theorem upcoming_of_sentBy {labels later : List Action} {s : System} {side : Side} {next : Segment}
    (run : ReliableRun anyStep labels s)
    (found : (sentBy side s later).find? (fun segment => segment.Counts) = some next) :
    next.thSeq = (s.endpoint side).ctx.upcoming := by
  induction later generalizing s labels with
  | nil => cases found
  | cons action rest inductionHypothesis =>
      cases stepped : System.step true s action with
      | none => simp [sentBy, stepped] at found
      | some t =>
          simp only [sentBy, stepped, List.find?_append] at found
          obtain ⟨_, after, numbered⟩ := advances_of_step run stepped side
          cases now : (s.sends side action).toList.find? (fun segment => segment.Counts) with
          | some segment =>
              simp only [now, Option.some_or, Option.some.injEq] at found
              rw [← found]
              exact numbered segment (Option.mem_toList.mp (List.mem_of_find?_eq_some now))
                (by simpa using List.find?_some now)
          | none =>
              simp only [now, Option.none_or] at found
              rw [inductionHypothesis (.snoc run trivial stepped) found, after,
                span_of_no_counts now, Nat.add_zero, Context.trunc32_upcoming]

/-! ### The handshake -/

/-- The segments that travel to an end that has not answered a SYN carry the initial sequence
number. -/
structure Unanswered (link : Link) : Prop where
  isn : link.self.ctx.initialSequenceNum = 1
  first : link.peer.ctx.Opening → link.peer.ctx.connectionState ≠ .synRcvd →
    ∀ segment ∈ link.out, segment.thSeq = 1

namespace Unanswered

variable {link : Link} {e' : Endpoint} {taken sent : Option Segment} {inc : List Segment}

private theorem self_step (unanswered : Unanswered link) (view : View link)
    (far : link.peer.ctx.Opening → link.peer.ctx.connectionState ≠ .synRcvd →
      link.self.ctx.Opening)
    (near : link.self.ctx.connectionState = .synSent → link.inc ≠ [] →
      link.peer.ctx.connectionState = .synRcvd)
    (incoming : link.inc = taken.toList ++ inc) (moved : ThreadStep link.self taken sent e') :
    Unanswered { self := e', peer := link.peer, out := link.out ++ sent.toList, inc := inc } := by
  obtain ⟨isn, first⟩ := unanswered
  refine ⟨(advances view incoming moved).isn.trans isn, fun opening answered => ?_⟩
  intro segment member
  rcases List.mem_append.mp member with earlier | now
  · exact first opening answered segment earlier
  · have now := Option.mem_toList.mp now
    have step := view.near.opening_step (far opening answered) moved
    generalize e'.ctx = ctx' at step
    cases step with
    | sendSyn =>
        cases now
        exact isn
    | connect state =>
        refine absurd (near state ?_) answered
        rw [incoming]
        exact List.cons_ne_nil _ _
    | accept =>
        cases now
        exact isn
    | accepted => cases now
    | overread => cases now

private theorem peer_step (unanswered : Unanswered link.swap) (view : View link)
    (incoming : link.inc = taken.toList ++ inc) (moved : ThreadStep link.self taken sent e') :
    Unanswered
      { self := link.peer, peer := e', out := inc, inc := link.out ++ sent.toList } := by
  refine ⟨unanswered.isn, fun opening answered segment member => ?_⟩
  have before : link.self.ctx.Opening ∧ link.self.ctx.connectionState ≠ .synRcvd := by
    have openingBefore : link.self.ctx.Opening := by
      by_contra running
      exact view.near.stays_open running moved opening
    refine ⟨openingBefore, fun state => ?_⟩
    have step := view.near.opening_step openingBefore moved
    simp only at opening answered
    obtain ⟨_, ⟨_, _, established⟩ | ⟨_, same⟩⟩ := step.of_synRcvd state
    · rw [established] at opening
      exact Context.establish_not_opening _ _ opening
    · rw [same] at answered
      exact answered state
  refine unanswered.first before.1 before.2 segment ?_
  simp only [Link.swap, incoming]
  exact List.mem_append_right _ member

end Unanswered

theorem unanswered_of_run {guard : System → Action → Prop} {labels : List Action} {s : System}
    (run : ReliableRun guard labels s) (side : Side) : Unanswered (s.link side) := by
  induction run generalizing side with
  | refl => cases side <;> exact ⟨rfl, by simp [System.link, System.init, System.inFlight,
      Endpoint.init, MysockContext.init]⟩
  | @snoc s t labels action before admitted stepped inductionHypothesis =>
      refine links_preserved inductionHypothesis stepped ?_ side
      intro actor link own other moved
      have view := Protocol.view_of_run before actor
      cases moved with
      | thread moved incoming =>
          refine ⟨own.self_step view (fun opening answered => ?_) (fun state waiting => ?_)
            incoming moved, other.peer_step view incoming moved⟩
          · have peerSide := Protocol.unanswered_of_run before actor.peer opening answered
            rw [System.link_peer] at peerSide
            exact peerSide.1
          · have notAnswered : (s.link actor).self.ctx.connectionState ≠ .synRcvd := by
              rw [state]
              decide
            rcases (Protocol.unanswered_of_run before actor (Context.opening_of_synSent state)
              notAnswered).2 with empty | ⟨far, _⟩
            · exact absurd empty waiting
            · exact far state
      | receive packet => exact ⟨⟨own.isn, own.first⟩, ⟨other.isn, other.first⟩⟩
      | app called =>
          refine ⟨⟨?_, own.first⟩, ⟨other.isn, ?_⟩⟩
          · rw [called.ctx]
            exact own.isn
          · simp only [Link.swap, called.ctx]
            exact other.first

/-! ### The acknowledgements -/

/-- Acknowledgement numbers name the next byte exactly in the answers to data segments and FINs: the
number of the first data segment or FIN that the peer sends after the segment answered, if it ever
sends one. -/
theorem ack_names_next_byte {labels later : List Action} {s t : System} {side : Side} {rand : Nat}
    {overread : Bool} {packet answer next : Segment} (run : ReliableRun anyStep labels s)
    (stepped : System.step true s (.thread side rand overread) = some t)
    (takes : s.inFlight side.peer = packet :: t.inFlight side.peer)
    (answers : s.sends side (.thread side rand overread) = some answer)
    (follows : (t.inFlight side.peer ++ sentBy side.peer t later).find?
      (fun segment => segment.Counts) = some next) :
    answer.thAck = next.thSeq ↔ ¬packet.IsSyn := by
  have view := Protocol.view_of_run run side
  have after : ReliableRun anyStep _ t := .snoc run trivial stepped
  obtain ⟨taken, moved, incoming⟩ := thread_of_sends stepped
  have taken_eq : taken = some packet := by
    rw [show (s.link side).inc = packet :: (t.link side).inc from takes] at incoming
    cases taken with
    | none =>
        have size := congrArg List.length incoming
        simp at size
    | some other =>
        obtain ⟨rfl, _⟩ := List.cons.inj incoming
        rfl
  subst taken_eq
  rw [answers] at moved
  have peerSame : t.endpoint side.peer = s.endpoint side.peer :=
    (step_link_thread stepped).peer_eq
  rw [List.find?_append] at follows
  rcases view.answer incoming moved with ⟨opening, isSyn⟩ | ⟨_, counts, thAck⟩
  · -- the answer to a SYN
    have packetSyn := ((view.opening opening).1 packet _ incoming).1
    simp only [packetSyn, not_true_eq_false, iff_false]
    obtain ⟨notAnswered, thAck⟩ : (s.endpoint side).ctx.connectionState ≠ .synRcvd ∧
        answer.thAck = trunc32 (packet.thSeq + 1) := by
      have step := view.near.opening_step opening moved
      have self : (s.link side).self = s.endpoint side := rfl
      generalize (t.endpoint side).ctx = ctx' at step
      cases step with
      | connect state => exact ⟨by simp [← self, state], rfl⟩
      | accept state => exact ⟨by simp [← self, state], rfl⟩
    obtain ⟨peerOpening, empty | ⟨_, single, inc⟩⟩ :=
      Protocol.unanswered_of_run run side opening notAnswered
    · rw [empty] at incoming
      cases incoming
    · have nothing : t.inFlight side.peer = [] := by
        rw [inc] at incoming
        exact (List.cons.inj incoming).2.symm
      have ⟨isn, first⟩ := unanswered_of_run run side.peer
      have selfOf : (s.link side.peer).peer = s.endpoint side := by
        simp [System.link]
      rw [selfOf] at first
      have thSeq := first opening notAnswered packet (by
        show packet ∈ s.inFlight side.peer
        rw [takes]
        exact List.mem_cons_self)
      simp only [nothing, List.find?_nil, Option.none_or] at follows
      have isn : (s.endpoint side.peer).ctx.initialSequenceNum = 1 := isn
      have peerOpening : (s.endpoint side.peer).ctx.Opening := peerOpening
      rw [thAck, thSeq, upcoming_of_sentBy after follows, peerSame,
        Context.upcoming_opening peerOpening, isn]
      decide +kernel
  · -- the answer to a data segment or a FIN
    have notSyn : ¬packet.IsSyn := by
      intro isSyn
      rcases counts with isData | isFin
      · exact isSyn.not_isData isData
      · exact isSyn.not_isFin isFin
    simp only [notSyn, not_false_eq_true, iff_true]
    obtain ⟨base, sequenced, top⟩ := (consecutive_of_run run side.peer).consecutive
    have out : (s.link side.peer).out = packet :: t.inFlight side.peer := takes
    rw [out] at sequenced top
    obtain ⟨numbered, rest⟩ := sequenced
    rw [thAck, numbered counts, trunc32_add_trunc32]
    cases now : (t.inFlight side.peer).find? (fun segment => segment.Counts) with
    | some segment =>
        rw [now] at follows
        cases follows
        exact (rest.first now).symm
    | none =>
        rw [now, Option.none_or] at follows
        rw [upcoming_of_sentBy after follows, peerSame]
        rw [span_cons, span_of_no_counts now] at top
        exact top

/-- The client writes one byte, and the server's acknowledgement of it carries the number of the
FIN that the client sends next. -/
theorem ack_names_next_byte_fin : ∃ answer next : Segment,
    answer.IsAck ∧ next.IsFin ∧ answer.thAck = next.thSeq := by
  let schedule := handshakeSchedule ++ [Action.write .client [7]] ++ iteration .client ++
    [Action.deliver .client, .move .server, .move .server]
  let packet : Segment := ⟨1, 0, 5, 0x00, 3072, [7]⟩
  let answer : Segment := ⟨2, 2, 0, TH_ACK, 0, []⟩
  let next : Segment := ⟨2, 0, 0, TH_FIN, 3072, []⟩
  let later := [.close .client] ++ iteration .client
  have reached : ∃ s, ReliableRun anyStep schedule s ∧
      s.inFlight .client = [packet] ∧ s.sends .server (.move .server) = some answer ∧
        (System.step true s (.move .server)).any (fun t =>
          decide (t.inFlight .client = [] ∧ sentBy .client t later = [next])) = true :=
    exec_reaches _ (by decide +kernel)
  obtain ⟨s, run, takes, answers, steps⟩ := reached
  obtain ⟨t, stepped, after⟩ := (Option.any_eq_true _ _).mp steps
  obtain ⟨nothing, sent⟩ := of_decide_eq_true after
  have follows : (t.inFlight .client ++ sentBy .client t later).find?
      (fun segment => segment.Counts) = some next := by
    rw [nothing, sent]
    rfl
  exact ⟨answer, next, rfl, rfl, (ack_names_next_byte run stepped
    (by rw [Side.peer, nothing]; exact takes) answers follows).mpr (by decide)⟩

/-- The SYN-ACK acknowledges 2, and the first data segment of the client carries 1. -/
theorem syn_ack_names_second_byte : ∃ (labels later : List Action) (s t : System)
    (packet answer next : Segment), ReliableRun anyStep labels s ∧
      System.step true s (.move .server) = some t ∧ packet.IsSyn ∧
      s.inFlight .client = packet :: t.inFlight .client ∧
      s.sends .server (.move .server) = some answer ∧
      (t.inFlight .client ++ sentBy .client t later).find? (fun segment => segment.Counts) =
        some next ∧
      answer.thAck = 2 ∧ next.thSeq = 1 := by
  let later := [.deliver .server, .move .client, .write .client [7]] ++ iteration .client
  let packet : Segment := ⟨1, 0, 5, TH_SYN, 3072, []⟩
  have reached : ∃ s, ReliableRun anyStep [.move .client, .deliver .client] s ∧
      s.inFlight .client = [packet] ∧
        (System.step true s (.move .server)).any (fun t =>
          decide (t.inFlight .client = [] ∧
            (s.sends .server (.move .server)).map (fun answer => answer.thAck) = some 2 ∧
            ((sentBy .client t later).find? (fun segment => segment.Counts)).map
              (fun next => next.thSeq) = some 1)) = true :=
    exec_reaches _ (by decide +kernel)
  obtain ⟨s, run, takes, steps⟩ := reached
  obtain ⟨t, stepped, after⟩ := (Option.any_eq_true _ _).mp steps
  obtain ⟨nothing, answers, follows⟩ := of_decide_eq_true after
  obtain ⟨answer, answers, thAck⟩ := Option.map_eq_some_iff.mp answers
  obtain ⟨next, follows, thSeq⟩ := Option.map_eq_some_iff.mp follows
  refine ⟨_, later, s, t, packet, answer, next, run, stepped, rfl, ?_, answers, ?_, thAck, thSeq⟩
  · rw [nothing]
    exact takes
  · rw [nothing]
    exact follows

end EE323.Stcp

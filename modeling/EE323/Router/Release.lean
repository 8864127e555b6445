/-
Module: EE323.Router.Release
Purpose: What an ARP reply releases.  No frame of the router is refused by `sr_send_packet`, so the
  frames written to the server are the frames handed over, and a reply that is accepted writes the
  packets of the request for its sender and leaves every other request alone.
Main exports: Transmitted, all_written, released_keeps, reply_releases
-/
import EE323.Router.Waiting

namespace EE323.Router

open EE323.Lib

variable {net : Network} {Received : List Byte → Prop} {depth : Nat} {sr next : Instance}

/-! ### Frames that are written -/

/-- `sr_send_packet` writes the frame. -/
def Accepted (net : Network) (frame : Packet) : Prop :=
  14 ≤ frame.buf.length ∧ srEtherAddrsMatchInterface net frame = true

instance (net : Network) (frame : Packet) : Decidable (Accepted net frame) :=
  inferInstanceAs (Decidable (_ ∧ _))

/-- Of the frames handed over, those that are accepted were written. -/
def Transmitted (net : Network) (sr : Instance) : Prop :=
  sr.written = sr.handed.filter fun frame => Accepted net frame

theorem Transmitted.send {frame : Packet} (before : Transmitted net sr) :
    Transmitted net (srSendPacket net frame sr) := by
  unfold Transmitted at before ⊢
  unfold srSendPacket
  dsimp only
  split
  · rename_i short
    have refused : ¬Accepted net frame := fun accepted => absurd accepted.1 (Nat.not_le_of_lt short)
    simp [before, refused]
  · rename_i long
    split
    · rename_i same
      have accepted : Accepted net frame := ⟨Nat.le_of_not_lt long, same⟩
      simp [before, accepted]
    · rename_i other
      have refused : ¬Accepted net frame := fun accepted => other accepted.2
      simp [before, refused]

theorem Transmitted.of_same (before : Transmitted net sr) (written : next.written = sr.written)
    (handed : next.handed = sr.handed) : Transmitted net next := by
  unfold Transmitted at before ⊢
  rw [written, handed, before]

theorem releasePackets_transmitted {mac : Mac} {packets : List Packet}
    (before : Transmitted net sr) (returned : releasePackets net mac packets sr = .ok next) :
    Transmitted net next := by
  induction packets generalizing sr with
  | nil =>
      cases returned
      exact before
  | cons walk rest inductionHypothesis =>
      have returned := releasePackets_cons returned
      exact inductionHypothesis before.send returned

theorem srArpcacheQueuereq_written (ip : IpAddr) (packet : Packet) (sr : Instance) :
    (srArpcacheQueuereq ip packet sr).2.written = sr.written ∧
      (srArpcacheQueuereq ip packet sr).2.handed = sr.handed := by
  unfold srArpcacheQueuereq
  dsimp only
  split
  · exact ⟨rfl, rfl⟩
  · exact ⟨rfl, rfl⟩

theorem Change.transmitted (change : Change net Received sr next) (before : Transmitted net sr) :
    Transmitted net next := by
  cases change with
  | send mac path => exact before.send
  | queue path =>
      obtain ⟨written, handed⟩ := srArpcacheQueuereq_written _ _ sr
      exact before.of_same written handed
  | request pending returned =>
      obtain ⟨head, ifc, rtentry, _, _, _, rfl⟩ := sendArpRequest_eq returned
      exact (Transmitted.send before).of_same rfl rfl
  | destroy => exact before.of_same rfl rfl
  | reply leads => exact before.send
  | learn mac ip unasked => exact before.of_same rfl rfl
  | release found returned =>
      rename_i req mac ip
      have inserted : Transmitted net (srArpcacheInsert mac ip sr).2 := before.of_same rfl rfl
      exact releasePackets_transmitted inserted returned
  | timeout entries => exact before.of_same rfl rfl
  | clock now => exact before.of_same rfl rfl

theorem Changes.transmitted (changes : Changes net Received sr next)
    (before : Transmitted net sr) : Transmitted net next := by
  induction changes with
  | refl => exact before
  | tail _ change inductionHypothesis => exact change.transmitted inductionHypothesis

/-- Every packet and every frame has an Ethernet header. -/
theorem framed (net : Network) : Contract net (fun _ => True)
    (fun _ packet => 14 ≤ packet.buf.length) (fun frame => 14 ≤ frame.buf.length) where
  forward := by
    intro packet rtentry ifc forwarded
    obtain ⟨_, _, long, _⟩ := forwarded.checked
    simp only [Passes, length_decrementTtl, length_setDhost, length_setShost]
    exact ⟨by omega, fun _ => by omega⟩
  echo := by
    intro packet rtentry ifc _ long _
    simp only [Passes, id, length_setDhost, length_setShost, length_echoReply]
    exact ⟨by omega, fun _ => by omega⟩
  error := by
    intro packet rtentry ifc type code trailing origin _ _ source _
    simp only [Passes, id, length_setDhost, length_icmpError]
    exact ⟨by omega, fun _ => by omega⟩
  request := by
    intro ip head rtentry ifc _ _ _ _ _
    unfold arpRequestFor
    rw [length_arpFrame _ _ _ _ _ _ _ rfl]
    decide
  reply := by
    intro packet rtentry ifc _
    rw [length_arpFrame _ _ _ _ _ _ _ rfl]
    decide
  releaseEdited := by
    intro ip walk mac long
    simpa using long
  releaseUnedited := by
    intro ip walk mac long _
    simpa using long

/-- In every run each frame handed to `sr_send_packet` is written. -/
theorem all_written {now : Nat} {events : List Event}
    (run : Run (step net depth) anyStep (srArpcacheInit now) events sr) :
    sr.written = sr.handed := by
  have long := (Inv.of_any_run (framed net) run).sent
  have own := (Inv.of_any_run (nextHop net) run).sent
  have transmitted : Transmitted net sr := by
    apply Changes.transmitted (changes_of_run run)
    simp [Transmitted, srArpcacheInit]
  rw [transmitted, List.filter_eq_self]
  intro frame member
  exact decide_eq_true ⟨long frame member, (own frame member).accepted⟩

/-! ### Replies -/

/-- A released packet leaves by its interface for the address of the reply, and of its IP header
only the time to live and the checksum may differ. -/
theorem released_keeps {walk : Packet} (mac : Mac) (long : 14 ≤ walk.buf.length) :
    (released mac walk).iface = walk.iface ∧
      (released mac walk).origin = walk.origin ∧
      (released mac walk).buf.length = walk.buf.length ∧
      field (released mac walk).buf 0 6 = mac.val ∧
      ∀ offset count, 6 ≤ offset →
        offset + count ≤ 22 ∨ 23 ≤ offset ∧ offset + count ≤ 24 ∨ 26 ≤ offset →
        field (released mac walk).buf offset count = field walk.buf offset count := by
  have dhost : field (setDhost walk.buf mac) 0 6 = mac.val := by
    have same := @field_patch_same walk.buf mac.val 0 (by simp; omega)
    rw [Mac.length_val] at same
    exact same
  unfold released
  dsimp only
  split
  · refine ⟨rfl, rfl, by simp, ?_, ?_⟩
    · rw [field_decrementTtl _ (by decide), dhost]
    · intro offset count after apart
      rw [field_decrementTtl _ apart, field_setDhost _ _ _ after]
  · refine ⟨rfl, rfl, by simp, dhost, ?_⟩
    intro offset count after _
    exact field_setDhost _ _ _ after

/-- An ARP reply that the router accepts writes the packets that wait for its sender, each once, by
the interface it waited for and to the address of the reply, and removes their request; the other
requests stay as they are.  When nothing waits for the sender, nothing is written and no request
changes. -/
theorem reply_releases {now : Nat} {events : List Event} {reply : List Byte} {owner own : IpAddr}
    (run : Run (step net depth) anyStep (srArpcacheInit now) events sr)
    (isReply : IsArpReply reply owner own) (accepts : Accepts net own) :
    ∃ done, react net depth sr (.frame reply) = .ok done ∧
      (∀ req ∈ sr.requests, req.ip = owner →
        done.written = sr.written ++ req.packets.map (released (arSha reply)) ∧
        (∀ walk ∈ req.packets, (released (arSha reply) walk).iface = walk.iface ∧
          field (released (arSha reply) walk).buf 0 6 = (arSha reply).val ∧
          ∀ offset count, 6 ≤ offset →
            offset + count ≤ 22 ∨ 23 ≤ offset ∧ offset + count ≤ 24 ∨ 26 ≤ offset →
            field (released (arSha reply) walk).buf offset count = field walk.buf offset count) ∧
        done.requests = sr.requests.filter fun other => other.ip ≠ owner) ∧
      ((∀ req ∈ sr.requests, req.ip ≠ owner) →
        done.written = sr.written ∧ done.requests = sr.requests) := by
  have moment := Moment.of_run run
  cases search : sr.requests.find? fun req => req.ip = owner with
  | some req =>
      have pending := List.mem_of_find?_eq_some search
      have reqIp : req.ip = owner := by simpa using List.find?_some search
      subst reqIp
      obtain ⟨done, returned, handed, requests, _⟩ := moment.react_answer pending isReply accepts
      have written : done.written = done.handed :=
        all_written (.snoc run trivial (step_eq_some.mpr returned))
      refine ⟨done, returned, ?_, fun none => absurd rfl (none req pending)⟩
      intro other otherPending otherIp
      rw [moment.inv.unique pending otherPending otherIp]
      refine ⟨?_, ?_, ?_⟩
      · rw [written, handed, all_written run]
      · intro walk waits
        have long := (Inv.of_any_run (framed net) run).queued req pending walk waits
        obtain ⟨iface, _, _, dhost, rest⟩ := released_keeps (arSha reply) long
        exact ⟨iface, dhost, rest⟩
      · rw [requests]
        exact eraseP_eq_filter moment.inv.distinct
  | none =>
      have unasked : ∀ req ∈ sr.requests, req.ip ≠ owner := by
        intro req pending sameIp
        exact List.find?_eq_none.mp search req pending (by simpa using sameIp)
      refine ⟨(srArpcacheInsert (arSha reply) owner sr).2, ?_, ?_, fun _ => ⟨rfl, ?_⟩⟩
      · rw [react_reply isReply accepts]
        unfold srArpcacheInsert
        dsimp only
        rw [search]
      · exact fun req pending sameIp => absurd sameIp (unasked req pending)
      · apply List.eraseP_of_forall_not
        intro req pending
        simpa using unasked req pending

/-- The reply of the second application server writes the packet that waits for it. -/
theorem reply_releases_lab : ∃ sr,
    Run (step labNetwork 4) anyStep (srArpcacheInit 5) [.frame (labPacket 64)] sr ∧
    (∃ req ∈ sr.requests, req.ip = 0xAC40030A ∧ req.packets ≠ []) ∧
    ∃ done, react labNetwork 4 sr (.frame labReply) = .ok done ∧
      (∀ req ∈ sr.requests, req.ip = 0xAC40030A →
        done.written = sr.written ++ req.packets.map (released (arSha labReply)) ∧
        (∀ walk ∈ req.packets, (released (arSha labReply) walk).iface = walk.iface ∧
          field (released (arSha labReply) walk).buf 0 6 = (arSha labReply).val ∧
          ∀ offset count, 6 ≤ offset →
            offset + count ≤ 22 ∨ 23 ≤ offset ∧ offset + count ≤ 24 ∨ 26 ≤ offset →
            field (released (arSha labReply) walk).buf offset count =
              field walk.buf offset count) ∧
        done.requests = sr.requests.filter fun other => other.ip ≠ 0xAC40030A) ∧
      ((∀ req ∈ sr.requests, req.ip ≠ 0xAC40030A) →
        done.written = sr.written ∧ done.requests = sr.requests) := by
  have reached : ∃ sr,
      Run (step labNetwork 4) anyStep (srArpcacheInit 5) [.frame (labPacket 64)] sr ∧
      ∃ req ∈ sr.requests, req.ip = 0xAC40030A ∧ req.packets ≠ [] :=
    exec_reaches _ (by decide +kernel)
  obtain ⟨sr, run, waits⟩ := reached
  exact ⟨sr, run, waits, reply_releases run labReply_isArpReply lab_accepts⟩

end EE323.Router

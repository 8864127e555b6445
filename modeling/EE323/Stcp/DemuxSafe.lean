/-
Module: EE323.Stcp.DemuxSafe
Purpose: Over every run of the application, the receive threads and the transport threads, the
  descriptor table and the queues of connection requests stay sound.  It is stated which calls have
  to wait, which assertions can fail, and which `myclose` never returns.
Main exports: Orderly, perform_spec, sound_run, demux_safe, close_deadlock, demux_queues
-/
import EE323.Stcp.DemuxCalls

namespace EE323.Stcp.Demux

open EE323.Lib

/-- What the context of a descriptor meets. -/
def WithContext (s : State) (sd : Int) (meets : Context → Prop) : Prop :=
  match s.globalCtx sd with
  | some ctx => meets ctx
  | none => False

instance (s : State) (sd : Int) (meets : Context → Prop) [DecidablePred meets] :
    Decidable (WithContext s sd meets) :=
  match found : s.globalCtx sd with
  | some ctx => decidable_of_iff (meets ctx) (by simp [WithContext, found])
  | none => .isFalse (by simp [WithContext, found])

theorem withContext_iff {s : State} {sd : Int} {meets : Context → Prop} :
    WithContext s sd meets ↔ ∃ ctx, s.globalCtx sd = some ctx ∧ meets ctx := by
  unfold WithContext
  cases s.globalCtx sd <;> simp

/-- The queues of a state, as a lookup in the table finds them: a mysocket that is being closed has
none any more. -/
def queuesOf (s : State) : Queues := fun sd =>
  if s.closing.map Closing.listener = some sd then none
  else (HashTable.bindings listenTable s.listenQueues sd).head?

theorem Views.queuesOf_eq_some {s : State} {queues : Queues} (views : Views s queues) {sd : Int}
    {q : ListenQueue} :
    queuesOf s sd = some q ↔ s.closing.map Closing.listener ≠ some sd ∧ queues sd = some q := by
  obtain ⟨table, maps, seen⟩ := views
  rw [queuesOf, maps sd, Option.head?_toList]
  cases closing : s.closing with
  | none =>
      rw [closing] at seen
      simp [show queues = table from seen]
  | some c =>
      rw [closing] at seen
      by_cases here : c.listener = sd
      · simp [here]
      · have other : queues sd = table sd := by
          rw [seen.2, Function.update_of_ne (Ne.symm here)]
        simp [here, other]

/-- The application was given the descriptor: no listening mysocket has it queued, and none that is
being closed has it left to close. -/
def Owned (s : State) (sd : Int) : Prop :=
  (∀ n < 64, ∀ q ∈ queuesOf s (Int.ofNat n), ∀ k < q.maxLen, (q.connectionQueue k).sd ≠ sd) ∧
    ∀ c ∈ s.closing, ∀ k ∈ c.entries, (c.queue.connectionQueue k).sd ≠ sd

instance (s : State) (sd : Int) : Decidable (Owned s sd) :=
  inferInstanceAs (Decidable ((∀ n < 64, ∀ q ∈ queuesOf s (Int.ofNat n), ∀ k < q.maxLen, _) ∧
    ∀ c ∈ s.closing, ∀ k ∈ c.entries, _))

/-- How the threads use the calls.  The application binds and listens on mysockets of its own that
are not connected, listens once on each, and closes what it was given; a transport thread releases
its application once and returns once; a receive thread polls, and reads after that; the kernel
reports the addresses of the connections it accepts; and what goes on has waited. -/
def Orderly (s : State) : Action → Prop
  | .mysocket _ _ => True
  | .mybind sd => WithContext s sd fun ctx => ctx.listening = false
  | .mylisten sd _ localPort _ => 0 < localPort ∧ WithContext s sd fun ctx =>
      ctx.bound = true ∧ ctx.listening = false ∧ ctx.transportThreadStarted = false
  | .poll sd _ peer => IsPeer peer ∧ WithContext s sd fun ctx => ctx.receiver = .polling
  | .receive sd _ _ => WithContext s sd fun ctx => ctx.receiver = .reading
  | .unblock sd _ => WithContext s sd fun ctx =>
      ctx.transportThreadStarted = true ∧ ctx.blocking = true
  | .finish sd _ => WithContext s sd fun ctx =>
      ctx.transportThreadStarted = true ∧ ctx.transportReturned = false
  | .myaccept sd => WithContext s sd fun _ => True
  | .resume sd => sd ∈ s.accepting
  | .myclose sd => (WithContext s sd fun _ => True) ∧ Owned s sd
  | .goOn => s.closing.isSome

instance (s : State) : (action : Action) → Decidable (Orderly s action)
  | .mysocket _ _ => inferInstanceAs (Decidable True)
  | .mybind _ => inferInstanceAs (Decidable (WithContext ..))
  | .mylisten _ _ _ _ => inferInstanceAs (Decidable (_ ∧ WithContext ..))
  | .poll _ _ _ => inferInstanceAs (Decidable (_ ∧ WithContext ..))
  | .receive _ _ _ => inferInstanceAs (Decidable (WithContext ..))
  | .unblock _ _ => inferInstanceAs (Decidable (WithContext ..))
  | .finish _ _ => inferInstanceAs (Decidable (WithContext ..))
  | .myaccept _ => inferInstanceAs (Decidable (WithContext ..))
  | .resume _ => inferInstanceAs (Decidable (_ ∈ _))
  | .myclose _ => inferInstanceAs (Decidable (WithContext .. ∧ Owned ..))
  | .goOn => inferInstanceAs (Decidable (_ = true))

theorem Owned.unqueued {s : State} {queues : Queues} {sd : Int} (views : Views s queues)
    (sound : Sound s.globalCtx queues) (parked : Parked (s.view queues)) (owned : Owned s sd) :
    Unqueued queues sd := by
  intro listener q hasQueue k isUsed
  by_cases here : s.closing.map Closing.listener = some listener
  · obtain ⟨c, closing, rfl⟩ := Option.map_eq_some_iff.mp here
    have left : queues c.listener = some (remaining c.queue c.entries) :=
      (parked.closes c closing).hasQueue
    cases hasQueue.symm.trans left
    rw [used_remaining, Finset.mem_filter] at isUsed
    rw [connectionQueue_remaining c.queue isUsed.2]
    exact owned.2 c closing k isUsed.2
  · obtain ⟨ctx, found, _⟩ := sound.listener listener q hasQueue
    obtain ⟨nonnegative, below, _⟩ := sound.placed listener ctx found
    obtain ⟨n, rfl⟩ := Int.eq_ofNat_of_zero_le nonnegative
    have below : (n : Int) < 64 := below
    exact owned.1 n (by omega) q (views.queuesOf_eq_some.mpr ⟨here, hasQueue⟩) k
      (ListenQueue.mem_used.mp isUsed).1

theorem perform_spec {s : State} {queues : Queues} {action : Action} (views : Views s queues)
    (sound : Sound s.globalCtx queues) (parked : Parked (s.view queues))
    (orderly : Orderly s action) : MeetsSpec s queues action := by
  cases action with
  | mysocket isReliable socket => exact mysocket_spec views isReliable socket
  | mybind sd =>
      obtain ⟨ctx, found, silent⟩ := withContext_iff.mp orderly
      exact mybind_spec views sound found silent
  | mylisten sd backlog localPort listens =>
      obtain ⟨ctx, found, isBound, silent, unstarted⟩ := withContext_iff.mp orderly.2
      exact mylisten_spec views sound found isBound silent unstarted backlog orderly.1 listens
  | poll sd connection peer =>
      obtain ⟨ctx, found, polls⟩ := withContext_iff.mp orderly.2
      exact poll_spec views found polls orderly.1 connection
  | receive sd packet socket =>
      obtain ⟨ctx, found, reads⟩ := withContext_iff.mp orderly
      exact receive_spec views sound found reads packet socket
  | unblock sd errno =>
      obtain ⟨ctx, found, started, blocking⟩ := withContext_iff.mp orderly
      exact unblock_spec views sound found started blocking errno
  | finish sd errno =>
      obtain ⟨ctx, found, started, _⟩ := withContext_iff.mp orderly
      exact finish_spec views sound found started errno
  | myaccept sd =>
      obtain ⟨ctx, found, _⟩ := withContext_iff.mp orderly
      exact myaccept_spec views sound found
  | resume sd => exact resume_spec views sound parked orderly
  | myclose sd =>
      obtain ⟨ctx, found, _⟩ := withContext_iff.mp orderly.1
      exact myclose_spec views sound parked found (orderly.2.unqueued views sound parked)
  | goOn => exact goOn_spec views sound parked orderly

/-- What every state reached is: the table of queues is a finite map, contexts and queues are sound,
and the calls that wait have what they wait for. -/
def SoundState (s : State) : Prop :=
  ∃ queues, Views s queues ∧ Sound s.globalCtx queues ∧ Parked (s.view queues)

/-- A step that is taken has its effect. -/
theorem effect_of_step {s t : State} {queues : Queues} {action : Action} (views : Views s queues)
    (sound : Sound s.globalCtx queues) (parked : Parked (s.view queues))
    (orderly : Orderly s action) (stepped : step s action = some t) :
    ∃ taken isQueued queues', Views t queues' ∧
      Effect (s.view queues) action taken isQueued (t.view queues') := by
  have meets := perform_spec views sound parked orderly
  rw [step] at stepped
  cases performed : perform s action with
  | error fault =>
      rw [performed] at stepped
      cases stepped
  | ok outcome =>
      rw [performed] at stepped
      cases stepped
      rw [MeetsSpec, performed] at meets
      obtain ⟨queues', views', effect⟩ := meets.post_of_ok
      exact ⟨_, _, queues', views', effect⟩

/-- A step keeps a sound state sound. -/
theorem sound_step {s t : State} {action : Action} (isSound : SoundState s)
    (orderly : Orderly s action) (stepped : step s action = some t) : SoundState t := by
  obtain ⟨queues, views, sound, parked⟩ := isSound
  obtain ⟨_, _, queues', views', effect⟩ := effect_of_step views sound parked orderly stepped
  exact ⟨queues', views', effect.sound parked sound, effect.parked parked sound⟩

theorem sound_init :
    Sound State.init.globalCtx (fun _ => none) ∧ Parked (State.init.view fun _ => none) := by
  refine ⟨?_, ?_⟩ <;> constructor <;> simp [State.init, State.view]

/-- Every state reached is sound. -/
theorem sound_run {labels : List Action} {s : State}
    (run : Run step Orderly State.init labels s) : SoundState s := by
  refine run.invariant ?_ sound_step
  exact ⟨fun _ => none, .of_maps rfl fun _ => rfl, sound_init⟩

theorem Waits.unbroken {s : State} {action : Action} (waits : Waits s action) :
    ¬Breaks s action := by
  intro breaks
  cases waits with
  | dispatch _ _ _ fits =>
      cases breaks with
      | packet tooLong => exact absurd fits (Nat.not_le.mpr tooLong)
  | release releases => cases releases <;> cases breaks
  | listen | accept | close | closeListening => cases breaks

/-- A `myclose` of a listening mysocket finds a connection with a busy thread among those that it
has to close. -/
inductive Lingers (s : State) : Action → Prop where
  | call {sd : Int} {q : ListenQueue} {k : Nat} {child : Context}
      (hasQueue : queuesOf s sd = some q) (isUsed : k ∈ q.used)
      (found : s.globalCtx (q.connectionQueue k).sd = some child) (busy : child.Busy) :
      Lingers s (.myclose sd)
  | again {c : Closing} {k : Nat} {child : Context} (closing : s.closing = some c)
      (isLeft : k ∈ c.entries) (found : s.globalCtx (c.queue.connectionQueue k).sd = some child)
      (busy : child.Busy) : Lingers s .goOn

section Waiting

variable {s : State} {queues : Queues} {action : Action}

/-- The `myclose` that comes to its loop lingers as long as one of its entries does. -/
theorem Closes.lingers_iff {ctx : Context} {q : ListenQueue} {c : Closing}
    (closes : Closes (s.view queues) action ctx q c) (views : Views s queues)
    (sound : Sound s.globalCtx queues) (parked : Parked (s.view queues)) :
    Lingers s action ↔ ∃ k ∈ c.entries, k ∈ q.used ∧ ∃ child,
      s.globalCtx (q.connectionQueue k).sd = some child ∧ child.Busy := by
  constructor
  · intro lingers
    cases closes with
    | call free found idle hasQueue =>
        cases lingers with
        | call hasQueue' isUsed childFound busy =>
            cases hasQueue.symm.trans (views.queuesOf_eq_some.mp hasQueue').2
            exact ⟨_, List.mem_range.mpr (ListenQueue.mem_used.mp isUsed).1, isUsed, _, childFound,
              busy⟩
    | again closing found =>
        cases lingers with
        | @again _ k child closing' isLeft childFound busy =>
            cases closing.symm.trans closing'
            refine ⟨k, isLeft, ?_, child, ?_, busy⟩
            · rw [used_remaining, Finset.mem_filter]
              refine ⟨ListenQueue.mem_used.mpr ⟨(parked.closes c closing).inside k isLeft, ?_⟩,
                isLeft⟩
              have nonnegative := (sound.placed _ child childFound).1
              omega
            · rw [connectionQueue_remaining c.queue isLeft]
              exact childFound
  · rintro ⟨k, inEntries, isUsed, child, childFound, busy⟩
    cases closes with
    | call free found idle hasQueue =>
        refine .call (views.queuesOf_eq_some.mpr ⟨?_, hasQueue⟩) isUsed childFound busy
        simp [show s.closing = none from free.2]
    | again closing found =>
        rw [connectionQueue_remaining c.queue inEntries] at childFound
        exact .again closing inEntries childFound busy

/-- After a call, a `myclose` waits if it did before, or if the call is one that lingers. -/
theorem Effect.closing_iff {taken : Option Context} {isQueued : Bool} {v' : View}
    (effect : Effect (s.view queues) action taken isQueued v') (views : Views s queues)
    (sound : Sound s.globalCtx queues) (parked : Parked (s.view queues)) :
    v'.closing.isSome ↔ Lingers s action ∨ s.closing.isSome ∧ action ≠ .goOn := by
  have same : ¬Lingers s action → action ≠ .goOn →
      (s.closing.isSome ↔ Lingers s action ∨ s.closing.isSome ∧ action ≠ .goOn) := by
    intro returns isCall
    simp [returns, isCall]
  have begins : ∀ {ctx q c}, Closes (s.view queues) action ctx q c →
      ¬(s.closing.isSome ∧ action ≠ .goOn) := by
    rintro ctx q c closes ⟨holds, isCall⟩
    cases closes with
    | call free => simp [show s.closing = none from free.2] at holds
    | again => exact isCall rfl
  cases effect with
  | closed _ _ _ noQueue =>
      refine same (fun lingers => ?_) nofun
      cases lingers with
      | call hasQueue => cases noQueue.symm.trans (views.queuesOf_eq_some.mp hasQueue).2
  | closeWaits closes split isUsed found busy =>
      refine ⟨fun _ => .inl ((closes.lingers_iff views sound parked).mpr ?_), fun _ => rfl⟩
      exact ⟨_, split ▸ List.mem_append_right _ List.mem_cons_self, isUsed, _, found, busy⟩
  | closedPassive closes idle =>
      refine ⟨nofun, fun either => ?_⟩
      rcases either with lingers | waits
      · obtain ⟨k, inEntries, isUsed, child, found, busy⟩ :=
          (closes.lingers_iff views sound parked).mp lingers
        exact absurd busy (idle k inEntries isUsed child found)
      · exact absurd waits (begins closes)
  | completed _ releases => cases releases <;> exact same nofun nofun
  | waiting enters => cases enters <;> exact same nofun nofun
  | accepted enters => cases enters <;> exact same nofun nofun
  | tableFull | allocated | bound | listening | acceptFailed | arrived | readable | ended | dropped
  | queued | enqueued | finished | notListening => exact same nofun nofun

end Waiting

/-- In every run, the next call has to wait before it begins exactly in these cases: it needs
`listen_lock` while a `myaccept` that waits holds it (a `mylisten`, or the `myclose` of a listening
mysocket) or a `myclose` that waits does (these, a `myaccept`, a packet for a listening mysocket,
and the release of an application), or it is a `myclose` while a thread of the mysocket is busy.  A
`myclose` of a listening mysocket waits behind that while a thread of one of its queued connections
is busy.  A call fails an assertion exactly where a receive thread accepts a connection although it
holds one that no context took, or gets a packet longer than its buffer.  No stale pointer is
followed, and every other call returns. -/
theorem demux_safe {labels : List Action} {s : State}
    (run : Run step Orderly State.init labels s) {action : Action} (orderly : Orderly s action) :
    (faultOf (perform s action) = some .blocks ↔ Waits s action) ∧
      (faultOf (perform s action) = some .assertion ↔ Breaks s action) ∧
      faultOf (perform s action) ≠ some .useAfterFree ∧
      ∀ t, step s action = some t →
        (t.closing.isSome ↔ Lingers s action ∨ s.closing.isSome ∧ action ≠ .goOn) := by
  obtain ⟨queues, views, sound, parked⟩ := sound_run run
  have lingers : ∀ t, step s action = some t →
      (t.closing.isSome ↔ Lingers s action ∨ s.closing.isSome ∧ action ≠ .goOn) := by
    intro t stepped
    obtain ⟨_, _, _, _, effect⟩ := effect_of_step views sound parked orderly stepped
    exact effect.closing_iff views sound parked
  have meets := perform_spec views sound parked orderly
  cases performed : perform s action with
  | ok outcome =>
      rw [MeetsSpec, performed] at meets
      obtain ⟨queues', _, effect⟩ := meets.post_of_ok
      exact ⟨by simp [faultOf, effect.unwaited], by simp [faultOf, effect.unbroken],
        by simp [faultOf], lingers⟩
  | error fault =>
      rw [MeetsSpec, performed] at meets
      cases meets.allowed_of_error with
      | waits waits =>
          exact ⟨by simp [faultOf, waits], by simp [faultOf, waits.unbroken], by simp [faultOf],
            lingers⟩
      | breaks breaks =>
          have unwaited : ¬Waits s action := fun waits => waits.unbroken breaks
          exact ⟨by simp [faultOf, unwaited], by simp [faultOf, breaks], by simp [faultOf], lingers⟩

/-- A peer on 127.0.0.1. -/
def localPeer (port : Byte) : SockAddr :=
  [2, 0, 0x80, port, 127, 0, 0, 1] ++ List.replicate 8 0

/-- A header with the flags of a connection request. -/
def synPacket : List Byte := List.replicate 13 0 ++ [TH_SYN] ++ List.replicate 6 0

/-- A `myclose` waits for the transport thread of a queued connection, and a `mylisten` for the
`myclose`. -/
theorem demux_safe_close : ∃ s t, step s (.myclose 0) = some t ∧ Lingers s (.myclose 0) ∧
    Waits t (.mylisten 2 0 81 true) := by
  have reached : ∃ s, Run step Orderly State.init
      [.mysocket true 3, .mybind 0, .mylisten 0 1 80 true, .poll 0 4 (localPeer 1),
        .receive 0 (some synPacket) 5, .unblock 1 0, .mysocket true 6, .mybind 2] s ∧
      Orderly s (.myclose 0) ∧ s.closing.isSome = false ∧
      ∃ t ∈ step s (.myclose 0), t.closing.isSome = true ∧ Orderly t (.mylisten 2 0 81 true) ∧
        faultOf (perform t (.mylisten 2 0 81 true)) = some .blocks :=
    exec_reaches _ (by decide +kernel)
  obtain ⟨s, run, orderly, free, t, stepped, holds, orderly', failed⟩ := reached
  have lingers := ((demux_safe run orderly).2.2.2 t stepped).mp holds
  have waits := (demux_safe (.snoc run orderly stepped) orderly').1.mp failed
  refine ⟨s, t, stepped, lingers.resolve_right fun held => ?_, waits⟩
  exact absurd (free.symm.trans held.1) (by decide)

/-! ### A `myclose` that never returns -/

/-- The transport thread has not released its application. -/
def Context.Unreleased (ctx : Context) : Prop :=
  ctx.transportThreadStarted = true ∧ ctx.transportReturned = false ∧ ctx.blocking = true

instance (ctx : Context) : Decidable ctx.Unreleased := inferInstanceAs (Decidable (_ ∧ _))

/-- The first connection that a `myclose` has left to close is not released. -/
def Stuck (contexts : Contexts) (c : Closing) : Prop :=
  ∃ k child, c.entries.head? = some k ∧
    contexts (c.queue.connectionQueue k).sd = some child ∧ child.Unreleased

/-- A connection that is not released stays so. -/
theorem Stuck.update {contexts : Contexts} {c : Closing} (stuck : Stuck contexts c) {sd : Int}
    {entry : Option Context} (keeps : ∀ ctx, contexts sd = some ctx → ctx.Unreleased →
      ∃ ctx', entry = some ctx' ∧ ctx'.Unreleased) :
    Stuck (Function.update contexts sd entry) c := by
  obtain ⟨k, child, isFirst, found, unreleased⟩ := stuck
  by_cases here : (c.queue.connectionQueue k).sd = sd
  · rw [here] at found
    obtain ⟨ctx', rfl, unreleased'⟩ := keeps child found unreleased
    exact ⟨k, ctx', isFirst, by rw [here, Function.update_self], unreleased'⟩
  · exact ⟨k, child, isFirst, (Function.update_of_ne here ..).trans found, unreleased⟩

section Stuck

variable {v v' : View} {c : Closing} {action : Action}

/-- What a `myclose` waits for is the first of the requests that it has left. -/
theorem Stuck.first {ctx : Context} {q : ListenQueue} (stuck : Stuck v.contexts c)
    (closes : Closes v action ctx q c) (parked : Parked v) (sound : Sound v.contexts v.queues) :
    ∃ k child, c.entries.head? = some k ∧ k ∈ q.used ∧
      v.contexts (q.connectionQueue k).sd = some child ∧ child.Busy := by
  obtain ⟨k, child, isFirst, found, started, unreturned, _⟩ := stuck
  have inEntries := List.mem_of_mem_head? isFirst
  rw [← closes.entry inEntries] at found
  refine ⟨k, child, isFirst, ListenQueue.mem_used.mpr ⟨?_, ?_⟩, found, .inl ⟨started, unreturned⟩⟩
  · rw [closes.maxLen]
    exact closes.inside parked k inEntries
  · have nonnegative := (sound.placed _ child found).1
    omega

theorem Closes.eq_of_closing {ctx : Context} {q : ListenQueue} {c' : Closing}
    (closes : Closes v action ctx q c') (closing : v.closing = some c) : c' = c := by
  cases closes with
  | call free => cases free.2.symm.trans closing
  | again closing' => exact Option.some.inj (closing'.symm.trans closing)

/-- No call gets a `myclose` past a connection that is not released: its transport thread needs the
lock. -/
theorem Effect.stuck {taken : Option Context} {isQueued : Bool}
    (effect : Effect v action taken isQueued v') (parked : Parked v)
    (sound : Sound v.contexts v.queues) (closing : v.closing = some c)
    (stuck : Stuck v.contexts c) : v'.closing = some c ∧ Stuck v'.contexts c := by
  have held : v.closing ≠ none := by simp [closing]
  have touch : ∀ {sd ctx ctx'}, v.contexts sd = some ctx →
      (ctx.Unreleased → ctx'.Unreleased) → Stuck (Function.update v.contexts sd (some ctx')) c := by
    intro sd ctx ctx' found keeps
    refine stuck.update fun child found' unreleased => ⟨ctx', rfl, keeps ?_⟩
    cases found.symm.trans found'
    exact unreleased
  cases effect with
  | tableFull | notListening => exact ⟨closing, stuck⟩
  | allocated _ _ _ _ free =>
      exact ⟨closing, stuck.update fun _ found _ => by cases free.symm.trans found⟩
  | bound found => exact ⟨closing, touch found id⟩
  | listening _ _ _ free => exact absurd free.2 held
  | acceptFailed _ found => exact ⟨closing, touch found id⟩
  | arrived found => exact ⟨closing, touch found id⟩
  | readable _ _ found => exact ⟨closing, touch found id⟩
  | ended _ found => exact ⟨closing, touch found id⟩
  | enqueued _ found => exact ⟨closing, touch found id⟩
  | dropped _ free => exact absurd free held
  | queued _ free => exact absurd free held
  | completed free => exact absurd free held
  | finished _ found isReleased =>
      refine ⟨closing, touch found fun unreleased => ?_⟩
      exact absurd (isReleased.symm.trans unreleased.2.2) (by decide)
  | waiting enters => exact absurd (enters.unlocked parked) held
  | accepted enters => exact absurd (enters.unlocked parked) held
  | closed found _ idle =>
      refine ⟨closing, stuck.update fun child found' unreleased => ?_⟩
      cases found.symm.trans found'
      exact absurd (.inl ⟨unreleased.1, unreleased.2.1⟩) idle
  | @closeWaits _ _ q c' _ k closed rest closes split _ _ _ idle =>
      obtain rfl := closes.eq_of_closing closing
      obtain ⟨i, child, isFirst, isUsed, found, busy⟩ := stuck.first closes parked sound
      -- The first one that is left is busy, so the loop closed none.
      cases closed with
      | nil =>
          rw [List.nil_append] at split
          refine ⟨by rw [← split], ?_⟩
          show Stuck (withoutEntries _ q []) c'
          rw [withoutEntries_nil]
          exact touch closes.found id
      | cons j later =>
          rw [split] at isFirst
          cases isFirst
          exact absurd busy (idle i List.mem_cons_self isUsed child found)
  | closedPassive closes idle =>
      obtain rfl := closes.eq_of_closing closing
      obtain ⟨i, child, isFirst, isUsed, found, busy⟩ := stuck.first closes parked sound
      exact absurd busy (idle i (List.mem_of_mem_head? isFirst) isUsed child found)

end Stuck

/-- A `myclose` waits for a connection that is not released. -/
def Hung (s : State) : Prop :=
  ∃ c ∈ s.closing, ∃ k ∈ c.entries.head?,
    WithContext s (c.queue.connectionQueue k).sd Context.Unreleased

instance (s : State) : Decidable (Hung s) :=
  inferInstanceAs (Decidable (∃ c ∈ s.closing, ∃ k ∈ c.entries.head?, _))

theorem hung_iff {s : State} : Hung s ↔ ∃ c, s.closing = some c ∧ Stuck s.globalCtx c := by
  constructor
  · rintro ⟨c, closing, k, isFirst, withContext⟩
    obtain ⟨child, found, unreleased⟩ := withContext_iff.mp withContext
    exact ⟨c, closing, k, child, isFirst, found, unreleased⟩
  · rintro ⟨c, closing, k, child, isFirst, found, unreleased⟩
    exact ⟨c, closing, k, isFirst, withContext_iff.mpr ⟨child, found, unreleased⟩⟩

theorem hung_step {s t : State} {action : Action} (isSound : SoundState s) (hung : Hung s)
    (orderly : Orderly s action) (stepped : step s action = some t) : Hung t := by
  obtain ⟨queues, views, sound, parked⟩ := isSound
  obtain ⟨c, closing, stuck⟩ := hung_iff.mp hung
  obtain ⟨_, _, _, _, effect⟩ := effect_of_step views sound parked orderly stepped
  exact hung_iff.mpr ⟨c, effect.stuck parked sound closing stuck⟩

/-- A `myclose` of a listening mysocket that comes to a queued connection whose application is not
released never returns, whatever the threads do: it joins the transport thread of the connection
under the lock that this thread needs. -/
theorem close_deadlock {before after : List Action} {s t : State}
    (run : Run step Orderly State.init before s) (hung : Hung s)
    (goesOn : Run step Orderly s after t) : Hung t :=
  goesOn.invariant_with (fun later => sound_run (run.trans later)) hung
    fun isSound _ hung orderly stepped => hung_step isSound hung orderly stepped

/-- The `myclose` of a listening mysocket during the handshake of a connection in its queue. -/
theorem close_deadlock_handshake : ∃ s t, Hung s ∧
    Run step Orderly s [.poll 1 4 (localPeer 1), .receive 1 none 5, .goOn] t ∧ Hung t := by
  have reached : ∃ s, Run step Orderly State.init
      [.mysocket true 3, .mybind 0, .mylisten 0 1 80 true, .poll 0 4 (localPeer 1),
        .receive 0 (some synPacket) 5, .myclose 0] s ∧ Hung s ∧
      (exec step Orderly s [.poll 1 4 (localPeer 1), .receive 1 none 5, .goOn]).isSome = true :=
    exec_reaches _ (by decide +kernel)
  obtain ⟨s, run, hung, runsOn⟩ := reached
  obtain ⟨t, executed⟩ := Option.isSome_iff_exists.mp runsOn
  have goesOn := Run.of_exec executed
  exact ⟨s, t, hung, goesOn, close_deadlock run hung goesOn⟩

/-! ### The queues -/

/-- In every state reached, each listening mysocket counts its queued requests correctly and within
the backlog, and no two requests share a descriptor or a peer. -/
theorem demux_queues {labels : List Action} {s : State}
    (run : Run step Orderly State.init labels s) {listener : Int} {q : ListenQueue}
    (hasQueue : queuesOf s listener = some q) :
    q.curLen = q.used.card ∧ q.curLen ≤ q.maxLen ∧
      (∀ i ∈ q.used, ∀ j ∈ q.used, i ≠ j →
        (q.connectionQueue i).sd ≠ (q.connectionQueue j).sd ∧
          (q.connectionQueue i).peerAddr ≠ (q.connectionQueue j).peerAddr) ∧
      ∀ k ∈ q.used, ∃ ctx, s.globalCtx (q.connectionQueue k).sd = some ctx ∧
        ctx.listenSd = listener ∧ ctx.peerAddr = (q.connectionQueue k).peerAddr := by
  obtain ⟨queues, views, sound, _⟩ := sound_run run
  have queueSound := sound.queue listener q (views.queuesOf_eq_some.mp hasQueue).2
  refine ⟨queueSound.count, ?_, ?_, ?_⟩
  · rw [queueSound.count]
    exact (Finset.card_filter_le _ _).trans (Finset.card_range _).le
  · intro i inI j inJ other
    exact ⟨fun same => other (queueSound.descriptors i inI j inJ same),
      fun same => other (queueSound.peers i inI j inJ same)⟩
  · intro k isUsed
    obtain ⟨ctx, found, serves⟩ := (queueSound.request k isUsed).serves
    exact ⟨ctx, found, serves.listenSd, serves.peer⟩

/-- Two connection requests on one listening mysocket. -/
theorem demux_queues_two :
    ∃ s q, queuesOf s 0 = some q ∧ q.curLen = q.used.card ∧ q.curLen ≤ q.maxLen := by
  have reached : ∃ s, Run step Orderly State.init
      [.mysocket true 3, .mybind 0, .mylisten 0 1 80 true,
        .poll 0 4 (localPeer 1), .receive 0 (some synPacket) 5,
        .poll 0 6 (localPeer 2), .receive 0 (some synPacket) 7] s ∧ (queuesOf s 0).isSome = true :=
    exec_reaches _ (by decide +kernel)
  obtain ⟨s, run, isSome⟩ := reached
  obtain ⟨q, hasQueue⟩ := Option.isSome_iff_exists.mp isSome
  have queues := demux_queues run hasQueue
  exact ⟨s, q, hasQueue, queues.1, queues.2.1⟩

end EE323.Stcp.Demux

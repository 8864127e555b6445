/-
Module: EE323.Router.Blacklist
Purpose: Noninterference of blacklisted traffic.  A frame with a blacklisted source leaves the whole
  state as it was, so two runs that differ in such frames only end in one state.
Main exports: Blacklisted, Without, blacklisted_ignored, blacklist_no_influence
-/
import EE323.Router.Handler

namespace EE323.Router

open EE323.Lib

/-- The address is in 10.0.2.0/24. -/
def InBlacklist (ip : IpAddr) : Prop := ip.toNat / 256 = 0x0A0002

/-- An IP frame whose source address is blacklisted. -/
def Event.Blacklisted : Event → Prop
  | .frame packet => etherType packet = ethertypeIp ∧ InBlacklist (ipSrc packet)
  | .sweep => False
  | .clock _ => False

/-- The second list is the first without some of its blacklisted frames. -/
inductive Without : List Event → List Event → Prop where
  | nil : Without [] []
  | keep (event : Event) {events kept : List Event} (rest : Without events kept) :
      Without (event :: events) (event :: kept)
  | drop {event : Event} {events kept : List Event} (blacklisted : event.Blacklisted)
      (rest : Without events kept) : Without (event :: events) kept

/-- Masking with 255.255.255.0 clears the last byte. -/
theorem mask_toNat (ip : IpAddr) : ((0xFFFFFF00 : IpAddr) &&& ip).toNat = ip.toNat / 256 * 256 := by
  have cleared : (0xFFFFFF00 : IpAddr) &&& ip = (ip >>> 8) <<< 8 := by
    apply BitVec.eq_of_getLsbD_eq
    intro i below
    have mask : ∀ i < 32, (0xFFFFFF00 : IpAddr).getLsbD i = decide (8 ≤ i) := by decide
    rw [BitVec.getLsbD_and, mask i below, BitVec.getLsbD_shiftLeft, BitVec.getLsbD_ushiftRight]
    by_cases low : i < 8
    · simp [low]
    · have index : 8 + (i - 8) = i := by omega
      simp [low, below, index, Nat.le_of_not_lt low]
  have bound := ip.isLt
  rw [cleared, BitVec.toNat_shiftLeft, BitVec.toNat_ushiftRight, Nat.shiftLeft_eq,
    Nat.shiftRight_eq_div_pow, Nat.mod_eq_of_lt]
  omega

theorem ipBlackList_eq (packet : List Byte) :
    ipBlackList packet = true ↔ InBlacklist (ipSrc packet) := by
  unfold ipBlackList InBlacklist
  rw [decide_eq_true_iff, ← BitVec.toNat_inj, mask_toNat]
  have black : (0x0A000200 : IpAddr).toNat = 0x0A0002 * 256 := by decide
  rw [black]
  omega

variable {net : Network} {depth : Nat}

/-- A blacklisted frame changes nothing. -/
theorem blacklisted_ignored {sr : Instance} {event : Event} (blacklisted : event.Blacklisted) :
    react net depth sr event = .ok sr := by
  cases event with
  | frame packet =>
      obtain ⟨isIp, source⟩ := blacklisted
      have black := (ipBlackList_eq packet).mpr source
      unfold react srHandlepacket handleIp
      dsimp only
      rw [if_pos isIp, if_pos black]
      -- every check before the blacklist drops the frame without an effect
      split
      · rfl
      split
      · rfl
      split
      · rfl
      split
      · rfl
      · rfl
  | sweep => exact absurd blacklisted id
  | clock now => exact absurd blacklisted id

/-- Split off what a `Without` does with the last event. -/
theorem Without.snoc_inv {events kept : List Event} {event : Event}
    (without : Without (events ++ [event]) kept) :
    (∃ shorter, Without events shorter ∧ kept = shorter ++ [event]) ∨
      event.Blacklisted ∧ Without events kept := by
  induction events generalizing kept with
  | nil =>
      cases without with
      | keep _ rest =>
          cases rest
          exact .inl ⟨[], .nil, rfl⟩
      | drop blacklisted rest =>
          cases rest
          exact .inr ⟨blacklisted, .nil⟩
  | cons first events inductionHypothesis =>
      cases without with
      | keep _ rest =>
          rcases inductionHypothesis rest with ⟨shorter, inner, rfl⟩ | ⟨blacklisted, inner⟩
          · exact .inl ⟨first :: shorter, .keep first inner, rfl⟩
          · exact .inr ⟨blacklisted, .keep first inner⟩
      | drop blacklistedFirst rest =>
          rcases inductionHypothesis rest with ⟨shorter, inner, rfl⟩ | ⟨blacklisted, inner⟩
          · exact .inl ⟨shorter, .drop blacklistedFirst inner, rfl⟩
          · exact .inr ⟨blacklisted, .drop blacklistedFirst inner⟩

/-- Deleting blacklisted frames from what the router receives changes neither the frames that it
sends nor the state that it ends in. -/
theorem blacklist_no_influence {start finish : Instance} {events kept : List Event}
    (run : Run (step net depth) anyStep start events finish) (without : Without events kept) :
    Run (step net depth) anyStep start kept finish := by
  induction run generalizing kept with
  | refl =>
      cases without
      exact .refl start
  | snoc before admitted stepped inductionHypothesis =>
      rcases without.snoc_inv with ⟨shorter, inner, rfl⟩ | ⟨blacklisted, inner⟩
      · exact .snoc (inductionHypothesis inner) admitted stepped
      · have unchanged := step_eq_some.mp stepped
        rw [blacklisted_ignored blacklisted] at unchanged
        cases unchanged
        exact inductionHypothesis inner

/-- A frame from 10.0.2.100 between a sweep and a forwarded frame. -/
theorem blacklist_no_influence_one_frame :
    let allowed : Event := .frame (ipFrame 64 17 0xC0A80202 0xAC40030A [])
    let blocked : Event := .frame (ipFrame 64 17 0x0A000264 0xAC40030A [])
    ∃ finish, finish.handed.length = 1 ∧
      Run (step labNetwork 4) anyStep (srArpcacheInit 5) [.sweep, blocked, allowed] finish ∧
      Run (step labNetwork 4) anyStep (srArpcacheInit 5) [.sweep, allowed] finish := by
  intro allowed blocked
  have reached : ∃ finish, Run (step labNetwork 4) anyStep (srArpcacheInit 5)
      [.sweep, blocked, allowed] finish ∧ finish.handed.length = 1 :=
    exec_reaches _ (by decide +kernel)
  obtain ⟨finish, run, one⟩ := reached
  have source : ipSrc (ipFrame 64 17 0x0A000264 0xAC40030A []) = 0x0A000264 := by decide +kernel
  have blacklisted : blocked.Blacklisted := by
    constructor
    · decide +kernel
    · rw [source]
      rfl
  exact ⟨finish, one, run,
    blacklist_no_influence run (.keep _ (.drop blacklisted (.keep _ .nil)))⟩

end EE323.Router

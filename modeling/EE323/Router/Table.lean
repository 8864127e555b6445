/-
Module: EE323.Router.Table
Purpose: The routing table and the interface list of `sr_router.h`, and the longest prefix match of
  `sr_findLPMentry`.  Addresses are in host order: the scan converts them with `ntohl` and every
  other use compares them for equality.
Main exports: IpAddr, Mac, Interface, Route, srGetInterface, srFindLPMentry, LongestPrefixMatch,
  longest_prefix_match
-/
import Mathlib.Algebra.Group.Nat.Defs
import Mathlib.Data.Nat.Basic
import EE323.Lib.Bytes
import EE323.Lib.Scan

namespace EE323.Router

open EE323.Lib

abbrev IpAddr := BitVec 32

/-- An Ethernet address. -/
abbrev Mac := { bytes : List Byte // bytes.length = 6 }

@[simp] theorem Mac.length_val (mac : Mac) : mac.val.length = 6 := mac.property

/-- `struct sr_if`. -/
structure Interface where
  name : String
  addr : Mac
  ip : IpAddr
deriving DecidableEq, Repr

/-- `struct sr_rt`. -/
structure Route where
  dest : IpAddr
  gw : IpAddr
  mask : IpAddr
  interface : String
deriving DecidableEq, Repr

/-- `sr_get_interface`. -/
def srGetInterface (ifList : List Interface) (name : String) : Option Interface :=
  ifList.find? fun ifc => ifc.name = name

/-- `(ip_dst & mask) == (dest & mask)`. -/
def Route.Matches (entry : Route) (ipDst : IpAddr) : Prop :=
  ipDst &&& entry.mask = entry.dest &&& entry.mask

instance (entry : Route) (ipDst : IpAddr) : Decidable (entry.Matches ipDst) :=
  inferInstanceAs (Decidable (_ = _))

/-- The loop of `sr_findLPMentry`, with `lpmentry` and `lpmmask`. -/
def lpmScan (ipDst : IpAddr) : List Route → Option Route → IpAddr → Option Route
  | [], lpmentry, _ => lpmentry
  | entry :: rest, lpmentry, lpmmask =>
      if entry.Matches ipDst ∧ lpmmask < entry.mask then
        lpmScan ipDst rest (some entry) entry.mask
      else lpmScan ipDst rest lpmentry lpmmask

/-- `sr_findLPMentry`. -/
def srFindLPMentry (rtable : List Route) (ipDst : IpAddr) : Option Route :=
  lpmScan ipDst rtable none 0

theorem lpmScan_eq (ipDst : IpAddr) (rtable : List Route) (best : Option Route) (top : IpAddr) :
    lpmScan ipDst rtable best top =
      runningBest (fun entry => entry.Matches ipDst) (fun entry => entry.mask.toNat) rtable best
        top.toNat := by
  induction rtable generalizing best top with
  | nil => rfl
  | cons entry rest inductionHypothesis =>
      unfold lpmScan runningBest
      rw [inductionHypothesis, inductionHypothesis]
      rfl

/-! ### Prefix lengths -/

/-- The mask of a prefix of the given length. -/
def prefixMask (length : Nat) : IpAddr := BitVec.ofNat 32 (2 ^ 32 - 2 ^ (32 - length))

/-- The mask is contiguous, ones first and then zeros, with this many ones. -/
def Route.HasLength (entry : Route) (length : Nat) : Prop :=
  length ≤ 32 ∧ entry.mask = prefixMask length

theorem prefixMask_toNat (length : Nat) :
    (prefixMask length).toNat = 2 ^ 32 - 2 ^ (32 - length) := by
  unfold prefixMask
  rw [BitVec.toNat_ofNat, Nat.mod_eq_of_lt]
  have positive : 0 < 2 ^ (32 - length) := Nat.pow_pos (by decide)
  omega

/-- For contiguous masks the unsigned order is the order of the lengths. -/
theorem prefixMask_lt {short long : Nat} (short_le : short ≤ 32) (long_le : long ≤ 32) :
    (prefixMask short).toNat < (prefixMask long).toNat ↔ short < long := by
  rw [prefixMask_toNat, prefixMask_toNat]
  have bound : ∀ n, n ≤ 32 → 2 ^ (32 - n) ≤ 2 ^ 32 :=
    fun n _ => Nat.pow_le_pow_right (by decide) (Nat.sub_le _ _)
  have boundShort := bound short short_le
  have boundLong := bound long long_le
  constructor
  · intro less
    by_contra notLess
    have grows : 2 ^ (32 - short) ≤ 2 ^ (32 - long) :=
      Nat.pow_le_pow_right (by decide) (by omega)
    omega
  · intro less
    have shrinks : 2 ^ (32 - long) < 2 ^ (32 - short) :=
      Nat.pow_lt_pow_right (by decide) (by omega)
    omega

/-! ### Longest prefix match -/

/-- A matching entry whose prefix is longer than that of every matching entry before it and at least
as long as that of every matching entry after it. -/
def IsLongestMatch (rtable : List Route) (ipDst : IpAddr) (entry : Route) : Prop :=
  ∃ before after, rtable = before ++ entry :: after ∧ entry.Matches ipDst ∧
    (∀ other ∈ before, other.Matches ipDst → ∀ {length otherLength}, entry.HasLength length →
      other.HasLength otherLength → otherLength < length) ∧
    ∀ other ∈ after, other.Matches ipDst → ∀ {length otherLength}, entry.HasLength length →
      other.HasLength otherLength → otherLength ≤ length

/-- What a longest prefix match returns: nothing when no entry matches, else the first of the
matching entries with the longest prefix. -/
def LongestPrefixMatch (rtable : List Route) (ipDst : IpAddr) : Option Route → Prop
  | none => ∀ entry ∈ rtable, ¬entry.Matches ipDst
  | some entry => IsLongestMatch rtable ipDst entry

/-- The scan finds the first matching entry with the greatest mask, unless every matching entry has
the mask zero. -/
theorem srFindLPMentry_cases (rtable : List Route) (ipDst : IpAddr) :
    srFindLPMentry rtable ipDst = none ∧
        (∀ entry ∈ rtable, entry.Matches ipDst → entry.mask = 0) ∨
      ∃ entry, srFindLPMentry rtable ipDst = some entry ∧ entry.mask ≠ 0 ∧
        FirstBest (fun entry => entry.Matches ipDst) (fun entry => entry.mask.toNat) rtable
          entry := by
  unfold srFindLPMentry
  rw [lpmScan_eq]
  have cases := @runningBest_cases Route Nat _ (fun entry => entry.Matches ipDst) _
    (fun entry => entry.mask.toNat) rtable none (0 : IpAddr).toNat
  rcases cases with
    ⟨found, below⟩ | ⟨entry, found, above, best⟩
  · left
    refine ⟨found, ?_⟩
    intro entry member isMatch
    have zero := below entry member isMatch
    apply BitVec.eq_of_toNat_eq
    exact Nat.le_zero.mp zero
  · right
    refine ⟨entry, found, ?_, best⟩
    intro zero
    rw [zero] at above
    exact absurd above (Nat.lt_irrefl _)

/-- The entry that the scan finds is in the table and matches. -/
theorem srFindLPMentry_mem {rtable : List Route} {ipDst : IpAddr} {entry : Route}
    (found : srFindLPMentry rtable ipDst = some entry) :
    entry ∈ rtable ∧ entry.Matches ipDst := by
  rcases srFindLPMentry_cases rtable ipDst with
    ⟨nothing, _⟩ | ⟨other, foundOther, _, before, after, split, isMatch, _⟩
  · rw [nothing] at found
    cases found
  · rw [foundOther] at found
    cases found
    constructor
    · rw [split]
      exact List.mem_append_right _ List.mem_cons_self
    · exact isMatch

private theorem firstBest_isLongest {rtable : List Route} {ipDst : IpAddr} {entry : Route}
    (best : FirstBest (fun entry => entry.Matches ipDst) (fun entry => entry.mask.toNat) rtable
      entry) : IsLongestMatch rtable ipDst entry := by
  obtain ⟨before, after, split, isMatch, less, most⟩ := best
  refine ⟨before, after, split, isMatch, ?_, ?_⟩
  · intro other member matchOther length otherLength ⟨length_le, mask⟩ ⟨other_le, otherMask⟩
    have shorter : other.mask.toNat < entry.mask.toNat := less other member matchOther
    rw [mask, otherMask] at shorter
    exact (prefixMask_lt other_le length_le).mp shorter
  · intro other member matchOther length otherLength ⟨length_le, mask⟩ ⟨other_le, otherMask⟩
    have shorter : other.mask.toNat ≤ entry.mask.toNat := most other member matchOther
    rw [mask, otherMask] at shorter
    by_contra longer
    have longer := (prefixMask_lt length_le other_le).mpr (Nat.lt_of_not_le longer)
    exact absurd shorter (Nat.not_le_of_lt longer)

/-- `sr_findLPMentry` returns the longest prefix match exactly when some matching entry has a mask
other than zero, if any entry matches at all: the default route is never found. -/
theorem longest_prefix_match (rtable : List Route) (ipDst : IpAddr) :
    LongestPrefixMatch rtable ipDst (srFindLPMentry rtable ipDst) ↔
      ((∃ entry ∈ rtable, entry.Matches ipDst) →
        ∃ entry ∈ rtable, entry.Matches ipDst ∧ entry.mask ≠ 0) := by
  rcases srFindLPMentry_cases rtable ipDst with ⟨nothing, zero⟩ | ⟨entry, found, nonzero, best⟩
  · rw [nothing]
    constructor
    · rintro noMatch ⟨entry, member, isMatch⟩
      exact absurd isMatch (noMatch entry member)
    · intro covered entry member isMatch
      obtain ⟨other, otherMember, otherMatch, nonzero⟩ := covered ⟨entry, member, isMatch⟩
      exact nonzero (zero other otherMember otherMatch)
  · rw [found]
    obtain ⟨member, isMatch⟩ := srFindLPMentry_mem found
    constructor
    · intro _ _
      exact ⟨entry, member, isMatch, nonzero⟩
    · intro _
      exact firstBest_isLongest best

/-- A table that consists of the default route matches every address, and finds nothing. -/
theorem default_route_not_found : ∃ (rtable : List Route) (ipDst : IpAddr),
    (∀ entry ∈ rtable, entry.HasLength 0 ∧ entry.Matches ipDst) ∧ rtable ≠ [] ∧
      srFindLPMentry rtable ipDst = none ∧
      ¬LongestPrefixMatch rtable ipDst (srFindLPMentry rtable ipDst) := by
  refine ⟨[⟨0, 0x0A000101, 0, "eth3"⟩], 0x08080808, ?_, ?_, ?_, ?_⟩
  · intro entry member
    rw [List.mem_singleton.mp member]
    constructor
    · exact ⟨by decide, rfl⟩
    · decide
  · decide
  · decide
  · intro correct
    have noMatch := correct ⟨0, 0x0A000101, 0, "eth3"⟩ List.mem_cons_self
    exact noMatch (by decide)

end EE323.Router

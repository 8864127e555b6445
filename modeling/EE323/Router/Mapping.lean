/-
Module: EE323.Router.Mapping
Purpose: Which mapping the ARP cache holds after an insertion.  An insertion fills the first free
  entry and a lookup returns the last valid one, so an older mapping in a later entry hides the new
  one, and a full table takes none.
Main exports: CacheOp, cacheStep, NewestWins, TakesOver, newest_mapping_wins, older_mapping_wins
-/
import EE323.Router.Handler

namespace EE323.Router

open EE323.Lib

/-- What happens to the table: a mapping is inserted, the sweep marks old entries, the clock is
read. -/
inductive CacheOp where
  | insert (mac : Mac) (ip : IpAddr)
  | expire
  | clock (now : Nat)
deriving DecidableEq, Repr

/-- The cache as a machine. -/
def cacheStep (sr : Instance) : CacheOp → Option Instance
  | .insert mac ip => some (srArpcacheInsert mac ip sr).2
  | .expire => some (timedOut sr)
  | .clock now => some { sr with now }

/-- After the insertion the address has the new mapping, and every other address the one it had. -/
def NewestWins (mac : Mac) (ip : IpAddr) (sr : Instance) : Prop :=
  (∃ entry, srArpcacheLookup (srArpcacheInsert mac ip sr).2 ip = some entry ∧ entry.mac = mac) ∧
    ∀ other, other ≠ ip →
      srArpcacheLookup (srArpcacheInsert mac ip sr).2 other = srArpcacheLookup sr other

/-- The last valid entry for an address in part of the table. -/
def lastValid (entries : List ArpEntry) (ip : IpAddr) : Option ArpEntry :=
  entries.reverse.find? fun entry => entry.valid ∧ entry.ip = ip

/-- The entries behind the first free one. -/
def behindFree (entries : List ArpEntry) : List ArpEntry :=
  (entries.dropWhile fun entry => entry.valid).drop 1

/-- There is a free entry and the last mapping of the address behind it, if there is one, is the new
mapping already; or there is none and the address has the new mapping already. -/
def TakesOver (mac : Mac) (ip : IpAddr) (entries : List ArpEntry) : Prop :=
  (∃ entry ∈ entries, entry.valid = false) ∧
      (∀ entry, lastValid (behindFree entries) ip = some entry → entry.mac = mac) ∨
    (∀ entry ∈ entries, entry.valid = true) ∧
      ∃ entry, lastValid entries ip = some entry ∧ entry.mac = mac

theorem srArpcacheLookup_eq (sr : Instance) (ip : IpAddr) :
    srArpcacheLookup sr ip = lastValid sr.entries ip := rfl

theorem lastValid_append (front back : List ArpEntry) (ip : IpAddr) :
    lastValid (front ++ back) ip = (lastValid back ip).or (lastValid front ip) := by
  unfold lastValid
  rw [List.reverse_append, List.find?_append]

theorem lastValid_singleton_of_pos {entry : ArpEntry} {ip : IpAddr} (valid : entry.valid = true)
    (isIp : entry.ip = ip) : lastValid [entry] ip = some entry := by
  simp [lastValid, valid, isIp]

theorem lastValid_singleton_of_neg {entry : ArpEntry} {ip : IpAddr}
    (other : entry.valid = true → entry.ip ≠ ip) : lastValid [entry] ip = none := by
  simpa [lastValid] using other

/-- A table without a free entry stays as it is. -/
theorem insertEntry_full {mac : Mac} {ip : IpAddr} {now : Nat} {entries : List ArpEntry}
    (full : ∀ entry ∈ entries, entry.valid = true) : insertEntry mac ip now entries = entries := by
  induction entries with
  | nil => rfl
  | cons entry rest inductionHypothesis =>
      rw [insertEntry, if_pos (full entry List.mem_cons_self),
        inductionHypothesis fun other later => full other (List.mem_cons_of_mem _ later)]

/-- The first free entry is overwritten, and nothing else. -/
theorem insertEntry_free {mac : Mac} {ip : IpAddr} {now : Nat} {entries : List ArpEntry}
    (free : ∃ entry ∈ entries, entry.valid = false) :
    ∃ front slot, slot.valid = false ∧ entries = front ++ ([slot] ++ behindFree entries) ∧
      insertEntry mac ip now entries =
        front ++ ([⟨mac, ip, now, true⟩] ++ behindFree entries) := by
  induction entries with
  | nil =>
      obtain ⟨_, member, _⟩ := free
      cases member
  | cons entry rest inductionHypothesis =>
      cases valid : entry.valid with
      | false =>
          refine ⟨[], entry, valid, ?_, ?_⟩
          · simp [behindFree, valid]
          · simp [insertEntry, behindFree, valid]
      | true =>
          have freeRest : ∃ entry ∈ rest, entry.valid = false := by
            obtain ⟨other, member, notValid⟩ := free
            rcases List.mem_cons.mp member with rfl | later
            · rw [valid] at notValid
              cases notValid
            · exact ⟨other, later, notValid⟩
          obtain ⟨front, slot, notValid, split, inserted⟩ := inductionHypothesis freeRest
          have same : behindFree (entry :: rest) = behindFree rest := by
            simp [behindFree, valid]
          refine ⟨entry :: front, slot, notValid, ?_, ?_⟩
          · rw [same, List.cons_append, ← split]
          · rw [same, insertEntry, if_pos valid, inserted]
            rfl

/-- In every state of the cache, and so in every one that insertions and expiries reach, the newest
mapping wins exactly when it takes over: the table is not full and no other mapping of the address
is behind the first free entry, or nothing had to change. -/
theorem newest_mapping_wins (mac : Mac) (ip : IpAddr) (sr : Instance) :
    NewestWins mac ip sr ↔ TakesOver mac ip sr.entries := by
  unfold NewestWins
  simp only [srArpcacheLookup_eq]
  have after : (srArpcacheInsert mac ip sr).2.entries = insertEntry mac ip sr.now sr.entries := rfl
  rw [after]
  by_cases full : ∀ entry ∈ sr.entries, entry.valid = true
  · rw [insertEntry_full full]
    constructor
    · exact fun wins => .inr ⟨full, wins.1⟩
    · rintro (⟨⟨entry, member, notValid⟩, _⟩ | ⟨_, found⟩)
      · rw [full entry member] at notValid
        cases notValid
      · exact ⟨found, fun _ _ => rfl⟩
  · have free : ∃ entry ∈ sr.entries, entry.valid = false := by
      by_contra noneFree
      apply full
      intro entry member
      cases valid : entry.valid with
      | true => rfl
      | false => exact absurd ⟨entry, member, valid⟩ noneFree
    obtain ⟨front, slot, notValid, split, inserted⟩ := @insertEntry_free mac ip sr.now _ free
    have others : ∀ other, other ≠ ip → lastValid (insertEntry mac ip sr.now sr.entries) other =
        lastValid sr.entries other := by
      intro other otherIp
      have before : lastValid sr.entries other = lastValid
          (front ++ ([slot] ++ behindFree sr.entries)) other := congrArg (lastValid · other) split
      rw [before, inserted]
      simp only [lastValid_append]
      rw [lastValid_singleton_of_neg (fun _ => otherIp.symm),
        lastValid_singleton_of_neg (fun valid => by rw [notValid] at valid; cases valid)]
    have own : lastValid (insertEntry mac ip sr.now sr.entries) ip =
        (lastValid (behindFree sr.entries) ip).or (some ⟨mac, ip, sr.now, true⟩) := by
      rw [inserted]
      simp only [lastValid_append]
      rw [lastValid_singleton_of_pos rfl rfl, Option.or_assoc, Option.some_or]
    rw [own]
    constructor
    · rintro ⟨⟨entry, found, isMac⟩, _⟩
      refine .inl ⟨free, ?_⟩
      intro behind isBehind
      rw [isBehind] at found
      cases found
      exact isMac
    · rintro (⟨_, newest⟩ | ⟨allValid, _⟩)
      · refine ⟨?_, others⟩
        cases behind : lastValid (behindFree sr.entries) ip with
        | none => exact ⟨_, rfl, rfl⟩
        | some entry => exact ⟨entry, rfl, newest entry behind⟩
      · exact absurd allValid full

/-- The first entry has expired, the second has not, and the mapping of the second changes. -/
private def replaced : List CacheOp :=
  [.insert (routerMac 1) 0xC0A80202, .clock 15, .insert (routerMac 2) 0xAC40030A, .clock 21,
    .expire]

/-- The new mapping goes to the first entry and the older one in the second is still found. -/
theorem older_mapping_wins : ∃ sr,
    Run cacheStep anyStep (srArpcacheInit 5) replaced sr ∧
      (srArpcacheLookup (srArpcacheInsert (routerMac 3) 0xAC40030A sr).2 0xAC40030A).map
        (fun entry => entry.mac) = some (routerMac 2) ∧
      ¬NewestWins (routerMac 3) 0xAC40030A sr := by
  have reached : ∃ sr, Run cacheStep anyStep (srArpcacheInit 5) replaced sr ∧
      (srArpcacheLookup (srArpcacheInsert (routerMac 3) 0xAC40030A sr).2 0xAC40030A).map
        (fun entry => entry.mac) = some (routerMac 2) :=
    exec_reaches _ (by decide +kernel)
  obtain ⟨sr, run, older⟩ := reached
  refine ⟨sr, run, older, ?_⟩
  rintro ⟨⟨entry, found, isNew⟩, _⟩
  rw [found, Option.map_some, isNew] at older
  exact absurd (Option.some.inj older) (by decide)

end EE323.Router

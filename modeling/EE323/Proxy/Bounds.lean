/-
Module: EE323.Proxy.Bounds
Purpose: When the proxy receives and parses a request inside its arrays.  The receive loop must not
  overflow `totalBuf` or look before its start, and the scans must find the spaces they look for.
Main exports: Scannable, Passes, parse_returns_iff, parse_contact_iff, parse_badRequest_iff,
  parsing_in_bounds
-/
import EE323.Proxy.Parsing
import EE323.Proxy.Receiving

namespace EE323.Proxy

open EE323.Lib

/-- The spaces that the scans look for are there, and the version of a request whose URI is accepted
lies inside the array. -/
def Scannable (resolves : List Byte → Bool) (text : List Byte) : Prop :=
  ∃ method behind, text = method ++ space :: behind ∧ space ∉ method ∧
    (getMethod <+: method → ∃ uri rest, behind = uri ++ space :: rest ∧ space ∉ uri ∧
      (UriAccepted resolves uri → Within method uri rest))

/-- The text has the form that the proxy's checks let through: a method that begins with GET, a URI
that is accepted, eight bytes for the version and the rest that is accepted. -/
def Passes (resolves : List Byte → Bool) (text : List Byte) : Prop :=
  ∃ method uri rest, text = method ++ space :: (uri ++ space :: rest) ∧ space ∉ method ∧
    space ∉ uri ∧ getMethod <+: method ∧ UriAccepted resolves uri ∧ Within method uri rest ∧
    RestAccepted rest

/-- The first line. -/
def requestLine (bytes : List Byte) : List Byte := bytes.takeWhile (· ≠ lineFeed)

variable {resolves : List Byte → Bool} {text : List Byte}

theorem Scannable.returns (scan : Scannable resolves text) (buffered : Buffered text) :
    ∃ verdict, parse resolves text = .ok verdict := by
  obtain ⟨method, behind, split, noSpace, later⟩ := scan
  by_cases isGet : getMethod <+: method
  · obtain ⟨uri, rest, rfl, noSpaceUri, within⟩ := later isGet
    rw [parse_two_spaces buffered split noSpace noSpaceUri isGet]
    by_cases accepted : UriAccepted resolves uri
    · rw [if_neg (not_not.mpr accepted), if_neg (not_not.mpr (within accepted))]
      split
      · exact ⟨_, rfl⟩
      · exact ⟨_, rfl⟩
    · rw [if_pos accepted]
      exact ⟨_, rfl⟩
  · exact ⟨_, parse_other_method (Nat.le_of_lt buffered.fits) split noSpace isGet⟩

theorem Passes.contacts (passes : Passes resolves text) (buffered : Buffered text) :
    ∃ host port, parse resolves text = .ok (.contact host port) := by
  obtain ⟨method, uri, rest, split, noSpace, noSpaceUri, isGet, accepted, within, restAccepted⟩ :=
    passes
  rw [parse_two_spaces buffered split noSpace noSpaceUri isGet, if_neg (not_not.mpr accepted),
    if_neg (not_not.mpr within), if_pos restAccepted]
  exact ⟨_, _, rfl⟩

/-- The parsing area leaves the array, or it answers, or it goes on. -/
theorem parse_cases (resolves : List Byte → Bool) (buffered : Buffered text) :
    parse resolves text = .error .read ∨
      (parse resolves text = .ok .badRequest ∧ Scannable resolves text) ∨
      (Scannable resolves text ∧ Passes resolves text) := by
  have fits := Nat.le_of_lt buffered.fits
  by_cases first : space ∈ text
  · obtain ⟨method, behind, split, noSpace⟩ := List.eq_append_cons_of_mem first
    by_cases isGet : getMethod <+: method
    · by_cases second : space ∈ behind
      · obtain ⟨uri, rest, rfl, noSpaceUri⟩ := List.eq_append_cons_of_mem second
        have parsed := @parse_two_spaces resolves _ _ _ _ buffered split noSpace noSpaceUri isGet
        by_cases accepted : UriAccepted resolves uri
        · rw [if_neg (not_not.mpr accepted)] at parsed
          by_cases within : Within method uri rest
          · have scan : Scannable resolves text :=
              ⟨method, _, split, noSpace, fun _ => ⟨uri, rest, rfl, noSpaceUri, fun _ => within⟩⟩
            rw [if_neg (not_not.mpr within)] at parsed
            by_cases restAccepted : RestAccepted rest
            · exact .inr (.inr ⟨scan, method, uri, rest, split, noSpace, noSpaceUri, isGet, accepted,
                within, restAccepted⟩)
            · rw [if_neg restAccepted] at parsed
              exact .inr (.inl ⟨parsed, scan⟩)
          · rw [if_pos within] at parsed
            exact .inl parsed
        · rw [if_pos accepted] at parsed
          refine .inr (.inl ⟨parsed, method, _, split, noSpace, fun _ => ?_⟩)
          exact ⟨uri, rest, rfl, noSpaceUri, fun isAccepted => absurd isAccepted accepted⟩
      · exact .inl (parse_one_space fits split noSpace isGet second)
    · refine .inr (.inl ⟨parse_other_method fits split noSpace isGet, method, behind, split,
        noSpace, ?_⟩)
      exact fun same => absurd same isGet
  · exact .inl (parse_no_space first)

theorem parse_returns_iff (buffered : Buffered text) :
    (∃ verdict, parse resolves text = .ok verdict) ↔ Scannable resolves text := by
  constructor
  · rintro ⟨verdict, parsed⟩
    rcases parse_cases resolves buffered with failed | ⟨_, scan⟩ | ⟨scan, _⟩
    · rw [failed] at parsed
      cases parsed
    · exact scan
    · exact scan
  · exact fun scan => scan.returns buffered

theorem parse_contact_iff (buffered : Buffered text) :
    (∃ host port, parse resolves text = .ok (.contact host port)) ↔ Passes resolves text := by
  constructor
  · rintro ⟨host, port, parsed⟩
    rcases parse_cases resolves buffered with failed | ⟨answered, _⟩ | ⟨_, passes⟩
    · rw [failed] at parsed
      cases parsed
    · rw [answered] at parsed
      cases parsed
    · exact passes
  · exact fun passes => passes.contacts buffered

theorem parse_badRequest_iff (buffered : Buffered text) :
    parse resolves text = .ok .badRequest ↔ Scannable resolves text ∧ ¬Passes resolves text := by
  constructor
  · intro parsed
    refine ⟨(parse_returns_iff buffered).mp ⟨_, parsed⟩, ?_⟩
    intro passes
    obtain ⟨host, port, contacted⟩ := passes.contacts buffered
    rw [parsed] at contacted
    cases contacted
  · rintro ⟨scan, blocked⟩
    rcases parse_cases resolves buffered with failed | ⟨answered, _⟩ | ⟨_, passes⟩
    · obtain ⟨verdict, parsed⟩ := scan.returns buffered
      rw [failed] at parsed
      cases parsed
    · exact answered
    · exact absurd passes blocked

/-- What the receive loop returns is a text in `totalBuf`. -/
theorem buffered_of_sized {received : List Chunk}
    (sized : ∀ part, part <+: received → part ≠ [] → Sized part) : Buffered (textOf received) where
  fits := by
    by_cases none : received = []
    · rw [none]
      decide
    · exact (sized received List.prefix_rfl none).fits
  noZero := zero_not_mem_textOf received

/-- The proxy handles a byte stream inside its arrays, and answers a request line without two spaces
with the 400 response, exactly when every part of what arrives has a good size, the scans find their
spaces and the version lies inside the array, and a request line without two spaces does not hide in
a text that passes the checks. -/
theorem parsing_in_bounds (resolves : List Byte → Bool) (chunks : List Chunk) :
    (∃ verdict, serve resolves chunks = .ok verdict ∧
      ((requestLine (sent chunks)).count space < 2 → verdict = .badRequest)) ↔
    ∃ received, Arrives chunks received ∧
      (∀ part, part <+: received → part ≠ [] → Sized part) ∧
      Scannable resolves (textOf received) ∧
      ((requestLine (sent chunks)).count space < 2 → ¬Passes resolves (textOf received)) := by
  unfold serve
  constructor
  · rintro ⟨verdict, returned, answered⟩
    obtain ⟨text, received, parsed⟩ := bind_eq_ok.mp returned
    obtain ⟨arrived, arrives, sized, rfl⟩ := receive_eq_ok.mp received
    have buffered := buffered_of_sized sized
    refine ⟨arrived, arrives, sized, (parse_returns_iff buffered).mp ⟨verdict, parsed⟩, ?_⟩
    intro few
    rw [answered few] at parsed
    exact ((parse_badRequest_iff buffered).mp parsed).2
  · rintro ⟨arrived, arrives, sized, scan, hidden⟩
    have buffered := buffered_of_sized sized
    obtain ⟨verdict, parsed⟩ := (parse_returns_iff buffered).mpr scan
    refine ⟨verdict, bind_eq_ok.mpr ⟨_, receive_eq_ok.mpr ⟨arrived, arrives, sized, rfl⟩, parsed⟩, ?_⟩
    intro few
    have answered := (parse_badRequest_iff buffered).mpr ⟨scan, hidden few⟩
    exact Except.ok.inj (parsed.symm.trans answered)

/-- A request of one word. -/
def oneWord : Chunk where
  bytes := ascii ['G', 'E', 'T', '\r', '\n', '\r', '\n']
  nonempty := by decide
  fits := by decide

/-- A request line without a space makes the scan for the method leave `totalBuf`. -/
theorem scan_leaves_array : (requestLine (sent [oneWord])).count space = 0 ∧
    ∀ resolves verdict, serve resolves [oneWord] ≠ .ok verdict := by
  constructor
  · decide
  · intro resolves verdict returned
    have received : receive [oneWord] 0 [] = .ok oneWord.bytes := by decide +kernel
    obtain ⟨text, got, parsed⟩ := bind_eq_ok.mp returned
    obtain rfl := Except.ok.inj (received.symm.trans got)
    have failed : parse resolves oneWord.bytes = .error .read := parse_no_space (by decide)
    rw [failed] at parsed
    cases parsed

end EE323.Proxy

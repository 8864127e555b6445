/-
Module: EE323.Proxy.Parsing
Purpose: What the parsing area decides, by the spaces that its two scans find.  Behind them the URI,
  the byte after the version and the start of the headers decide, each by a test on its own part.
Main exports: UriAccepted, RestAccepted, Within, parse_no_space, parse_other_method, parse_one_space,
  parseUri_eq, parse_two_spaces
-/
import EE323.Proxy.Request

namespace EE323.Proxy

open EE323.Lib

/-- A text in `totalBuf`. -/
structure Buffered (text : List Byte) : Prop where
  fits : text.length < maxDataSize
  noZero : 0 ∉ text

/-- The host that the proxy looks up for a URI. -/
def hostOf (uri : List Byte) : List Byte :=
  ((uriAndPort uri).1.drop 7).takeWhile (· ≠ slash)

/-- The tests on the URI: its scheme, the digits of its port, and its host. -/
def UriAccepted (resolves : List Byte → Bool) (uri : List Byte) : Prop :=
  httpScheme <+: uri ∧ (uriAndPort uri).2.all isDigit = true ∧ resolves (hostOf uri) = true

/-- The tests on what follows the URI: a carriage return after eight bytes, one more byte, and a
host header with something in it or behind it. -/
def RestAccepted (rest : List Byte) : Prop :=
  rest.getD 8 0 = carriageReturn ∧ hostHeader <+: rest.drop 10 ∧
    ¬(rest.drop 16).all (· = space) = true

/-- The byte after the version, and the start of the headers if that byte is a carriage return, have
indices of `totalBuf`. -/
def Within (method uri rest : List Byte) : Prop :=
  method.length + uri.length + 10 < maxDataSize ∧
    (rest.getD 8 0 = carriageReturn → method.length + uri.length + 12 < maxDataSize)

instance (resolves : List Byte → Bool) (uri : List Byte) : Decidable (UriAccepted resolves uri) :=
  inferInstanceAs (Decidable (_ ∧ _ ∧ _))

instance (rest : List Byte) : Decidable (RestAccepted rest) :=
  inferInstanceAs (Decidable (_ ∧ _ ∧ _))

instance (method uri rest : List Byte) : Decidable (Within method uri rest) :=
  inferInstanceAs (Decidable (_ ∧ _))

section Scanning

variable {resolves : List Byte → Bool} {text before word after : List Byte}

theorem scanWord_eq (fits : text.length ≤ maxDataSize)
    (split : text = before ++ word ++ space :: after) (noSpace : space ∉ word) :
    scanWord text before.length = .ok (word, before.length + word.length) := by
  unfold scanWord
  rw [copyTo_eq_some fits split noSpace (Nat.zero_le _)]

theorem scanWord_missing {walk : Nat} (missing : space ∉ text.drop walk) :
    scanWord text walk = .error .read := by
  unfold scanWord
  rw [copyTo_eq_none (by decide) missing]

/-- Without a space the first scan leaves the array. -/
theorem parse_no_space (missing : space ∉ text) : parse resolves text = .error .read := by
  unfold parse
  rw [scanWord_missing (by simpa using missing)]
  rfl

/-- A method that does not begin with GET is answered at once. -/
theorem parse_other_method {method rest : List Byte} (fits : text.length ≤ maxDataSize)
    (split : text = method ++ space :: rest) (noSpace : space ∉ method)
    (other : ¬getMethod <+: method) : parse resolves text = .ok .badRequest := by
  have scanned := @scanWord_eq text [] method rest fits split noSpace
  unfold parse
  rw [show (0 : Nat) = ([] : List Byte).length from rfl, scanned]
  exact if_pos other

/-- Without a second space the scan for the URI leaves the array. -/
theorem parse_one_space {method rest : List Byte} (fits : text.length ≤ maxDataSize)
    (split : text = method ++ space :: rest) (noSpace : space ∉ method)
    (isGet : getMethod <+: method) (missing : space ∉ rest) :
    parse resolves text = .error .read := by
  have scanned := @scanWord_eq text [] method rest fits split noSpace
  have behind : text.drop (method.length + 1) = rest := by
    rw [split, List.drop_append]
    simp
  have missed : scanWord text (0 + method.length + 1) = .error .read := by
    apply scanWord_missing
    rw [Nat.zero_add, behind]
    exact missing
  unfold parse
  rw [show (0 : Nat) = ([] : List Byte).length from rfl, scanned]
  refine (if_neg (not_not.mpr isGet)).trans ?_
  rw [List.length_nil, missed]
  rfl

end Scanning

/-! ### Behind the two spaces -/

section Fields

variable {resolves : List Byte → Bool} {text method uri rest : List Byte}

theorem length_splitPort_snd (uri : List Byte) : (splitPort uri).2.length ≤ uri.length := by
  have suffix : (splitPort uri).2 <:+ uri :=
    (List.drop_suffix _ _).trans ((List.dropWhile_suffix _).trans
      ((List.drop_suffix _ _).trans (List.dropWhile_suffix _)))
  exact suffix.length_le

theorem length_splitPort_fst (uri : List Byte) : (splitPort uri).1.length ≤ uri.length + 1 := by
  have parts := congrArg List.length (@List.takeWhile_append_dropWhile _ (· ≠ colon) uri)
  have second := (List.takeWhile_prefix (· ≠ colon) (l := (uri.dropWhile (· ≠ colon)).drop 1)).length_le
  simp only [List.length_append, List.length_drop] at parts second
  simp only [splitPort, List.length_append, List.length_cons]
  omega

theorem copyBytes_eq {count walk : Nat} (inside : walk + count ≤ maxDataSize) :
    copyBytes text count walk = .ok (field text walk count) := by
  induction count generalizing walk with
  | zero => rfl
  | succ count inductionHypothesis =>
      unfold copyBytes readAt
      rw [if_pos (by omega), inductionHypothesis (by omega), field_succ]
      rfl

theorem copyBytes_outside {count walk : Nat} (outside : maxDataSize < walk + count) (some : 0 < count) :
    copyBytes text count walk = .error .read := by
  induction count generalizing walk with
  | zero => exact absurd some (Nat.lt_irrefl 0)
  | succ count inductionHypothesis =>
      unfold copyBytes readAt
      by_cases inside : walk < maxDataSize
      · rw [if_pos inside, inductionHypothesis (by omega) (by omega)]
        rfl
      · rw [if_neg inside]
        rfl

theorem strcpyFrom_eq (buffered : Buffered text) {walk : Nat} (inside : walk < maxDataSize) :
    strcpyFrom text walk = .ok (text.drop walk) := by
  obtain ⟨next, copied⟩ := copyTo_fill buffered.fits inside (Nat.zero_le walk) buffered.noZero
  unfold strcpyFrom
  rw [copied]

theorem strcpyFrom_outside {walk : Nat} (outside : maxDataSize ≤ walk) :
    strcpyFrom text walk = .error .read := by
  unfold strcpyFrom
  rw [Nat.sub_eq_zero_of_le outside]
  rfl

/-- The version does not start with a NUL. -/
theorem version_ne_nil {front : List Byte} (buffered : Buffered text) (split : text = front ++ rest)
    (isReturn : rest.getD 8 0 = carriageReturn) :
    cString (field text front.length 8) ≠ [] := by
  cases rest with
  | nil => exact absurd isReturn (by decide)
  | cons first others =>
      have head : field text front.length 8 = first :: field text (front.length + 1) 7 := by
        have atFront : text.getD front.length 0 = first := by
          rw [split, List.getD_append_right _ _ _ _ (Nat.le_refl _), Nat.sub_self]
          rfl
        rw [field_succ, atFront]
      have notZero : first ≠ 0 := by
        rintro rfl
        apply buffered.noZero
        rw [split]
        exact List.mem_append_right _ List.mem_cons_self
      rw [head, cString, List.takeWhile_cons_of_pos (by simpa using notZero)]
      exact List.cons_ne_nil _ _

/-- The version and the host header, read behind the URI. -/
theorem parseHeaders_eq {front host port : List Byte} (buffered : Buffered text)
    (split : text = front ++ rest) (hasMethod : method ≠ []) (hasUri : uri ≠ []) :
    parseHeaders text front.length method uri host port =
      if front.length + 8 < maxDataSize ∧
          (rest.getD 8 0 = carriageReturn → front.length + 10 < maxDataSize) then
        if RestAccepted rest then .ok (.contact host port) else .ok .badRequest
      else .error .read := by
  have behind : ∀ i, text.getD (front.length + i) 0 = rest.getD i 0 := by
    intro i
    rw [split, List.getD_append_right _ _ _ _ (Nat.le_add_right _ _), Nat.add_sub_cancel_left]
  have dropped : ∀ i, text.drop (front.length + i) = rest.drop i := by
    intro i
    rw [split, List.drop_append]
    simp
  unfold parseHeaders
  by_cases outside : ¬front.length + 8 < maxDataSize
  · rw [if_neg (fun both => outside both.1)]
    by_cases copied : front.length + 8 = maxDataSize
    · rw [copyBytes_eq (Nat.le_of_eq copied)]
      dsimp only [bind, Except.bind]
      unfold readAt
      rw [if_neg outside]
    · rw [copyBytes_outside (by omega) (by decide)]
      rfl
  have version := not_not.mp outside
  have read : readAt text (front.length + 8) = .ok (rest.getD 8 0) := by
    unfold readAt
    rw [if_pos version, behind]
  rw [copyBytes_eq (by omega)]
  dsimp only [bind, Except.bind]
  rw [read]
  dsimp only
  by_cases otherByte : rest.getD 8 0 ≠ carriageReturn
  · rw [if_pos otherByte, if_pos ⟨version, fun same => absurd same otherByte⟩,
      if_neg (fun accepted => otherByte accepted.1)]
  have isReturn := not_not.mp otherByte
  rw [if_neg otherByte]
  by_cases noStart : ¬front.length + 10 < maxDataSize
  · rw [if_neg (fun both => noStart (both.2 isReturn)), strcpyFrom_outside (by omega)]
  have start := not_not.mp noStart
  rw [if_pos ⟨version, fun _ => start⟩, Nat.add_assoc, strcpyFrom_eq buffered start, dropped]
  dsimp only
  by_cases otherHeader : ¬hostHeader <+: rest.drop 10
  · rw [if_pos otherHeader, if_neg (fun accepted => otherHeader accepted.2.1)]
  have isHost := not_not.mp otherHeader
  rw [if_neg otherHeader, List.drop_drop]
  by_cases blank : (rest.drop (10 + 6)).all (· = space) = true
  · rw [if_pos blank, if_neg (fun accepted => accepted.2.2 blank)]
  have accepted : RestAccepted rest := ⟨isReturn, isHost, blank⟩
  have hasVersion := version_ne_nil buffered split isReturn
  have hasHeader : rest.drop 10 ≠ [] := by
    intro isNil
    rw [isNil] at isHost
    exact absurd (List.prefix_nil.mp isHost) (by decide)
  have complete : ¬(method = [] ∨ uri = [] ∨ cString (field text front.length 8) = [] ∨
      rest.drop 10 = []) := by
    rintro (isNil | isNil | isNil | isNil)
    · exact hasMethod isNil
    · exact hasUri isNil
    · exact hasVersion isNil
    · exact hasHeader isNil
  rw [if_neg blank, if_neg complete, if_pos accepted]

theorem length_port_le {uri : List Byte} (isHttp : httpScheme <+: uri) :
    (uriAndPort uri).2.length ≤ uri.length := by
  unfold uriAndPort
  split
  · exact length_splitPort_snd uri
  · have seven : 7 ≤ uri.length := isHttp.length_le
    show 2 ≤ uri.length
    omega

theorem length_authority_le (uri : List Byte) :
    ((uriAndPort uri).1.drop 7).length ≤ uri.length := by
  have cut := length_splitPort_fst uri
  unfold uriAndPort
  split
  · rw [List.length_drop]
    omega
  · rw [List.length_drop]
    exact Nat.sub_le _ _

theorem uriAndPort_ne_nil {uri : List Byte} (isHttp : httpScheme <+: uri) :
    (uriAndPort uri).1 ≠ [] := by
  unfold uriAndPort
  split
  · simp [splitPort]
  · rintro rfl
    exact absurd (List.prefix_nil.mp isHttp) (by decide)

/-- A URI that is accepted leads to the version with its host and port, and any other
is answered. -/
theorem parseUri_eq {walk : Nat} (shortUri : uri.length < maxDataSize) :
    parseUri resolves text walk method uri =
      if ¬UriAccepted resolves uri then .ok .badRequest
      else parseHeaders text (walk + 1) method (uriAndPort uri).1 (hostOf uri) (uriAndPort uri).2 := by
  unfold parseUri
  by_cases otherScheme : ¬httpScheme <+: uri
  · rw [if_pos otherScheme, if_pos (fun accepted => otherScheme accepted.1)]
  have isHttp := not_not.mp otherScheme
  have portCopied : strcpy (uriAndPort uri).2 = .ok (uriAndPort uri).2 :=
    if_pos (Nat.lt_of_le_of_lt (length_port_le isHttp) shortUri)
  have hostCopied : strcpy ((uriAndPort uri).1.drop 7) = .ok ((uriAndPort uri).1.drop 7) :=
    if_pos (Nat.lt_of_le_of_lt (length_authority_le uri) shortUri)
  rw [if_neg otherScheme, portCopied]
  dsimp only [bind, Except.bind]
  by_cases badPort : ¬(uriAndPort uri).2.all isDigit = true
  · rw [if_pos badPort, if_pos (fun accepted => badPort accepted.2.1)]
  rw [if_neg badPort, hostCopied]
  dsimp only
  by_cases unknownHost : ¬resolves (hostOf uri) = true
  · have refused : ¬UriAccepted resolves uri := fun accepted => unknownHost accepted.2.2
    rw [if_pos refused]
    exact if_pos unknownHost
  have accepted : UriAccepted resolves uri := ⟨isHttp, not_not.mp badPort, not_not.mp unknownHost⟩
  rw [if_neg (not_not.mpr accepted)]
  exact if_neg unknownHost

/-- Behind the second space the URI decides first, then the place of the version, then the rest. -/
theorem parse_two_spaces (buffered : Buffered text)
    (split : text = method ++ space :: (uri ++ space :: rest)) (noSpace : space ∉ method)
    (noSpaceUri : space ∉ uri) (isGet : getMethod <+: method) :
    parse resolves text =
      if ¬UriAccepted resolves uri then .ok .badRequest
      else if ¬Within method uri rest then .error .read
      else if RestAccepted rest then .ok (.contact (hostOf uri) (uriAndPort uri).2)
      else .ok .badRequest := by
  have fits := Nat.le_of_lt buffered.fits
  have scanned := @scanWord_eq text [] method (uri ++ space :: rest) fits split noSpace
  have front : text = (method ++ [space]) ++ uri ++ space :: rest := by
    rw [split]
    simp
  have scannedUri := scanWord_eq fits front noSpaceUri
  have place : (method ++ [space]).length = 0 + method.length + 1 := by simp
  rw [place] at scannedUri
  have headers : text = (method ++ [space] ++ uri ++ [space]) ++ rest := by
    rw [split]
    simp
  have start : (method ++ [space] ++ uri ++ [space]).length =
      0 + method.length + 1 + uri.length + 1 := by
    simp only [List.length_append, List.length_cons, List.length_nil]
    omega
  have hasMethod : method ≠ [] := by
    rintro rfl
    exact absurd (List.prefix_nil.mp isGet) (by decide)
  unfold parse
  rw [show (0 : Nat) = ([] : List Byte).length from rfl, scanned]
  refine (if_neg (not_not.mpr isGet)).trans ?_
  rw [List.length_nil, scannedUri]
  show parseUri resolves text (0 + method.length + 1 + uri.length) method uri = _
  have shortUri : uri.length < maxDataSize := by
    have total := congrArg List.length split
    simp only [List.length_append, List.length_cons] at total
    have textFits := buffered.fits
    omega
  rw [parseUri_eq shortUri]
  by_cases refused : ¬UriAccepted resolves uri
  · rw [if_pos refused, if_pos refused]
  have isHttp := (not_not.mp refused).1
  rw [if_neg refused, if_neg refused, ← start,
    parseHeaders_eq buffered headers hasMethod (uriAndPort_ne_nil isHttp), start]
  have sameWithin : (0 + method.length + 1 + uri.length + 1 + 8 < maxDataSize ∧
      (rest.getD 8 0 = carriageReturn →
        0 + method.length + 1 + uri.length + 1 + 10 < maxDataSize)) ↔
      Within method uri rest := by
    unfold Within
    constructor
    · rintro ⟨version, later⟩
      exact ⟨by omega, fun isReturn => by have := later isReturn; omega⟩
    · rintro ⟨version, later⟩
      exact ⟨by omega, fun isReturn => by have := later isReturn; omega⟩
  simp only [sameWithin]
  by_cases within : Within method uri rest
  · rw [if_pos within, if_neg (not_not.mpr within)]
  · rw [if_neg within, if_pos within]

end Fields

end EE323.Proxy

/-
Module: EE323.Proxy.Redirect
Purpose: The blacklist of the proxy and the redirection to `warning.or.kr`.  The lines of standard
  input are joined in one array, and a host is redirected when it occurs anywhere in that text.
Main exports: loadBlacklist, redirect, handle, listedNames, blacklistText, infix_blacklistText,
  redirects_listed, part_of_name_redirected
-/
import Mathlib.Data.List.Infix
import EE323.Lib.Fgets
import EE323.Proxy.Bounds

namespace EE323.Proxy

open EE323.Lib

/-- Loading: each `fgets` into `blacklist` is followed by `strcat` onto `tot_blacklist`, which is
not initialised and starts with some string.  Where `poll` reports no input, none is read. -/
def loadBlacklist (initial input : List Byte) : Except Fault (List Byte) :=
  (fgetsAll lineFeed (maxDataSize - 1) input).foldlM
    (fun totBlacklist blacklist => strcat totBlacklist (cString blacklist)) initial

/-- The host and port that are contacted, and the request that is sent there. -/
structure Outgoing where
  host : List Byte
  port : List Byte
  totalBuf : List Byte
deriving DecidableEq, Repr

def warningHost : List Byte := "warning.or.kr".toList.map Char.toUInt8

/-- `new_warning`. -/
def newWarning : List Byte :=
  "GET http://warning.or.kr HTTP/1.0\r\n\r\nHost: warning.or.kr\r\n\r\n".toList.map Char.toUInt8

def warning : Outgoing := ⟨warningHost, ascii ['8', '0'], newWarning⟩

/-- The redirection.  `strstr` finds the host anywhere in the text. -/
def redirect (totBlacklist : List Byte) (outgoing : Outgoing) : Outgoing :=
  if outgoing.host <:+: totBlacklist then warning else outgoing

/-- What the child process contacts for a request, if it does not answer with the 400 response. -/
def handle (resolves : List Byte → Bool) (totBlacklist : List Byte) (chunks : List Chunk) :
    Except Fault (Option Outgoing) := do
  let totalBuf ← receive chunks 0 []
  match ← parse resolves totalBuf with
  | .badRequest => .ok none
  | .contact host port => .ok (some (redirect totBlacklist ⟨host, port, totalBuf⟩))

/-- A line without the scheme that it may be written with. -/
def nameOf (line : List Byte) : List Byte :=
  if httpScheme <+: line then line.drop httpScheme.length else line

/-- The names that the lines list. -/
def listedNames (input : List Byte) : List (List Byte) :=
  ((linesOf lineFeed input).map nameOf).filter (· ≠ [])

/-- The text that the loading appends. -/
def blacklistText (input : List Byte) : List Byte :=
  (fgetsAll lineFeed (maxDataSize - 1) input).flatMap cString

/-! ### Loading -/

section Loading

theorem foldlM_strcat (lines : List (List Byte)) {initial : List Byte}
    (inArray : initial.length < maxDataSize) :
    lines.foldlM (fun tot line => strcat tot (cString line)) initial =
      if initial.length + (lines.flatMap cString).length < maxDataSize then
        .ok (initial ++ lines.flatMap cString)
      else .error .write := by
  induction lines generalizing initial with
  | nil =>
      rw [List.flatMap_nil, List.append_nil]
      exact (if_pos inArray).symm
  | cons line rest inductionHypothesis =>
      rw [List.foldlM_cons, List.flatMap_cons, List.length_append, ← Nat.add_assoc,
        ← List.append_assoc]
      by_cases fits : initial.length + (cString line).length < maxDataSize
      · have copied : strcat initial (cString line) = .ok (initial ++ cString line) := if_pos fits
        rw [copied]
        dsimp only [bind, Except.bind]
        rw [inductionHypothesis (by rwa [List.length_append]), List.length_append]
      · have overflow : strcat initial (cString line) = .error .write := if_neg fits
        rw [overflow, if_neg (by omega)]
        rfl

theorem loadBlacklist_eq {initial : List Byte} (inArray : initial.length < maxDataSize)
    (input : List Byte) :
    loadBlacklist initial input =
      if initial.length + (blacklistText input).length < maxDataSize then
        .ok (initial ++ blacklistText input)
      else .error .write :=
  foldlM_strcat _ inArray

/-- Every line without a NUL is in the text, also where it was read in several pieces. -/
theorem line_infix_blacklistText {input line : List Byte} (listed : line ∈ linesOf lineFeed input)
    (noZero : 0 ∉ line) : line <:+: blacklistText input := by
  have positive : 0 < maxDataSize - 1 := by decide
  induction input using lines_induction lineFeed with
  | last other noNewline =>
      rw [linesOf_last noNewline] at listed
      obtain rfl := List.mem_singleton.mp listed
      have whole := @flatten_fgetsAll _ _ lineFeed _ positive line
      unfold blacklistText
      rw [flatMap_cString (by rwa [whole]), whole]
  | line first rest noNewline inductionHypothesis =>
      rw [linesOf_line rest noNewline] at listed
      obtain ⟨pieces, flat, calls⟩ := fgetsAll_line positive rest noNewline
      have text : blacklistText (first ++ lineFeed :: rest) =
          pieces.flatMap cString ++ blacklistText rest := by
        unfold blacklistText
        rw [calls, List.flatMap_append]
      rw [text]
      rcases List.mem_cons.mp listed with rfl | later
      · have clean : 0 ∉ pieces.flatten := by
          rw [flat]
          exact fun member => (List.mem_append.mp member).elim noZero (by decide)
        rw [flatMap_cString clean, flat, List.append_assoc]
        exact (List.prefix_append _ _).isInfix
      · exact (inductionHypothesis later).trans (List.suffix_append _ _).isInfix

/-- Every listed name that can be a host is found. -/
theorem infix_blacklistText {input host : List Byte} (listed : host ∈ listedNames input)
    (noZero : 0 ∉ host) : host <:+: blacklistText input := by
  obtain ⟨named, _⟩ := List.mem_filter.mp listed
  obtain ⟨line, isLine, rfl⟩ := List.mem_map.mp named
  unfold nameOf at noZero ⊢
  split at noZero
  next isHttp =>
    rw [if_pos isHttp]
    obtain ⟨name, rfl⟩ := isHttp
    rw [List.drop_left] at noZero ⊢
    have lineNoZero : 0 ∉ httpScheme ++ name :=
      fun member => (List.mem_append.mp member).elim (by decide) noZero
    exact (List.suffix_append _ _).isInfix.trans (line_infix_blacklistText isLine lineNoZero)
  next notHttp =>
    rw [if_neg notHttp]
    exact line_infix_blacklistText isLine noZero

end Loading

/-! ### Requests -/

section Requests

variable {resolves : List Byte → Bool} {text host port : List Byte}

/-- The text of the redirection is itself no request that the proxy lets through. -/
theorem newWarning_not_contact : parse resolves newWarning ≠ .ok (.contact host port) := by
  have buffered : Buffered newWarning := ⟨by decide, by decide⟩
  have split : newWarning = getMethod ++ space :: ((httpScheme ++ warningHost) ++ space ::
      newWarning.drop 25) := by decide
  rw [parse_two_spaces buffered split (by decide) (by decide) List.prefix_rfl]
  intro contacted
  split at contacted
  · cases contacted
  · split at contacted
    · cases contacted
    · rw [if_neg (by decide)] at contacted
      cases contacted

/-- The characters of the host are characters of the request. -/
theorem zero_not_mem_host (buffered : Buffered text)
    (parsed : parse resolves text = .ok (.contact host port)) : 0 ∉ host := by
  obtain ⟨method, uri, rest, split, noSpace, noSpaceUri, isGet, accepted, within, restAccepted⟩ :=
    (parse_contact_iff buffered).mp ⟨host, port, parsed⟩
  rw [parse_two_spaces buffered split noSpace noSpaceUri isGet, if_neg (not_not.mpr accepted),
    if_neg (not_not.mpr within), if_pos restAccepted] at parsed
  cases parsed
  intro zero
  have inUri : 0 ∈ (uriAndPort uri).1 :=
    List.mem_of_mem_drop ((List.takeWhile_prefix _).subset zero)
  have noZero : 0 ∉ uri := by
    intro member
    apply buffered.noZero
    rw [split]
    simp [member]
  unfold uriAndPort at inUri
  split at inUri
  · rcases List.mem_append.mp inUri with first | second
    · exact noZero ((List.takeWhile_prefix _).subset first)
    · rcases List.mem_cons.mp second with isColon | second
      · exact absurd isColon (by decide)
      · have later := List.mem_of_mem_drop ((List.takeWhile_prefix _).subset second)
        exact noZero ((List.dropWhile_suffix _).subset later)
  · exact noZero inUri

end Requests

/-- The blacklist is loaded, and the request is redirected if its host is one of the names, and goes
to its host otherwise. -/
def RedirectsListed (resolves : List Byte → Bool) (initial input : List Byte) (chunks : List Chunk)
    (outgoing : Outgoing) : Prop :=
  ∃ totBlacklist, loadBlacklist initial input = .ok totBlacklist ∧
    handle resolves totBlacklist chunks =
      .ok (some (if outgoing.host ∈ listedNames input then warning else outgoing))

section Matching

variable {resolves : List Byte → Bool} {initial input : List Byte} {chunks : List Chunk}
  {outgoing : Outgoing}

/-- A request that the proxy accepts is redirected exactly for a listed host if and only if the
blacklist fits its array and the host is listed or occurs nowhere in that array. -/
theorem redirects_listed (inArray : initial.length < maxDataSize)
    (received : receive chunks 0 [] = .ok outgoing.totalBuf)
    (parsed : parse resolves outgoing.totalBuf = .ok (.contact outgoing.host outgoing.port)) :
    RedirectsListed resolves initial input chunks outgoing ↔
      initial.length + (blacklistText input).length < maxDataSize ∧
        (outgoing.host ∈ listedNames input ∨ ¬outgoing.host <:+: initial ++ blacklistText input) := by
  obtain ⟨_, _, sized, isText⟩ := receive_eq_ok.mp received
  have buffered : Buffered outgoing.totalBuf := isText ▸ buffered_of_sized sized
  have handled (totBlacklist : List Byte) :
      handle resolves totBlacklist chunks = .ok (some (redirect totBlacklist outgoing)) := by
    unfold handle
    rw [received]
    dsimp only [bind, Except.bind]
    rw [parsed]
  have other : outgoing ≠ warning := by
    intro same
    rw [same] at parsed
    exact newWarning_not_contact parsed
  unfold RedirectsListed
  rw [loadBlacklist_eq inArray]
  constructor
  · rintro ⟨totBlacklist, loaded, decided⟩
    split at loaded
    · rename_i fits
      obtain rfl := Except.ok.inj loaded
      refine ⟨fits, or_iff_not_imp_left.mpr fun notListed occurs => other ?_⟩
      rw [handled, redirect, if_pos occurs, if_neg notListed] at decided
      exact (Option.some.inj (Except.ok.inj decided)).symm
    · cases loaded
  · rintro ⟨fits, exact⟩
    refine ⟨_, if_pos fits, ?_⟩
    rw [handled, redirect]
    congr 2
    rcases exact with listed | absent
    · have found := infix_blacklistText listed (zero_not_mem_host buffered parsed)
      rw [if_pos listed, if_pos (found.trans (List.suffix_append _ _).isInfix)]
    · have notListed : outgoing.host ∉ listedNames input := fun listed =>
        absent ((infix_blacklistText listed (zero_not_mem_host buffered parsed)).trans
          (List.suffix_append _ _).isInfix)
      rw [if_neg notListed, if_neg absent]

end Matching

/-- A blacklist of one line. -/
def oneName : List Byte := "http://a.com.kr\n".toList.map Char.toUInt8

/-- The text of a request for a host. -/
def requestFor (host : List Char) : List Byte :=
  ascii ("GET http://".toList ++ host ++ " HTTP/1.0\r\nHost: ".toList ++ host ++ "\r\n\r\n".toList)

def listedRequest : Chunk := ⟨requestFor "a.com.kr".toList, by decide, by decide⟩

def partRequest : Chunk := ⟨requestFor "com".toList, by decide, by decide⟩

/-- The listed host is redirected. -/
theorem redirects_listed_name :
    RedirectsListed (fun _ => true) [] oneName [listedRequest]
      ⟨ascii "a.com.kr".toList, ascii ['8', '0'], listedRequest.bytes⟩ := by
  refine (redirects_listed (by decide) (by decide +kernel) (by decide +kernel)).mpr ⟨?_, .inl ?_⟩
  · decide +kernel
  · decide +kernel

/-- A host that is a part of the listed name is redirected as well. -/
theorem part_of_name_redirected :
    listedNames oneName = [ascii "a.com.kr".toList] ∧
      receive [partRequest] 0 [] = .ok partRequest.bytes ∧
      parse (fun _ => true) partRequest.bytes =
        .ok (.contact (ascii "com".toList) (ascii ['8', '0'])) ∧
      loadBlacklist [] oneName = .ok oneName ∧
      handle (fun _ => true) oneName [partRequest] = .ok (some warning) ∧
      ¬RedirectsListed (fun _ => true) [] oneName [partRequest]
        ⟨ascii "com".toList, ascii ['8', '0'], partRequest.bytes⟩ := by
  have names : listedNames oneName = [ascii "a.com.kr".toList] := by decide +kernel
  have loads : loadBlacklist [] oneName = .ok oneName := by decide +kernel
  have redirected : handle (fun _ => true) oneName [partRequest] = .ok (some warning) := by
    decide +kernel
  refine ⟨names, by decide +kernel, by decide +kernel, loads, redirected, ?_⟩
  rintro ⟨totBlacklist, loaded, decided⟩
  obtain rfl := Except.ok.inj (loads.symm.trans loaded)
  rw [redirected, names, if_neg (by decide)] at decided
  exact absurd (Option.some.inj (Except.ok.inj decided)) (by decide +kernel)

end EE323.Proxy

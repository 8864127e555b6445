/-
Module: EE323.Proxy.Accepting
Purpose: Well-formed requests, and when the proxy tells them from others.  It reads the port of a URI
  only at its end and the host header only in the first line, and it does not look at the version,
  the line feed behind it or the rest of the method.
Main exports: Request, uriAccepted_iff, Decides, accepts_well_formed
-/
import EE323.Proxy.Bounds

namespace EE323.Proxy

open EE323.Lib

/-- A well-formed request: GET with an absolute URI, a version, and header lines among which is a
host header that is not blank. -/
structure Request where
  host : List Byte
  port : Option (List Byte)
  path : Option (List Byte)
  major : Byte
  minor : Byte
  headers : List (List Byte)
  hasHost : host ≠ []
  hostChars : ∀ c ∈ host, c ∉ [colon, slash, space, carriageReturn, lineFeed]
  portDigits : ∀ digits ∈ port, digits ≠ [] ∧ ∀ c ∈ digits, isDigit c = true
  pathChars : ∀ text ∈ path, ∀ c ∈ text, c ∉ [space, carriageReturn, lineFeed]
  versionDigits : isDigit major = true ∧ isDigit minor = true
  lines : ∀ line ∈ headers, line ≠ [] ∧ carriageReturn ∉ line ∧ lineFeed ∉ line
  hostLine : ∃ value, hostHeader ++ value ∈ headers ∧ ∃ c ∈ value, c ≠ space

namespace Request

def portText (request : Request) : List Byte :=
  match request.port with
  | some digits => colon :: digits
  | none => []

def pathText (request : Request) : List Byte :=
  match request.path with
  | some text => slash :: text
  | none => []

def uri (request : Request) : List Byte :=
  httpScheme ++ (request.host ++ (request.portText ++ request.pathText))

def lineEnd : List Byte := [carriageReturn, lineFeed]

/-- The header block with the blank line behind it. -/
def block (request : Request) : List Byte :=
  request.headers.flatMap (fun line => line ++ lineEnd) ++ lineEnd

/-- What follows the URI and its space. -/
def rest (request : Request) : List Byte :=
  ascii ['H', 'T', 'T', 'P', '/'] ++ [request.major, 0x2e, request.minor] ++ lineEnd ++ request.block

def bytes (request : Request) : List Byte :=
  getMethod ++ space :: (request.uri ++ space :: request.rest)

/-- The host header is the first line. -/
def HostFirst (request : Request) : Prop := ∃ line ∈ request.headers.head?, hostHeader <+: line

instance (request : Request) : Decidable request.HostFirst :=
  inferInstanceAs (Decidable (∃ line ∈ request.headers.head?, hostHeader <+: line))

/-- What the proxy takes for the port are digits, and what it takes for the host resolves: there is
no path, or the path alone has no colon or not just one, or what follows its one colon are digits,
or with a port the path has a colon and host and port together resolve. -/
def PortReadable (resolves : List Byte → Bool) (request : Request) : Prop :=
  match request.port, request.path with
  | _, none => True
  | none, some path =>
      path.count colon = 1 → ((path.dropWhile (· ≠ colon)).drop 1).all isDigit = true
  | some port, some path => colon ∈ path ∧ resolves (request.host ++ colon :: port) = true

end Request

/-! ### The URI -/

section Uri

theorem dropWhile_colon {front back : List Byte} (noColon : colon ∉ front) :
    (front ++ colon :: back).takeWhile (· ≠ colon) = front ∧
      (front ++ colon :: back).dropWhile (· ≠ colon) = colon :: back := by
  have all : ∀ c ∈ front, decide (c ≠ colon) = true := by
    intro c member
    exact decide_eq_true fun same => noColon (same ▸ member)
  constructor
  · rw [List.takeWhile_append_of_pos all]
    simp
  · rw [List.dropWhile_append_of_pos all]
    simp

/-- The port starts at the second colon. -/
theorem splitPort_eq {first second port : List Byte} (noFirst : colon ∉ first)
    (noSecond : colon ∉ second) :
    splitPort (first ++ colon :: (second ++ colon :: port)) = (first ++ colon :: second, port) := by
  obtain ⟨takeFirst, dropFirst⟩ := @dropWhile_colon first (second ++ colon :: port) noFirst
  obtain ⟨takeSecond, dropSecond⟩ := @dropWhile_colon second port noSecond
  unfold splitPort
  dsimp only
  rw [takeFirst, dropFirst, List.drop_one, List.tail_cons, takeSecond, dropSecond]
  rfl

/-- The host ends at the first slash behind the scheme. -/
theorem takeWhile_slash {front back : List Byte} (noSlash : slash ∉ front)
    (ends : back = [] ∨ ∃ text, back = slash :: text) :
    (front ++ back).takeWhile (· ≠ slash) = front := by
  have all : ∀ c ∈ front, decide (c ≠ slash) = true := by
    intro c member
    exact decide_eq_true fun same => noSlash (same ▸ member)
  rw [List.takeWhile_append_of_pos all]
  rcases ends with rfl | ⟨text, rfl⟩
  · simp
  · simp

variable {resolves : List Byte → Bool}

theorem count_httpScheme (text : List Byte) :
    (httpScheme ++ text).count colon = text.count colon + 1 := by
  rw [List.count_append, Nat.add_comm]
  congr 1

/-- Unless there is one more colon, the URI is kept whole. -/
theorem uriAndPort_plain {text : List Byte} (plain : text.count colon ≠ 1) :
    uriAndPort (httpScheme ++ text) = (httpScheme ++ text, ascii ['8', '0']) := by
  unfold uriAndPort
  rw [if_neg]
  rw [count_httpScheme]
  omega

/-- With one more colon, what follows it is the port. -/
theorem uriAndPort_cut {front port : List Byte} (noFront : colon ∉ front) (noPort : colon ∉ port) :
    uriAndPort (httpScheme ++ (front ++ colon :: port)) = (httpScheme ++ front, port) := by
  have scheme : ∀ text, httpScheme ++ text =
      ascii ['h', 't', 't', 'p'] ++ colon :: (ascii ['/', '/'] ++ text) := fun _ => rfl
  unfold uriAndPort
  rw [if_pos]
  · rw [scheme, ← List.append_assoc, splitPort_eq (by decide), scheme]
    simp only [List.mem_append, not_or]
    exact ⟨by decide, noFront⟩
  · rw [count_httpScheme, List.count_append, List.count_cons_self, List.count_eq_zero.mpr noFront,
      List.count_eq_zero.mpr noPort]

/-- The host is looked for behind the scheme of what is kept. -/
theorem hostOf_eq {uri text port : List Byte} (cut : uriAndPort uri = (httpScheme ++ text, port)) :
    hostOf uri = text.takeWhile (· ≠ slash) := by
  have dropped : (httpScheme ++ text).drop 7 = text := List.drop_left' rfl
  unfold hostOf
  rw [cut, dropped]

/-- What decides about a URI when it is known where it is cut. -/
theorem uriAccepted_of_cut {uri text port : List Byte} (isHttp : httpScheme <+: uri)
    (cut : uriAndPort uri = (httpScheme ++ text, port)) :
    UriAccepted resolves uri ↔
      port.all isDigit = true ∧ resolves (text.takeWhile (· ≠ slash)) = true := by
  unfold UriAccepted
  rw [hostOf_eq cut, cut]
  constructor
  · exact fun accepted => accepted.2
  · exact fun tests => ⟨isHttp, tests⟩

theorem not_mem_digits {digits : List Byte} (allDigits : ∀ c ∈ digits, isDigit c = true) :
    colon ∉ digits ∧ slash ∉ digits :=
  ⟨fun member => absurd (allDigits _ member) (by decide),
    fun member => absurd (allDigits _ member) (by decide)⟩

section Forms

variable {host digits path : List Byte}

theorem cut_host (noColon : colon ∉ host) :
    uriAndPort (httpScheme ++ host) = (httpScheme ++ host, ascii ['8', '0']) := by
  apply uriAndPort_plain
  rw [List.count_eq_zero.mpr noColon]
  decide

/-- With a path alone, a single colon in it cuts the URI there. -/
theorem cut_path (noColon : colon ∉ host) (noSlash : slash ∉ host) :
    ∃ text port, uriAndPort (httpScheme ++ (host ++ slash :: path)) = (httpScheme ++ text, port) ∧
      text.takeWhile (· ≠ slash) = host ∧
      port = if path.count colon = 1 then (path.dropWhile (· ≠ colon)).drop 1
        else ascii ['8', '0'] := by
  by_cases one : path.count colon = 1
  · have hasColon : colon ∈ path := List.count_pos_iff.mp (by omega)
    obtain ⟨front, back, rfl, noFront⟩ := List.eq_append_cons_of_mem hasColon
    have noBack : colon ∉ back := by
      rw [List.count_append, List.count_cons_self, List.count_eq_zero.mpr noFront] at one
      exact List.count_eq_zero.mp (by omega)
    have noFirst : colon ∉ host ++ slash :: front := by
      simp only [List.mem_append, List.mem_cons, not_or]
      exact ⟨noColon, by decide, noFront⟩
    have joined : host ++ slash :: (front ++ colon :: back) =
        (host ++ slash :: front) ++ colon :: back := by simp
    refine ⟨host ++ slash :: front, back, ?_, takeWhile_slash noSlash (.inr ⟨front, rfl⟩), ?_⟩
    · rw [joined, uriAndPort_cut noFirst noBack]
    · rw [if_pos one, (dropWhile_colon noFront).2, List.drop_one, List.tail_cons]
  · have plain : (host ++ slash :: path).count colon ≠ 1 := by
      rw [List.count_append, List.count_eq_zero.mpr noColon, List.count_cons_of_ne (by decide),
        Nat.zero_add]
      exact one
    exact ⟨host ++ slash :: path, _, uriAndPort_plain plain,
      takeWhile_slash noSlash (.inr ⟨path, rfl⟩), (if_neg one).symm⟩

/-- With a port and a path that has a colon nothing is cut, and the port belongs to the host. -/
theorem cut_port_path (noSlash : slash ∉ host) (allDigits : ∀ c ∈ digits, isDigit c = true)
    (hasColon : colon ∈ path) :
    ∃ text, uriAndPort (httpScheme ++ (host ++ (colon :: digits ++ slash :: path))) =
        (httpScheme ++ text, ascii ['8', '0']) ∧
      text.takeWhile (· ≠ slash) = host ++ colon :: digits := by
  have joined : host ++ (colon :: digits ++ slash :: path) =
      (host ++ colon :: digits) ++ slash :: path := by simp
  have noFirst : slash ∉ host ++ colon :: digits := by
    simp only [List.mem_append, List.mem_cons, not_or]
    exact ⟨noSlash, by decide, (not_mem_digits allDigits).2⟩
  have several : (host ++ colon :: digits ++ slash :: path).count colon ≠ 1 := by
    have some := List.count_pos_iff.mpr hasColon
    rw [List.count_append, List.count_append, List.count_cons_self,
      List.count_cons_of_ne (by decide)]
    omega
  rw [joined]
  exact ⟨_, uriAndPort_plain several, takeWhile_slash noFirst (.inr ⟨path, rfl⟩)⟩

/-- With a port and another path, the path is read as a part of the port, which then is none. -/
theorem cut_port_plain_path (noColon : colon ∉ host) (allDigits : ∀ c ∈ digits, isDigit c = true)
    (noPath : colon ∉ path) :
    ∃ port, uriAndPort (httpScheme ++ (host ++ (colon :: digits ++ slash :: path))) =
        (httpScheme ++ host, port) ∧ ¬port.all isDigit = true := by
  have noBack : colon ∉ digits ++ slash :: path := by
    simp only [List.mem_append, List.mem_cons, not_or]
    exact ⟨(not_mem_digits allDigits).1, by decide, noPath⟩
  refine ⟨_, uriAndPort_cut noColon noBack, fun allDigit => ?_⟩
  have slashDigit := List.all_eq_true.mp allDigit slash
    (List.mem_append_right _ List.mem_cons_self)
  exact absurd slashDigit (by decide)

end Forms

/-- The URI of a well-formed request is accepted when its host resolves and its port is read as
such. -/
theorem uriAccepted_iff (request : Request) (known : resolves request.host = true) :
    UriAccepted resolves request.uri ↔ request.PortReadable resolves := by
  have noColon : colon ∉ request.host := fun member =>
    request.hostChars _ member (by decide)
  have noSlash : slash ∉ request.host := fun member =>
    request.hostChars _ member (by decide)
  have alone := takeWhile_slash noSlash (.inl rfl)
  rw [List.append_nil] at alone
  have isHttp (text : List Byte) : httpScheme <+: httpScheme ++ text := List.prefix_append _ _
  have isDefault : (ascii ['8', '0']).all isDigit = true := by decide
  unfold Request.uri Request.portText Request.pathText Request.PortReadable
  cases hasPort : request.port with
  | none =>
      dsimp only
      rw [List.nil_append]
      cases hasPath : request.path with
      | none =>
          dsimp only
          rw [List.append_nil, uriAccepted_of_cut (isHttp _) (cut_host noColon), alone, known]
          simp [isDefault]
      | some path =>
          dsimp only
          obtain ⟨text, port, cut, isHost, isPort⟩ := @cut_path request.host path noColon noSlash
          rw [uriAccepted_of_cut (isHttp _) cut, isHost, known, isPort]
          split
          · rename_i one
            simp [one]
          · rename_i other
            simp [other, isDefault]
  | some digits =>
      dsimp only
      obtain ⟨_, allDigits⟩ := request.portDigits digits hasPort
      cases hasPath : request.path with
      | none =>
          dsimp only
          rw [List.append_nil, uriAccepted_of_cut (isHttp _)
            (uriAndPort_cut noColon (not_mem_digits allDigits).1), alone, known]
          simpa using allDigits
      | some path =>
          dsimp only
          by_cases hasColon : colon ∈ path
          · obtain ⟨text, cut, isHost⟩ := cut_port_path noSlash allDigits hasColon
            rw [uriAccepted_of_cut (isHttp _) cut, isHost]
            simp [hasColon, isDefault]
          · obtain ⟨port, cut, noDigits⟩ := cut_port_plain_path noColon allDigits hasColon
            rw [uriAccepted_of_cut (isHttp _) cut]
            constructor
            · exact fun tests => absurd tests.1 noDigits
            · exact fun readable => absurd readable.1 hasColon

end Uri

/-! ### The headers -/

theorem prefix_of_prefix_append {wanted front back : List Byte} {stop : Byte}
    (notIn : stop ∉ wanted) (isPrefix : wanted <+: front ++ stop :: back) : wanted <+: front := by
  apply List.prefix_of_prefix_length_le isPrefix (List.prefix_append _ _)
  by_contra long
  obtain ⟨later, same⟩ := isPrefix
  have here : (wanted ++ later)[front.length]? = some stop := by
    rw [same]
    simp
  rw [List.getElem?_append_left (by omega)] at here
  exact notIn (List.mem_of_getElem? here)

/-- The rest of a well-formed request is accepted exactly when the host header is its first line. -/
theorem restAccepted_iff (request : Request) : RestAccepted request.rest ↔ request.HostFirst := by
  obtain ⟨value, listed, _⟩ := request.hostLine
  obtain ⟨first, more, headers⟩ := List.exists_cons_of_ne_nil (List.ne_nil_of_mem listed)
  have block : request.block = first ++ carriageReturn :: (lineFeed ::
      (more.flatMap (fun line => line ++ Request.lineEnd) ++ Request.lineEnd)) := by
    unfold Request.block
    rw [headers, List.flatMap_cons, List.append_assoc, List.append_assoc]
    rfl
  have start : request.rest.drop 10 = request.block := rfl
  have later : request.rest.drop 16 = request.block.drop 6 := rfl
  have hostFirst : request.HostFirst ↔ hostHeader <+: first := by
    unfold Request.HostFirst
    rw [headers]
    simp
  rw [hostFirst]
  constructor
  · rintro ⟨_, isHost, _⟩
    rw [start, block] at isHost
    exact prefix_of_prefix_append (by decide) isHost
  · intro isHost
    refine ⟨rfl, ?_, ?_⟩
    · rw [start, block]
      exact isHost.trans (List.prefix_append _ _)
    · have six : 6 ≤ first.length := isHost.length_le
      have hasReturn : carriageReturn ∈ request.rest.drop 16 := by
        rw [later, block, List.drop_append_of_le_length six]
        exact List.mem_append_right _ List.mem_cons_self
      intro blank
      exact absurd (List.all_eq_true.mp blank carriageReturn hasReturn) (by decide)

/-! ### Acceptance -/

def WellFormed (text : List Byte) : Prop := ∃ request : Request, request.bytes = text

/-- The proxy goes on with a request that is well-formed, and answers any other with the 400
response. -/
def Decides (resolves : List Byte → Bool) (chunks : List Chunk) (text : List Byte) : Prop :=
  (∃ host port, serve resolves chunks = .ok (.contact host port)) ∧ WellFormed text ∨
    serve resolves chunks = .ok .badRequest ∧ ¬WellFormed text

section Deciding

variable {resolves : List Byte → Bool} {text : List Byte}

theorem space_not_mem_uri (request : Request) : space ∉ request.uri := by
  have noHost : space ∉ request.host := fun member => request.hostChars _ member (by decide)
  have noPort : space ∉ request.portText := by
    unfold Request.portText
    cases hasPort : request.port with
    | none => exact List.not_mem_nil
    | some digits =>
        have allDigits := (request.portDigits digits hasPort).2
        simp only [List.mem_cons, not_or]
        exact ⟨by decide, fun member => absurd (allDigits _ member) (by decide)⟩
  have noPath : space ∉ request.pathText := by
    unfold Request.pathText
    cases hasPath : request.path with
    | none => exact List.not_mem_nil
    | some path =>
        have pathChars := request.pathChars path hasPath
        simp only [List.mem_cons, not_or]
        exact ⟨by decide, fun member => pathChars _ member (by decide)⟩
  unfold Request.uri
  simp only [List.mem_append, not_or]
  exact ⟨by decide, noHost, noPort, noPath⟩

/-- What the proxy does with a well-formed request. -/
theorem parse_request {request : Request} (buffered : Buffered request.bytes) :
    parse resolves request.bytes =
      if UriAccepted resolves request.uri ∧ request.HostFirst then
        .ok (.contact (hostOf request.uri) (uriAndPort request.uri).2)
      else .ok .badRequest := by
  have within : Within getMethod request.uri request.rest := by
    have total : request.bytes.length = 17 + request.uri.length +
        (request.headers.flatMap fun line => line ++ Request.lineEnd).length := by
      simp only [Request.bytes, Request.rest, Request.block, List.length_append, List.length_cons,
        List.length_nil, getMethod, ascii, List.length_map, Request.lineEnd]
      omega
    have fits := buffered.fits
    have three : getMethod.length = 3 := rfl
    constructor
    · omega
    · intro _
      omega
  rw [parse_two_spaces buffered rfl (by decide) (space_not_mem_uri request) List.prefix_rfl,
    if_neg (not_not.mpr within)]
  simp only [restAccepted_iff]
  by_cases accepted : UriAccepted resolves request.uri
  · by_cases first : request.HostFirst
    · rw [if_neg (not_not.mpr accepted), if_pos first, if_pos ⟨accepted, first⟩]
    · rw [if_neg (not_not.mpr accepted), if_neg first, if_neg fun both => first both.2]
  · rw [if_pos accepted, if_neg fun both => accepted both.1]

theorem serve_eq {chunks : List Chunk} (arrives : receive chunks 0 [] = .ok text) :
    serve resolves chunks = parse resolves text := by
  unfold serve
  rw [arrives]
  rfl

/-- For a text that it receives, the proxy tells well-formed requests from others exactly when, if
the text is well-formed, the host header is its first line and its port is read as such, and, if it
is not, the scans find their spaces and the checks do not let it through. -/
theorem accepts_well_formed {chunks : List Chunk} (arrives : receive chunks 0 [] = .ok text)
    (named : ∀ request : Request, request.bytes = text → resolves request.host = true) :
    Decides resolves chunks text ↔
      (∀ request : Request, request.bytes = text →
        request.HostFirst ∧ request.PortReadable resolves) ∧
      (¬WellFormed text → Scannable resolves text ∧ ¬Passes resolves text) := by
  obtain ⟨received, _, sized, isText⟩ := receive_eq_ok.mp arrives
  have buffered : Buffered text := isText ▸ buffered_of_sized sized
  unfold Decides
  rw [serve_eq arrives]
  constructor
  · rintro (⟨⟨host, port, contacted⟩, wellFormed⟩ | ⟨answered, malformed⟩)
    · refine ⟨?_, fun malformed => absurd wellFormed malformed⟩
      rintro request rfl
      rw [parse_request buffered] at contacted
      split at contacted
      · rename_i both
        exact ⟨both.2, (uriAccepted_iff request (named request rfl)).mp both.1⟩
      · cases contacted
    · refine ⟨fun request isRequest => absurd ⟨request, isRequest⟩ malformed, fun _ => ?_⟩
      exact (parse_badRequest_iff buffered).mp answered
  · rintro ⟨good, others⟩
    by_cases wellFormed : WellFormed text
    · left
      refine ⟨?_, wellFormed⟩
      obtain ⟨request, rfl⟩ := wellFormed
      obtain ⟨first, readable⟩ := good request rfl
      have accepted := (uriAccepted_iff request (named request rfl)).mpr readable
      rw [parse_request buffered, if_pos ⟨accepted, first⟩]
      exact ⟨_, _, rfl⟩
    · exact .inr ⟨(parse_badRequest_iff buffered).mpr (others wellFormed), wellFormed⟩

end Deciding

/-! ### Two requests -/

/-- A request for the root of host `a`. -/
def rootRequest (port : Option (List Byte))
    (portDigits : ∀ text ∈ port, text ≠ [] ∧ ∀ c ∈ text, isDigit c = true) : Request where
  host := ascii ['a']
  port := port
  path := some []
  major := 0x31
  minor := 0x30
  headers := [hostHeader ++ ascii ['a']]
  hasHost := by decide
  hostChars := by
    intro c member
    obtain rfl := List.mem_singleton.mp member
    decide
  portDigits := portDigits
  pathChars := by
    intro text isPath c member
    cases isPath
    cases member
  versionDigits := by decide
  lines := by
    intro line member
    obtain rfl := List.mem_singleton.mp member
    decide
  hostLine := ⟨ascii ['a'], List.mem_singleton.mpr rfl, 0x61, List.mem_cons_self, by decide⟩

def plainRequest : Request := rootRequest none (by intro text isPort; cases isPort)

theorem eighty_digits : ∀ text ∈ some (ascii ['8', '0']),
    text ≠ [] ∧ ∀ c ∈ text, isDigit c = true := by
  intro text isPort
  cases isPort
  exact ⟨by decide, List.all_eq_true.mp (by decide)⟩

def portRequest : Request := rootRequest (some (ascii ['8', '0'])) eighty_digits

def plainChunk : Chunk := ⟨plainRequest.bytes, by decide, by decide⟩

def portChunk : Chunk := ⟨portRequest.bytes, by decide, by decide⟩

/-- A request without a port is told from malformed ones. -/
theorem accepts_plain_request :
    Decides (fun _ => true) [plainChunk] plainRequest.bytes ∧
      ∀ request : Request, request.bytes = plainRequest.bytes →
        request.HostFirst ∧ request.PortReadable fun _ => true := by
  have arrives : receive [plainChunk] 0 [] = .ok plainRequest.bytes := by decide +kernel
  have accepted : UriAccepted (fun _ => true) plainRequest.uri := by decide
  have decides : Decides (fun _ => true) [plainChunk] plainRequest.bytes := by
    left
    refine ⟨?_, plainRequest, rfl⟩
    rw [serve_eq arrives, parse_request ⟨by decide, by decide⟩, if_pos ⟨accepted, by decide⟩]
    exact ⟨_, _, rfl⟩
  exact ⟨decides, ((accepts_well_formed arrives fun _ _ => rfl).mp decides).1⟩

/-- A well-formed request with a port and a path gets the 400 response, although its host
resolves. -/
theorem port_before_path_refused :
    receive [portChunk] 0 [] = .ok portRequest.bytes ∧ WellFormed portRequest.bytes ∧
      serve (fun _ => true) [portChunk] = .ok .badRequest ∧
      ¬Decides (fun _ => true) [portChunk] portRequest.bytes := by
  have arrives : receive [portChunk] 0 [] = .ok portRequest.bytes := by decide +kernel
  have refused : ¬UriAccepted (fun _ => true) portRequest.uri := by decide
  have answered : serve (fun _ => true) [portChunk] = .ok .badRequest := by
    rw [serve_eq arrives, parse_request ⟨by decide, by decide⟩, if_neg fun both => refused both.1]
  refine ⟨arrives, ⟨portRequest, rfl⟩, answered, ?_⟩
  rintro (⟨⟨host, port, contacted⟩, _⟩ | ⟨_, malformed⟩)
  · rw [answered] at contacted
    cases contacted
  · exact malformed ⟨portRequest, rfl⟩

end EE323.Proxy

/-
Module: EE323.Proxy.Extraction
Purpose: The host and the port that the proxy takes from a URI.  It counts colons over the whole URI
  and cuts it at the second one, so a colon of the path can become the one in front of the port, and
  a port is read with the path behind it.
Main exports: HttpUri, HttpUri.CutRight, Extracts, extracts_iff, extracts_host_and_port,
  port_with_path_not_extracted
-/
import EE323.Proxy.Accepting

namespace EE323.Proxy

open EE323.Lib

/-- A URI of one of the four forms, with or without a port and with or without a path. -/
structure HttpUri where
  host : List Byte
  port : Option (List Byte)
  path : Option (List Byte)
  hasHost : host ≠ []
  hostChars : ∀ c ∈ host, c ∉ [colon, slash, space]
  portDigits : ∀ digits ∈ port, digits ≠ [] ∧ ∀ c ∈ digits, isDigit c = true
  pathChars : ∀ text ∈ path, space ∉ text

namespace HttpUri

def bytes (uri : HttpUri) : List Byte :=
  httpScheme ++ (uri.host ++ ((uri.port.elim [] fun digits => colon :: digits) ++
    (uri.path.elim [] fun text => slash :: text)))

/-- The port, with its default. -/
def portNumber (uri : HttpUri) : List Byte := uri.port.getD (ascii ['8', '0'])

/-- There is no path, or there is no port and the path does not have one colon alone, or has the
default port behind it. -/
def CutRight (uri : HttpUri) : Prop :=
  match uri.port, uri.path with
  | _, none => True
  | none, some path =>
      path.count colon = 1 → (path.dropWhile (· ≠ colon)).drop 1 = ascii ['8', '0']
  | some _, some _ => False

end HttpUri

/-- The parser goes on to the version with this host and port, whatever comes before and behind the
URI. -/
def Extracts (resolves : List Byte → Bool) (uri host port : List Byte) : Prop :=
  ∃ kept, kept ≠ [] ∧ ∀ totalBuf walk method,
    parseUri resolves totalBuf walk method uri =
      parseHeaders totalBuf (walk + 1) method kept host port

section Extracting

variable {resolves : List Byte → Bool}

/-- A space and the start of a request behind it. -/
private def sample : List Byte := ascii " HTTP/1.0\r\nHost: a".toList

/-- The parser extracts what it finds, from the URIs that it accepts. -/
theorem extracts_iff {uri host port : List Byte} (short : uri.length < maxDataSize) :
    Extracts resolves uri host port ↔
      UriAccepted resolves uri ∧ hostOf uri = host ∧ (uriAndPort uri).2 = port := by
  unfold Extracts
  constructor
  · rintro ⟨kept, hasUri, extracts⟩
    have sampled (kept host port : List Byte) (hasUri : kept ≠ []) :
        parseHeaders sample 1 getMethod kept host port = .ok (.contact host port) := by
      have buffered : Buffered sample := ⟨by decide, by decide⟩
      have split : sample = [space] ++ sample.drop 1 := by decide
      have fits : [space].length + 8 < maxDataSize ∧
          ((sample.drop 1).getD 8 0 = carriageReturn → [space].length + 10 < maxDataSize) := by
        decide
      have accepted : RestAccepted (sample.drop 1) := by decide
      have parsed := @parseHeaders_eq sample getMethod kept _ _ host port buffered split (by decide)
        hasUri
      rw [if_pos fits, if_pos accepted] at parsed
      exact parsed
    have here := extracts sample 0 getMethod
    rw [parseUri_eq short, sampled _ _ _ hasUri] at here
    by_cases refused : ¬UriAccepted resolves uri
    · rw [if_pos refused] at here
      cases here
    · have accepted := not_not.mp refused
      rw [if_neg refused, sampled _ _ _ (uriAndPort_ne_nil accepted.1)] at here
      obtain ⟨sameHost, samePort⟩ := Verdict.contact.inj (Except.ok.inj here)
      exact ⟨accepted, sameHost, samePort⟩
  · rintro ⟨accepted, rfl, rfl⟩
    refine ⟨(uriAndPort uri).1, uriAndPort_ne_nil accepted.1, fun totalBuf walk method => ?_⟩
    rw [parseUri_eq short, if_neg (not_not.mpr accepted)]

/-- Where the URI is cut decides what is extracted. -/
theorem extracts_of_cut {uri text host port portText : List Byte} (short : uri.length < maxDataSize)
    (isHttp : httpScheme <+: uri) (cut : uriAndPort uri = (httpScheme ++ text, portText))
    (known : resolves host = true) :
    Extracts resolves uri host port ↔
      portText.all isDigit = true ∧ text.takeWhile (· ≠ slash) = host ∧ portText = port := by
  rw [extracts_iff short, uriAccepted_of_cut isHttp cut, hostOf_eq cut, cut]
  constructor
  · exact fun extracted => ⟨extracted.1.1, extracted.2⟩
  · rintro ⟨allDigits, rfl, samePort⟩
    exact ⟨⟨allDigits, known⟩, rfl, samePort⟩

/-- From a URI in the buffer with a host that resolves, the parser takes the host and the port
exactly when there is no path, or no port and a path whose colons do not cut the URI. -/
theorem extracts_host_and_port (uri : HttpUri) (known : resolves uri.host = true)
    (short : uri.bytes.length < maxDataSize) :
    Extracts resolves uri.bytes uri.host uri.portNumber ↔ uri.CutRight := by
  have noColon : colon ∉ uri.host := fun member => uri.hostChars _ member (by decide)
  have noSlash : slash ∉ uri.host := fun member => uri.hostChars _ member (by decide)
  have alone := takeWhile_slash noSlash (.inl rfl)
  rw [List.append_nil] at alone
  have isHttp (text : List Byte) : httpScheme <+: httpScheme ++ text := List.prefix_append _ _
  have isDefault : (ascii ['8', '0']).all isDigit = true := by decide
  unfold HttpUri.bytes at short ⊢
  unfold HttpUri.portNumber HttpUri.CutRight
  cases hasPort : uri.port with
  | none =>
      cases hasPath : uri.path with
      | none =>
          simp only [hasPort, hasPath, Option.elim_none, List.append_nil, Option.getD_none] at short ⊢
          rw [extracts_of_cut short (isHttp _) (cut_host noColon) known, alone]
          simp [isDefault]
      | some path =>
          simp only [hasPort, hasPath, Option.elim_none, Option.elim_some, List.nil_append,
            Option.getD_none] at short ⊢
          obtain ⟨text, port, cut, isHost, isPort⟩ := @cut_path uri.host path noColon noSlash
          rw [extracts_of_cut short (isHttp _) cut known, isHost, isPort]
          split
          · rename_i one
            constructor
            · exact fun extracted _ => extracted.2.2
            · intro behind
              rw [behind one]
              exact ⟨isDefault, rfl, rfl⟩
          · rename_i other
            simp [other, isDefault]
  | some digits =>
      obtain ⟨_, allDigits⟩ := uri.portDigits digits hasPort
      cases hasPath : uri.path with
      | none =>
          simp only [hasPort, hasPath, Option.elim_none, Option.elim_some, List.append_nil,
            Option.getD_some] at short ⊢
          rw [extracts_of_cut short (isHttp _)
            (uriAndPort_cut noColon (not_mem_digits allDigits).1) known, alone]
          simpa using allDigits
      | some path =>
          simp only [hasPort, hasPath, Option.elim_some, Option.getD_some, iff_false] at short ⊢
          by_cases hasColon : colon ∈ path
          · obtain ⟨text, cut, isHost⟩ := cut_port_path noSlash allDigits hasColon
            rw [extracts_of_cut short (isHttp _) cut known, isHost]
            rintro ⟨_, sameHost, _⟩
            exact noColon (sameHost ▸ List.mem_append_right _ List.mem_cons_self)
          · obtain ⟨port, cut, noDigits⟩ := cut_port_plain_path noColon allDigits hasColon
            rw [extracts_of_cut short (isHttp _) cut known]
            exact fun extracted => noDigits extracted.1

end Extracting

theorem host_a_ne_nil : ascii ['a'] ≠ [] := by decide

/-- A URI of host `a` with a port. -/
def portUri (path : Option (List Byte)) (pathChars : ∀ text ∈ path, space ∉ text) : HttpUri where
  host := ascii ['a']
  port := some (ascii ['8', '0'])
  path := path
  hasHost := host_a_ne_nil
  hostChars := by
    intro c member
    obtain rfl := List.mem_singleton.mp member
    decide
  portDigits := eighty_digits
  pathChars := pathChars

def plainPortUri : HttpUri := portUri none (by intro text isPath; cases isPath)

def rootPortUri : HttpUri :=
  portUri (some []) (by intro text isPath; cases isPath; exact List.not_mem_nil)

/-- A port at the end of the URI is found. -/
theorem extracts_port_at_end :
    Extracts (fun _ => true) plainPortUri.bytes plainPortUri.host plainPortUri.portNumber :=
  (extracts_host_and_port plainPortUri rfl (by decide)).mpr trivial

/-- A port with the root path behind it is not, and the request gets the 400 response. -/
theorem port_with_path_not_extracted :
    rootPortUri.bytes = ascii "http://a:80/".toList ∧
      ¬Extracts (fun _ => true) rootPortUri.bytes rootPortUri.host rootPortUri.portNumber ∧
      parse (fun _ => true)
          (getMethod ++ space :: rootPortUri.bytes ++ ascii " HTTP/1.0\r\nHost: a\r\n\r\n".toList) =
        .ok .badRequest := by
  have refused : ¬UriAccepted (fun _ => true) rootPortUri.bytes := by decide
  refine ⟨by decide, ?_, by decide +kernel⟩
  intro extracts
  exact refused ((extracts_iff (by decide)).mp extracts).1

end EE323.Proxy

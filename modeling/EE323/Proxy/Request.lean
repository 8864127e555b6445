/-
Module: EE323.Proxy.Request
Purpose: How the proxy of `proxy.c` receives a request and parses it.  The `char` arrays have
  `MAXDATASIZE` elements and every index is checked; `totalBuf` is zero behind the bytes received.
  The name lookup is a parameter.
Main exports: maxDataSize, Chunk, receive, Verdict, parseHeaders, parseUri, parse, serve
-/
import EE323.Lib.CString
import EE323.Lib.Delimited
import EE323.Lib.Ensures

namespace EE323.Proxy

open EE323.Lib

/-- `MAXDATASIZE`. -/
def maxDataSize : Nat := 1024 * 5

/-- The bytes of a text in ASCII. -/
def ascii (text : List Char) : List Byte := text.map Char.toUInt8

def space : Byte := 0x20

def colon : Byte := 0x3a

def slash : Byte := 0x2f

/-- An index outside an array. -/
inductive Fault where
  | read
  | write
deriving DecidableEq, Repr

/-- Read an element of `totalBuf`. -/
def readAt (totalBuf : List Byte) (index : Nat) : Except Fault Byte :=
  if index < maxDataSize then .ok (totalBuf.getD index 0) else .error .read

/-- Read the element of `totalBuf` that lies `back` before the end. -/
def readBack (totalBuf : List Byte) (numTot back : Nat) : Except Fault Byte :=
  if back ≤ numTot then readAt totalBuf (numTot - back) else .error .read

/-- `strcpy` of a string into an array. -/
def strcpy (source : List Byte) : Except Fault (List Byte) :=
  if source.length < maxDataSize then .ok source else .error .write

/-- `strcat` onto the string in an array. -/
def strcat (dest source : List Byte) : Except Fault (List Byte) :=
  if dest.length + source.length < maxDataSize then .ok (dest ++ source) else .error .write

/-! ### Receiving -/

/-- What one call of `recv` returns. -/
structure Chunk where
  bytes : List Byte
  nonempty : bytes ≠ []
  fits : bytes.length ≤ maxDataSize - 1

/-- The test for the end of the request, which looks at the last three bytes. -/
def endsRequest (totalBuf : List Byte) (numTot : Nat) : Except Fault Bool := do
  if (← readBack totalBuf numTot 1) ≠ lineFeed then .ok false
  else if (← readBack totalBuf numTot 2) ≠ carriageReturn then .ok false
  else if (← readBack totalBuf numTot 3) ≠ lineFeed then .ok false
  else .ok true

/-- The receive loop.  The chunks end when the client closes. -/
def receive : List Chunk → Nat → List Byte → Except Fault (List Byte)
  | [], _, totalBuf => .ok totalBuf
  | readBuf :: rest, numTot, totalBuf => do
      let numTot := numTot + readBuf.bytes.length
      let totalBuf ← strcat totalBuf (cString readBuf.bytes)
      if ← endsRequest totalBuf numTot then .ok totalBuf else receive rest numTot totalBuf

/-! ### Parsing -/

/-- The scanning loop for the method and the URI, with the place of the space that ends it. -/
def scanWord (totalBuf : List Byte) (walk : Nat) : Except Fault (List Byte × Nat) :=
  match copyTo maxDataSize 0 space totalBuf (maxDataSize - walk) walk 0 with
  | some scanned => .ok scanned
  | none => .error .read

/-- The URI up to its second colon, and what follows that colon. -/
def splitPort (uri : List Byte) : List Byte × List Byte :=
  let first := uri.takeWhile (· ≠ colon)
  let rest := (uri.dropWhile (· ≠ colon)).drop 1
  (first ++ colon :: rest.takeWhile (· ≠ colon), (rest.dropWhile (· ≠ colon)).drop 1)

/-- The URI and the port after the port was cut off, which happens when there are two colons. -/
def uriAndPort (uri : List Byte) : List Byte × List Byte :=
  if uri.count colon = 2 then splitPort uri else (uri, ascii ['8', '0'])

/-- `isdigit`. -/
def isDigit (c : Byte) : Bool := 0x30 ≤ c ∧ c ≤ 0x39

/-- The loop that copies the version. -/
def copyBytes (totalBuf : List Byte) : Nat → Nat → Except Fault (List Byte)
  | 0, _ => .ok []
  | count + 1, walk => do
      let c ← readAt totalBuf walk
      let rest ← copyBytes totalBuf count (walk + 1)
      .ok (c :: rest)

/-- `strcpy` of the rest of `totalBuf`. -/
def strcpyFrom (totalBuf : List Byte) (walk : Nat) : Except Fault (List Byte) :=
  match copyTo maxDataSize 0 0 totalBuf (maxDataSize - walk) walk 0 with
  | some (copied, _) => .ok copied
  | none => .error .read

/-- What the proxy does with a request: the 400 response, or a connection to a host and port. -/
inductive Verdict where
  | badRequest
  | contact (host port : List Byte)
deriving DecidableEq, Repr

def httpScheme : List Byte := ascii ['h', 't', 't', 'p', ':', '/', '/']

def hostHeader : List Byte := ascii ['H', 'o', 's', 't', ':', ' ']

def getMethod : List Byte := ascii ['G', 'E', 'T']

/-- The version and the host header. -/
def parseHeaders (totalBuf : List Byte) (walk : Nat) (method uri host port : List Byte) :
    Except Fault Verdict := do
  let version ← copyBytes totalBuf 8 walk
  let walk := walk + 8
  if (← readAt totalBuf walk) ≠ carriageReturn then .ok .badRequest
  else
    let hostHead ← strcpyFrom totalBuf (walk + 2)
    if ¬hostHeader <+: hostHead then .ok .badRequest
    else if (hostHead.drop 6).all (· = space) then .ok .badRequest
    else if method = [] ∨ uri = [] ∨ cString version = [] ∨ hostHead = [] then .ok .badRequest
    else .ok (.contact host port)

/-- The URI with its port and host. -/
def parseUri (resolves : List Byte → Bool) (totalBuf : List Byte) (walk : Nat)
    (method uri : List Byte) : Except Fault Verdict := do
  if ¬httpScheme <+: uri then .ok .badRequest
  else
    let port ← strcpy (uriAndPort uri).2
    let uri := (uriAndPort uri).1
    if ¬port.all isDigit then .ok .badRequest
    else
      let host ← strcpy (uri.drop 7)
      let host := host.takeWhile (· ≠ slash)
      if ¬resolves host then .ok .badRequest
      else parseHeaders totalBuf (walk + 1) method uri host port

/-- The parsing area.  `strncmp` with a text is a test for a prefix. -/
def parse (resolves : List Byte → Bool) (totalBuf : List Byte) : Except Fault Verdict := do
  let (method, walk) ← scanWord totalBuf 0
  if ¬getMethod <+: method then .ok .badRequest
  else
    let (uri, walk) ← scanWord totalBuf (walk + 1)
    parseUri resolves totalBuf walk method uri

/-- The proxy's reaction to what a client sends. -/
def serve (resolves : List Byte → Bool) (chunks : List Chunk) : Except Fault Verdict := do
  let totalBuf ← receive chunks 0 []
  parse resolves totalBuf

end EE323.Proxy

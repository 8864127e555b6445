/-
Module: EE323.Transfer.Program
Purpose: The file transfer programs `client.c` and `server.c` on top of the mysocket layer.  A line is
  read byte by byte into a fixed buffer; the client asks for the files that it is given on its standard
  input, one after the other, and the server answers with a line and the contents.  The connection
  delivers in order what was written, in pieces of any size.
Main exports: nvtTurn, response, parseReply, Disk, System, clientStep, serverStep, step
-/
import EE323.Lib.Fgets
import EE323.Proxy.Request
import Mathlib.Data.List.DropRight
import Mathlib.Data.Nat.Digits.Defs

namespace EE323.Transfer

open EE323.Lib
open EE323.Proxy (ascii isDigit)

/-! ### Lines -/

def comma : Byte := 0x2c

/-- The end of a line of NVT ASCII. -/
def crlf : List Byte := [carriageReturn, lineFeed]

/-- What one turn of the loop of `get_nvt_line` comes to. -/
inductive Turn where
  | more (line : List Byte) (lastChar : Byte)
  | done (line : List Byte)
  | overflow
deriving DecidableEq, Repr

/-- One turn of the loop of `get_nvt_line`, which `read` gave a byte or the end of the connection.
The buffer has `size` bytes. -/
def nvtTurn (size : Nat) (line : List Byte) (lastChar : Byte) : Option Byte → Turn
  | none => if line.length < size then .done line else .overflow
  | some thisChar =>
      -- the carriage return is in the line already
      if lastChar = carriageReturn ∧ thisChar = lineFeed then .done line.dropLast
      else if line.length < size then .more (line ++ [thisChar]) thisChar
      else .overflow

/-! ### The server -/

/-- The files of the server.  `readable` is what `access` says, and `contents` what `open` finds. -/
structure Disk where
  readable : List Byte → Bool
  contents : List Byte → Option (List Byte)

/-- `%lu`. -/
def decimal (number : Nat) : List Byte :=
  if number = 0 then [0x30] else (Nat.digits 10 number).reverse.map fun digit => UInt8.ofNat (0x30 + digit)

/-- The answer of `process_line`, and the file that is open behind it. -/
def response (disk : Disk) (line : List Byte) : List Byte × Option (List Byte) :=
  if line.isEmpty ∨ ¬disk.readable line then
    (line ++ ascii ",-1,File does not exist or access denied".toList ++ crlf, none)
  else
    match disk.contents line with
    | none => (line ++ ascii ",-1,File could not be opened".toList ++ crlf, none)
    | some contents =>
        (line ++ comma :: decimal contents.length ++ ascii ",Ok".toList ++ crlf, some contents)

/-- Where `do_connection` is: in `get_nvt_line`, before the answer of `process_line`, in the loop of
`process_line` with what is left of the file, or behind `myclose`. -/
inductive Server where
  | request (line : List Byte) (lastChar : Byte)
  | answer (line : List Byte)
  | sending (rest : List Byte)
  | closed
  | crashed
deriving DecidableEq, Repr

/-! ### The client -/

/-- The line that `fgets` read, without the spaces at its end. -/
def requestOf (line : List Byte) : List Byte := (cString line).rdropWhile isSpace

/-- `strrchr`: what stands before and behind the last delimiter. -/
def splitLast (stop : Byte) : List Byte → Option (List Byte × List Byte)
  | [] => none
  | first :: rest =>
      match splitLast stop rest with
      | some (before, after) => some (first :: before, after)
      | none => if first = stop then some ([], rest) else none

/-- The number that digits are. -/
def scanDigits (text : List Byte) : Option Int :=
  let digits := text.takeWhile isDigit
  if digits.isEmpty then none
  else some ((digits.foldl (fun (number : Nat) digit => 10 * number + (digit.toNat - 0x30)) 0 : Nat) : Int)

/-- `sscanf` with `%d`. -/
def scanInt (text : List Byte) : Option Int :=
  match text.dropWhile isSpace with
  | 0x2d :: rest => (scanDigits rest).map fun number => -number
  | 0x2b :: rest => scanDigits rest
  | digits => scanDigits digits

/-- How the client takes the answer of the server. -/
inductive Reply where
  | malformed
  | error
  | length (count : Nat)
  | undefined
deriving DecidableEq, Repr

/-- The number of an answer.  One that is missing, negative or too large for an `int` leaves the
rest of the loop undefined. -/
def Reply.ofNumber : Option Int → Reply
  | some (.negSucc 0) => .error
  | some (.ofNat count) => if count < 0x80000000 then .length count else .undefined
  | _ => .undefined

/-- The line that the server answered with. -/
def parseReply (line : List Byte) : Reply :=
  match splitLast comma line with
  | none => .malformed
  | some (line, _) =>
      match splitLast comma line with
      | none => .malformed
      | some (_, lenstr) => .ofNumber (scanInt lenstr)

/-- Where `loop_until_end` is: before the prompt, in `get_nvt_line`, in the loop that retrieves a
file, or behind `myclose`. -/
inductive Client where
  | prompt
  | reply (line : List Byte) (lastChar : Byte)
  | retrieve (length : Nat) (file : List Byte)
  | closed
  | failed
  | crashed
deriving DecidableEq, Repr

/-! ### Both -/

/-- Both programs, and the bytes on their way.  `saved` has every file that the client wrote. -/
structure System where
  stdin : List Byte
  client : Client
  server : Server
  up : List Byte
  down : List Byte
  saved : List (List Byte)
deriving DecidableEq, Repr

/-- The connection is up, and nothing was asked yet. -/
def start (stdin : List Byte) : System := ⟨stdin, .prompt, .request [] 0, [], [], []⟩

/-- One call of a program, and how many bytes a read returns. -/
inductive Action where
  | client (count : Nat)
  | server (count : Nat)
deriving DecidableEq, Repr

/-- `myread`: it waits for bytes or the end of the connection, and returns what is there or less. -/
def myread (queue : List Byte) (ended : Bool) (maxLen count : Nat) :
    Option (List Byte × List Byte) :=
  if queue.isEmpty then if ended then some ([], []) else none
  else if 0 < count ∧ count ≤ maxLen ∧ count ≤ queue.length then
    some (queue.take count, queue.drop count)
  else none

/-- What `do_connection` does with a line. -/
def Server.takeTurn : Turn → Server
  | .more line lastChar => .request line lastChar
  | .done line => if (cString line).isEmpty then .closed else .answer (cString line)
  | .overflow => .crashed

/-- The next call of the server.  It has 256 bytes for a line, and reads up to 5000 of a file. -/
def serverStep (disk : Disk) (s : System) (count : Nat) : Option System :=
  match s.server with
  | .request line lastChar =>
      (myread s.up (s.client = .closed ∨ s.client = .failed) 1 count).map fun (got, up) =>
        { s with up, server := Server.takeTurn (nvtTurn 256 line lastChar got.head?) }
  | .answer line =>
      let (resp, file) := response disk line
      some { s with
        down := s.down ++ resp
        server := match file with
          | some contents => .sending contents
          | none => .request [] 0 }
  | .sending rest =>
      if rest.isEmpty then some { s with server := .request [] 0 }
      else if 0 < count ∧ count ≤ 5000 ∧ count ≤ rest.length then
        some { s with down := s.down ++ rest.take count, server := .sending (rest.drop count) }
      else none
  | .closed | .crashed => none

/-- What `loop_until_end` does with a line. -/
def Client.takeTurn : Turn → Client
  | .more line lastChar => .reply line lastChar
  | .done line =>
      match parseReply (cString line) with
      | .malformed => .failed
      | .error => .prompt
      | .length count => .retrieve count []
      | .undefined => .crashed
  | .overflow => .crashed

/-- The next call of the client.  It has 1000 bytes for a line, and reads up to 1000 of a file. -/
def clientStep (s : System) (count : Nat) : Option System :=
  match s.client with
  | .prompt =>
      if s.stdin.isEmpty then some { s with client := .closed }
      else
        let (line, stdin) := fgets lineFeed 999 s.stdin
        let request := requestOf line
        if request.length ≤ 1 then some { s with stdin }
        else if request.length + 2 < 1000 then
          some { s with stdin, up := s.up ++ (request ++ crlf), client := .reply [] 0 }
        else some { s with client := .crashed }
  | .reply line lastChar =>
      (myread s.down (s.server = .closed) 1 count).map fun (got, down) =>
        { s with down, client := Client.takeTurn (nvtTurn 1000 line lastChar got.head?) }
  | .retrieve length file =>
      if length = 0 then some { s with saved := s.saved ++ [file], client := .prompt }
      else
        (myread s.down (s.server = .closed) (min length 1000) count).map fun (got, down) =>
          if got.isEmpty then { s with down, client := .failed }
          else { s with down, client := .retrieve (length - got.length) (file ++ got) }
  | .closed | .failed | .crashed => none

def step (disk : Disk) (s : System) : Action → Option System
  | .client count => clientStep s count
  | .server count => serverStep disk s count

end EE323.Transfer

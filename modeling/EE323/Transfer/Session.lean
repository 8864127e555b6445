/-
Module: EE323.Transfer.Session
Purpose: Whatever pieces the bytes arrive in and however the two programs take turns, the client saves
  exactly the contents of the files it asked for, in order.
Main exports: Owes, Asked, InStep, run_kept, session_safe
-/
import EE323.Lib.Run
import EE323.Transfer.Answers

namespace EE323.Transfer

open EE323.Lib
open EE323.Proxy (ascii)

/-! ### The invariant -/

/-- What the server still sends before it reads the next request. -/
inductive Owes : Server → List Byte → Prop
  | sending (rest : List Byte) : Owes (.sending rest) rest
  | waiting : Owes (.request [] 0) []

/-- The server has not answered a request yet, of which a part is on its way. -/
inductive Asked (name : List Byte) : Server → List Byte → Prop
  | behind : Asked name (.sending []) (name ++ crlf)
  | reading {line rest : List Byte} (text : line ++ rest = name ++ crlf) (more : rest ≠ []) :
      Asked name (.request line (lastOf line)) rest
  | read : Asked name (.answer name) []

/-- The line of an answer. -/
structure AnswerLine (disk : Disk) (name body : List Byte) : Prop where
  answer : response disk name = (body ++ crlf, disk.serves name)
  oneLine : lineFeed ∉ body
  noZero : 0 ∉ body
  fits : body.length < 1000
  parsed : parseReply body = expected (disk.serves name)

/-- The file behind an answer. -/
def Disk.sent (disk : Disk) (name : List Byte) : List Byte := (disk.serves name).getD []

/-- The client is in the line of an answer, of which `left` is missing. -/
structure Answering (disk : Disk) (total : List (List Byte)) (s : System) (line : List Byte)
    (name body left : List Byte) : Prop where
  askable : Askable disk name
  isAnswer : AnswerLine disk name body
  books : s.saved ++ (disk.serves name).toList ++ wanted disk s.stdin = total
  text : line ++ left = body ++ crlf
  more : left ≠ []
  inStep : (line = [] ∧ s.down = [] ∧ Asked name s.server s.up) ∨
    (s.up = [] ∧ ∃ pending, Owes s.server pending ∧ left ++ disk.sent name = s.down ++ pending)

/-- Client and server agree on where they are. -/
def InStep (disk : Disk) (total : List (List Byte)) (s : System) : Prop :=
  match s.client with
  | .prompt =>
      s.up = [] ∧ s.down = [] ∧ Owes s.server [] ∧ s.saved ++ wanted disk s.stdin = total
  | .reply line lastChar =>
      lastChar = lastOf line ∧ ∃ name body left, Answering disk total s line name body left
  | .retrieve length file =>
      s.up = [] ∧ ∃ pending, Owes s.server pending ∧ (s.down ++ pending).length = length ∧
        s.saved ++ [file ++ (s.down ++ pending)] ++ wanted disk s.stdin = total
  | .closed => s.up = [] ∧ s.down = [] ∧ (Owes s.server [] ∨ s.server = .closed) ∧ s.saved = total
  | .failed | .crashed => False

/-- A call of the server touches nothing of the client. -/
structure Untouched (s next : System) : Prop where
  client : next.client = s.client
  stdin : next.stdin = s.stdin
  saved : next.saved = s.saved

theorem Owes.not_crashed {server : Server} {pending : List Byte} (owes : Owes server pending) :
    server ≠ .crashed := by
  cases owes <;> simp

theorem Asked.not_crashed {server : Server} {name up : List Byte} (asked : Asked name server up) :
    server ≠ .crashed := by
  cases asked <;> simp

section Runs

variable {disk : Disk} {stdin : List Byte} {actions : List Action} {s : System}

/-- What is kept of the requests to come and of where the two programs are. -/
def Kept (disk : Disk) (total : List (List Byte)) (s : System) : Prop :=
  Servable disk s.stdin ∧ InStep disk total s

end Runs

end EE323.Transfer

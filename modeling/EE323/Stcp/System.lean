/-
Module: EE323.Stcp.System
Purpose: Two STCP endpoints and the network between them.  An action is one step of a transport
  thread, one call of an application, or the hand-over of the oldest datagram on the wire to the
  receive queue of its destination, so a run is an arbitrary interleaving of all of these.
Main exports: Side, System, Action, step, inFlight
-/
import Mathlib.Logic.Function.Basic
import EE323.Lib.Run
import EE323.Stcp.Transport

namespace EE323.Stcp

open EE323.Lib

/-- The active and the passive end. -/
inductive Side where
  | client
  | server
deriving DecidableEq, Repr

namespace Side

def peer : Side → Side
  | client => server
  | server => client

@[simp] theorem peer_peer (side : Side) : side.peer.peer = side := by
  cases side <;> rfl

@[simp] theorem peer_ne (side : Side) : side.peer ≠ side := by
  cases side <;> decide

@[simp] theorem ne_peer (side : Side) : side ≠ side.peer := by
  cases side <;> decide

theorem eq_or_eq_peer (one other : Side) : other = one ∨ other = one.peer := by
  cases one <;> cases other <;> decide

end Side

/-- The endpoints, the datagrams each has put on the wire and its peer has not received, and the
packet that each side's `_network_send` keeps back. -/
structure System where
  endpoint : Side → Endpoint
  wire : Side → List Segment
  copyBuffer : Side → Option Segment

namespace System

def init : System :=
  { endpoint := fun side => Endpoint.init (side = .client)
    wire := fun _ => []
    copyBuffer := fun _ => none }

/-- The segments that a side has sent and that the peer's transport layer has not taken yet,
oldest first. -/
def inFlight (s : System) (side : Side) : List Segment :=
  (s.endpoint side.peer).sock.networkRecvQueue ++ s.wire side

end System

/-- What can happen next. -/
inductive Action where
  /-- The transport thread moves; `rand` is what `rand_r` returns if it sends, `overread` the
  outcome of a checksum verification that runs past its buffer. -/
  | thread (side : Side) (rand : Nat) (overread : Bool)
  /-- The network hands over the oldest datagram sent by a side. -/
  | deliver (sender : Side)
  | write (side : Side) (data : List Byte)
  | read (side : Side) (bufLen : Nat)
  | close (side : Side)
deriving DecidableEq, Repr

/-- The transport thread is in `control_loop` or has left it. -/
def Endpoint.InLoop (e : Endpoint) : Prop := e.pc ≠ .start ∧ e.pc ≠ .handshake ∧ e.pc ≠ .crashed

instance (e : Endpoint) : Decidable e.InLoop := inferInstanceAs (Decidable (_ ∧ _ ∧ _))

/-- The application runs once `stcp_unblock_application` has been called, until it is blocked in
`myclose`. -/
def Endpoint.AppRunning (e : Endpoint) : Prop :=
  e.pc ≠ .start ∧ e.pc ≠ .handshake ∧ e.pc ≠ .crashed ∧ e.appClosed = false

instance (e : Endpoint) : Decidable e.AppRunning :=
  inferInstanceAs (Decidable (_ ∧ _ ∧ _ ∧ _))

namespace Endpoint

def appWrite (e : Endpoint) (data : List Byte) : Endpoint :=
  { e with
    sock := mywrite e.sock data
    history := { e.history with wrote := e.history.wrote ++ data } }

def appRead (e : Endpoint) (bufLen : Nat) : Option Endpoint :=
  (myread e.sock bufLen).map fun (data, sock) =>
    { e with
      sock := sock
      history := { e.history with returned := e.history.returned ++ data } }

def appClose (e : Endpoint) : Endpoint :=
  { e with sock := myclose e.sock, appClosed := true }

/-- The network receive thread enqueues a datagram. -/
def receive (e : Endpoint) (packet : Segment) : Endpoint :=
  { e with sock := { e.sock with networkRecvQueue := e.sock.networkRecvQueue ++ [packet] } }

end Endpoint

namespace System

/-- Replace one endpoint. -/
def update (s : System) (side : Side) (e : Endpoint) : System :=
  { s with endpoint := Function.update s.endpoint side e }

/-- Replace one endpoint after a step of its transport thread and send what the step sends. -/
def transmit (isReliable : Bool) (rand : Nat) (s : System) (side : Side)
    (result : Endpoint × Option Segment) : System :=
  match result.2 with
  | none => s.update side result.1
  | some packet =>
      let sent := networkSend isReliable rand (s.copyBuffer side) packet
      { endpoint := Function.update s.endpoint side result.1
        wire := Function.update s.wire side (s.wire side ++ sent.2)
        copyBuffer := Function.update s.copyBuffer side sent.1 }

/-- One action over a network of the given kind. -/
def step (isReliable : Bool) (s : System) : Action → Option System
  | .thread side rand overread =>
      ((s.endpoint side).threadStep overread).map (s.transmit isReliable rand side)
  | .deliver sender =>
      match s.wire sender with
      | [] => none
      | packet :: rest =>
          some
            { s.update sender.peer ((s.endpoint sender.peer).receive packet) with
              wire := Function.update s.wire sender rest }
  | .write side data =>
      if (s.endpoint side).AppRunning then
        some (s.update side ((s.endpoint side).appWrite data))
      else none
  | .read side bufLen =>
      if (s.endpoint side).AppRunning then
        ((s.endpoint side).appRead bufLen).map (s.update side)
      else none
  | .close side =>
      if (s.endpoint side).AppRunning then
        some (s.update side (s.endpoint side).appClose)
      else none

end System

/-- The segment that a side hands to its network in one action. -/
def System.sends (s : System) (side : Side) : Action → Option Segment
  | .thread actor _ overread =>
      if actor = side then ((s.endpoint side).threadStep overread).bind Prod.snd else none
  | _ => none

/-! ### Schedules for concrete runs -/

/-- A step of a transport thread; if it sends, it sends plainly. -/
def Action.move (side : Side) : Action := .thread side 31 false

/-- One pass through the loop of `control_loop`. -/
def iteration (side : Side) : List Action := List.replicate 4 (.move side)

/-- SYN, SYN-ACK and ACK. -/
def handshakeSchedule : List Action :=
  [.move .client, .deliver .client, .move .server, .deliver .server, .move .client,
    .deliver .client, .move .server]

/-- Runs over the network that delivers every segment once and in order. -/
abbrev ReliableRun (guard : System → Action → Prop) (labels : List Action) (s : System) : Prop :=
  Run (System.step true) guard System.init labels s

/-- Runs over the network that may drop, duplicate and hold back segments. -/
abbrev UnreliableRun (guard : System → Action → Prop) (labels : List Action) (s : System) : Prop :=
  Run (System.step false) guard System.init labels s

end EE323.Stcp

/-
Module: EE323.Stcp.Transport
Purpose: The transport layer of `transport.c`: the connection context, the handshake of
  `transport_init` and the three blocks of `control_loop`.  The transport thread of one endpoint is
  a machine that moves from one blocking call or block to the next; a step sends at most one
  segment.  Log files and the `free` calls are left out.
Main exports: Context, Pc, Endpoint, appDataBlock, networkDataBlock, closeBlock, threadStep
-/
import EE323.Lib.Word
import EE323.Lib.Memory
import EE323.Stcp.Mysock

namespace EE323.Stcp

open EE323.Lib

def RECV_WINDOW_SIZE : Nat := 3072
def MSS : Nat := 536

/-- `CSTATE`. -/
inductive CState where
  | closed
  | listen
  | synSent
  | synRcvd
  | established
  | finWait1
  | finWait2
  | closeWait
  | lastAck
  | closing
deriving DecidableEq, Repr

/-- `context_t`. -/
structure Context where
  done : Bool
  connectionState : CState
  initialSequenceNum : Nat
  swnd : Nat
  swndPrev : Nat
  cwnd : Nat
  recvWin : Nat
  sendBase : Nat
  recvBase : Nat
  nextSeqnum : Nat
  rem : Nat
  buffer : List Byte
  bufferSize : Nat
  newBufferSize : Nat
  ackSize : Nat
  isClient : Bool
deriving Repr

/-- The zeroed context of `transport_init` after `generate_initial_seq_num`. -/
def Context.init (connectionState : CState) : Context :=
  { done := false
    connectionState := connectionState
    initialSequenceNum := 1
    swnd := 0
    swndPrev := 0
    cwnd := 0
    recvWin := 0
    sendBase := 0
    recvBase := 0
    nextSeqnum := 0
    rem := 0
    buffer := []
    bufferSize := 0
    newBufferSize := 0
    ackSize := 0
    isClient := false }

/-- The window set-up at the end of `transport_init`, with the buffer that `control_loop` allocates
on entry. -/
def Context.establish (ctx : Context) (isActive : Bool) : Context :=
  { ctx with
    connectionState := .established
    swnd := MSS
    swndPrev := MSS
    cwnd := MSS
    recvWin := 3072
    sendBase := ctx.initialSequenceNum
    recvBase := ctx.initialSequenceNum
    nextSeqnum := ctx.initialSequenceNum
    rem := sizeSub MSS (sizeSub ctx.initialSequenceNum ctx.initialSequenceNum)
    bufferSize := MSS
    isClient := isActive
    buffer := List.replicate MSS 0 }

/-- `SWND - (next_seqnum - SendBase)`, the expression every update of `rem` evaluates. -/
def Context.window (ctx : Context) : Nat :=
  sizeSub ctx.swnd (sizeSub ctx.nextSeqnum ctx.sendBase)

/-- `next_seqnum` and `rem` after `size` bytes of the new buffer contents have been sent. -/
def Context.sent (ctx : Context) (buffer : List Byte) (size : Nat) : Context :=
  let moved := { ctx with buffer := buffer, nextSeqnum := sizeAdd ctx.nextSeqnum size }
  { moved with rem := moved.window }

/-- The application bytes land at `buffer + next_seqnum - SendBase`, and the payload is copied from
there: the buffer and the payload, unless a copy leaves the block. -/
def Context.fillBuffer (ctx : Context) (data : List Byte) : Option (List Byte × List Byte) :=
  let offset := sizeSub ctx.nextSeqnum ctx.sendBase
  (store ctx.buffer offset data).bind fun buffer =>
    (load buffer offset data.length).map fun payload => (buffer, payload)

/-- Slow start up to four segments, then the increment of congestion avoidance. -/
def nextCwnd (cwnd : Nat) : Nat :=
  if cwnd < 4 * MSS then sizeAdd cwnd MSS else sizeAdd cwnd (MSS * MSS / cwnd)

/-- The window variables after an ACK, in the order in which the source updates them. -/
def Context.acked (ctx : Context) (thAck : Nat) : Context :=
  let ackSize := sizeSub thAck ctx.sendBase
  let cwnd := nextCwnd ctx.cwnd
  let swnd := min cwnd ctx.recvWin
  let moved := { ctx with
    sendBase := thAck
    ackSize := ackSize
    cwnd := cwnd
    swndPrev := ctx.swnd
    swnd := swnd
    newBufferSize := sizeAdd (sizeSub (sizeAdd ctx.bufferSize swnd) ctx.swnd) ackSize }
  { moved with rem := moved.window }

/-- `memcpy(new_buffer, buffer + ACK_size, SWND_prev - ACK_size)` into `SWND` fresh bytes, in the
context after an ACK. -/
def Context.shiftBuffer (ctx : Context) : Option (List Byte) :=
  (load ctx.buffer ctx.ackSize (sizeSub ctx.swndPrev ctx.ackSize)).bind
    (store (List.replicate ctx.swnd 0) 0)

/-- The FIN takes a sequence number of its own. -/
def Context.sentFin (ctx : Context) (next : CState) : Context :=
  let moved := { ctx with
    nextSeqnum := sizeAdd ctx.nextSeqnum 1
    connectionState := next }
  { moved with rem := moved.window }

/-- A FIN from the peer ends the connection at the client and half-closes it at the server. -/
def Context.receivedFin (ctx : Context) : Context :=
  if ctx.isClient then
    { ctx with recvBase := sizeAdd ctx.recvBase 1, connectionState := .closed, done := true }
  else { ctx with recvBase := sizeAdd ctx.recvBase 1, connectionState := .closeWait }

/-- Any ACK in `FIN_WAIT_1` or `LAST_ACK` moves the connection on. -/
def Context.finAcked (ctx : Context) : Context :=
  if ctx.isClient then { ctx with connectionState := .finWait2 }
  else { ctx with connectionState := .closed, done := true }

/-- The SYN of the active side. -/
def Context.synSegment (ctx : Context) : Segment :=
  { thSeq := ctx.initialSequenceNum
    thAck := 0
    thOff := 5
    thFlags := TH_SYN
    thWin := RECV_WINDOW_SIZE
    data := [] }

def Context.dataSegment (ctx : Context) (payload : List Byte) : Segment :=
  { thSeq := trunc32 ctx.nextSeqnum
    thAck := 0
    thOff := 5
    thFlags := 0x00
    thWin := RECV_WINDOW_SIZE
    data := payload }

def Context.finSegment (ctx : Context) : Segment :=
  { thSeq := trunc32 ctx.nextSeqnum
    thAck := 0
    thOff := 0
    thFlags := TH_FIN
    thWin := RECV_WINDOW_SIZE
    data := [] }

/-- The acknowledgement sent in a context that has already counted what it acknowledges. -/
def Context.ackSegment (ctx : Context) (thAck : Nat) : Segment :=
  { thSeq := trunc32 ctx.recvBase
    thAck := trunc32 thAck
    thOff := 0
    thFlags := TH_ACK
    thWin := 0
    data := [] }

/-- Where the transport thread stands. -/
inductive Pc where
  /-- before `transport_init` has sent its SYN -/
  | start
  /-- in `stcp_network_recv` inside the `switch` of `transport_init` -/
  | handshake
  /-- in `stcp_wait_for_event` -/
  | waiting
  /-- before `if (event & APP_DATA)` -/
  | appData (event : Event)
  /-- at the label `next` -/
  | networkData (event : Event)
  /-- before `if (event & APP_CLOSE_REQUESTED)` -/
  | close (event : Event)
  /-- `transport_init` has returned -/
  | exited
  /-- a failed assertion or an access outside an allocated block ended the process -/
  | crashed
deriving DecidableEq, Repr

/-- What an endpoint has done so far, in bytes: written by the application, taken with
`stcp_app_recv`, passed up with `stcp_app_send`, returned by `myread`. -/
structure History where
  wrote : List Byte
  taken : List Byte
  delivered : List Byte
  returned : List Byte
deriving Repr

/-- One end of a connection: its transport thread, its socket context, and whether the application
has called `myclose`. -/
structure Endpoint where
  isActive : Bool
  pc : Pc
  ctx : Context
  sock : MysockContext
  history : History
  appClosed : Bool
deriving Repr

namespace Endpoint

/-- The state of an endpoint when its transport thread starts. -/
def init (isActive : Bool) : Endpoint :=
  { isActive := isActive
    pc := if isActive then .start else .handshake
    ctx := Context.init (if isActive then .closed else .listen)
    sock := MysockContext.init
    history := { wrote := [], taken := [], delivered := [], returned := [] }
    appClosed := false }

/-- The end of the process. -/
def crash (e : Endpoint) : Endpoint := { e with pc := .crashed }

/-- `while (!ctx->done)`: after the last iteration `transport_thread_func` passes an end-of-stream
marker up to the application. -/
def loopEnd (e : Endpoint) : Endpoint :=
  if e.ctx.done then
    { e with pc := .exited, sock := stcpFinReceived e.sock }
  else { e with pc := .waiting }

/-! ### `transport_init` -/

/-- The active side sends its SYN. -/
def sendSyn (e : Endpoint) : Endpoint × Option Segment :=
  ({ e with pc := .handshake, ctx := { e.ctx with connectionState := .synSent } },
    some e.ctx.synSegment)

/-- The three cases of the `switch`, on the header received.  The packet received is changed in
place and sent back. -/
def handshakeBlock (e : Endpoint) (packet : Segment) : Endpoint × Option Segment :=
  match e.ctx.connectionState with
  | .synSent =>
      ({ e with pc := .waiting, ctx := e.ctx.establish e.isActive },
        some
          { packet with
            thAck := trunc32 (packet.thSeq + 1)
            thSeq := packet.thAck })
  | .listen =>
      ({ e with ctx := { e.ctx with connectionState := .synRcvd } },
        some
          { packet with
            thAck := trunc32 (packet.thSeq + 1)
            thSeq := e.ctx.initialSequenceNum })
  | .synRcvd => ({ e with pc := .waiting, ctx := e.ctx.establish e.isActive }, none)
  | _ => (e, none)

/-! ### `control_loop` -/

/-- Put what `stcp_app_recv` returned into the window and send it. -/
def sendData (e : Endpoint) (data : List Byte) (sock : MysockContext) :
    Endpoint × Option Segment :=
  match e.ctx.fillBuffer data with
  | none => (e.crash, none)
  | some (buffer, payload) =>
      ({ e with
          ctx := e.ctx.sent buffer data.length
          sock := sock
          history := { e.history with taken := e.history.taken ++ data } },
        some (e.ctx.dataSegment payload))

/-- `if (event & APP_DATA)`: fill the window from the application.  Nothing is taken while
`rem` is zero. -/
def appDataBlock (e : Endpoint) : Option (Endpoint × Option Segment) :=
  if e.ctx.rem = 0 then some (e, none)
  else
    match stcpAppRecv e.sock (min e.ctx.rem MSS) with
    | none => none
    | some (data, sock) => some (e.sendData data sock)

/-- `header->th_flags == TH_ACK`: move the window and shift the buffer. -/
def processAck (e : Endpoint) (packet : Segment) : Endpoint :=
  let ctx := e.ctx.acked packet.thAck
  match ctx.shiftBuffer with
  | none => e.crash
  | some buffer => { e with ctx := { ctx with buffer := buffer } }

/-- `header->th_flags == TH_FIN`. -/
def processFin (e : Endpoint) (packet : Segment) : Endpoint × Option Segment :=
  ({ e with ctx := e.ctx.receivedFin, sock := stcpFinReceived e.sock },
    some (e.ctx.receivedFin.ackSegment (packet.thSeq + 1)))

/-- Every other segment is taken for data: it is acknowledged and passed up. -/
def processData (e : Endpoint) (packet : Segment) : Endpoint × Option Segment :=
  let ctx := { e.ctx with recvBase := sizeAdd e.ctx.recvBase packet.data.length }
  ({ e with
      ctx := ctx
      sock := stcpAppSend e.sock packet.data
      history := { e.history with delivered := e.history.delivered ++ packet.data } },
    some (ctx.ackSegment (packet.thSeq + packet.data.length)))

/-- The three branches on `th_flags`. -/
def processPacket (e : Endpoint) (packet : Segment) : Endpoint × Option Segment :=
  if packet.IsAck then (e.processAck packet, none)
  else if packet.IsFin then e.processFin packet
  else e.processData packet

/-- The body of `if (event & NETWORK_DATA)` below the two `goto close`. -/
def networkDataBlock (e : Endpoint) (overread : Bool) : Option (Endpoint × Option Segment) :=
  match stcpNetworkRecv e.sock (tcphdrSize + MSS) overread with
  | none => none
  | some .checksumAssertion => some (e.crash, none)
  | some (.received packet sock) => some ({ e with sock := sock }.processPacket packet)

/-- Send the FIN and count it in the sequence space. -/
def sendFin (e : Endpoint) (next : CState) : Endpoint × Option Segment :=
  ({ e with ctx := e.ctx.sentFin next }, some e.ctx.finSegment)

/-- The two branches on the header read in `FIN_WAIT_1` and `LAST_ACK`. -/
def processFinAck (e : Endpoint) (packet : Segment) : Endpoint :=
  if packet.IsAck then { e with ctx := e.ctx.finAcked } else e

/-- In `FIN_WAIT_1` and `LAST_ACK` one header is read from the network. -/
def awaitFinAck (e : Endpoint) (overread : Bool) : Option (Endpoint × Option Segment) :=
  match stcpNetworkRecv e.sock tcphdrSize overread with
  | none => none
  | some .checksumAssertion => some (e.crash, none)
  | some (.received packet sock) => some ({ e with sock := sock }.processFinAck packet, none)

/-- The block at the label `close`. -/
def closeBlock (e : Endpoint) (overread : Bool) : Option (Endpoint × Option Segment) :=
  if e.ctx.isClient then
    match e.ctx.connectionState with
    | .established => some (e.sendFin .finWait1)
    | .finWait1 => e.awaitFinAck overread
    | _ => some (e, none)
  else
    match e.ctx.connectionState with
    | .closeWait => some (e.sendFin .lastAck)
    | .lastAck => e.awaitFinAck overread
    | _ => some (e, none)

/-- Continue at `pc` unless the process has ended. -/
def goto (pc : Pc) (result : Endpoint × Option Segment) : Endpoint × Option Segment :=
  if result.1.pc = .crashed then result else ({ result.1 with pc := pc }, result.2)

/-- Finish the iteration unless the process has ended. -/
def finish (result : Endpoint × Option Segment) : Endpoint × Option Segment :=
  if result.1.pc = .crashed then result else (result.1.loopEnd, result.2)

/-- The next step of the transport thread: the endpoint after it and the segment it sends.  There
is none while the thread blocks, after it has returned, and after a crash. -/
def threadStep (e : Endpoint) (overread : Bool) : Option (Endpoint × Option Segment) :=
  match e.pc with
  | .start => some e.sendSyn
  | .handshake =>
      match stcpNetworkRecv e.sock tcphdrSize overread with
      | none => none
      | some .checksumAssertion => some (e.crash, none)
      | some (.received packet sock) => some ({ e with sock := sock }.handshakeBlock packet)
  | .waiting =>
      match stcpWaitForEvent e.sock with
      | none => none
      | some (event, sock) => some ({ e with pc := .appData event, sock := sock }, none)
  | .appData event =>
      if event.appData then e.appDataBlock.map (goto (.networkData event))
      else some ({ e with pc := .networkData event }, none)
  | .networkData event =>
      if event.networkData then
        if e.ctx.connectionState = .finWait1 ∨ e.ctx.connectionState = .lastAck then
          (e.closeBlock overread).map finish
        else (e.networkDataBlock overread).map (goto (.close event))
      else some ({ e with pc := .close event }, none)
  | .close event =>
      if event.appCloseRequested then (e.closeBlock overread).map finish
      else some (e.loopEnd, none)
  | .exited => none
  | .crashed => none

end Endpoint

end EE323.Stcp

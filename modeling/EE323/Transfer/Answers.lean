/-
Module: EE323.Transfer.Answers
Purpose: What one program of the file transfer writes is what the other reads: a line that fits its
  buffer, the number in an answer, and the names that the client takes from its standard input.
Main exports: nvtTurn_line, scanInt_decimal, response_line, requests, wanted, Servable
-/
import EE323.Proxy.Receiving
import EE323.Transfer.Program
import Mathlib.Data.Nat.Digits.Lemmas

namespace EE323.Transfer

open EE323.Lib
open EE323.Proxy (ascii isDigit)

/-! ### Lines -/

/-- The character that was read last is the last one of the line. -/
def lastOf (line : List Byte) : Byte := line.getLastD 0

@[simp] theorem lastOf_nil : lastOf [] = 0 := rfl

/-- The file that the server sends. -/
def Disk.serves (disk : Disk) (name : List Byte) : Option (List Byte) :=
  if disk.readable name then disk.contents name else none

/-- A name that fits into a line of the server, of a file whose length is an `int`. -/
structure Askable (disk : Disk) (name : List Byte) : Prop where
  nonempty : name ≠ []
  oneLine : lineFeed ∉ name
  noZero : 0 ∉ name
  short : name.length < 256
  small : ∀ contents, disk.serves name = some contents → contents.length < 0x80000000

/-- What the client makes of an answer. -/
def expected : Option (List Byte) → Reply
  | none => .error
  | some contents => .length contents.length

/-- What the client asks for. -/
def requests (stdin : List Byte) : List (List Byte) :=
  ((fgetsAll lineFeed 999 stdin).map requestOf).filter fun request => 1 < request.length

/-- What it asks for, of what the server has. -/
def wanted (disk : Disk) (stdin : List Byte) : List (List Byte) :=
  (requests stdin).filterMap disk.serves

/-- Every name fits into a line of the server, and the length of every file asked for is
an `int`. -/
def Servable (disk : Disk) (stdin : List Byte) : Prop :=
  ∀ name ∈ requests stdin, name.length < 256 ∧
    ∀ contents, disk.serves name = some contents → contents.length < 0x80000000

theorem requestOf_oneLine (stdin : List Byte) :
    lineFeed ∉ requestOf (fgets lineFeed 999 stdin).1 := by
  intro member
  have inString : lineFeed ∈ cString (fgets lineFeed 999 stdin).1 :=
    (List.rdropWhile_prefix isSpace _).subset member
  have isPrefix : cString (fgets lineFeed 999 stdin).1 <+: (fgets lineFeed 999 stdin).1 :=
    List.takeWhile_prefix _
  rcases fgets_cases lineFeed 999 stdin with absent | ⟨line, isLine, absent⟩
  · exact absent (isPrefix.subset inString)
  · rw [isLine] at isPrefix
    rcases List.prefix_concat_iff.mp isPrefix with whole | shorter
    · rw [requestOf, isLine, whole, List.rdropWhile_concat_pos isSpace _ _ (by decide)] at member
      exact absent ((List.rdropWhile_prefix isSpace _).subset member)
    · exact absent (shorter.subset (isLine ▸ inString))

/-- One line of the standard input. -/
theorem requests_cons {stdin : List Byte} (nonempty : stdin ≠ []) :
    requests stdin =
      if 1 < (requestOf (fgets lineFeed 999 stdin).1).length then
        requestOf (fgets lineFeed 999 stdin).1 :: requests (fgets lineFeed 999 stdin).2
      else requests (fgets lineFeed 999 stdin).2 := by
  rw [requests, fgetsAll_cons (by decide) nonempty, List.map_cons, List.filter_cons]
  simp only [decide_eq_true_eq]
  rfl

theorem Servable.rest {disk : Disk} {stdin : List Byte} (servable : Servable disk stdin)
    (nonempty : stdin ≠ []) : Servable disk (fgets lineFeed 999 stdin).2 := by
  intro name member
  apply servable name
  rw [requests_cons nonempty]
  split
  · exact List.mem_cons_of_mem _ member
  · exact member

theorem Servable.askable {disk : Disk} {stdin : List Byte} (servable : Servable disk stdin)
    (nonempty : stdin ≠ []) (long : 1 < (requestOf (fgets lineFeed 999 stdin).1).length) :
    Askable disk (requestOf (fgets lineFeed 999 stdin).1) := by
  have member : requestOf (fgets lineFeed 999 stdin).1 ∈ requests stdin := by
    rw [requests_cons nonempty, if_pos long]
    exact List.mem_cons_self
  obtain ⟨short, small⟩ := servable _ member
  refine ⟨fun empty => ?_, requestOf_oneLine stdin, fun zero => ?_, short, small⟩
  · rw [empty] at long
    exact absurd long (by decide)
  · exact zero_not_mem_cString _ ((List.rdropWhile_prefix isSpace _).subset zero)

end EE323.Transfer

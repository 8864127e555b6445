/-
Module: EE323.Client.SendLoop
Purpose: The send loop of `client.c`.  It reads standard input with `fgets`, keeps the chunk before
  the last in `prev_buf`, and exits at a chunk that starts with a newline behind a chunk that has one.
  What it sends does not depend on where `fgets` cut the lines.
Main exports: sendLoop, upToDouble, flatten_sendLoop, sends_up_to_double_enter
-/
import EE323.Lib.CString
import EE323.Lib.Fgets

namespace EE323.Client

open EE323.Lib

/-- `MAXDATASIZE`. -/
def maxDataSize : Nat := 1024 * 5

/-- `fgets(buf, MAXDATASIZE-1, stdin)`, which leaves one more place for the terminator. -/
def readChunk (stdin : List Byte) : List Byte × List Byte :=
  fgets lineFeed (maxDataSize - 1 - 1) stdin

theorem length_readChunk_left {stdin : List Byte} (nonempty : stdin ≠ []) :
    (readChunk stdin).2.length < stdin.length :=
  length_fgets_left (by decide) nonempty

/-- The loop from the string in `buf`: what it sends until it exits, at the end of the input or at
double enter. -/
def sendLoop (buf stdin : List Byte) : List (List Byte) :=
  let prevBuf := buf
  if _atEnd : stdin = [] then []
  else
    let buf := cString (readChunk stdin).1
    if lineFeed ∈ prevBuf ∧ buf.head? = some lineFeed then []
    else buf :: sendLoop buf (readChunk stdin).2
termination_by stdin.length
decreasing_by exact length_readChunk_left _atEnd

/-! ### Two marks in a row -/

section Double

variable {α : Type _} [DecidableEq α] {mark : α}

/-- A text up to the first mark that another one follows. -/
def upToDouble (mark : α) : List α → List α
  | [] => []
  | first :: rest =>
      if first = mark ∧ rest.head? = some mark then [first] else first :: upToDouble mark rest

theorem upToDouble_append {front : List α} (rest : List α) (noMark : mark ∉ front) :
    upToDouble mark (front ++ rest) = front ++ upToDouble mark rest := by
  induction front with
  | nil => rfl
  | cons first others inductionHypothesis =>
      have notFirst : first ≠ mark := fun same => noMark (by rw [same]; exact List.mem_cons_self)
      show upToDouble mark (first :: (others ++ rest)) = _
      rw [upToDouble, if_neg fun both => notFirst both.1,
        inductionHypothesis fun member => noMark (List.mem_cons_of_mem _ member)]
      rfl

/-- A mark counts whatever follows it. -/
theorem upToDouble_mark (rest : List α) :
    mark :: (upToDouble mark (mark :: rest)).tail = upToDouble mark (mark :: rest) := by
  rw [upToDouble]
  split <;> rfl

theorem upToDouble_mark_other {rest : List α} (other : rest.head? ≠ some mark) :
    (upToDouble mark (mark :: rest)).tail = upToDouble mark rest := by
  rw [upToDouble, if_neg fun both => other both.2, List.tail_cons]

theorem upToDouble_first {before : List α} (after : List α)
    (first : ¬[mark, mark] <:+: before ++ [mark]) :
    upToDouble mark (before ++ mark :: mark :: after) = before ++ [mark] := by
  induction before with
  | nil => exact if_pos ⟨rfl, rfl⟩
  | cons other before inductionHypothesis =>
      have notHere : ¬(other = mark ∧ (before ++ mark :: mark :: after).head? = some mark) := by
        rintro ⟨rfl, next⟩
        apply first
        cases before with
        | nil => exact List.infix_rfl
        | cons second before =>
            obtain rfl : second = other := Option.some.inj next
            exact (List.prefix_append [second, second] (before ++ [second])).isInfix
      show upToDouble mark (other :: (before ++ mark :: mark :: after)) = _
      rw [upToDouble, if_neg notHere,
        inductionHypothesis fun inside => first (List.infix_cons inside)]
      rfl

theorem upToDouble_none {text : List α} (none : ¬[mark, mark] <:+: text) :
    upToDouble mark text = text := by
  induction text with
  | nil => rfl
  | cons first rest inductionHypothesis =>
      have notHere : ¬(first = mark ∧ rest.head? = some mark) := by
        rintro ⟨rfl, next⟩
        obtain ⟨others, rfl⟩ := List.head?_eq_some_iff.mp next
        exact none (List.prefix_append [first, first] others).isInfix
      rw [upToDouble, if_neg notHere, inductionHypothesis fun inside => none (List.infix_cons inside)]

end Double

/-! ### The send loop -/

section Loop

variable {buf stdin : List Byte}

/-- Behind a chunk with a newline the loop goes on as if that newline were still to be sent. -/
theorem flatten_sendLoop (noZero : 0 ∉ stdin) :
    (sendLoop buf stdin).flatten =
      if lineFeed ∈ buf then (upToDouble lineFeed (lineFeed :: stdin)).tail
      else upToDouble lineFeed stdin := by
  have positive : 0 < maxDataSize - 1 - 1 := by decide
  induction stdin using fgets_induction lineFeed positive generalizing buf with
  | nil =>
      rw [sendLoop, dif_pos rfl]
      split <;> rfl
  | call stdin nonempty inductionHypothesis =>
      rw [sendLoop, dif_neg nonempty]
      unfold readChunk
      have some := @fgets_ne_nil _ _ lineFeed _ positive stdin nonempty
      have parts := fgets_append lineFeed (maxDataSize - 1 - 1) stdin
      have ending := fgets_cases lineFeed (maxDataSize - 1 - 1) stdin
      generalize fgets lineFeed (maxDataSize - 1 - 1) stdin = parted at *
      obtain ⟨chunk, left⟩ := parted
      subst parts
      obtain ⟨chunkNoZero, leftNoZero⟩ := not_or.mp (mt List.mem_append.mpr noZero)
      dsimp only
      rw [cString_eq_self chunkNoZero]
      have later := @inductionHypothesis chunk leftNoZero
      -- What the rest of the input gives when the loop does not exit.
      have goesOn : chunk ++ (sendLoop chunk left).flatten = upToDouble lineFeed (chunk ++ left) := by
        rw [later]
        rcases ending with noNewline | ⟨line, rfl, noNewline⟩
        · rw [if_neg noNewline, upToDouble_append left noNewline]
        · rw [if_pos (List.mem_append_right _ List.mem_cons_self), List.append_assoc,
            List.append_assoc, upToDouble_append _ noNewline]
          exact congrArg (line ++ ·) (upToDouble_mark left)
      have start : (chunk ++ left).head? = chunk.head? := by
        obtain ⟨first, rest, rfl⟩ := List.exists_cons_of_ne_nil some
        rfl
      by_cases exits : lineFeed ∈ buf ∧ chunk.head? = Option.some lineFeed
      · obtain ⟨rest, rfl⟩ := List.head?_eq_some_iff.mp exits.2
        rw [if_pos exits, if_pos exits.1]
        rfl
      · rw [if_neg exits, List.flatten_cons, goesOn]
        by_cases behind : lineFeed ∈ buf
        · rw [if_pos behind, upToDouble_mark_other]
          rw [start]
          exact fun isNewline => exits ⟨behind, isNewline⟩
        · rw [if_neg behind]

/-- The client sends the input up to and including the first newline that another one follows, and
the whole input if there is no such newline. -/
theorem sends_up_to_double_enter (noNewline : lineFeed ∉ buf) (noZero : 0 ∉ stdin) :
    (∀ before after, stdin = before ++ lineFeed :: lineFeed :: after →
        ¬[lineFeed, lineFeed] <:+: before ++ [lineFeed] →
        (sendLoop buf stdin).flatten = before ++ [lineFeed]) ∧
      (¬[lineFeed, lineFeed] <:+: stdin → (sendLoop buf stdin).flatten = stdin) := by
  rw [flatten_sendLoop noZero, if_neg noNewline]
  constructor
  · rintro before after rfl first
    exact upToDouble_first after first
  · exact upToDouble_none

/-- Double enter ends the loop, and the second newline is not sent. -/
theorem sends_before_double_enter :
    (sendLoop [] [0x61, lineFeed, lineFeed, 0x62]).flatten = [0x61, lineFeed] :=
  (sends_up_to_double_enter List.not_mem_nil (by decide)).1 [0x61] [0x62] rfl (by decide)

end Loop

end EE323.Client
